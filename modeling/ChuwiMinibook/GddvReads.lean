import ChuwiMinibook.GddvLoops

namespace ChuwiMinibook.GddvReads
open ByteScan Scan GddvTables GddvParser GddvLoops

theorem length_bytesAt {v : Bytes} {i : Int} {n : Nat} (inside : Inside v i n) : (bytesAt v i n).length = n := by
  unfold Inside at inside
  unfold bytesAt
  rw [List.length_take,List.length_drop]
  omega

-- A key item that can be copied takes up at least its lengths.
theorem key_spec {buf : Bytes} (small : buf.length < 2147483648) {address : Int} {key val : Bytes} {endOffset : Int}
    (done : exec buf (keyItem address) 0 = .ok ((key,val),endOffset)) :
    0 ≤ address ∧ 16+val.length ≤ endOffset ∧ address+endOffset ≤ buf.length := by
  unfold keyItem at done
  simp only [word,bind_eq,pure_eq,Scan.bind,moveTo,exec] at done
  split at done
  · rename_i flags
    split at done
    · split at done
      · rename_i keyInside
        split at done
        · split at done
          · split at done
            · rename_i valueInside
              simp only [Except.ok.injEq,Prod.mk.injEq] at done
              obtain ⟨⟨_,rfl⟩,rfl⟩ := done
              rw [length_bytesAt valueInside]
              generalize little (bytesAt buf (address+4) 4) = keylength at *
              generalize little (bytesAt buf (address+toInt (8+(keylength : Int))+4) 4) = vallength at *
              unfold Inside at flags keyInside valueInside
              have first : toInt (8+(keylength : Int)) = 8+keylength := toInt_small (by omega) (by omega)
              rw [first] at valueInside ⊢
              rw [toInt_small (by omega) (by omega)]
              omega
            · cases done
          · cases done
        · cases done
      · cases done
    · cases done
  · cases done

theorem straight_keyItem (address : Int) : Straight (keyItem address) :=
  straight_bind (straight_word _ _) fun _ => straight_bind (straight_word _ _) fun _ =>
    straight_bind (straight_read _ _) fun _ => straight_bind (straight_word _ _) fun _ =>
    straight_bind (straight_word _ _) fun _ => straight_bind (straight_read _ _) fun _ =>
    straight_bind (straight_moveTo _) fun _ => straight_done _

theorem strtok_fault {rest : Bytes} {s : Stop} (stopped : strtok rest = .error s) : s = .fault := by
  unfold strtok at stopped
  split at stopped
  · cases stopped
    rfl
  · split at stopped
    · cases stopped
    · dsimp only at stopped
      split at stopped
      · cases stopped
        rfl
      · cases stopped

theorem bind_stop {α β : Type} {x : Except Stop α} {f : α → Except Stop β} {s : Stop} (stopped : x >>= f = .error s) :
    x = .error s ∨ ∃ a,x = .ok a ∧ f a = .error s := by
  cases x with
  | error t =>
    cases stopped
    exact .inl rfl
  | ok a => exact .inr ⟨a,rfl,stopped⟩

theorem splitKey_fault {key : Bytes} {s : Stop} (stopped : splitKey key = .error s) : s = .fault := by
  unfold splitKey at stopped
  rcases bind_stop stopped with first | ⟨⟨str,rest⟩,_,stopped⟩
  · exact strtok_fault first
  dsimp only at stopped
  split at stopped
  · cases stopped
  split at stopped
  · rcases bind_stop stopped with name | ⟨⟨name,rest⟩,_,stopped⟩
    · exact strtok_fault name
    rcases bind_stop stopped with type | ⟨⟨type,rest⟩,_,stopped⟩
    · exact strtok_fault type
    rcases bind_stop stopped with point | ⟨_,_,stopped⟩
    · exact strtok_fault point
    cases stopped
  split at stopped
  · rcases bind_stop stopped with ns | ⟨⟨ns,rest⟩,_,stopped⟩
    · exact strtok_fault ns
    rcases bind_stop stopped with type | ⟨⟨type,rest⟩,_,stopped⟩
    · exact strtok_fault type
    dsimp only at stopped
    split at stopped
    · rcases bind_stop stopped with point | ⟨_,_,stopped⟩
      · exact strtok_fault point
      cases stopped
    · cases stopped
  · cases stopped

theorem key_copied {buf : Bytes} {fuel : Nat} {address endOffset : Int}
    (done : (parseGddvKey fuel buf address).result = .ok endOffset) :
    ∃ key val,exec buf (keyItem address) 0 = .ok ((key,val),endOffset) := by
  unfold parseGddvKey at done
  cases copied : exec buf (keyItem address) 0 with
  | error s =>
    rw [copied] at done
    cases done
  | ok item =>
    obtain ⟨⟨key,val⟩,endOffset'⟩ := item
    rw [copied] at done
    dsimp only at done
    split at done
    · cases done
    · rename_i path _
      simp only [Scan.run] at done
      cases parsed : exec val (parseValue fuel path (toInt val.length)) 0 with
      | error s =>
        rw [parsed] at done
        cases done
      | ok result =>
        rw [parsed] at done
        simp only [Except.map,Except.ok.injEq] at done
        rw [done]
        exact ⟨key,val,rfl⟩

theorem key_result {buf : Bytes} (small : buf.length < 2147483648) {fuel : Nat} {address endOffset : Int}
    (done : (parseGddvKey fuel buf address).result = .ok endOffset) :
    0 ≤ address ∧ 16 ≤ endOffset ∧ address+endOffset ≤ buf.length := by
  obtain ⟨key,val,copied⟩ := key_copied done
  obtain ⟨start,size,inside⟩ := key_spec small copied
  omega

theorem straight_readHead (address size : Int) : Straight (readHead address size) := by
  unfold readHead
  refine straight_ite (straight_done _) ?_
  refine straight_bind (straight_word _ _) fun _ => straight_ite straight_throw ?_
  refine straight_bind (straight_word _ _) fun _ => straight_bind (straight_word _ _) fun _ => ?_
  refine straight_ite (straight_done _) (straight_bind (straight_word _ _) fun _ => ?_)
  refine straight_ite (straight_done _) (straight_ite (straight_done _) ?_)
  exact straight_bind (straight_read _ _) fun _ => straight_bind (straight_word _ _) fun _ => straight_done _

-- What an accepted header is read from: its fields lie in the buffer, and the version
-- and the flags say which header it is.
structure HeadRead (buf : Bytes) (address size : Int) (head : Head) : Prop where
  long : headerSize ≤ size
  signatureInside : Inside buf address 2
  signature : little (bytesAt buf address 2) = headerSignature
  sizeInside : Inside buf (address+2) 2
  versionInside : Inside buf (address+4) 4
  flagsInside : Inside buf (address+8) 4
  made :
    (little (bytesAt buf (address+4) 4)/16777216 = 1 ∧ head = .plain (little (bytesAt buf (address+2) 2)) size false) ∨
    (little (bytesAt buf (address+4) 4)/16777216 = 2 ∧ little (bytesAt buf (address+8) 4)/compressedFlag % 2 = 1 ∧
      head = .compressed (little (bytesAt buf (address+2) 2))) ∨
    (little (bytesAt buf (address+4) 4)/16777216 = 2 ∧ little (bytesAt buf (address+8) 4)/compressedFlag % 2 ≠ 1 ∧
      Inside buf (address+12) 128 ∧ Inside buf (address+140) 4 ∧
      head = .plain (little (bytesAt buf (address+2) 2)) (toInt (little (bytesAt buf (address+140) 4))) true)

theorem head_fields {buf : Bytes} {address size : Int} {head : Head} {j : Int}
    (read : exec buf (readHead address size) 0 = .ok (head,j)) (accepted : head ≠ .rejected) :
    HeadRead buf address size head ∧ j = 0 := by
  unfold readHead at read
  split at read
  · cases read
    exact absurd rfl accepted
  rename_i long
  simp only [word,bind_eq,pure_eq,Scan.bind,exec] at read
  split at read
  swap
  · cases read
  rename_i signatureInside
  split at read
  · cases read
  rename_i signature
  simp only [exec] at read
  split at read
  swap
  · cases read
  rename_i sizeInside
  split at read
  swap
  · cases read
  rename_i versionInside
  split at read
  · cases read
    exact absurd rfl accepted
  rename_i version
  simp only [exec] at read
  split at read
  swap
  · cases read
  rename_i flagsInside
  have fields := @HeadRead.mk buf address size head (Int.not_lt.mp long) signatureInside (not_not.mp signature) sizeInside
    versionInside flagsInside
  split at read
  · rename_i first
    cases read
    exact ⟨fields (.inl ⟨first,rfl⟩),rfl⟩
  rename_i second
  have two : little (bytesAt buf (address+4) 4)/16777216 = 2 := by
    by_contra other
    exact version ⟨second,other⟩
  split at read
  · rename_i flag
    cases read
    exact ⟨fields (.inr (.inl ⟨two,flag,rfl⟩)),rfl⟩
  rename_i flag
  simp only [exec] at read
  split at read
  swap
  · cases read
  rename_i copied
  split at read
  swap
  · cases read
  rename_i payload
  cases read
  exact ⟨fields (.inr (.inr ⟨two,flag,copied,payload,rfl⟩)),rfl⟩

theorem head_read {buf : Bytes} {address size : Int} {head : Head} (fields : HeadRead buf address size head) :
    exec buf (readHead address size) 0 = .ok (head,0) := by
  obtain ⟨long,signatureInside,signature,sizeInside,versionInside,flagsInside,made⟩ := fields
  unfold readHead
  rw [if_neg (Int.not_lt.mpr long)]
  simp only [word,bind_eq,pure_eq,Scan.bind,exec,if_pos signatureInside,signature,ne_eq,not_true,if_false,if_pos sizeInside,
    if_pos versionInside]
  rcases made with ⟨first,rfl⟩ | ⟨second,flag,rfl⟩ | ⟨second,flag,copied,payload,rfl⟩
  · simp [first,exec,flagsInside]
  · simp [second,exec,flagsInside,flag]
  · simp [second,exec,flagsInside,flag,copied,payload]

-- What a plain header was read from.
theorem head_plain {buf : Bytes} {address size : Int} {headersize : Nat} {payload : Int} {nested : Bool} {j : Int}
    (read : exec buf (readHead address size) 0 = .ok (.plain headersize payload nested,j)) :
    148 ≤ size ∧ Inside buf (address+8) 4 ∧ Inside buf address 2 ∧ little (bytesAt buf address 2) = headerSignature ∧
      (nested = false → payload = size) := by
  obtain ⟨fields,_⟩ := head_fields read nofun
  refine ⟨fields.long,fields.flagsInside,fields.signatureInside,fields.signature,?_⟩
  intro plain
  rcases fields.made with ⟨_,head⟩ | ⟨_,_,head⟩ | ⟨_,_,_,_,head⟩
  · cases head
    rfl
  · cases head
  · cases head
    cases plain

-- What a compressed header was read from.
theorem head_compressed {buf : Bytes} {address size : Int} {headersize : Nat} {j : Int}
    (read : exec buf (readHead address size) 0 = .ok (.compressed headersize,j)) :
    148 ≤ size ∧ little (bytesAt buf address 2) = headerSignature ∧ little (bytesAt buf (address+4) 4)/16777216 = 2 ∧
      little (bytesAt buf (address+8) 4)/compressedFlag % 2 = 1 ∧ headersize = little (bytesAt buf (address+2) 2) := by
  obtain ⟨fields,_⟩ := head_fields read nofun
  rcases fields.made with ⟨_,head⟩ | ⟨second,flag,head⟩ | ⟨_,_,_,_,head⟩
  · cases head
  · cases head
    exact ⟨fields.long,fields.signature,second,flag,rfl⟩
  · cases head

-- A header of version 2 says the same at every size it is accepted with.
theorem head_resized {buf : Bytes} {address size other : Int} {headersize : Nat} {payload : Int} {j : Int}
    (read : exec buf (readHead address size) 0 = .ok (.plain headersize payload true,j)) (long : headerSize ≤ other) :
    exec buf (readHead address other) 0 = .ok (.plain headersize payload true,j) := by
  obtain ⟨fields,rfl⟩ := head_fields read nofun
  refine head_read { fields with long := long,made := ?_ }
  rcases fields.made with ⟨_,head⟩ | flagged | plain
  · cases head
  · exact .inr (.inl flagged)
  · exact .inr (.inr plain)

theorem straight_readItem (f : Frame) (offset : Int) : Straight (readItem f offset) := by
  unfold readItem
  refine straight_ite (straight_bind (straight_word _ _) fun _ => ?_) (straight_done _)
  exact straight_ite (straight_done _) (straight_ite (straight_done _) (straight_done _))

-- Items lie inside the buffer; in version 2 a key stands behind its signature.
theorem item_key {buf : Bytes} {f : Frame} {offset address j : Int}
    (read : exec buf (readItem f offset) 0 = .ok (.key address,j)) :
    f.address+offset ≤ address ∧ address ≤ f.address+offset+2 := by
  unfold readItem at read
  split at read
  · simp only [word,bind_eq,pure_eq,Scan.bind,exec] at read
    split at read
    · split at read
      · simp only [exec,Except.ok.injEq,Prod.mk.injEq,Item.key.injEq] at read
        omega
      · split at read <;> cases read
    · cases read
  · simp only [exec,Except.ok.injEq,Prod.mk.injEq,Item.key.injEq] at read
    omega

theorem item_object {buf : Bytes} {f : Frame} {offset j : Int}
    (read : exec buf (readItem f offset) 0 = .ok (.object,j)) : f.nested = true ∧ Inside buf (f.address+offset) 2 := by
  unfold readItem at read
  split at read
  · rename_i nested
    simp only [word,bind_eq,pure_eq,Scan.bind,exec] at read
    split at read
    · rename_i inside
      exact ⟨nested,inside⟩
    · cases read
  · cases read

theorem andThen_ok {α β : Type} {first : Outcome Vault α} (next : α → Outcome Vault β) {a : α}
    (done : first.result = .ok a) : (andThen first next).result = (next a).result := by
  unfold andThen
  rw [done]

theorem andThen_error {α β : Type} {first : Outcome Vault α} (next : α → Outcome Vault β) {s : Stop}
    (stopped : first.result = .error s) : (andThen first next).result = .error s := by
  unfold andThen
  rw [stopped]

theorem straight_readCompressed (address : Int) (headersize : Nat) (size : Int) :
    Straight (readCompressed address headersize size) :=
  straight_bind (straight_word _ _) fun _ => straight_bind (straight_read _ _) fun _ =>
    straight_bind (straight_read _ _) fun _ => straight_done _

theorem length_store (buf : Bytes) (i : Nat) (content : Bytes) : buf.length ≤ (store buf i content).length := by
  simp only [store,List.length_append,List.length_take,List.length_drop]
  omega

theorem bytesAt_store {buf : Bytes} {i : Nat} (content : Bytes) (inside : i ≤ buf.length) :
    bytesAt (store buf i content) i content.length = content := by
  simp only [bytesAt,store,Int.toNat_natCast,List.append_assoc]
  rw [List.drop_append_of_le_length (by simp [inside]),List.drop_take_self,List.nil_append,
    List.take_append_of_le_length (le_refl _),List.take_length]

theorem bytesAt_store_before {buf : Bytes} {i j n : Nat} (content : Bytes) (before : i+n ≤ j)
    (inside : j ≤ buf.length) : bytesAt (store buf j content) i n = bytesAt buf i n := by
  simp only [bytesAt,store,Int.toNat_natCast,List.append_assoc]
  rw [List.drop_append_of_le_length (by simp; omega),List.take_append_of_le_length (by simp; omega),List.drop_take,
    List.take_take,Nat.min_eq_left (by omega)]

theorem length_store_inside {buf : Bytes} {i : Nat} {content : Bytes} (inside : i+content.length ≤ buf.length) :
    (store buf i content).length = buf.length := by
  simp only [store,List.length_append,List.length_take,List.length_drop]
  omega

theorem bytesAt_store_behind {buf : Bytes} {i j n : Nat} {content : Bytes} (inside : j+content.length ≤ buf.length)
    (behind : j+content.length ≤ i) : bytesAt (store buf j content) i n = bytesAt buf i n := by
  have front : (buf.take j++content).length = j+content.length := by
    simp only [List.length_append,List.length_take]
    omega
  simp only [bytesAt,store,Int.toNat_natCast]
  rw [List.drop_append,front,List.drop_eq_nil_of_le (by omega),List.nil_append,List.drop_drop]
  congr 2
  omega

theorem length_encode (n value : Nat) : (encode n value).length = n := by
  induction n generalizing value with
  | zero => rfl
  | succ n ih => rw [encode,List.length_cons,ih]

theorem little_encode (n value : Nat) : little (encode n value) = value % 256^n := by
  induction n generalizing value with
  | zero => simp [encode,little,Nat.mod_one]
  | succ n ih =>
    have byte : (value % 256).toUInt8.toNat = value % 256 := by simp
    rw [encode,little,ih,byte,Nat.pow_succ',Nat.mod_mul]

theorem little_lt (b : Bytes) : little b < 256^b.length := by
  induction b with
  | nil => simp [little]
  | cons first rest ih =>
    have byte := first.toNat_lt
    rw [little,List.length_cons,Nat.pow_succ']
    omega

-- The header's update in the decompressed buffer: the flag cleared, the size set.
def updated (buf : Bytes) (payload : Nat) : Bytes :=
  let flags := little (bytesAt buf 8 4)
  let flags := if flags/compressedFlag % 2 = 1 then flags-compressedFlag else flags
  store (store buf 8 (encode 4 flags)) 140 (encode 4 payload)

section Updated
variable {buf : Bytes} (long : 144 ≤ buf.length) (payload : Nat)
include long

theorem updated_length : (updated buf payload).length = buf.length := by
  have first (flags : Nat) : (store buf 8 (encode 4 flags)).length = buf.length :=
    length_store_inside (by rw [length_encode]; omega)
  unfold updated
  dsimp only
  rw [length_store_inside (by rw [first,length_encode]; omega),first]

theorem updated_kept {i n : Nat} (kept : i+n ≤ 8 ∨ 144 ≤ i) : bytesAt (updated buf payload) i n = bytesAt buf i n := by
  have first (flags : Nat) : (store buf 8 (encode 4 flags)).length = buf.length :=
    length_store_inside (by rw [length_encode]; omega)
  unfold updated
  dsimp only
  rcases kept with before | behind
  · rw [bytesAt_store_before _ (by omega) (by rw [first]; omega),bytesAt_store_before _ before (by omega)]
  · rw [bytesAt_store_behind (by rw [first,length_encode]; omega) (by rw [length_encode]; omega),
      bytesAt_store_behind (by rw [length_encode]; omega) (by rw [length_encode]; omega)]

theorem updated_size : little (bytesAt (updated buf payload) 140 4) = payload % 4294967296 := by
  have first (flags : Nat) : (store buf 8 (encode 4 flags)).length = buf.length :=
    length_store_inside (by rw [length_encode]; omega)
  have placed (flags : Nat) : bytesAt (store (store buf 8 (encode 4 flags)) 140 (encode 4 payload)) 140 (encode 4 payload).length =
      encode 4 payload := bytesAt_store _ (by rw [first]; omega)
  unfold updated
  dsimp only
  rw [length_encode] at placed
  exact (congrArg little (placed _)).trans (little_encode 4 payload)

theorem updated_flag : little (bytesAt (updated buf payload) 8 4)/compressedFlag % 2 = 0 := by
  have four : (bytesAt buf 8 4).length = 4 := length_bytesAt (by unfold Inside; omega)
  have bound := little_lt (bytesAt buf 8 4)
  rw [four] at bound
  unfold updated
  dsimp only
  generalize cleared : (if little (bytesAt buf 8 4)/compressedFlag % 2 = 1 then
    little (bytesAt buf 8 4)-compressedFlag else little (bytesAt buf 8 4)) = flags
  have clear : flags < 4294967296 ∧ flags/compressedFlag % 2 = 0 := by
    unfold compressedFlag at *
    split at cleared <;> omega
  have placed := bytesAt_store (encode 4 flags) (show 8 ≤ buf.length by omega)
  rw [length_encode] at placed
  have first : (store buf 8 (encode 4 flags)).length = buf.length := length_store_inside (by rw [length_encode]; omega)
  have kept : bytesAt (store (store buf 8 (encode 4 flags)) 140 (encode 4 payload)) 8 4 = encode 4 flags :=
    (bytesAt_store_before (i := 8) (n := 4) (encode 4 payload) (by omega) (by rw [first]; omega)).trans placed
  rw [kept,little_encode,Nat.mod_eq_of_lt (show flags < 256^4 by omega)]
  exact clear.2

end Updated

-- What handle_compressed_gddv leaves: its header, what was decoded, the rest of
-- the memory, and the update of the header.
theorem unpack_spec (lzma : Lzma) {headersize payload : Nat} {src header : Bytes} (sized : header.length = headersize)
    (room : headersize+(lzmaDecompress lzma src).length ≤ (headersize+payload) % 18446744073709551616)
    (long : 144 ≤ (headersize+payload) % 18446744073709551616) :
    unpack lzma headersize payload src header = .ok (updated (header++(lzmaDecompress lzma src++
      (lzma.fresh ((headersize+payload) % 18446744073709551616)).drop (headersize+(lzmaDecompress lzma src).length))) payload) := by
  have fresh := lzma.fresh_length ((headersize+payload) % 18446744073709551616)
  unfold unpack updated
  dsimp only
  rw [if_neg (by omega)]
  have placed : store (store (lzma.fresh ((headersize+payload) % 18446744073709551616)) headersize
      (lzmaDecompress lzma src)) 0 header = header++(lzmaDecompress lzma src++
        (lzma.fresh ((headersize+payload) % 18446744073709551616)).drop (headersize+(lzmaDecompress lzma src).length)) := by
    have front : (List.take headersize (lzma.fresh ((headersize+payload) % 18446744073709551616))).length = headersize := by
      rw [List.length_take,fresh]
      omega
    rw [store,store,List.take_zero,List.nil_append,Nat.zero_add,sized,List.append_assoc (List.take _ _),
      List.drop_left' front]
  rw [placed]

-- A decoder that decodes nothing, in zeroed memory.
def idle : Lzma where
  decode _ _ := []
  decode_length _ _ := Nat.zero_le _
  fresh n := List.replicate n 0
  fresh_length _ := List.length_replicate

end ChuwiMinibook.GddvReads
