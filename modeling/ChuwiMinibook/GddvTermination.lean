import Mathlib.Data.Finset.Lattice.Prod
import Mathlib.Data.Int.Interval
import ChuwiMinibook.GddvBounds

namespace ChuwiMinibook.GddvTermination
open ByteScan Scan GddvTables GddvParser GddvLoops GddvReads
open GddvBounds (complete places_law KeyFits key_law object_law)

-- Along a key's table the offset never moves back.
def KeyForward (fuel : Nat) (buf : Bytes) (address : Int) : Prop :=
  ∀ key val endOffset path,exec buf (keyItem address) 0 = .ok ((key,val),endOffset) → splitKey key = .ok path →
    Along val forward (parseValue fuel path (toInt val.length)) 0

theorem key_ends {buf : Bytes} (small : buf.length < 2147483648) {fuel : Nat} (enough : buf.length ≤ fuel)
    {address : Int} (onward : KeyForward fuel buf address) : (parseGddvKey fuel buf address).result ≠ .error .hang := by
  unfold parseGddvKey
  cases copied : exec buf (keyItem address) 0 with
  | error s =>
    intro hung
    cases hung
    have ended := straight_ends (v := buf) (straight_keyItem address) 0
    unfold Ends at ended
    exact ended copied
  | ok item =>
    obtain ⟨⟨key,val⟩,endOffset⟩ := item
    obtain ⟨start,size,inside⟩ := key_spec small copied
    dsimp only
    cases path : splitKey key with
    | error s =>
      intro hung
      cases hung
      cases splitKey_fault path
    | ok path' =>
      have room : val.length < fuel := by omega
      have ended := value_ends room path' (by omega) (onward key val endOffset path' copied path)
      unfold Ends at ended
      simp only [Scan.run]
      cases parsed : exec val (parseValue fuel path' (toInt val.length)) 0 with
      | error s =>
        intro hung
        cases hung
        exact ended parsed
      | ok result => simp [Except.map]

-- Where the parse makes progress: an object of version 2 without a header is too
-- short to nest and is not waited for, in no table the offset moves back, what a
-- nested compressed object holds meets a demand of its own, and a loop goes on only
-- behind an object that reported its end, which a compressed one does not.
def progress (lzma : Lzma) (within : Bytes → Int → Prop) : Places where
  object inner buf address size :=
    (∀ headersize j,exec buf (readHead address size) 0 = .ok (.compressed headersize,j) →
      ∀ output,handleCompressedGddv lzma buf address headersize size = .ok output →
        if inner then within output (toInt output.length)
        else output.length < 2147483648 ∨ toInt output.length < headerSize) ∧
    ∀ headersize payload nested j,exec buf (readHead address size) 0 = .ok (.plain headersize payload nested,j) →
      (inner = true → address+headersize < 2147483648) ∧
      (nested = true → headersize = 0 → 0 < payload ∧ payload < headerSize ∨ inner = false ∧ payload ≤ 0)
  item _ _ _ := True
  key := KeyForward
  resume ended := ended ≠ none

-- The compressed objects that are nested in it are orderly themselves, one inside
-- the other to a finite depth.
def Orderly (lzma : Lzma) : Nat → Bytes → Int → Prop
  | 0,_,_ => False
  | depth+1,buf,size => (buf.length < 2147483648 ∨ size < headerSize) ∧
      ∀ fuel,Throughout lzma (progress lzma (Orderly lzma depth)) fuel false buf 0 size

def Uncompressed (buf : Bytes) (address size : Int) : Prop :=
  ∀ headersize j,exec buf (readHead address size) 0 ≠ .ok (.compressed headersize,j)

-- The flag is cleared in the copy, so what is decompressed is not compressed.
theorem unpacked {lzma : Lzma} {headersize payload : Nat} {src header output : Bytes}
    (done : unpack lzma headersize payload src header = .ok output) (size : Int) : Uncompressed output 0 size := by
  unfold unpack at done
  dsimp only at done
  split at done
  · cases done
  rename_i fit
  generalize whole : store (store (lzma.fresh ((headersize+payload) % 18446744073709551616)) headersize
    (lzmaDecompress lzma src)) 0 header = buf at done
  have long : 144 ≤ buf.length := by
    have fresh := lzma.fresh_length ((headersize+payload) % 18446744073709551616)
    have first := length_store (lzma.fresh ((headersize+payload) % 18446744073709551616)) headersize
      (lzmaDecompress lzma src)
    have second := length_store (store (lzma.fresh ((headersize+payload) % 18446744073709551616)) headersize
      (lzmaDecompress lzma src)) 0 header
    rw [whole] at second
    omega
  have copy : output = updated buf payload := (Except.ok.inj done).symm
  intro _ _ read
  obtain ⟨_,_,_,set,_⟩ := head_compressed read
  have clear := updated_flag long payload
  rw [← copy] at clear
  rw [Int.zero_add,clear] at set
  cases set

theorem compressed_result (lzma : Lzma) (buf : Bytes) (address : Int) (headersize : Nat) (size : Int) :
    handleCompressedGddv lzma buf address headersize size ≠ .error .hang ∧
      ∀ output,handleCompressedGddv lzma buf address headersize size = .ok output → ∀ s,Uncompressed output 0 s := by
  unfold handleCompressedGddv
  cases read : exec buf (readCompressed address headersize size) 0 with
  | error s =>
    refine ⟨?_,fun output done => by cases done⟩
    intro hung
    cases hung
    have ended := straight_ends (v := buf) (straight_readCompressed address headersize size) 0
    unfold Ends at ended
    exact ended read
  | ok result =>
    refine ⟨?_,fun output done => unpacked done⟩
    unfold unpack
    dsimp only
    split <;> simp

-- What is decompressed is parsed in the object's place, its end is not reported.
theorem compressed_reports {lzma : Lzma} {buf output : Bytes} {address size : Int} {headersize : Nat} {j : Int} {fuel : Nat}
    (read : exec buf (readHead address size) 0 = .ok (.compressed headersize,j))
    (done : handleCompressedGddv lzma buf address headersize size = .ok output) :
    (parseGddv lzma (fuel+1) buf address size).result =
      (parseGddv lzma fuel output 0 (toInt output.length)).result.map (fun x => (x.1,none)) := by
  conv_lhs => unfold parseGddv
  rw [read]
  dsimp only
  rw [done]
  dsimp only
  cases parsed : (parseGddv lzma fuel output 0 (toInt output.length)).result with
  | error s => rw [andThen_error _ parsed]; rfl
  | ok x => rw [andThen_ok _ parsed]; rfl

-- The size of a version 2 object is an int.
theorem payload_range {buf : Bytes} {address size payload : Int} {headersize : Nat} {j : Int}
    (read : exec buf (readHead address size) 0 = .ok (.plain headersize payload true,j)) :
    -2147483648 ≤ payload ∧ payload < 2147483648 := by
  obtain ⟨fields,_⟩ := head_fields read nofun
  rcases fields.made with ⟨_,head⟩ | ⟨_,_,head⟩ | ⟨_,_,_,_,head⟩
  · cases head
  · cases head
  · cases head
    exact ⟨Int.le_bmod (by decide),Int.bmod_lt (by decide)⟩

section Objects
variable (lzma : Lzma) (within : Bytes → Int → Prop) (buf : Bytes) (spare : Nat)

-- This much fuel is enough for what any nested compressed object holds.
def NestedEnd : Prop := ∀ (address size : Int) headersize j output,0 ≤ address → address ≤ buf.length →
  -4294967296 ≤ size → size ≤ 4294967296 → exec buf (readHead address size) 0 = .ok (.compressed headersize,j) →
  handleCompressedGddv lzma buf address headersize size = .ok output → within output (toInt output.length) →
  ∀ fuel,spare ≤ fuel → (parseGddv lzma fuel output 0 (toInt output.length)).result ≠ .error .hang

-- With this fuel an object comes to an end, behind its start if a loop waits
-- for it.
def ObjectEnds (fuel : Nat) : Prop := ∀ (inner : Bool) (address size : Int),0 ≤ address →
  4*((buf.length : Int)-address).toNat+buf.length+1+spare ≤ fuel →
  (if inner then address ≤ buf.length ∧ -4294967296 ≤ size ∧ size ≤ 4294967296 else Uncompressed buf address size) →
  Throughout lzma (progress lzma within) fuel inner buf address size →
  (parseGddv lzma fuel buf address size).result ≠ .error .hang ∧
    (inner = true → ∀ offset,(parseGddv lzma fuel buf address size).result = .ok (0,some offset) →
      0 < offset ∧ address+offset < 2147483648)

def ItemsEnd (fuel : Nat) : Prop := ∀ (f : Frame) (offset : Int),0 ≤ f.address → 0 ≤ offset →
  (f.nested = true → -2147483648 ≤ f.size ∧ f.size < 2147483648) →
  (if f.nested then 4 else 1)*((buf.length : Int)-(f.address+offset)).toNat+buf.length+2+spare ≤ fuel →
  ThroughoutItems lzma (progress lzma within) fuel buf f offset →
  (parseItems lzma fuel buf f offset).result ≠ .error .hang ∧
    ∀ ended,(parseItems lzma fuel buf f offset).result = .ok (0,ended) → ∃ final,ended = some final ∧
      offset ≤ final ∧ (offset+f.headersize < f.size → offset < final) ∧
      (f.address+offset < 2147483648 → f.address+final < 2147483648)

variable {lzma within buf spare} {fuel : Nat}

-- What ItemsEnd says of the result of a loop.
def Settles (f : Frame) (offset : Int) (r : Except Stop (Int × Option Int)) : Prop :=
  r ≠ .error .hang ∧ ∀ ended,r = .ok (0,ended) → ∃ final,ended = some final ∧ offset ≤ final ∧
    (offset+f.headersize < f.size → offset < final) ∧ (f.address+offset < 2147483648 → f.address+final < 2147483648)

-- One item later the same claims hold of a shorter rest.
theorem items_next {f : Frame} {offset next : Int} (ahead : offset < next) (bounded : f.address+next < 2147483648)
    {r : Except Stop (Int × Option Int)} (rest : Settles f next r) : Settles f offset r := by
  refine ⟨rest.1,?_⟩
  intro ended done
  obtain ⟨final,same,later,_,bound⟩ := rest.2 ended done
  exact ⟨final,same,by omega,by omega,fun _ => bound bounded⟩

section Items
variable {f : Frame} {offset : Int} (start : 0 ≤ f.address) (first : 0 ≤ offset)
  (sized : f.nested = true → -2147483648 ≤ f.size ∧ f.size < 2147483648)
  (enough : (if f.nested then 4 else 1)*((buf.length : Int)-(f.address+offset)).toNat+buf.length+2+spare ≤ fuel+1)
  (items : ItemsEnd lzma within buf spare fuel) {j : Int}
include start first sized enough items

theorem key_settles (small : buf.length < 2147483648) {address : Int}
    (read : exec buf (readItem f offset) 0 = .ok (.key address,j)) (forward : (progress lzma within).key fuel buf address)
    (rest : ∀ endOffset,(parseGddvKey fuel buf address).result = .ok endOffset →
      ThroughoutItems lzma (progress lzma within) fuel buf f (toInt (address-f.address+endOffset))) :
    Settles f offset (andThen (parseGddvKey fuel buf address) (fun endOffset =>
      parseItems lzma fuel buf f (toInt (address-f.address+endOffset)))).result := by
  obtain ⟨from_,to_⟩ := item_key read
  have room : buf.length ≤ fuel := by split at enough <;> omega
  have copied := key_ends small room forward
  cases parsed : (parseGddvKey fuel buf address).result with
  | error s =>
    rw [andThen_error _ parsed]
    refine ⟨?_,fun ended done => by cases done⟩
    intro hung
    cases hung
    exact copied parsed
  | ok endOffset =>
    rw [andThen_ok _ parsed]
    obtain ⟨inside,long,fit⟩ := key_result small parsed
    have next : toInt (address-f.address+endOffset) = address-f.address+endOffset :=
      toInt_small (by omega) (by omega)
    have later := rest endOffset parsed
    rw [next] at later ⊢
    refine items_next (by omega) (by omega) (items f _ start (by omega) sized ?_ later)
    split at enough <;> rename_i nested
    · rw [if_pos nested]
      omega
    · rw [if_neg nested]
      omega

theorem object_settles (small : buf.length < 2147483648) (objects : ObjectEnds lzma within buf spare fuel)
    (read : exec buf (readItem f offset) 0 = .ok (.object,j))
    (forward : Throughout lzma (progress lzma within) fuel true buf (f.address+offset) (f.size-offset))
    (rest : ∀ x,(parseGddv lzma fuel buf (f.address+offset) (f.size-offset)).result = .ok x → x.1 = 0 →
      (progress lzma within).resume x.2 ∧
        ThroughoutItems lzma (progress lzma within) fuel buf f (toInt (offset+x.2.getD 0))) :
    Settles f offset (andThen (parseGddv lzma fuel buf (f.address+offset) (f.size-offset)) (fun x =>
      if x.1 ≠ 0 then ⟨id,.ok (x.1,none)⟩ else parseItems lzma fuel buf f (toInt (offset+x.2.getD 0)))).result := by
  obtain ⟨nested,inside⟩ := item_object read
  unfold Inside at inside
  have range := sized nested
  rw [if_pos nested] at enough
  obtain ⟨ends,waited⟩ := objects true (f.address+offset) (f.size-offset) (by omega) (by omega)
    (by simp only [if_true]; omega) forward
  cases parsed : (parseGddv lzma fuel buf (f.address+offset) (f.size-offset)).result with
  | error s =>
    rw [andThen_error _ parsed]
    exact ⟨fun hung => ends (parsed.trans hung),fun ended done => by cases done⟩
  | ok x =>
    obtain ⟨code,ended⟩ := x
    rw [andThen_ok _ parsed]
    dsimp only
    by_cases success : code = 0
    · subst code
      rw [if_neg (by simp)]
      obtain ⟨reported,later⟩ := rest _ parsed rfl
      obtain ⟨length,rfl⟩ := Option.ne_none_iff_exists'.mp reported
      obtain ⟨positive,bound⟩ := waited rfl length parsed
      have next : toInt (offset+(some length : Option Int).getD 0) = offset+length := by
        rw [Option.getD_some]
        exact toInt_small (by omega) (by omega)
      rw [next] at later ⊢
      refine items_next (by omega) (by omega) (items f _ start (by omega) sized ?_ later)
      rw [if_pos nested]
      omega
    · rw [if_pos success]
      refine ⟨by simp,?_⟩
      intro ended done
      simp only [Except.ok.injEq,Prod.mk.injEq] at done
      exact absurd done.1 success

end Items

theorem items_step (small : buf.length < 2147483648) (objects : ObjectEnds lzma within buf spare fuel)
    (items : ItemsEnd lzma within buf spare fuel) : ItemsEnd lzma within buf spare (fuel+1) := by
  intro f offset start first sized enough onward
  unfold ThroughoutItems at onward
  unfold parseItems
  by_cases more : offset+f.headersize < f.size
  swap
  · rw [if_neg more]
    refine ⟨by simp,?_⟩
    intro ended done
    simp only [Except.ok.injEq,Prod.mk.injEq,true_and] at done
    exact ⟨offset,done.symm,le_refl _,fun less => absurd less more,id⟩
  rw [if_pos more]
  have onward := (onward more).2
  cases read : exec buf (readItem f offset) 0 with
  | error s =>
    refine ⟨?_,fun ended done => by cases done⟩
    intro hung
    cases hung
    have ended := straight_ends (v := buf) (straight_readItem f offset) 0
    unfold Ends at ended
    exact ended read
  | ok result =>
    obtain ⟨item,j⟩ := result
    rw [read] at onward
    cases item with
    | unknown => exact ⟨by simp,fun ended done => by simp [thdError] at done⟩
    | key address => exact key_settles start first sized enough items small read onward.1 onward.2
    | object => exact object_settles start first sized enough items small objects read onward.1 onward.2

-- The header of an object is where its own first item would be when it has no
-- length; such an object meets itself, too short to be taken.
theorem own_header (fuel : Nat) {address payload : Int} {j : Int} (short : payload < headerSize) {size : Int}
    (read : exec buf (readHead address size) 0 = .ok (.plain 0 payload true,j)) (positive : 0 < payload) :
    (parseItems lzma (fuel+2) buf ⟨address,0,payload,true⟩ 0).result = .ok (thdError,none) := by
  obtain ⟨_,_,inside,signature,_⟩ := head_plain read
  have item : exec buf (readItem ⟨address,0,payload,true⟩ 0) 0 = .ok (.object,0) := by
    unfold readItem
    simp only [word,bind_eq,pure_eq,Scan.bind,exec,Int.add_zero,inside,if_true,signature]
    rfl
  have rejected : (parseGddv lzma (fuel+1) buf (address+0) (payload-0)).result = .ok (thdError,none) := by
    unfold parseGddv readHead
    rw [if_pos (by omega)]
    rfl
  unfold parseItems
  rw [if_pos (by simpa using positive),item]
  dsimp only
  rw [andThen_ok _ rejected]
  rfl

-- The items behind a header, and those of version 1, have enough fuel.
theorem plain_settles (items : ItemsEnd lzma within buf spare fuel) {inner : Bool} {address size payload : Int}
    {headersize : Nat} {nested : Bool} {j : Int} (start : 0 ≤ address)
    (enough : 4*((buf.length : Int)-address).toNat+buf.length+1+spare ≤ fuel+1)
    (read : exec buf (readHead address size) 0 = .ok (.plain headersize payload nested,j))
    (bounded : inner = true → address+headersize < 2147483648) (room : headersize ≠ 0 ∨ nested = false)
    (onward : ThroughoutItems lzma (progress lzma within) fuel buf ⟨address,headersize,payload,nested⟩ headersize) :
    (parseItems lzma fuel buf ⟨address,headersize,payload,nested⟩ headersize).result ≠ .error .hang ∧
      (inner = true → ∀ offset,(parseItems lzma fuel buf ⟨address,headersize,payload,nested⟩ headersize).result =
        .ok (0,some offset) → 0 < offset ∧ address+offset < 2147483648) := by
  obtain ⟨large,inside,_,_,version1⟩ := head_plain read
  unfold Inside at inside
  have fits : (if nested then 4 else 1)*((buf.length : Int)-(address+headersize)).toNat+buf.length+2+spare ≤ fuel := by
    rcases room with header | plain
    · split <;> omega
    · rw [plain,if_neg (by simp)]
      omega
  have sized : nested = true → -2147483648 ≤ payload ∧ payload < 2147483648 := by
    rintro rfl
    exact payload_range read
  obtain ⟨ends,ended⟩ := items ⟨address,headersize,payload,nested⟩ headersize start (by omega) sized fits onward
  refine ⟨ends,?_⟩
  intro waited offset done
  obtain ⟨final,same,later,moved,bound⟩ := ended _ done
  cases same
  refine ⟨?_,bound (bounded waited)⟩
  dsimp only at moved
  rcases room with header | plain
  · omega
  · have whole := version1 plain
    by_cases none : headersize = 0
    · exact Int.lt_of_le_of_lt (by omega) (moved (by omega))
    · omega

-- Without a header a version 2 object meets itself and is too short, or has no
-- items at all.
theorem headless_settles {inner : Bool} {address size payload : Int} {j : Int} (enough : 2 ≤ fuel)
    (read : exec buf (readHead address size) 0 = .ok (.plain 0 payload true,j))
    (headless : 0 < payload ∧ payload < headerSize ∨ inner = false ∧ payload ≤ 0) :
    (parseItems lzma fuel buf ⟨address,0,payload,true⟩ 0).result ≠ .error .hang ∧
      (inner = true → ∀ offset,(parseItems lzma fuel buf ⟨address,0,payload,true⟩ 0).result = .ok (0,some offset) →
        0 < offset ∧ address+offset < 2147483648) := by
  rcases headless with ⟨positive,short⟩ | ⟨outer,empty⟩
  · obtain ⟨rest,rfl⟩ : ∃ rest,fuel = rest+2 := ⟨fuel-2,by omega⟩
    rw [own_header rest short read positive]
    exact ⟨by simp,fun _ offset done => by simp [thdError] at done⟩
  · obtain ⟨rest,rfl⟩ : ∃ rest,fuel = rest+1 := ⟨fuel-1,by omega⟩
    have nothing : (parseItems lzma (rest+1) buf ⟨address,0,payload,true⟩ 0).result = .ok (0,some 0) := by
      unfold parseItems
      rw [if_neg (by simp; omega)]
    rw [nothing]
    refine ⟨by simp,?_⟩
    intro waited
    rw [outer] at waited
    cases waited

-- A compressed object that is nested reports the result of what it holds, and no end.
theorem compressed_settles (nest : NestedEnd lzma within buf spare) {inner : Bool} {address size : Int} {headersize : Nat}
    {j : Int} (start : 0 ≤ address) (near : address ≤ buf.length) (enough : spare ≤ fuel)
    (range : -4294967296 ≤ size ∧ size ≤ 4294967296)
    (read : exec buf (readHead address size) 0 = .ok (.compressed headersize,j))
    (demand : ∀ output,handleCompressedGddv lzma buf address headersize size = .ok output → within output (toInt output.length)) :
    (parseGddv lzma (fuel+1) buf address size).result ≠ .error .hang ∧
      (inner = true → ∀ offset,(parseGddv lzma (fuel+1) buf address size).result = .ok (0,some offset) →
        0 < offset ∧ address+offset < 2147483648) := by
  cases done : handleCompressedGddv lzma buf address headersize size with
  | error s =>
    have stopped : (parseGddv lzma (fuel+1) buf address size).result = .error s := by
      unfold parseGddv
      rw [read]
      dsimp only
      rw [done]
    rw [stopped]
    refine ⟨?_,fun _ offset done => by cases done⟩
    intro hung
    cases hung
    exact (compressed_result lzma buf address headersize size).1 done
  | ok output =>
    have ended := nest address size headersize j output start near range.1 range.2 read done (demand output done) fuel enough
    rw [compressed_reports read done]
    cases parsed : (parseGddv lzma fuel output 0 (toInt output.length)).result with
    | error s =>
      refine ⟨?_,fun _ offset taken => by cases taken⟩
      intro hung
      cases hung
      exact ended parsed
    | ok x => exact ⟨by simp [Except.map],fun _ offset taken => by simp [Except.map] at taken⟩

theorem objects_step (nest : NestedEnd lzma within buf spare) (items : ItemsEnd lzma within buf spare fuel) :
    ObjectEnds lzma within buf spare (fuel+1) := by
  intro inner address size start enough placed onward
  unfold Throughout at onward
  obtain ⟨⟨compressed,plain⟩,onward⟩ := onward
  cases read : exec buf (readHead address size) 0 with
  | error s =>
    have stopped : (parseGddv lzma (fuel+1) buf address size).result = .error s := by
      unfold parseGddv
      rw [read]
    rw [stopped]
    refine ⟨?_,fun _ offset done => by cases done⟩
    intro hung
    cases hung
    have ended := straight_ends (v := buf) (straight_readHead address size) 0
    unfold Ends at ended
    exact ended read
  | ok result =>
    obtain ⟨head,j⟩ := result
    cases head with
    | rejected =>
      have stopped : (parseGddv lzma (fuel+1) buf address size).result = .ok (thdError,none) := by
        unfold parseGddv
        rw [read]
      rw [stopped]
      exact ⟨by simp,fun _ offset done => by simp [thdError] at done⟩
    | compressed headersize =>
      cases inner with
      | false => exact absurd read (placed headersize j)
      | true =>
        exact compressed_settles nest start placed.1 (by omega) placed.2 read (compressed headersize j read)
    | plain headersize payload nested =>
      rw [read] at onward
      obtain ⟨bounded,headless⟩ := plain headersize payload nested j read
      have same : (parseGddv lzma (fuel+1) buf address size).result =
          (parseItems lzma fuel buf ⟨address,headersize,payload,nested⟩ headersize).result := by
        conv_lhs => unfold parseGddv
        rw [read]
      rw [same]
      by_cases room : headersize ≠ 0 ∨ nested = false
      · exact plain_settles items start enough read bounded room onward
      · obtain ⟨rfl,version⟩ : headersize = 0 ∧ nested = true := by simpa [not_or] using room
        subst version
        have inside := (head_plain read).2.1
        unfold Inside at inside
        exact headless_settles (by omega) read (headless rfl rfl)

theorem all_end (small : buf.length < 2147483648) (nest : NestedEnd lzma within buf spare) (fuel : Nat) :
    ObjectEnds lzma within buf spare fuel ∧ ItemsEnd lzma within buf spare fuel := by
  induction fuel with
  | zero =>
    refine ⟨?_,?_⟩
    · intro _ _ _ _ enough
      omega
    · intro _ _ _ _ _ enough
      omega
  | succ fuel ih => exact ⟨objects_step nest ih.2,items_step small ih.1 ih.2⟩

end Objects

theorem short_rejected (buf : Bytes) (address : Int) {size : Int} (short : size < headerSize) :
    exec buf (readHead address size) 0 = .ok (.rejected,0) := by
  unfold readHead
  rw [if_pos short]
  rfl

-- From some fuel on the parse comes to an end.
def Settled (lzma : Lzma) (buf : Bytes) (size : Int) : Prop :=
  ∃ least,∀ fuel,least ≤ fuel → (parseGddv lzma fuel buf 0 size).result ≠ .error .hang

section Depth
variable {lzma : Lzma} {within : Bytes → Int → Prop} (ends : ∀ buf size,within buf size → Settled lzma buf size)
include ends

-- There are finitely many places and sizes for a nested object, so one fuel is
-- enough for all that they hold.
theorem nested_end (buf : Bytes) : ∃ spare,NestedEnd lzma within buf spare := by
  have each (place : Int × Int) : ∃ least,∀ headersize j output,
      exec buf (readHead place.1 place.2) 0 = .ok (.compressed headersize,j) →
      handleCompressedGddv lzma buf place.1 headersize place.2 = .ok output → within output (toInt output.length) →
      ∀ fuel,least ≤ fuel → (parseGddv lzma fuel output 0 (toInt output.length)).result ≠ .error .hang := by
    by_cases found : ∃ headersize j output,exec buf (readHead place.1 place.2) 0 = .ok (.compressed headersize,j) ∧
        handleCompressedGddv lzma buf place.1 headersize place.2 = .ok output ∧ within output (toInt output.length)
    · obtain ⟨headersize,j,output,read,done,inner⟩ := found
      obtain ⟨least,ended⟩ := ends _ _ inner
      refine ⟨least,?_⟩
      intro other i result again taken _
      rw [read] at again
      cases again
      rw [done] at taken
      cases taken
      exact ended
    · refine ⟨0,?_⟩
      intro headersize j output read done inner
      exact absurd ⟨headersize,j,output,read,done,inner⟩ found
  choose least settled using each
  refine ⟨(Finset.Icc (0 : Int) buf.length ×ˢ Finset.Icc (-4294967296 : Int) 4294967296).sup least,?_⟩
  intro address size headersize j output start near low high read done inner fuel enough
  have member : (address,size) ∈ Finset.Icc (0 : Int) buf.length ×ˢ Finset.Icc (-4294967296 : Int) 4294967296 :=
    Finset.mem_product.mpr ⟨Finset.mem_Icc.mpr ⟨start,near⟩,Finset.mem_Icc.mpr ⟨low,high⟩⟩
  have bound := Finset.le_sup (f := least) member
  exact settled (address,size) headersize j output read done inner fuel (le_trans bound enough)

theorem plain_ends {buf : Bytes} (small : buf.length < 2147483648) {size : Int} (outer : Uncompressed buf 0 size)
    (onward : ∀ fuel,Throughout lzma (progress lzma within) fuel false buf 0 size) : Settled lzma buf size := by
  obtain ⟨spare,nest⟩ := nested_end ends buf
  refine ⟨4*((buf.length : Int)-0).toNat+buf.length+1+spare,?_⟩
  intro fuel enough
  exact ((all_end small nest fuel).1 false 0 size (le_refl 0) enough outer (onward fuel)).1

omit ends in
theorem short_ends (lzma : Lzma) (buf : Bytes) {size : Int} (short : size < headerSize) : Settled lzma buf size := by
  refine ⟨1,?_⟩
  intro fuel enough
  obtain ⟨rest,rfl⟩ : ∃ rest,fuel = rest+1 := ⟨fuel-1,by omega⟩
  unfold parseGddv
  rw [short_rejected buf 0 short]
  simp

-- A compressed vault is one more parse, of what it holds.
theorem unpacked_ends {buf : Bytes} {size : Int} {headersize : Nat} {j : Int}
    (read : exec buf (readHead 0 size) 0 = .ok (.compressed headersize,j))
    (onward : ∀ fuel,Throughout lzma (progress lzma within) fuel false buf 0 size) : Settled lzma buf size := by
  obtain ⟨copied,clear⟩ := compressed_result lzma buf 0 headersize size
  cases done : handleCompressedGddv lzma buf 0 headersize size with
  | error s =>
    refine ⟨1,?_⟩
    intro fuel enough
    obtain ⟨rest,rfl⟩ : ∃ rest,fuel = rest+1 := ⟨fuel-1,by omega⟩
    unfold parseGddv
    rw [read]
    dsimp only
    rw [done]
    intro hung
    cases hung
    exact copied done
  | ok output =>
    have inside (fuel : Nat) : Throughout lzma (progress lzma within) fuel false output 0 (toInt output.length) := by
      have here := onward (fuel+1)
      unfold Throughout at here
      rw [read] at here
      exact here.2 output done
    have bound : output.length < 2147483648 ∨ toInt output.length < headerSize := by
      have here := onward 1
      unfold Throughout at here
      exact here.1.1 headersize j read output done
    have ended : Settled lzma output (toInt output.length) := by
      rcases bound with small | short
      · exact plain_ends ends small (clear output done _) inside
      · exact short_ends lzma output short
    obtain ⟨least,ended⟩ := ended
    refine ⟨least+1,?_⟩
    intro fuel enough
    obtain ⟨rest,rfl⟩ : ∃ rest,fuel = rest+1 := ⟨fuel-1,by omega⟩
    have parsed := ended rest (by omega)
    rw [compressed_reports read done]
    cases result : (parseGddv lzma rest output 0 (toInt output.length)).result with
    | error s =>
      intro hung
      cases hung
      exact parsed result
    | ok x => simp [Except.map]

end Depth

-- By induction on how deep compressed objects are nested.
theorem orderly_ends {lzma : Lzma} {depth : Nat} : ∀ {buf : Bytes} {size : Int},Orderly lzma depth buf size →
    Settled lzma buf size := by
  induction depth with
  | zero =>
    intro buf size orderly
    exact orderly.elim
  | succ depth ih =>
    intro buf size orderly
    obtain ⟨bound,onward⟩ := orderly
    rcases bound with small | short
    swap
    · exact short_ends lzma buf short
    by_cases outer : ∃ headersize j,exec buf (readHead 0 size) 0 = .ok (.compressed headersize,j)
    · obtain ⟨headersize,j,read⟩ := outer
      exact unpacked_ends (fun _ _ => ih) read onward
    · exact plain_ends (fun _ _ => ih) small (fun headersize j read => outer ⟨headersize,j,read⟩) onward

-- It returns a code or throws, with any fuel that is large enough.
def Finishes (lzma : Lzma) (buf : Bytes) (size : Int) : Prop := ∃ least,∀ fuel,least ≤ fuel →
  (parseGddv lzma fuel buf 0 size).result = .error .thrown ∨ ∃ x,(parseGddv lzma fuel buf 0 size).result = .ok x

-- A vault of version 2: a key, whose table holds one IDSP, and a compressed object
-- that announces five bytes, too short with its header to be an object.
def idspKey : Bytes := ascii "participants/x/idsp" ++ [0]

def idspTable : Bytes := [7,0,0,0,16,0,0,0,0,0,0,0,1,2,3,4,5,6,7,8,9,10,11,12,13,14,15,16]

def idspVault : Bytes := [229,31,148,0,0,0,0,2,0,0,0,0] ++ List.replicate 128 0 ++ [112,1,0,0] ++ List.replicate 4 0 ++
  [216,160,0,0,0,0,20,0,0,0] ++ idspKey ++ [0,0,0,0,28,0,0,0] ++ idspTable ++
  [229,31,140,0,0,0,0,2,0,0,0,64] ++ List.replicate 128 0 ++ [0,0,0,0,0,5,0,0,0,0,0,0,0,0]

theorem idspTable_bytes : little (bytesAt idspTable 0 1) = 7 ∧ little (bytesAt idspTable (0+4) 4) = 16 := by decide

theorem idspTable_forward (fuel : Nat) : Along idspTable forward (idspEntries 28 fuel) 0 := by
  have rest (fuel : Nat) : Along idspTable forward (idspEntries 28 fuel) 28 := by
    cases fuel with
    | zero => simp only [idspEntries,Along]
    | succ fuel =>
      unfold idspEntries
      simp only [position,bind_eq,pure_eq,Scan.bind,Along]
      rw [if_neg (by decide)]
      simp only [Along]
  cases fuel with
  | zero => simp only [idspEntries,Along]
  | succ fuel =>
    obtain ⟨first,length⟩ := idspTable_bytes
    have next : toInt (0+12+toInt ((16 : Nat) : Int)) = 28 := by decide
    unfold idspEntries
    simp only [position,word,moveTo,write,bind_eq,Scan.bind,Along]
    rw [if_pos (by decide),if_neg (by decide)]
    simp only [Along,first,ne_eq,not_true_eq_false,if_false,length,next]
    exact ⟨trivial,fun _ => ⟨show (0 : Int) ≤ 0+4 by decide,trivial,fun _ => ⟨show (0 : Int)+4 ≤ 0+12 by decide,trivial,
      fun _ => ⟨show (0 : Int)+12 ≤ 28 by decide,rest fuel⟩⟩⟩⟩

theorem idspTable_read (fuel : Nat) : exec idspTable (idspEntries 28 fuel) 0 ≠ .error .fault := by
  have rest (fuel : Nat) : exec idspTable (idspEntries 28 fuel) 28 ≠ .error .fault := by
    cases fuel with
    | zero => simp [idspEntries,exec]
    | succ fuel =>
      unfold idspEntries
      simp only [position,bind_eq,Scan.bind,exec]
      rw [if_neg (by decide)]
      simp [exec]
  cases fuel with
  | zero => simp [idspEntries,exec]
  | succ fuel =>
    obtain ⟨first,length⟩ := idspTable_bytes
    have next : toInt (0+12+toInt ((16 : Nat) : Int)) = 28 := by decide
    unfold idspEntries
    simp only [position,word,moveTo,write,bind_eq,Scan.bind,exec]
    rw [if_pos (by decide),if_neg (by decide)]
    simp only [exec,first,ne_eq,not_true_eq_false,if_false,length,next]
    rw [if_pos (by decide),if_pos (by decide),if_pos (by decide)]
    exact rest fuel

-- All that is read from the bytes of the vault.
structure IdspReads : Prop where
  size : idspVault.length = 368
  head : exec idspVault (readHead 0 368) 0 = .ok (.plain 148 368 true,0)
  first : exec idspVault (readItem ⟨0,148,368,true⟩ 148) 0 = .ok (.key 150,0)
  second : exec idspVault (readItem ⟨0,148,368,true⟩ 214) 0 = .ok (.object,0)
  key : exec idspVault (keyItem 150) 0 = .ok ((idspKey,idspTable),64)
  split : splitKey idspKey = .ok ⟨some (ascii "x"),some (ascii "idsp"),none⟩
  object : exec idspVault (readHead 214 154) 0 = .ok (.compressed 140,0)
  unpacked : (handleCompressedGddv idle idspVault 214 140 154).map List.length = .ok 145

theorem idspVault_reads : IdspReads := by constructor <;> decide +kernel

theorem idspVault_unpacks : ∃ output,handleCompressedGddv idle idspVault 214 140 154 = .ok output ∧ output.length = 145 := by
  have sized := idspVault_reads.unpacked
  cases done : handleCompressedGddv idle idspVault 214 140 154 with
  | error s =>
    rw [done] at sized
    cases sized
  | ok output =>
    rw [done] at sized
    exact ⟨output,rfl,Except.ok.inj sized⟩

-- What the compressed object holds is too short.
theorem idspVault_held (buf : Bytes) : exec buf (readHead 0 145) 0 = .ok (.rejected,0) :=
  short_rejected buf 0 (by decide)

theorem idspVault_refused {fuel : Nat} {x : Int × Option Int}
    (done : (parseGddv idle fuel idspVault 214 154).result = .ok x) : x.1 ≠ 0 := by
  obtain ⟨output,unpacked,length⟩ := idspVault_unpacks
  have size : toInt output.length = 145 := by
    rw [length]
    decide
  obtain _ | _ | fuel := fuel
  · unfold parseGddv at done
    cases done
  · rw [compressed_reports idspVault_reads.object unpacked] at done
    unfold parseGddv at done
    cases done
  · rw [compressed_reports idspVault_reads.object unpacked,size] at done
    unfold parseGddv at done
    rw [idspVault_held] at done
    cases done
    decide

-- The places of the vault: itself, its two items, and what the second one holds.
theorem idspVault_places {d : Places} (vault : d.object false idspVault 0 368)
    (items : d.item idspVault ⟨0,148,368,true⟩ 148 ∧ d.item idspVault ⟨0,148,368,true⟩ 214)
    (key : ∀ fuel,d.key fuel idspVault 150) (object : d.object true idspVault 214 154)
    (held : ∀ output,output.length = 145 → d.object false output 0 145) (fuel : Nat) :
    Throughout idle d fuel false idspVault 0 368 := by
  obtain ⟨output,unpacked,length⟩ := idspVault_unpacks
  have size : toInt output.length = 145 := by
    rw [length]
    decide
  have within (fuel : Nat) : Throughout idle d fuel false output 0 145 := by
    unfold Throughout
    cases fuel with
    | zero => trivial
    | succ fuel =>
      dsimp only
      rw [idspVault_held]
      exact ⟨held output length,trivial⟩
  have inner (fuel : Nat) : Throughout idle d fuel true idspVault 214 154 := by
    unfold Throughout
    cases fuel with
    | zero => trivial
    | succ fuel =>
      dsimp only
      rw [idspVault_reads.object]
      refine ⟨object,?_⟩
      intro other done
      rw [unpacked] at done
      cases done
      rw [size]
      exact within fuel
  have behind (fuel : Nat) : ThroughoutItems idle d fuel idspVault ⟨0,148,368,true⟩ 214 := by
    unfold ThroughoutItems
    cases fuel with
    | zero => trivial
    | succ fuel =>
      dsimp only
      intro _
      rw [idspVault_reads.second]
      exact ⟨items.2,inner fuel,fun x done success => absurd success (idspVault_refused done)⟩
  have walk (fuel : Nat) : ThroughoutItems idle d fuel idspVault ⟨0,148,368,true⟩ 148 := by
    unfold ThroughoutItems
    cases fuel with
    | zero => trivial
    | succ fuel =>
      dsimp only
      intro _
      rw [idspVault_reads.first]
      refine ⟨items.1,key fuel,?_⟩
      intro endOffset done
      obtain ⟨_,_,again⟩ := key_copied done
      rw [idspVault_reads.key] at again
      cases again
      exact behind fuel
  unfold Throughout
  cases fuel with
  | zero => trivial
  | succ fuel =>
    dsimp only
    rw [idspVault_reads.head]
    exact ⟨vault,walk fuel⟩

theorem idspKey_table (fuel : Nat) :
    parseValue fuel ⟨some (ascii "x"),some (ascii "idsp"),none⟩ (toInt idspTable.length) = idspEntries 28 fuel := by
  have length : toInt idspTable.length = 28 := by decide
  rw [length]
  rfl

theorem idspVault_onward (fuel : Nat) : KeyForward fuel idspVault 150 := by
  intro key val endOffset path done taken
  rw [idspVault_reads.key] at done
  cases done
  rw [idspVault_reads.split] at taken
  cases taken
  rw [idspKey_table]
  exact idspTable_forward fuel

theorem idspVault_fits (fuel : Nat) : KeyFits idspVault 150 fuel := by
  refine (key_law fuel).mp ?_
  unfold parseGddvKey
  rw [idspVault_reads.key]
  dsimp only
  rw [idspVault_reads.split]
  dsimp only
  rw [idspKey_table]
  intro fault
  exact idspTable_read fuel (map_stop.mp (map_stop.mp fault))

theorem held_progress (within : Bytes → Int → Prop) (buf : Bytes) : (progress idle within).object false buf 0 145 := by
  refine ⟨?_,?_⟩
  · intro headersize j read
    rw [idspVault_held] at read
    cases read
  · intro headersize payload nested j read
    rw [idspVault_held] at read
    cases read

theorem held_orderly {output : Bytes} (length : output.length = 145) : Orderly idle 1 output (toInt output.length) := by
  rw [length]
  refine ⟨.inl (by omega),?_⟩
  intro fuel
  unfold Throughout
  cases fuel with
  | zero => trivial
  | succ fuel =>
    dsimp only
    rw [show toInt ((145 : Nat) : Int) = 145 by decide,idspVault_held]
    exact ⟨held_progress _ output,trivial⟩

theorem idspVault_orderly : Orderly idle 2 idspVault 368 := by
  obtain ⟨output,unpacked,length⟩ := idspVault_unpacks
  refine ⟨.inl (by rw [idspVault_reads.size]; omega),idspVault_places ⟨?_,?_⟩ ⟨trivial,trivial⟩ idspVault_onward ⟨?_,?_⟩
    fun output _ => held_progress _ output⟩
  · intro headersize j read
    rw [idspVault_reads.head] at read
    cases read
  · intro headersize payload nested j read
    rw [idspVault_reads.head] at read
    cases read
    exact ⟨by decide,fun _ none => absurd none (by decide)⟩
  · intro headersize j read other done
    rw [idspVault_reads.object] at read
    cases read
    rw [unpacked] at done
    cases done
    exact held_orderly length
  · intro headersize payload nested j read
    rw [idspVault_reads.object] at read
    cases read

theorem idspVault_complete (fuel : Nat) : Throughout idle (complete idle) fuel false idspVault 0 368 := by
  obtain ⟨output,unpacked,length⟩ := idspVault_unpacks
  have room (i : Int) (low : 0 ≤ i) (high : i ≤ 366) : Inside idspVault i 2 := ⟨low,by rw [idspVault_reads.size]; omega⟩
  refine idspVault_places ?_ ⟨fun _ => room _ (by decide) (by decide),fun _ => room _ (by decide) (by decide)⟩
    idspVault_fits ?_ ?_ fuel
  · refine (object_law idle 368).mpr ⟨by rw [idspVault_reads.head]; simp,?_⟩
    intro headersize j read
    rw [idspVault_reads.head] at read
    cases read
  · refine (object_law idle 154).mpr ⟨by rw [idspVault_reads.object]; simp,?_⟩
    intro headersize j read
    rw [idspVault_reads.object] at read
    cases read
    rw [unpacked]
    simp
  · intro buf _
    refine (object_law idle 145).mpr ⟨by rw [idspVault_held]; simp,?_⟩
    intro headersize j read
    rw [idspVault_held] at read
    cases read

-- An object without a header length meets itself; once it is long enough to be
-- taken this has no end.
theorem self_nested_hangs (lzma : Lzma) {buf : Bytes} {address size payload : Int} {j : Int}
    (read : exec buf (readHead address size) 0 = .ok (.plain 0 payload true,j)) (long : headerSize ≤ payload)
    (fuel : Nat) : (parseGddv lzma fuel buf address size).result = .error .hang := by
  obtain ⟨-,-,inside,signature,-⟩ := head_plain read
  have item : exec buf (readItem ⟨address,0,payload,true⟩ 0) 0 = .ok (.object,0) := by
    unfold readItem
    simp only [word,bind_eq,pure_eq,Scan.bind,exec,Int.add_zero,inside,if_true,signature]
    rfl
  induction fuel using Nat.strong_induction_on generalizing size with
  | _ fuel ih =>
    cases fuel with
    | zero =>
      unfold parseGddv
      rfl
    | succ fuel =>
      unfold parseGddv
      rw [read]
      dsimp only
      cases fuel with
      | zero =>
        unfold parseItems
        rfl
      | succ rest =>
        have again := ih rest (by omega) (head_resized read long)
        unfold headerSize at long
        unfold parseItems
        rw [if_pos (by dsimp only; omega),Nat.cast_zero,item]
        dsimp only
        rw [Int.add_zero,Int.sub_zero,andThen_error _ again]

-- A nested object whose parse reports no end is parsed again and again.
theorem lost_end_hangs (lzma : Lzma) {buf : Bytes} {f : Frame} {offset j : Int}
    (more : offset+f.headersize < f.size) (kept : toInt offset = offset)
    (read : exec buf (readItem f offset) 0 = .ok (.object,j))
    (lost : ∀ fuel,(parseGddv lzma fuel buf (f.address+offset) (f.size-offset)).result = .error .hang ∨
      (parseGddv lzma fuel buf (f.address+offset) (f.size-offset)).result = .ok (0,none)) (fuel : Nat) :
    (parseItems lzma fuel buf f offset).result = .error .hang := by
  induction fuel with
  | zero =>
    unfold parseItems
    rfl
  | succ fuel ih =>
    unfold parseItems
    rw [if_pos more,read]
    dsimp only
    rcases lost fuel with hung | parsed
    · rw [andThen_error _ hung]
    · rw [andThen_ok _ parsed]
      dsimp only
      rw [if_neg (by simp),Option.getD_none,Int.add_zero,kept]
      exact ih

-- An IDSP length of minus twelve leads back to its own entry.
theorem idsp_hangs {v : Bytes} {length i : Int} (room : 28 ≤ length-i) (inside : Inside v i 28)
    (seven : little (bytesAt v i 1) = 7) (back : toInt (little (bytesAt v (i+4) 4)) = -12) (kept : toInt i = i)
    (fuel : Nat) : exec v (idspEntries length fuel) i = .error .hang := by
  unfold Inside at inside
  induction fuel with
  | zero =>
    unfold idspEntries
    rfl
  | succ fuel ih =>
    have first : Inside v i 1 := by unfold Inside; omega
    have second : Inside v (i+4) 4 := by unfold Inside; omega
    have content : Inside v (i+12) 16 := by unfold Inside; omega
    have returned : toInt (i+12+-12) = i := by rw [Int.add_neg_cancel_right]; exact kept
    unfold idspEntries
    simp only [position,word,moveTo,write,bind_eq,Scan.bind,exec]
    rw [if_pos (by omega),if_neg (by omega)]
    simp only [exec,first,if_true,seven,ne_eq,not_true_eq_false,if_false,second,content,back,returned]
    exact ih

-- A vault of one header, version 2, that claims neither a header nor less than
-- itself as its payload.
def selfNested : Bytes := [229,31,0,0,0,0,0,2] ++ List.replicate 132 0 ++ [148,0,0,0] ++ List.replicate 4 0

end ChuwiMinibook.GddvTermination
