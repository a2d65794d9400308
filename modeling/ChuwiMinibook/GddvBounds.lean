import ChuwiMinibook.GddvLayout

namespace ChuwiMinibook.GddvBounds
open ByteScan Scan GddvTables GddvParser GddvReads GddvLayout

section Layout
variable (buf : Bytes) (address : Int)

def keyText : Bytes := bytesAt buf (address+8) (little (bytesAt buf (address+4) 4))

-- Where the value's type stands, relative to the item.
def valueOffset : Int := toInt (8+(little (bytesAt buf (address+4) 4) : Int))

def valueLength : Nat := little (bytesAt buf (address+valueOffset buf address+4) 4)

def valueBytes : Bytes := bytesAt buf (address+valueOffset buf address+8) (valueLength buf address)

-- A key item lies in the buffer with its two lengths and what they announce.
def KeyRoom : Prop := Inside buf address 8 ∧ Inside buf (address+8) (little (bytesAt buf (address+4) 4)) ∧
  Inside buf (address+valueOffset buf address) 8 ∧
  Inside buf (address+valueOffset buf address+8) (valueLength buf address)

-- Its path ends inside the key, its table is complete in the value.
def KeyFits (n : Nat) : Prop := KeyRoom buf address ∧
  ∃ path,splitKey (keyText buf address) = .ok path ∧ Table (valueBytes buf address) n path

def major : Nat := little (bytesAt buf (address+4) 4)/16777216

def packed : Bool := little (bytesAt buf (address+8) 4)/compressedFlag % 2 = 1

def sourceLength (headersize : Nat) (size : Int) : Nat := ((size-headersize) % 18446744073709551616).toNat

-- A compressed payload: its length field and what the decoder is given lie in
-- the buffer, the result has room in the buffer made for it, and the header that
-- is updated there too.
def PackedFits (lzma : Lzma) (headersize : Nat) (size : Int) : Prop :=
  0 ≤ address ∧ address+headersize+max 13 (sourceLength headersize size) ≤ buf.length ∧
  let payload := little (bytesAt buf (address+headersize+5) 8)
  let outputSize := (headersize+payload) % 18446744073709551616
  let given := if sourceLength headersize size > lzmaHeaderSize then sourceLength headersize size else 0
  headersize+(lzmaDecompress lzma (bytesAt buf (address+headersize) given)).length ≤ outputSize ∧ 144 ≤ outputSize

-- What a header has to hold as far as it is looked at: its signature, its length
-- and version, its flags, and in version 2 all up to its payload's size.
def HeadRoom (size : Int) : Prop := headerSize ≤ size → Inside buf address 2 ∧
  (little (bytesAt buf address 2) = headerSignature → Inside buf address 8 ∧
    (major buf address = 1 ∨ major buf address = 2 → Inside buf address 12 ∧
      (major buf address = 2 → packed buf address = false → Inside buf address 144)))

def IsPacked (size : Int) : Prop := headerSize ≤ size ∧ little (bytesAt buf address 2) = headerSignature ∧
  major buf address = 2 ∧ packed buf address = true

def ObjectFits (lzma : Lzma) (size : Int) : Prop := HeadRoom buf address size ∧
  (IsPacked buf address size → PackedFits buf address lzma (little (bytesAt buf (address+2) 2)) size)

end Layout

-- The layout of a vault, place by place.
def complete (lzma : Lzma) : Places where
  object _ buf address size := ObjectFits buf address lzma size
  item buf f offset := f.nested = true → Inside buf (f.address+offset) 2
  key n buf address := KeyFits buf address n
  resume _ := True

section Laws
variable {buf : Bytes} {address : Int}

theorem inside_split {v : Bytes} {i : Int} (m n : Nat) : Inside v i (m+n) ↔ Inside v i m ∧ Inside v (i+m) n := by
  unfold Inside
  omega

theorem key_room : Along buf (fits buf) (keyItem address) 0 ↔ KeyRoom buf address := by
  have lengths : Inside buf address 8 ↔ Inside buf address 4 ∧ Inside buf (address+4) 4 := inside_split 4 4
  have value : Inside buf (address+valueOffset buf address) 8 ↔ Inside buf (address+valueOffset buf address) 4 ∧
      Inside buf (address+valueOffset buf address+4) 4 := inside_split 4 4
  unfold keyItem KeyRoom
  rw [lengths,value]
  simp only [bind_eq,pure_eq,word,moveTo,Scan.bind,fits_read,fits_seek,fits_done,and_true,and_assoc,valueLength,valueOffset]

theorem key_exec (room : KeyRoom buf address) : exec buf (keyItem address) 0 = .ok
    ((keyText buf address,valueBytes buf address),toInt (valueOffset buf address+8+(valueLength buf address : Int))) := by
  have first : Inside buf address 4 := ((inside_split 4 4).mp room.1).1
  have second : Inside buf (address+4) 4 := ((inside_split 4 4).mp room.1).2
  have third : Inside buf (address+valueOffset buf address) 4 := ((inside_split 4 4).mp room.2.2.1).1
  have fourth : Inside buf (address+valueOffset buf address+4) 4 := ((inside_split 4 4).mp room.2.2.1).2
  have key := room.2.1
  have value := room.2.2.2
  unfold valueLength at value
  unfold keyText valueBytes valueLength
  unfold valueOffset at *
  unfold keyItem
  simp only [word,bind_eq,pure_eq,Scan.bind,moveTo,exec]
  rw [if_pos first,if_pos second,if_pos key,if_pos third,if_pos fourth,if_pos value]

theorem key_law (fuel : Nat) : (parseGddvKey fuel buf address).result ≠ .error .fault ↔ KeyFits buf address fuel := by
  unfold parseGddvKey KeyFits
  by_cases room : KeyRoom buf address
  swap
  · have outside := exec_fault_iff.mpr (fun laid => room (key_room.mp laid))
    rw [outside]
    simp [room]
  rw [key_exec room]
  dsimp only
  cases path : splitKey (keyText buf address) with
  | error s =>
    cases splitKey_fault path
    simp
  | ok found =>
    simp only [room,true_and,Except.ok.injEq,exists_eq_left',← table_law]
    exact (not_congr (map_stop.trans run_fault_iff)).trans not_not

theorem head_room (size : Int) : Along buf (fits buf) (readHead address size) 0 ↔ HeadRoom buf address size := by
  have eight : Inside buf address 2 → (Inside buf address 8 ↔ Inside buf (address+2) 2 ∧ Inside buf (address+4) 4) := by
    unfold Inside
    omega
  have flags : Inside buf address 2 → (Inside buf address 12 ↔ Inside buf (address+8) 4) := by
    unfold Inside
    omega
  have last : Inside buf address 2 → (Inside buf address 144 ↔
      Inside buf (address+12) 128 ∧ Inside buf (address+140) 4) := by
    unfold Inside
    omega
  unfold readHead HeadRoom
  rw [fits_skip]
  refine imp_congr Int.not_lt ?_
  simp only [bind_eq,pure_eq,word,Scan.bind,fits_read,fits_guard,fits_skip,ne_eq,not_not]
  refine and_congr_right fun inside => imp_congr_right fun _ => ?_
  rw [eight inside,flags inside,last inside,and_assoc]
  refine and_congr_right fun _ => and_congr_right fun _ => ?_
  unfold major packed
  simp only [not_and_or,not_not,decide_eq_false_iff_not]
  refine imp_congr_right fun version => and_congr_right fun _ => ?_
  refine imp_congr ?_ (imp_congr_right fun _ => ?_)
  · omega
  · exact and_congr_right fun _ => and_iff_left fits_done

theorem packed_exec {size : Int} (room : HeadRoom buf address size) (whole : IsPacked buf address size) :
    exec buf (readHead address size) 0 = .ok (.compressed (little (bytesAt buf (address+2) 2)),0) := by
  obtain ⟨long,signature,version,flag⟩ := whole
  obtain ⟨first,rest⟩ := room long
  obtain ⟨eight,rest⟩ := rest signature
  obtain ⟨flags,_⟩ := rest (.inr version)
  unfold packed at flag
  unfold major at version
  have length : Inside buf (address+2) 2 := by unfold Inside at *; omega
  have word4 : Inside buf (address+4) 4 := by unfold Inside at *; omega
  have word8 : Inside buf (address+8) 4 := by unfold Inside at *; omega
  unfold readHead
  rw [if_neg (Int.not_lt.mpr long)]
  simp only [word,bind_eq,pure_eq,Scan.bind,exec,first,if_true,signature,ne_eq,not_true_eq_false,if_false,length,word4,
    version]
  rw [if_neg (by decide)]
  simp only [exec]
  rw [if_pos word8,if_neg (by decide),if_pos (of_decide_eq_true flag),exec]

theorem source_room (headersize : Nat) (size : Int) : Along buf (fits buf) (readCompressed address headersize size) 0 ↔
    0 ≤ address ∧ address+headersize+max 13 (sourceLength headersize size) ≤ buf.length := by
  unfold readCompressed
  simp only [bind_eq,pure_eq,word,Scan.bind,fits_read,fits_done,and_true]
  change _ ∧ Inside buf _ (if sourceLength headersize size > lzmaHeaderSize then sourceLength headersize size else 0) ∧ _ ↔ _
  unfold lzmaHeaderSize Inside
  split <;> omega

theorem source_exec {headersize : Nat} {size : Int}
    (room : 0 ≤ address ∧ address+headersize+max 13 (sourceLength headersize size) ≤ buf.length) :
    exec buf (readCompressed address headersize size) 0 = .ok ((little (bytesAt buf (address+headersize+5) 8),
      bytesAt buf (address+headersize)
        (if sourceLength headersize size > lzmaHeaderSize then sourceLength headersize size else 0),
      bytesAt buf address headersize),0) := by
  have length : Inside buf (address+headersize+5) 8 := by unfold Inside; omega
  have source : Inside buf (address+headersize)
      (if sourceLength headersize size > lzmaHeaderSize then sourceLength headersize size else 0) := by
    unfold lzmaHeaderSize Inside
    split <;> omega
  have header : Inside buf address headersize := by unfold Inside; omega
  unfold readCompressed
  simp only [word,bind_eq,pure_eq,Scan.bind,exec]
  unfold sourceLength at source ⊢
  rw [if_pos length,if_pos source,if_pos header]

theorem packed_law (lzma : Lzma) (headersize : Nat) (size : Int) :
    handleCompressedGddv lzma buf address headersize size ≠ .error .fault ↔ PackedFits buf address lzma headersize size := by
  unfold handleCompressedGddv PackedFits
  by_cases room : 0 ≤ address ∧ address+headersize+max 13 (sourceLength headersize size) ≤ buf.length
  · rw [source_exec room,and_iff_right room.1,and_iff_right room.2]
    unfold unpack
    dsimp only
    generalize (if sourceLength headersize size > lzmaHeaderSize then sourceLength headersize size else 0) = given
    split
    · rename_i outside
      simp only [ne_eq,not_true_eq_false,false_iff]
      omega
    · rename_i inside
      simp only [ne_eq,reduceCtorEq,not_false_eq_true,true_iff]
      omega
  · have outside := exec_fault_iff.mpr (fun laid => room ((source_room headersize size).mp laid))
    rw [outside]
    simp only [ne_eq,not_true_eq_false,false_iff]
    intro whole
    exact room ⟨whole.1,whole.2.1⟩

theorem object_law (lzma : Lzma) (size : Int) : ObjectFits buf address lzma size ↔
    exec buf (readHead address size) 0 ≠ .error .fault ∧ ∀ headersize j,
      exec buf (readHead address size) 0 = .ok (.compressed headersize,j) →
      handleCompressedGddv lzma buf address headersize size ≠ .error .fault := by
  unfold ObjectFits
  rw [ne_eq,exec_fault_iff,not_not,head_room]
  refine and_congr_right fun room => ⟨?_,?_⟩
  · intro source headersize j read
    obtain ⟨long,signature,version,flag,rfl⟩ := head_compressed read
    exact (packed_law lzma _ size).mpr (source ⟨long,signature,version,decide_eq_true flag⟩)
  · intro source whole
    exact (packed_law lzma _ size).mp (source _ 0 (packed_exec room whole))

theorem item_law (f : Frame) (offset : Int) : exec buf (readItem f offset) 0 ≠ .error .fault ↔
    (f.nested = true → Inside buf (f.address+offset) 2) := by
  rw [ne_eq,exec_fault_iff,not_not]
  unfold readItem
  cases f.nested with
  | false => exact ⟨fun _ nested => absurd nested (by decide),fun _ => fits_done⟩
  | true =>
    simp only [if_true,bind_eq,pure_eq,word,Scan.bind,fits_read,true_implies]
    refine and_iff_left ?_
    rw [fits_skip]
    intro _
    rw [fits_skip]
    intro _
    exact fits_done

theorem andThen_fault {α β : Type} (first : Outcome Vault α) (next : α → Outcome Vault β) :
    (andThen first next).result ≠ .error .fault ↔
      first.result ≠ .error .fault ∧ ∀ a,first.result = .ok a → (next a).result ≠ .error .fault := by
  cases done : first.result with
  | error s =>
    rw [andThen_error _ done]
    simp
  | ok a =>
    rw [andThen_ok _ done]
    simp

section Steps
variable {lzma : Lzma} {fuel : Nat}

def ObjectsBounded (lzma : Lzma) (fuel : Nat) : Prop := ∀ inner buf address size,
  (parseGddv lzma fuel buf address size).result ≠ .error .fault ↔
    Throughout lzma (complete lzma) fuel inner buf address size

def ItemsBounded (lzma : Lzma) (fuel : Nat) : Prop := ∀ buf f offset,
  (parseItems lzma fuel buf f offset).result ≠ .error .fault ↔ ThroughoutItems lzma (complete lzma) fuel buf f offset

theorem objects_next (objects : ObjectsBounded lzma fuel) (items : ItemsBounded lzma fuel) :
    ObjectsBounded lzma (fuel+1) := by
  intro inner buf address size
  have demand : (complete lzma).object inner buf address size ↔ _ := object_law lzma size
  unfold parseGddv Throughout
  rw [demand]
  cases read : exec buf (readHead address size) 0 with
  | error s => simp
  | ok result =>
    obtain ⟨head,j⟩ := result
    cases head with
    | rejected => simp
    | plain headersize payload nested => simpa using items buf ⟨address,headersize,payload,nested⟩ headersize
    | compressed headersize =>
      simp only [ne_eq,reduceCtorEq,not_false_eq_true,true_and,Except.ok.injEq,Prod.mk.injEq,Head.compressed.injEq]
      cases done : handleCompressedGddv lzma buf address headersize size with
      | error s =>
        refine ⟨fun stopped => ⟨?_,fun output taken => by cases taken⟩,fun whole => ?_⟩
        · intro _ _ given
          obtain ⟨rfl,rfl⟩ := given
          rw [done]
          intro fault
          cases fault
          exact stopped rfl
        · intro fault
          cases fault
          exact whole.1 headersize j ⟨rfl,rfl⟩ done
      | ok output =>
        have inside := objects false output 0 (toInt output.length)
        refine (andThen_fault _ _).trans ⟨fun parsed => ⟨?_,?_⟩,fun whole => ⟨?_,?_⟩⟩
        · intro _ _ given
          obtain ⟨rfl,rfl⟩ := given
          rw [done]
          intro fault
          cases fault
        · intro other same
          cases same
          exact inside.mp parsed.1
        · exact inside.mpr (whole.2 output rfl)
        · intro _ _ fault
          cases fault

theorem items_next (objects : ObjectsBounded lzma fuel) (items : ItemsBounded lzma fuel) :
    ItemsBounded lzma (fuel+1) := by
  intro buf f offset
  have demand : (complete lzma).item buf f offset ↔ _ := (item_law f offset).symm
  unfold parseItems ThroughoutItems
  by_cases more : offset+f.headersize < f.size
  swap
  · simp [more]
  rw [if_pos more,demand]
  simp only [more,true_implies]
  cases read : exec buf (readItem f offset) 0 with
  | error s => simp
  | ok result =>
    obtain ⟨item,j⟩ := result
    cases item with
    | unknown => simp
    | key address =>
      have table : (complete lzma).key fuel buf address ↔ _ := (key_law fuel).symm
      simp only [ne_eq,reduceCtorEq,not_false_eq_true,true_and]
      rw [table]
      refine (andThen_fault _ _).trans (and_congr_right fun _ => ?_)
      exact forall_congr' fun endOffset => imp_congr_right fun _ => items _ _ _
    | object =>
      simp only [ne_eq,reduceCtorEq,not_false_eq_true,true_and]
      refine (andThen_fault _ _).trans (and_congr (objects true _ _ _) ?_)
      refine forall_congr' fun x => imp_congr_right fun _ => ?_
      have free : (complete lzma).resume x.2 ↔ True := Iff.rfl
      by_cases success : x.1 = 0
      · simpa [success,free] using items _ _ _
      · simp [success]

end Steps

-- Place by place, for the same fuel.
theorem places_law (lzma : Lzma) (fuel : Nat) : ObjectsBounded lzma fuel ∧ ItemsBounded lzma fuel := by
  induction fuel with
  | zero =>
    refine ⟨fun inner buf address size => ?_,fun buf f offset => ?_⟩
    · unfold parseGddv Throughout
      simp
    · unfold parseItems ThroughoutItems
      simp
  | succ fuel ih => exact ⟨objects_next ih.1 ih.2,items_next ih.1 ih.2⟩

end Laws

-- The parse reads inside what it is given exactly when all that it comes to is
-- complete there.
theorem parse_in_bounds_iff (lzma : Lzma) (buf : Bytes) (size : Int) :
    (∀ fuel,(parseGddv lzma fuel buf 0 size).result ≠ .error .fault) ↔
      ∀ fuel,Throughout lzma (complete lzma) fuel false buf 0 size :=
  forall_congr' fun fuel => (places_law lzma fuel).1 false buf 0 size

-- A vault whose one key announces a PPCC table of four bytes.
def shortPpcc : Bytes := [229,31,12,0,0,0,0,1,0,0,0,0] ++ [0,0,0,0,20,0,0,0] ++ ascii "participants/x/ppcc" ++ [0] ++
  [0,0,0,0,4,0,0,0] ++ List.replicate 100 0

theorem short_ppcc_out_of_bounds : shortPpcc.length = 148 ∧
    ¬ ∀ fuel,(parseGddv idle fuel shortPpcc 0 148).result ≠ .error .fault := by
  have fault : (parseGddv idle 3 shortPpcc 0 148).result = .error .fault := by decide +kernel
  exact ⟨by decide +kernel,fun safe => safe 3 fault⟩

end ChuwiMinibook.GddvBounds
