import ChuwiMinibook.VaultWrites
import ChuwiMinibook.GddvReads

namespace ChuwiMinibook.RefusedVaults
open ByteScan Scan GddvTables GddvParser GddvReads VaultWrites

-- Why parse_gddv refuses a vault before it has stored anything: a header or an item
-- that is none, or a table that its parser throws on, wherever it is nested. What
-- stands in front of it is taken and stores nothing.
mutual

inductive Refuses (lzma : Lzma) : Nat → Bytes → Int → Int → Prop
  | signature {fuel : Nat} {buf : Bytes} {address size : Int} (read : exec buf (readHead address size) 0 = .error .thrown) :
      Refuses lzma (fuel+1) buf address size
  | header {fuel : Nat} {buf : Bytes} {address size j : Int} (read : exec buf (readHead address size) 0 = .ok (.rejected,j)) :
      Refuses lzma (fuel+1) buf address size
  | compressed {fuel headersize : Nat} {buf output : Bytes} {address size j : Int}
      (read : exec buf (readHead address size) 0 = .ok (.compressed headersize,j))
      (unpacked : handleCompressedGddv lzma buf address headersize size = .ok output)
      (inner : Refuses lzma fuel output 0 (toInt output.length)) : Refuses lzma (fuel+1) buf address size
  | items {fuel headersize : Nat} {buf : Bytes} {address size payload j : Int} {nested : Bool}
      (read : exec buf (readHead address size) 0 = .ok (.plain headersize payload nested,j))
      (inner : RefusesItems lzma fuel buf ⟨address,headersize,payload,nested⟩ headersize) :
      Refuses lzma (fuel+1) buf address size

inductive RefusesItems (lzma : Lzma) : Nat → Bytes → Frame → Int → Prop
  | unknown {fuel : Nat} {buf : Bytes} {f : Frame} {offset j : Int} (inside : offset+f.headersize < f.size)
      (read : exec buf (readItem f offset) 0 = .ok (.unknown,j)) : RefusesItems lzma (fuel+1) buf f offset
  | table {fuel : Nat} {buf : Bytes} {f : Frame} {offset address j : Int} (inside : offset+f.headersize < f.size)
      (read : exec buf (readItem f offset) 0 = .ok (.key address,j))
      (thrown : (parseGddvKey fuel buf address).result = .error .thrown)
      (nothing : (parseGddvKey fuel buf address).effect = id) : RefusesItems lzma (fuel+1) buf f offset
  | object {fuel : Nat} {buf : Bytes} {f : Frame} {offset j : Int} (inside : offset+f.headersize < f.size)
      (read : exec buf (readItem f offset) 0 = .ok (.object,j))
      (inner : Refuses lzma fuel buf (f.address+offset) (f.size-offset)) : RefusesItems lzma (fuel+1) buf f offset
  | afterTable {fuel : Nat} {buf : Bytes} {f : Frame} {offset address endOffset j : Int}
      (inside : offset+f.headersize < f.size) (read : exec buf (readItem f offset) 0 = .ok (.key address,j))
      (taken : (parseGddvKey fuel buf address).result = .ok endOffset)
      (nothing : (parseGddvKey fuel buf address).effect = id)
      (later : RefusesItems lzma fuel buf f (toInt (address-f.address+endOffset))) : RefusesItems lzma (fuel+1) buf f offset
  | afterObject {fuel : Nat} {buf : Bytes} {f : Frame} {offset j : Int} {endOffset : Option Int}
      (inside : offset+f.headersize < f.size) (read : exec buf (readItem f offset) 0 = .ok (.object,j))
      (inner : Ignores lzma fuel buf (f.address+offset) (f.size-offset) endOffset)
      (later : RefusesItems lzma fuel buf f (toInt (offset+endOffset.getD 0))) : RefusesItems lzma (fuel+1) buf f offset

-- An object that is taken and stores nothing, and the end it reports.
inductive Ignores (lzma : Lzma) : Nat → Bytes → Int → Int → Option Int → Prop
  | compressed {fuel headersize : Nat} {buf output : Bytes} {address size j : Int} {endOffset : Option Int}
      (read : exec buf (readHead address size) 0 = .ok (.compressed headersize,j))
      (unpacked : handleCompressedGddv lzma buf address headersize size = .ok output)
      (inner : Ignores lzma fuel output 0 (toInt output.length) endOffset) : Ignores lzma (fuel+1) buf address size none
  | items {fuel headersize : Nat} {buf : Bytes} {address size payload j : Int} {nested : Bool} {endOffset : Option Int}
      (read : exec buf (readHead address size) 0 = .ok (.plain headersize payload nested,j))
      (inner : IgnoresItems lzma fuel buf ⟨address,headersize,payload,nested⟩ headersize endOffset) :
      Ignores lzma (fuel+1) buf address size endOffset

inductive IgnoresItems (lzma : Lzma) : Nat → Bytes → Frame → Int → Option Int → Prop
  | finished {fuel : Nat} {buf : Bytes} {f : Frame} {offset : Int} (outside : ¬offset+f.headersize < f.size) :
      IgnoresItems lzma (fuel+1) buf f offset (some offset)
  | table {fuel : Nat} {buf : Bytes} {f : Frame} {offset address endOffset j : Int} {last : Option Int}
      (inside : offset+f.headersize < f.size) (read : exec buf (readItem f offset) 0 = .ok (.key address,j))
      (taken : (parseGddvKey fuel buf address).result = .ok endOffset)
      (nothing : (parseGddvKey fuel buf address).effect = id)
      (later : IgnoresItems lzma fuel buf f (toInt (address-f.address+endOffset)) last) :
      IgnoresItems lzma (fuel+1) buf f offset last
  | object {fuel : Nat} {buf : Bytes} {f : Frame} {offset j : Int} {endOffset last : Option Int}
      (inside : offset+f.headersize < f.size) (read : exec buf (readItem f offset) 0 = .ok (.object,j))
      (inner : Ignores lzma fuel buf (f.address+offset) (f.size-offset) endOffset)
      (later : IgnoresItems lzma fuel buf f (toInt (offset+endOffset.getD 0)) last) :
      IgnoresItems lzma (fuel+1) buf f offset last

end

-- An error or an exception, and nothing stored.
def Refused (o : Outcome Vault (Int × Option Int)) : Prop :=
  o.effect = id ∧ (o.result = .error .thrown ∨ ∃ x,o.result = .ok x ∧ x.1 ≠ 0)

def Ignored (o : Outcome Vault (Int × Option Int)) (endOffset : Option Int) : Prop :=
  o.effect = id ∧ o.result = .ok (0,endOffset)

theorem andThen_stops {α : Type} {first : Outcome Vault α} {s : Stop} (ended : first.result = .error s)
    (next : α → Outcome Vault (Int × Option Int)) : andThen first next = ⟨first.effect,.error s⟩ := by
  rw [andThen,ended]

theorem andThen_goes {α : Type} {first : Outcome Vault α} {a : α} (ended : first.result = .ok a)
    (next : α → Outcome Vault (Int × Option Int)) :
    andThen first next = ⟨(next a).effect ∘ first.effect,(next a).result⟩ := by
  rw [andThen,ended]

section Steps
variable {α : Type} {first : Outcome Vault α} {next : α → Outcome Vault (Int × Option Int)} (head : Made Marks first.effect)
  (rest : ∀ a,Made Marks (next a).effect)
include head rest

theorem refused_andThen : Refused (andThen first next) ↔
    (first.effect = id ∧ first.result = .error .thrown) ∨ ∃ a,first.result = .ok a ∧ first.effect = id ∧ Refused (next a) := by
  cases ended : first.result with
  | error s =>
    rw [andThen_stops ended next]
    simp [Refused]
  | ok a =>
    rw [andThen_goes ended next]
    constructor
    · rintro ⟨nothing,refused⟩
      obtain ⟨later,now⟩ := made_cancel (rest a) head nothing
      exact Or.inr ⟨a,rfl,now,later,refused⟩
    · rintro (⟨-,stopped⟩ | ⟨b,same,nothing,later,refused⟩)
      · cases stopped
      · cases same
        exact ⟨by rw [later,nothing]; rfl,refused⟩

theorem ignored_andThen {endOffset : Option Int} : Ignored (andThen first next) endOffset ↔
    ∃ a,first.result = .ok a ∧ first.effect = id ∧ Ignored (next a) endOffset := by
  cases ended : first.result with
  | error s =>
    rw [andThen_stops ended next]
    simp [Ignored]
  | ok a =>
    rw [andThen_goes ended next]
    constructor
    · rintro ⟨nothing,taken⟩
      obtain ⟨later,now⟩ := made_cancel (rest a) head nothing
      exact ⟨a,rfl,now,later,taken⟩
    · rintro ⟨b,same,nothing,later,taken⟩
      cases same
      exact ⟨by rw [later,nothing]; rfl,taken⟩

end Steps

-- The reasons are exactly those for which the parser refuses.
structure Laws (lzma : Lzma) (fuel : Nat) : Prop where
  refuses : ∀ buf address size,Refuses lzma fuel buf address size ↔ Refused (parseGddv lzma fuel buf address size)
  refusesItems : ∀ buf f offset,RefusesItems lzma fuel buf f offset ↔ Refused (parseItems lzma fuel buf f offset)
  ignores : ∀ buf address size endOffset,
    Ignores lzma fuel buf address size endOffset ↔ Ignored (parseGddv lzma fuel buf address size) endOffset
  ignoresItems : ∀ buf f offset endOffset,
    IgnoresItems lzma fuel buf f offset endOffset ↔ Ignored (parseItems lzma fuel buf f offset) endOffset

theorem refused_stop {s : Stop} : Refused ⟨id,.error s⟩ ↔ s = .thrown := by
  simp [Refused]

theorem refused_code {x : Int × Option Int} : Refused ⟨id,.ok x⟩ ↔ x.1 ≠ 0 := by
  simp [Refused]

theorem ignored_stop {s : Stop} {endOffset : Option Int} : ¬Ignored ⟨id,.error s⟩ endOffset := by
  simp [Ignored]

theorem ignored_code {x : Int × Option Int} {endOffset : Option Int} : Ignored ⟨id,.ok x⟩ endOffset ↔ x = (0,endOffset) := by
  simp [Ignored]

theorem laws_zero (lzma : Lzma) : Laws lzma 0 := by
  refine ⟨?_,?_,?_,?_⟩
  · intro buf address size
    refine iff_of_false (fun reason => by cases reason) ?_
    rw [parseGddv,refused_stop]
    decide
  · intro buf f offset
    refine iff_of_false (fun reason => by cases reason) ?_
    rw [parseItems,refused_stop]
    decide
  · intro buf address size endOffset
    refine iff_of_false (fun reason => by cases reason) ?_
    rw [parseGddv]
    exact ignored_stop
  · intro buf f offset endOffset
    refine iff_of_false (fun reason => by cases reason) ?_
    rw [parseItems]
    exact ignored_stop

-- Reading a compressed payload or the signature of an item never throws.
theorem compressed_unthrown (lzma : Lzma) (buf : Bytes) (address : Int) (headersize : Nat) (size : Int) :
    handleCompressedGddv lzma buf address headersize size ≠ .error .thrown := by
  have reads : ∀ s,exec buf (readCompressed address headersize size) 0 = .error s → s = .fault := by
    intro s stopped
    simp only [readCompressed,bind_eq,pure_eq,word,Scan.bind,exec] at stopped
    split_ifs at stopped
    all_goals exact (Except.error.inj stopped).symm
  unfold handleCompressedGddv
  cases read : exec buf (readCompressed address headersize size) 0 with
  | error s => simp [reads s read]
  | ok found =>
    unfold unpack
    dsimp only
    split <;> simp

theorem item_unthrown (buf : Bytes) (f : Frame) (offset : Int) : exec buf (readItem f offset) 0 ≠ .error .thrown := by
  unfold readItem
  split
  · simp only [bind_eq,word,Scan.bind,exec]
    split
    · split
      · simp [exec]
      · split <;> simp [exec]
    · simp
  · simp [exec]

-- What handle_compressed_gddv passes on refuses for the reasons of the parse in it.
theorem refused_inner (lzma : Lzma) (fuel : Nat) (output : Bytes) (address size : Int) :
    Refused (andThen (parseGddv lzma fuel output address size) (fun x => ⟨id,.ok (x.1,none)⟩)) ↔
      Refused (parseGddv lzma fuel output address size) := by
  rw [refused_andThen ((made_parse lzma fuel).1 _ _ _) (fun _ => .nothing)]
  constructor
  · rintro (⟨nothing,thrown⟩ | ⟨x,code,nothing,wrong⟩)
    · exact ⟨nothing,Or.inl thrown⟩
    · exact ⟨nothing,Or.inr ⟨x,code,(refused_code (x := (x.1,none))).mp wrong⟩⟩
  · rintro ⟨nothing,thrown | ⟨x,code,wrong⟩⟩
    · exact Or.inl ⟨nothing,thrown⟩
    · exact Or.inr ⟨x,code,nothing,refused_code.mpr wrong⟩

-- What is left of the reasons once the header or the item has been read.
section Inversion
variable {lzma : Lzma} {fuel : Nat} {buf : Bytes}

theorem refuses_stopped {address size : Int} {s : Stop} (read : exec buf (readHead address size) 0 = .error s) :
    Refuses lzma (fuel+1) buf address size ↔ s = .thrown := by
  constructor
  · intro reason
    cases reason with
    | signature given => cases read.symm.trans given; rfl
    | header given => cases read.symm.trans given
    | compressed given => cases read.symm.trans given
    | items given => cases read.symm.trans given
  · rintro rfl
    exact .signature read

theorem refuses_compressed {address size j : Int} {headersize : Nat}
    (read : exec buf (readHead address size) 0 = .ok (.compressed headersize,j)) :
    Refuses lzma (fuel+1) buf address size ↔ ∃ output,handleCompressedGddv lzma buf address headersize size = .ok output ∧
      Refuses lzma fuel output 0 (toInt output.length) := by
  constructor
  · intro reason
    cases reason with
    | signature given => cases read.symm.trans given
    | header given => cases read.symm.trans given
    | compressed given unpacked inner =>
      cases read.symm.trans given
      exact ⟨_,unpacked,inner⟩
    | items given => cases read.symm.trans given
  · rintro ⟨output,unpacked,inner⟩
    exact .compressed read unpacked inner

theorem refuses_plain {address size payload j : Int} {headersize : Nat} {nested : Bool}
    (read : exec buf (readHead address size) 0 = .ok (.plain headersize payload nested,j)) :
    Refuses lzma (fuel+1) buf address size ↔ RefusesItems lzma fuel buf ⟨address,headersize,payload,nested⟩ headersize := by
  constructor
  · intro reason
    cases reason with
    | signature given => cases read.symm.trans given
    | header given => cases read.symm.trans given
    | compressed given => cases read.symm.trans given
    | items given inner =>
      cases read.symm.trans given
      exact inner
  · exact fun inner => .items read inner

theorem ignores_compressed {address size j : Int} {headersize : Nat} {endOffset : Option Int}
    (read : exec buf (readHead address size) 0 = .ok (.compressed headersize,j)) :
    Ignores lzma (fuel+1) buf address size endOffset ↔ endOffset = none ∧
      ∃ output last,handleCompressedGddv lzma buf address headersize size = .ok output ∧
        Ignores lzma fuel output 0 (toInt output.length) last := by
  constructor
  · intro reason
    cases reason with
    | compressed given unpacked inner =>
      cases read.symm.trans given
      exact ⟨rfl,_,_,unpacked,inner⟩
    | items given => cases read.symm.trans given
  · rintro ⟨rfl,output,last,unpacked,inner⟩
    exact .compressed read unpacked inner

theorem ignores_plain {address size payload j : Int} {headersize : Nat} {nested : Bool} {endOffset : Option Int}
    (read : exec buf (readHead address size) 0 = .ok (.plain headersize payload nested,j)) :
    Ignores lzma (fuel+1) buf address size endOffset ↔
      IgnoresItems lzma fuel buf ⟨address,headersize,payload,nested⟩ headersize endOffset := by
  constructor
  · intro reason
    cases reason with
    | compressed given => cases read.symm.trans given
    | items given inner =>
      cases read.symm.trans given
      exact inner
  · exact fun inner => .items read inner

section Items
variable {f : Frame} {offset j : Int} (inside : offset+f.headersize < f.size)
include inside

theorem refusesItems_key {address : Int} (read : exec buf (readItem f offset) 0 = .ok (.key address,j)) :
    RefusesItems lzma (fuel+1) buf f offset ↔
      ((parseGddvKey fuel buf address).effect = id ∧ (parseGddvKey fuel buf address).result = .error .thrown) ∨
      ∃ endOffset,(parseGddvKey fuel buf address).result = .ok endOffset ∧ (parseGddvKey fuel buf address).effect = id ∧
        RefusesItems lzma fuel buf f (toInt (address-f.address+endOffset)) := by
  constructor
  · intro reason
    cases reason with
    | unknown _ given => cases read.symm.trans given
    | object _ given => cases read.symm.trans given
    | afterObject _ given => cases read.symm.trans given
    | table _ given thrown nothing =>
      cases read.symm.trans given
      exact Or.inl ⟨nothing,thrown⟩
    | afterTable _ given taken nothing later =>
      cases read.symm.trans given
      exact Or.inr ⟨_,taken,nothing,later⟩
  · rintro (⟨nothing,thrown⟩ | ⟨endOffset,taken,nothing,later⟩)
    · exact .table inside read thrown nothing
    · exact .afterTable inside read taken nothing later

theorem refusesItems_object (read : exec buf (readItem f offset) 0 = .ok (.object,j)) :
    RefusesItems lzma (fuel+1) buf f offset ↔ Refuses lzma fuel buf (f.address+offset) (f.size-offset) ∨
      ∃ endOffset,Ignores lzma fuel buf (f.address+offset) (f.size-offset) endOffset ∧
        RefusesItems lzma fuel buf f (toInt (offset+endOffset.getD 0)) := by
  constructor
  · intro reason
    cases reason with
    | unknown _ given => cases read.symm.trans given
    | table _ given => cases read.symm.trans given
    | afterTable _ given => cases read.symm.trans given
    | object _ given inner => exact Or.inl inner
    | afterObject _ given inner later => exact Or.inr ⟨_,inner,later⟩
  · rintro (inner | ⟨endOffset,inner,later⟩)
    · exact .object inside read inner
    · exact .afterObject inside read inner later

theorem ignoresItems_key {address : Int} {last : Option Int}
    (read : exec buf (readItem f offset) 0 = .ok (.key address,j)) :
    IgnoresItems lzma (fuel+1) buf f offset last ↔
      ∃ endOffset,(parseGddvKey fuel buf address).result = .ok endOffset ∧ (parseGddvKey fuel buf address).effect = id ∧
        IgnoresItems lzma fuel buf f (toInt (address-f.address+endOffset)) last := by
  constructor
  · intro reason
    cases reason with
    | finished outside => exact absurd inside outside
    | table _ given taken nothing later =>
      cases read.symm.trans given
      exact ⟨_,taken,nothing,later⟩
    | object _ given => cases read.symm.trans given
  · rintro ⟨endOffset,taken,nothing,later⟩
    exact .table inside read taken nothing later

theorem ignoresItems_object {last : Option Int} (read : exec buf (readItem f offset) 0 = .ok (.object,j)) :
    IgnoresItems lzma (fuel+1) buf f offset last ↔
      ∃ endOffset,Ignores lzma fuel buf (f.address+offset) (f.size-offset) endOffset ∧
        IgnoresItems lzma fuel buf f (toInt (offset+endOffset.getD 0)) last := by
  constructor
  · intro reason
    cases reason with
    | finished outside => exact absurd inside outside
    | table _ given => cases read.symm.trans given
    | object _ given inner later => exact ⟨_,inner,later⟩
  · rintro ⟨endOffset,inner,later⟩
    exact .object inside read inner later

end Items
end Inversion

-- What follows an object whose code is not 0, or is.
theorem refused_object {x : Int × Option Int} {rest : Int → Outcome Vault (Int × Option Int)} {offset : Int} :
    Refused (if x.1 ≠ 0 then ⟨id,.ok (x.1,none)⟩ else rest (toInt (offset+x.2.getD 0))) ↔
      x.1 ≠ 0 ∨ x.1 = 0 ∧ Refused (rest (toInt (offset+x.2.getD 0))) := by
  by_cases wrong : x.1 = 0
  · simp [wrong]
  · simp [wrong,refused_code]

theorem ignored_object {x : Int × Option Int} {rest : Int → Outcome Vault (Int × Option Int)} {offset : Int}
    {last : Option Int} : Ignored (if x.1 ≠ 0 then ⟨id,.ok (x.1,none)⟩ else rest (toInt (offset+x.2.getD 0))) last ↔
      x.1 = 0 ∧ Ignored (rest (toInt (offset+x.2.getD 0))) last := by
  by_cases wrong : x.1 = 0
  · simp [wrong]
  · simp [wrong,ignored_code]

section Fuel
variable {lzma : Lzma} {fuel : Nat} (laws : Laws lzma fuel)
include laws

theorem refuses_succ (buf : Bytes) (address size : Int) :
    Refuses lzma (fuel+1) buf address size ↔ Refused (parseGddv lzma (fuel+1) buf address size) := by
  unfold parseGddv
  cases read : exec buf (readHead address size) 0 with
  | error s => exact (refuses_stopped read).trans refused_stop.symm
  | ok found =>
    obtain ⟨head,j⟩ := found
    cases head with
    | rejected => exact iff_of_true (.header read) (refused_code.mpr (by decide))
    | compressed headersize =>
      dsimp only
      rw [refuses_compressed read]
      cases unpacked : handleCompressedGddv lzma buf address headersize size with
      | error s =>
        refine iff_of_false (by rintro ⟨output,other,-⟩; cases other) (fun refused => ?_)
        cases refused_stop.mp refused
        exact compressed_unthrown _ _ _ _ _ unpacked
      | ok output =>
        dsimp only
        rw [refused_inner,← laws.refuses]
        constructor
        · rintro ⟨_,same,inner⟩
          cases same
          exact inner
        · exact fun inner => ⟨output,rfl,inner⟩
    | plain headersize payload nested => exact (refuses_plain read).trans (laws.refusesItems _ _ _)

theorem ignores_succ (buf : Bytes) (address size : Int) (endOffset : Option Int) :
    Ignores lzma (fuel+1) buf address size endOffset ↔ Ignored (parseGddv lzma (fuel+1) buf address size) endOffset := by
  unfold parseGddv
  cases read : exec buf (readHead address size) 0 with
  | error s =>
    refine iff_of_false (fun reason => ?_) ignored_stop
    cases reason with
    | compressed given => cases read.symm.trans given
    | items given => cases read.symm.trans given
  | ok found =>
    obtain ⟨head,j⟩ := found
    cases head with
    | rejected =>
      refine iff_of_false (fun reason => ?_) (fun taken => by cases ignored_code.mp taken)
      cases reason with
      | compressed given => cases read.symm.trans given
      | items given => cases read.symm.trans given
    | compressed headersize =>
      dsimp only
      rw [ignores_compressed read]
      cases unpacked : handleCompressedGddv lzma buf address headersize size with
      | error s => exact iff_of_false (by rintro ⟨-,output,last,other,-⟩; cases other) ignored_stop
      | ok output =>
        dsimp only
        rw [ignored_andThen ((made_parse lzma fuel).1 _ _ _) (fun _ => .nothing)]
        constructor
        · rintro ⟨rfl,_,last,same,inner⟩
          cases same
          obtain ⟨nothing,taken⟩ := (laws.ignores _ _ _ _).mp inner
          exact ⟨_,taken,nothing,ignored_code.mpr rfl⟩
        · rintro ⟨⟨code,last⟩,taken,nothing,same⟩
          cases ignored_code.mp same
          exact ⟨rfl,output,last,rfl,(laws.ignores _ _ _ last).mpr ⟨nothing,taken⟩⟩
    | plain headersize payload nested => exact (ignores_plain read).trans (laws.ignoresItems _ _ _ _)

omit laws in
theorem made_rest (buf : Bytes) (f : Frame) (offset : Int) (x : Int × Option Int) :
    Made Marks (if x.1 ≠ 0 then (⟨id,.ok (x.1,none)⟩ : Outcome Vault (Int × Option Int))
      else parseItems lzma fuel buf f (toInt (offset+x.2.getD 0))).effect := by
  split
  · exact .nothing
  · exact (made_parse lzma fuel).2 _ _ _

theorem refusesItems_succ (buf : Bytes) (f : Frame) (offset : Int) :
    RefusesItems lzma (fuel+1) buf f offset ↔ Refused (parseItems lzma (fuel+1) buf f offset) := by
  unfold parseItems
  by_cases inside : offset+f.headersize < f.size
  swap
  · rw [if_neg inside,refused_code]
    refine iff_of_false (fun reason => ?_) (by simp)
    cases reason <;> exact inside ‹_›
  rw [if_pos inside]
  cases read : exec buf (readItem f offset) 0 with
  | error s =>
    dsimp only
    rw [refused_stop]
    refine iff_of_false (fun reason => ?_) ?_
    · cases reason <;> (rename _ = Except.ok _ => given; cases read.symm.trans given)
    · rintro rfl
      exact item_unthrown _ _ _ read
  | ok found =>
    obtain ⟨item,j⟩ := found
    cases item with
    | unknown => exact iff_of_true (.unknown inside read) (refused_code.mpr (by decide))
    | key address =>
      dsimp only
      rw [refusesItems_key inside read,refused_andThen (made_key fuel buf address) (fun _ => (made_parse lzma fuel).2 _ _ _)]
      simp only [laws.refusesItems]
    | object =>
      dsimp only
      rw [refusesItems_object inside read,refused_andThen ((made_parse lzma fuel).1 _ _ _) (made_rest buf f offset)]
      simp only [laws.refuses,laws.ignores,laws.refusesItems,refused_object]
      constructor
      · rintro (⟨nothing,thrown | ⟨x,code,wrong⟩⟩ | ⟨endOffset,⟨nothing,taken⟩,later⟩)
        · exact Or.inl ⟨nothing,thrown⟩
        · exact Or.inr ⟨x,code,nothing,Or.inl wrong⟩
        · exact Or.inr ⟨_,taken,nothing,Or.inr ⟨rfl,later⟩⟩
      · rintro (⟨nothing,thrown⟩ | ⟨x,code,nothing,wrong | ⟨right,later⟩⟩)
        · exact Or.inl ⟨nothing,Or.inl thrown⟩
        · exact Or.inl ⟨nothing,Or.inr ⟨x,code,wrong⟩⟩
        · obtain ⟨_,endOffset⟩ := x
          cases right
          exact Or.inr ⟨endOffset,⟨nothing,code⟩,later⟩

theorem ignoresItems_succ (buf : Bytes) (f : Frame) (offset : Int) (endOffset : Option Int) :
    IgnoresItems lzma (fuel+1) buf f offset endOffset ↔ Ignored (parseItems lzma (fuel+1) buf f offset) endOffset := by
  unfold parseItems
  by_cases inside : offset+f.headersize < f.size
  swap
  · rw [if_neg inside,ignored_code]
    constructor
    · intro reason
      cases reason with
      | finished => rfl
      | table within => exact absurd within inside
      | object within => exact absurd within inside
    · intro same
      cases same
      exact .finished inside
  rw [if_pos inside]
  cases read : exec buf (readItem f offset) 0 with
  | error s =>
    refine iff_of_false (fun reason => ?_) ignored_stop
    cases reason with
    | finished outside => exact outside inside
    | table _ given => cases read.symm.trans given
    | object _ given => cases read.symm.trans given
  | ok found =>
    obtain ⟨item,j⟩ := found
    cases item with
    | unknown =>
      refine iff_of_false (fun reason => ?_) (fun taken => by cases ignored_code.mp taken)
      cases reason with
      | finished outside => exact outside inside
      | table _ given => cases read.symm.trans given
      | object _ given => cases read.symm.trans given
    | key address =>
      dsimp only
      rw [ignoresItems_key inside read,ignored_andThen (made_key fuel buf address) (fun _ => (made_parse lzma fuel).2 _ _ _)]
      simp only [laws.ignoresItems]
    | object =>
      dsimp only
      rw [ignoresItems_object inside read,ignored_andThen ((made_parse lzma fuel).1 _ _ _) (made_rest buf f offset)]
      simp only [laws.ignores,laws.ignoresItems,ignored_object]
      constructor
      · rintro ⟨last,⟨nothing,taken⟩,later⟩
        exact ⟨_,taken,nothing,rfl,later⟩
      · rintro ⟨⟨code,last⟩,taken,nothing,right,later⟩
        cases right
        exact ⟨last,⟨nothing,taken⟩,later⟩

end Fuel

theorem laws_hold (lzma : Lzma) (fuel : Nat) : Laws lzma fuel := by
  induction fuel with
  | zero => exact laws_zero lzma
  | succ fuel ih => exact ⟨refuses_succ ih,refusesItems_succ ih,ignores_succ ih,ignoresItems_succ ih⟩

end ChuwiMinibook.RefusedVaults
