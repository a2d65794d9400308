import ChuwiMinibook.Vbt

namespace ChuwiMinibook.Vbt
open ByteImage

-- What the tool finds and would write when no access is outside, as functions of
-- the file.
section Parse

variable (L : Layout) (f : Image)

def vbtAt : Option Nat := (List.range (f.length-3)).find? (fun i => u32 f i = signature)

def bdbAt (vbt : Nat) : Nat := vbt+u32 f (vbt+L.bdbOffset)

def remaining (bdb : Nat) : Nat := (((f.length : Int)-bdb)%2^64).toNat

def span (bdb : Nat) : Nat := min (u16 f (bdb+L.bdbSize)) (remaining f bdb)

def sequenceSized (bdb index : Nat) : Prop := u8 f (bdb+index) = L.bdbMipiSequence ∧ 3 ≤ u8 f (bdb+(index+3))

instance (bdb index : Nat) : Decidable (sequenceSized L f bdb index) := inferInstanceAs (Decidable (_ ∧ _))

def sizeAt (bdb index : Nat) : Nat :=
  if sequenceSized L f bdb index then u32 f (bdb+(index+4)) else u16 f (bdb+(index+1))

-- The block headers that a lookup goes over, the one it stops at included.
def visited (bdb total block : Nat) : Nat → Nat → List Nat
  | 0,_ => []
  | fuel+1,index =>
    if index+3 < total then
      index::(if u8 f (bdb+index) = block then [] else visited bdb total block fuel (index+3+sizeAt L f bdb index))
    else []

def headers (bdb block : Nat) : List Nat := visited L f bdb (span L f bdb) block (span L f bdb) (u16 f (bdb+L.headerSize))

def header (bdb block : Nat) : Option Nat := (headers L f bdb block).find? (fun i => u8 f (bdb+i) = block)

def blockAt (bdb block : Nat) : Option Nat := (header L f bdb block).map (fun i => bdb+(i+3))

def ctxAt (vbt : Nat) : Except String Ctx :=
  let bdb := bdbAt L f vbt
  match blockAt L f bdb L.bdbLfpOptions with
  | none => .error "Block 40 (LFP options) not found"
  | some lfpOpts =>
    let gdtd := blockAt L f bdb L.bdbGenericDtd
    let mipiCfg := blockAt L f bdb L.bdbMipiConfig
    if gdtd = none ∧ mipiCfg = none then .error "Neither Block 58 (DTD) nor Block 52 (MIPI) found"
    else .ok ⟨vbt,bdb,remaining f bdb,u8 f (lfpOpts+L.panelType),gdtd,mipiCfg⟩

-- The conditions: the offset of the BDB and the two fields of its header are in the
-- file, and so is the 32-bit size of every sequence block on the way.
def SizesInside (bdb block : Nat) : Prop :=
  ∀ i ∈ headers L f bdb block,sequenceSized L f bdb i → Inside f (bdb+(i+4)) 4

structure HeaderInside (vbt : Nat) : Prop where
  offset : Inside f (vbt+L.bdbOffset) 4
  header : Inside f (bdbAt L f vbt+L.headerSize) 2
  size : Inside f (bdbAt L f vbt+L.bdbSize) 2

structure BlocksInside (bdb : Nat) : Prop where
  lfp : SizesInside L f bdb L.bdbLfpOptions
  panel : ∀ lfpOpts,blockAt L f bdb L.bdbLfpOptions = some lfpOpts → Inside f (lfpOpts+L.panelType) 1 ∧
    SizesInside L f bdb L.bdbGenericDtd ∧ SizesInside L f bdb L.bdbMipiConfig

end Parse

section Find

variable {L : Layout} {f : Image}

theorem findVbtFrom_eq (fuel i : Nat) (enough : f.length ≤ fuel+i+3) :
    findVbtFrom f fuel i = some ((List.range' i (f.length-3-i)).find? (fun i => u32 f i = signature)) := by
  induction fuel generalizing i with
  | zero =>
    have none : f.length-3-i = 0 := by omega
    rw [none]
    rfl
  | succ fuel ih =>
    unfold findVbtFrom
    split
    · rename_i room
      obtain ⟨n,count⟩ : ∃ n,f.length-3-i = n+1 := ⟨f.length-3-i-1,by omega⟩
      rw [(readU32_checks f i).gives room,Option.bind_some,ih (i+1) (by omega),count,List.range'_succ,List.find?_cons]
      have rest : f.length-3-(i+1) = n := by omega
      rw [rest]
      by_cases found : u32 f i = signature <;> simp [found]
    · have none : f.length-3-i = 0 := by omega
      rw [none]
      rfl

-- The search never leaves the file.
theorem findVbt_eq (f : Image) : findVbt f = some (vbtAt f) := by
  rw [findVbt,findVbtFrom_eq _ _ (by omega),vbtAt,List.range_eq_range',Nat.sub_zero]

theorem blockSize_checks {bdb total index : Nat} (within : bdb+total ≤ f.length) (room : index+3 < total) :
    Checks (blockSize L f bdb index (u8 f (bdb+index)))
      (sequenceSized L f bdb index → Inside f (bdb+(index+4)) 4) (sizeAt L f bdb index) := by
  have version := (readU8_checks f (bdb+(index+3))).gives (by unfold Inside; omega)
  have narrow := (readU16_checks f (bdb+(index+1))).gives (by unfold Inside; omega)
  unfold blockSize sizeAt
  rw [version,Option.bind_some,narrow]
  unfold sequenceSized
  by_cases sequence : u8 f (bdb+index) = L.bdbMipiSequence
  · by_cases late : 3 ≤ u8 f (bdb+(index+3))
    · simpa [sequence,late] using readU32_checks f (bdb+(index+4))
    · simpa [sequence,late] using Checks.done _
  · simpa [sequence] using Checks.done _

theorem walk_checks {bdb total : Nat} (within : bdb+total ≤ f.length) (block fuel index : Nat) :
    Checks (walk L f bdb total block fuel index)
      (∀ i ∈ visited L f bdb total block fuel index,sequenceSized L f bdb i → Inside f (bdb+(i+4)) 4)
      (((visited L f bdb total block fuel index).find? (fun i => u8 f (bdb+i) = block)).map (fun i => bdb+(i+3))) := by
  induction fuel generalizing index with
  | zero => exact (Checks.done none).cong (by simp [visited]) (fun _ => rfl)
  | succ fuel ih =>
    unfold walk visited
    by_cases room : index+3 < total
    · rw [if_pos room,if_pos room,(readU8_checks f (bdb+index)).gives (by unfold Inside; omega),Option.bind_some]
      have onward := Checks.branch (c := u8 f (bdb+index) = block) (fun _ => Checks.done (some (bdb+(index+3))))
        (fun _ => ih (index+3+sizeAt L f bdb index))
      refine ((blockSize_checks within room).bind fun _ => onward).cong ?_ ?_
      · by_cases found : u8 f (bdb+index) = block <;> simp [found]
      · intro _
        by_cases found : u8 f (bdb+index) = block <;> simp [found]
    · rw [if_neg room,if_neg room]
      exact (Checks.done none).cong (by simp) (fun _ => rfl)

-- A lookup does not run out of rounds.
theorem walk_enough (bdb total block fuel index : Nat) (enough : total ≤ fuel+index+3) :
    walk L f bdb total block (fuel+1) index = walk L f bdb total block fuel index := by
  induction fuel generalizing index with
  | zero =>
    unfold walk
    rw [if_neg (by omega)]
  | succ fuel ih =>
    rw [walk]
    conv_rhs => rw [walk]
    split
    · refine congrArg _ (funext fun id => congrArg _ (funext fun size => ?_))
      split
      · rfl
      · exact ih _ (by omega)
    · rfl

theorem span_within {bdb n : Nat} (inside : Inside f (bdb+n) 2) : bdb+span L f bdb ≤ f.length := by
  unfold Inside at inside
  unfold span remaining
  omega

theorem findBlock_checks (L : Layout) (f : Image) (bdb block : Nat) :
    Checks (findBlock L f bdb (remaining f bdb) block)
      (Inside f (bdb+L.headerSize) 2 ∧ Inside f (bdb+L.bdbSize) 2 ∧ SizesInside L f bdb block) (blockAt L f bdb block) := by
  refine (readU16_checks f _).bind fun inside => (readU16_checks f _).bind fun _ => ?_
  have total : (if remaining f bdb < u16 f (bdb+L.bdbSize) then remaining f bdb else u16 f (bdb+L.bdbSize)) =
      span L f bdb := by
    unfold span
    split <;> omega
  dsimp only
  rw [total]
  exact walk_checks (span_within inside) block _ _

theorem remaining_eq (L : Layout) (f : Image) (vbt : Nat) :
    (((f.length : Int)-vbt-u32 f (vbt+L.bdbOffset))%2^64).toNat = remaining f (bdbAt L f vbt) := by
  unfold remaining bdbAt
  rw [Int.natCast_add,Int.sub_sub]

-- The first part of init_ctx, up to block 40.
theorem opening_checks {α : Type} {g : Nat → Option Nat → Option α} {Q : Prop} {w : α} (vbt : Nat)
    (rest : Checks (g (u32 f (vbt+L.bdbOffset)) (blockAt L f (bdbAt L f vbt) L.bdbLfpOptions)) Q w) :
    Checks ((readU32 f (vbt+L.bdbOffset)).bind fun offset =>
        (findBlock L f (vbt+offset) (((f.length : Int)-vbt-offset)%2^64).toNat L.bdbLfpOptions).bind (g offset))
      (HeaderInside L f vbt ∧ SizesInside L f (bdbAt L f vbt) L.bdbLfpOptions ∧ Q) w := by
  apply Checks.cong
  · apply Checks.bind (readU32_checks f _)
    intro _
    rw [remaining_eq]
    apply Checks.bind (findBlock_checks L f (bdbAt L f vbt) L.bdbLfpOptions)
    intro _
    exact rest
  · constructor
    · rintro ⟨offset,⟨header,size,lfp⟩,more⟩
      exact ⟨⟨offset,header,size⟩,lfp,more⟩
    · rintro ⟨inside,lfp,more⟩
      exact ⟨inside.offset,⟨inside.header,inside.size,lfp⟩,more⟩
  · intro _
    rfl

theorem initCtx_checks (L : Layout) (f : Image) : Checks (initCtx L f)
    (∀ vbt,vbtAt f = some vbt → HeaderInside L f vbt ∧ BlocksInside L f (bdbAt L f vbt))
    (match vbtAt f with
      | none => .error "VBT signature not found"
      | some vbt => ctxAt L f vbt) := by
  unfold initCtx
  rw [findVbt_eq,Option.bind_some]
  cases vbtAt f with
  | none => exact (Checks.done _).cong (by simp) (fun _ => rfl)
  | some vbt =>
    dsimp only
    unfold ctxAt
    cases found : blockAt L f (bdbAt L f vbt) L.bdbLfpOptions with
    | none =>
      apply Checks.cong
      · apply opening_checks vbt
        rw [found]
        exact Checks.done _
      · constructor
        · rintro ⟨header,lfp,_⟩ _ ⟨⟩
          exact ⟨header,lfp,by simp [found]⟩
        · intro all
          exact ⟨(all vbt rfl).1,(all vbt rfl).2.lfp,trivial⟩
      · intro _
        simp only [found]
    | some lfpOpts =>
      apply Checks.cong
      · apply opening_checks vbt
        rw [found]
        dsimp only
        rw [remaining_eq]
        apply Checks.bind (readU8_checks f _)
        intro _
        apply Checks.bind (findBlock_checks L f (bdbAt L f vbt) L.bdbGenericDtd)
        intro _
        apply Checks.bind (findBlock_checks L f (bdbAt L f vbt) L.bdbMipiConfig)
        intro _
        exact Checks.branch (fun _ => Checks.done _) (fun _ => Checks.done _)
      · constructor
        · rintro ⟨header,lfp,panel,⟨_,_,gdtd⟩,⟨_,_,mipi⟩,_⟩ _ ⟨⟩
          refine ⟨header,lfp,fun found' same => ?_⟩
          rw [found] at same
          cases same
          exact ⟨panel,gdtd,mipi⟩
        · intro all
          obtain ⟨header,lfp,rest⟩ := all vbt rfl
          obtain ⟨panel,gdtd,mipi⟩ := rest lfpOpts found
          exact ⟨header,lfp,panel,⟨header.header,header.size,gdtd⟩,⟨header.header,header.size,mipi⟩,
            fun _ => trivial,fun _ => trivial⟩
      · intro _
        simp only [found]
        rfl

end Find

end ChuwiMinibook.Vbt
