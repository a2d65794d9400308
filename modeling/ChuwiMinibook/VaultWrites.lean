import ChuwiMinibook.GddvParser
import ChuwiMinibook.ScanWrites
import ChuwiMinibook.SlotForms

namespace ChuwiMinibook.VaultWrites
open ByteScan Scan GddvTables GddvParser
open ApctSlots (slotsBy slots1_by slots2_by)

-- The entries of all tables.
def total (g : Vault) : Nat :=
  g.targets.length+g.conditions.length+g.psvts.length+g.itmts.length+g.idsps.length+g.pbats.length+g.pbcts.length+
    g.customConditions.length+g.ppccs.length+g.trippoints.length+g.vscts.length+g.vspts.length

-- A write of the parser adds an entry to a table or names the VSCT.
def Marks (write : Vault → Vault) : Prop :=
  (∀ g,total g < total (write g)) ∨ ∃ name,write = fun g => {g with vsctsName := name}

-- Several writes never add up to none.
theorem made_cases {f : Vault → Vault} (made : Made Marks f) :
    f = id ∨ (∀ g,total g < total (f g)) ∨ ∃ name,∀ g,(f g).vsctsName = name ∧ total (f g) = total g := by
  induction made with
  | nothing => exact Or.inl rfl
  | @more write f kind _ ih =>
    right
    rcases kind with adds | ⟨name,rfl⟩
    · left
      intro g
      have more := adds (f g)
      rcases ih with rfl | adds | ⟨_,names⟩
      · exact more
      · exact Nat.lt_trans (adds g) more
      · rw [(names g).2] at more
        exact more
    · rcases ih with rfl | adds | ⟨_,names⟩
      · exact Or.inr ⟨name,fun g => ⟨rfl,rfl⟩⟩
      · exact Or.inl adds
      · exact Or.inr ⟨name,fun g => ⟨rfl,(names g).2⟩⟩

theorem total_le {f : Vault → Vault} (made : Made Marks f) (g : Vault) : total g ≤ total (f g) := by
  rcases made_cases made with rfl | adds | ⟨_,names⟩
  · exact Nat.le_refl _
  · exact Nat.le_of_lt (adds g)
  · exact Nat.le_of_eq (names g).2.symm

theorem made_cancel {f h : Vault → Vault} (later : Made Marks f) (first : Made Marks h) (nothing : f ∘ h = id) :
    f = id ∧ h = id := by
  have same : ∀ g,f (h g) = g := fun g => congrFun nothing g
  have still : f = id := by
    rcases made_cases later with still | adds | ⟨name,names⟩
    · exact still
    · have less := adds (h Vault.new)
      have least := total_le first Vault.new
      rw [same] at less
      omega
    · have one := (names (h {Vault.new with vsctsName := "a"})).1
      have other := (names (h {Vault.new with vsctsName := "b"})).1
      rw [same] at one other
      exact absurd (one.trans other.symm) (by decide)
  exact ⟨still,by rw [still] at nothing; exact nothing⟩

section Readers

theorem still_getUint64 : Still getUint64 :=
  still_bind still_position fun _ => still_bind (still_word _ _) fun _ => still_ite still_throw
    (still_bind (still_moveTo _) fun _ => still_bind still_position fun _ => still_bind (still_word _ _) fun _ =>
      still_bind (still_moveTo _) fun _ => still_done _)

theorem still_getString : Still getString :=
  still_bind still_position fun _ => still_bind (still_word _ _) fun _ => still_ite still_throw
    (still_bind (still_moveTo _) fun _ => still_bind still_position fun _ => still_bind (still_word _ _) fun _ =>
      still_bind (still_moveTo _) fun _ => still_bind still_position fun _ => still_bind (still_moveTo _) fun _ =>
      still_done _)

theorem still_getText : Still getText :=
  still_bind still_getString fun _ => still_bind (still_cString _) fun _ => still_done _

theorem still_getInt : Still getInt := still_bind still_getUint64 fun _ => still_done _

theorem still_skip (n : Int) : Still (skip n) := still_bind still_position fun _ => still_moveTo _

theorem still_psvLimit : Still psvLimit :=
  still_bind (still_bind still_position fun _ => still_word _ _) fun _ =>
    still_ite still_getText (still_bind still_getUint64 fun _ => still_done _)

theorem still_slotsBy (len : Int) {head : Parse (Nat → Nat → Nat → Condition)} {timePart : Parse (Nat × Nat)}
    (headStill : Still head) (timeStill : Still timePart) (left : Nat) (set : List Condition) :
    Still (slotsBy len head timePart left set) := by
  induction left using Nat.strong_induction_on generalizing set with
  | _ left ih =>
    cases left with
    | zero =>
      unfold slotsBy
      exact still_done _
    | succ left =>
      unfold slotsBy
      refine still_bind still_position fun _ => still_ite still_throw (still_bind headStill fun _ => ?_)
      cases left with
      | zero => exact still_done _
      | succ rest =>
        refine still_bind still_getUint64 fun _ => still_ite ?_ (ih (rest+1) (by omega) _)
        exact still_bind timeStill fun _ => ih rest (by omega) _

theorem still_slots1 (len target : Int) (left : Nat) (set : List Condition) : Still (slots1 len target left set) := by
  rw [slots1_by]
  refine still_slotsBy len ?_ ?_ left set
  · exact still_bind still_getUint64 fun _ => still_bind still_getUint64 fun _ => still_bind still_getUint64 fun _ =>
      still_done _
  · exact still_bind (still_skip _) fun _ => still_bind still_getUint64 fun _ => still_bind still_getUint64 fun _ =>
      still_bind (still_skip _) fun _ => still_done _

theorem still_slots2 (len target : Int) {reserved : Parse Unit} {timePart : Parse (Nat × Nat)} (reservedStill : Still reserved)
    (timeStill : Still timePart) (left : Nat) (set : List Condition) :
    Still (slots2 len target reserved timePart left set) := by
  rw [slots2_by]
  refine still_slotsBy len ?_ timeStill left set
  exact still_bind still_getUint64 fun _ => still_bind still_getText fun _ => still_bind reservedStill fun _ =>
    still_bind still_getUint64 fun _ => still_bind still_getUint64 fun _ => still_done _

theorem still_apctTimePart : Still apctTimePart :=
  still_bind (still_skip _) fun _ => still_bind still_getString fun _ => still_bind (still_skip _) fun _ =>
    still_bind still_getUint64 fun _ => still_bind still_getUint64 fun _ => still_bind (still_skip _) fun _ => still_done _

theorem still_pbctReserved : Still pbctReserved := still_bind still_getUint64 fun _ => still_done _

theorem still_pbctTimePart : Still pbctTimePart :=
  still_bind still_getUint64 fun _ => still_bind still_getUint64 fun _ => still_bind still_getUint64 fun _ =>
    still_bind still_getUint64 fun _ => still_done _

theorem still_psvtRecord (psvs : List Psv) : Still (psvtRecord psvs) :=
  still_bind still_getText fun _ => still_bind still_getText fun _ => still_bind still_getInt fun _ =>
    still_bind still_getInt fun _ => still_bind still_getInt fun _ => still_bind still_getInt fun _ =>
    still_bind still_getInt fun _ => still_bind still_psvLimit fun _ => still_bind still_getInt fun _ =>
    still_bind still_getInt fun _ => still_bind still_getInt fun _ => still_bind (still_skip _) fun _ => still_done _

theorem still_itmtRest (version : Int) : Still (itmtRest version) :=
  still_ite (still_bind still_getUint64 fun _ => still_bind still_getText fun _ => still_bind still_getUint64 fun _ =>
    still_bind still_getUint64 fun _ => still_done _) (still_skip _)

theorem still_itmtRecord (version : Int) (entries : List ItmtEntry) : Still (itmtRecord version entries) :=
  still_bind still_getText fun _ => still_bind still_getInt fun _ => still_bind still_getText fun _ =>
    still_bind still_getText fun _ => still_bind still_getText fun _ => still_bind (still_itmtRest _) fun _ => still_done _

theorem still_trtRecord (u : Unit) : Still (trtRecord u) :=
  still_bind still_getText fun _ => still_bind still_getText fun _ => still_bind still_getInt fun _ =>
    still_bind still_getInt fun _ => still_bind still_getInt fun _ => still_bind still_getInt fun _ =>
    still_bind still_getInt fun _ => still_bind still_getInt fun _ => still_done _

end Readers

section Tables

theorem marks_appcRecord (u : Unit) : Writes Marks (appcRecord u) :=
  writes_after still_getUint64 fun _ => writes_after still_getText fun _ => writes_after still_getText fun _ =>
    writes_after still_getInt fun _ => writes_after still_getInt fun _ => writes_write (Or.inl fun g => by simp [total])

theorem marks_targetRecord {keep : Nat → String → String → Nat → String → String → Vault → Vault}
    (kept : ∀ targetId name participant domain code argument,Marks (keep targetId name participant domain code argument))
    (u : Unit) : Writes Marks (targetRecord keep u) :=
  writes_after still_getUint64 fun _ => writes_after still_getText fun _ => writes_after still_getText fun _ =>
    writes_after still_getUint64 fun _ => writes_after still_getText fun _ => writes_after still_getText fun _ =>
    writes_write (kept _ _ _ _ _ _)

theorem marks_apctRecord1 (len : Int) (u : Unit) : Writes Marks (apctRecord1 len u) := by
  refine writes_after still_getUint64 fun target => writes_ite writes_throw ?_
  exact writes_after (still_slots1 len (toInt target) 10 []) fun _ => writes_write (Or.inl fun g => by simp [total])

theorem marks_apctRecord2 (len : Int) (u : Unit) : Writes Marks (apctRecord2 len u) := by
  refine writes_after still_getUint64 fun target => writes_ite writes_throw (writes_after still_getUint64 fun count => ?_)
  exact writes_after (still_slots2 len (toInt target) (still_skip 12) still_apctTimePart _ []) fun _ =>
    writes_write (Or.inl fun g => by simp [total])

theorem marks_pbctRecord1 (len : Int) (u : Unit) : Writes Marks (pbctRecord1 len u) := by
  refine writes_after still_getUint64 fun target => writes_ite writes_throw ?_
  exact writes_after (still_slots1 len (toInt target) 10 []) fun _ => writes_write (Or.inl fun g => by simp [total])

theorem marks_pbctRecord2 (len : Int) (u : Unit) : Writes Marks (pbctRecord2 len u) := by
  refine writes_after still_getUint64 fun target => writes_ite writes_throw (writes_after still_getUint64 fun count => ?_)
  exact writes_after (still_slots2 len (toInt target) still_pbctReserved still_pbctTimePart _ []) fun _ =>
    writes_write (Or.inl fun g => by simp [total])

theorem marks_vsptRecord (u : Unit) : Writes Marks (vsptRecord u) :=
  writes_after still_getInt fun _ => writes_after still_getUint64 fun _ =>
    writes_write (Or.inl fun g => by simp [total])

theorem marks_vsctRecord (u : Unit) : Writes Marks (vsctRecord u) :=
  writes_after still_getText fun _ => writes_after still_getInt fun _ => writes_after still_getInt fun _ =>
    writes_after still_getInt fun _ => writes_after still_getInt fun _ => writes_after still_getInt fun _ =>
    writes_after still_getInt fun _ => writes_write (Or.inl fun g => by simp [total])

variable (fuel : Nat) (len : Int)

theorem marks_parseAppc : Writes Marks (parseAppc fuel len) :=
  writes_after (still_word _ _) fun _ => writes_ite (writes_done _) (writes_after still_getUint64 fun _ =>
    writes_ite (writes_done _) (writes_whileBelow marks_appcRecord len fuel ()))

theorem marks_parsePbat : Writes Marks (parsePbat fuel len) :=
  writes_after still_getUint64 fun _ => writes_ite writes_throw (writes_whileBelow
    (marks_targetRecord fun _ _ _ _ _ _ => Or.inl fun g => by simp [total,keepPbat]) len fuel ())

theorem marks_parseApat : Writes Marks (parseApat fuel len) :=
  writes_after still_getUint64 fun _ => writes_ite writes_throw (writes_whileBelow
    (marks_targetRecord fun _ _ _ _ _ _ => Or.inl fun g => by simp [total,keepTarget]) len fuel ())

theorem marks_parseApct : Writes Marks (parseApct fuel len) :=
  writes_after still_getUint64 fun _ => writes_ite (writes_whileBelow (marks_apctRecord1 len) len fuel ())
    (writes_ite (writes_whileBelow (marks_apctRecord2 len) len fuel ()) writes_throw)

theorem marks_parsePbct : Writes Marks (parsePbct fuel len) :=
  writes_after still_getUint64 fun _ => writes_ite (writes_whileBelow (marks_pbctRecord1 len) len fuel ())
    (writes_ite (writes_whileBelow (marks_pbctRecord2 len) len fuel ()) writes_throw)

theorem marks_parsePsvt (name : Option Bytes) : Writes Marks (parsePsvt fuel name len) :=
  writes_after still_getInt fun _ => writes_ite writes_throw
    (writes_bind (writes_whileBelow (fun psvs => still_psvtRecord psvs Marks) len fuel []) fun _ =>
      writes_write (Or.inl fun g => by simp [total]))

theorem marks_parseItmt (name : Option Bytes) : Writes Marks (parseItmt fuel name len) :=
  writes_after still_getInt fun version => writes_ite (writes_done _)
    (writes_bind (writes_whileBelow (fun entries => still_itmtRecord version entries Marks) len fuel []) fun _ =>
      writes_write (Or.inl fun g => by simp [total]))

theorem marks_itmt3Entries (entries : List ItmtEntry) : Writes Marks (itmt3Entries len fuel entries) := by
  induction fuel generalizing entries with
  | zero => exact writes_hang
  | succ fuel ih =>
    unfold itmt3Entries
    refine writes_after still_position fun _ => writes_ite (writes_ite (writes_done _) ?_) (writes_done _)
    exact writes_after (still_cString _) fun _ => writes_after (still_word _ _) fun _ =>
      writes_after (still_cString _) fun _ => writes_after (still_cString _) fun _ =>
      writes_after (still_moveTo _) fun _ => ih _

theorem marks_parseItmt3 (name : Option Bytes) : Writes Marks (parseItmt3 fuel name len) := by
  unfold parseItmt3
  refine writes_ite (writes_done _) (writes_after (still_moveTo _) fun _ => writes_ite (writes_done _) ?_)
  refine writes_bind (marks_itmt3Entries fuel _ _) fun entries => ?_
  cases entries with
  | none => exact writes_done _
  | some entries => exact writes_write (Or.inl fun g => by simp [total])

theorem marks_parseVspt : Writes Marks (parseVspt fuel len) :=
  writes_after still_getInt fun _ => writes_ite (writes_done _) (writes_whileBelow marks_vsptRecord len fuel ())

theorem marks_parseVsct (name : Option Bytes) : Writes Marks (parseVsct fuel name len) :=
  writes_bind (writes_write (Or.inr ⟨_,rfl⟩)) fun _ => writes_after still_getInt fun _ =>
    writes_ite (writes_done _) (writes_whileBelow marks_vsctRecord len fuel ())

theorem marks_parseIdsp : Writes Marks (parseIdsp fuel len) := by
  unfold parseIdsp
  induction fuel with
  | zero => exact writes_hang
  | succ fuel ih =>
    unfold idspEntries
    refine writes_after still_position fun _ => writes_ite (writes_ite (writes_done _) ?_) (writes_done _)
    refine writes_after (still_word _ _) fun _ => writes_ite (writes_done _) ?_
    exact writes_after (still_moveTo _) fun _ => writes_after (still_word _ _) fun _ =>
      writes_after (still_moveTo _) fun _ => writes_after (still_read _ _) fun _ =>
      writes_bind (writes_write (Or.inl fun g => by simp [total])) fun _ => writes_after (still_moveTo _) fun _ => ih

theorem marks_parsePpcc (name : Bytes) : Writes Marks (parsePpcc name len) :=
  writes_after (still_word _ _) fun _ => writes_after (still_word _ _) fun _ => writes_after (still_word _ _) fun _ =>
    writes_after (still_word _ _) fun _ => writes_after (still_word _ _) fun _ => writes_ite (writes_done _)
      (writes_after (still_word _ _) fun _ => writes_after (still_word _ _) fun _ => writes_after (still_word _ _) fun _ =>
        writes_after (still_word _ _) fun _ => writes_after (still_word _ _) fun _ =>
        writes_write (Or.inl fun g => by simp [total]))

theorem marks_parseTripPoint (name point : Bytes) : Writes Marks (parseTripPoint name point) :=
  writes_after (still_word _ _) fun _ => writes_write (Or.inl fun g => by simp [total])

theorem marks_parseTrt : Writes Marks (parseTrt fuel len) :=
  writes_whileBelow (fun u => still_trtRecord u Marks) len fuel ()

theorem marks_parseValue (path : KeyPath) : Writes Marks (parseValue fuel path len) := by
  unfold parseValue
  cases path.type with
  | none => exact writes_done _
  | some type =>
    refine writes_ite ?_ (writes_ite (marks_parsePsvt fuel len _) (writes_ite (marks_parseAppc fuel len)
      (writes_ite (marks_parseApct fuel len) (writes_ite (marks_parsePbat fuel len) (writes_ite (marks_parsePbct fuel len)
      (writes_ite (marks_parseApat fuel len) (writes_ite (marks_parseItmt3 fuel len _) (writes_ite (marks_parseItmt fuel len _)
      (writes_ite ?_ (writes_ite ?_ (writes_ite (marks_parseTrt fuel len) (writes_ite (marks_parseVsct fuel len _)
      (writes_ite (marks_parseVspt fuel len) (writes_done _))))))))))))))
    · cases path.name with
      | none => exact writes_done _
      | some name => exact marks_parsePpcc len name
    · cases path.name with
      | none => exact writes_done _
      | some name => exact marks_parseIdsp fuel len
    · split
      · exact marks_parseTripPoint _ _
      · exact writes_done _

end Tables

theorem made_key (fuel : Nat) (buf : Bytes) (address : Int) : Made Marks (parseGddvKey fuel buf address).effect := by
  unfold parseGddvKey
  split
  · exact .nothing
  · split
    · exact .nothing
    · exact made_effect (marks_parseValue fuel _ _) _ 0

theorem made_andThen {α β : Type} {first : Outcome Vault α} {next : α → Outcome Vault β} (head : Made Marks first.effect)
    (rest : ∀ a,Made Marks (next a).effect) : Made Marks (andThen first next).effect := by
  unfold andThen
  split
  · exact head
  · exact (rest _).comp head

theorem made_parse (lzma : Lzma) (fuel : Nat) :
    (∀ buf address size,Made Marks (parseGddv lzma fuel buf address size).effect) ∧
      ∀ buf f offset,Made Marks (parseItems lzma fuel buf f offset).effect := by
  induction fuel with
  | zero => exact ⟨fun _ _ _ => .nothing,fun _ _ _ => .nothing⟩
  | succ fuel ih =>
    obtain ⟨objects,items⟩ := ih
    constructor
    · intro buf address size
      unfold parseGddv
      split
      · exact .nothing
      · exact .nothing
      · split
        · exact .nothing
        · exact made_andThen (objects _ _ _) fun _ => .nothing
      · exact items _ _ _
    · intro buf f offset
      unfold parseItems
      split
      · split
        · exact .nothing
        · exact .nothing
        · exact made_andThen (made_key _ _ _) fun _ => items _ _ _
        · refine made_andThen (objects _ _ _) fun x => ?_
          split
          · exact .nothing
          · exact items _ _ _
      · exact .nothing

end ChuwiMinibook.VaultWrites
