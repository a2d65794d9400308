import ChuwiMinibook.ConditionTables
import ChuwiMinibook.ConditionWalk
import ChuwiMinibook.SlotForms

namespace ChuwiMinibook.EmptySets
open Gddv GddvTables ByteScan Scan ConditionTables
open ApctSlots (slotsBy slots1_by slots2_by)

-- evaluate_conditions with its access to the first condition of the matched
-- set; none is that access in an empty set.
def evaluateConditionsChecked (env : Surroundings) (g : Gddv) : Option (Gddv × Int) :=
  match evaluateSets env g.currentTargetMatched g.conditions with
  | (conditions,none) => some ({g with conditions := conditions},-1)
  | (conditions,some set) => set.head?.map (fun first =>
    ({g with conditions := conditions,currentTargetMatched := first.target},first.target))

theorem checked_agrees {env : Surroundings} {g : Gddv} {result : Gddv × Int}
    (done : evaluateConditionsChecked env g = some result) : evaluateConditions env g = result := by
  unfold evaluateConditionsChecked at done
  unfold evaluateConditions
  generalize evaluateSets env g.currentTargetMatched g.conditions = searched at done ⊢
  rcases searched with ⟨conditions,found⟩
  cases found with
  | none =>
    cases done
    rfl
  | some set =>
    obtain ⟨first,head,rfl⟩ := Option.map_eq_some_iff.mp done
    simp only [head]
    rfl

def holds (env : Surroundings) (g : Gddv) (set : List Condition) : Bool :=
  (evaluateConditionSet env g.currentTargetMatched set).2

-- The set that evaluate_conditions stops at, the entry evaluate_pbct_conditions
-- reports.
def matchedSet (env : Surroundings) (g : Gddv) : Option (List Condition) := g.conditions.find? (holds env g)

def matchedEntry (env : Surroundings) (g : Gddv) : Option PbctEntry :=
  g.pbcts.find? (fun entry => holds env g entry.conditions)

theorem evaluateSets_found (env : Surroundings) (matched : Int) (sets : List (List Condition)) :
    (evaluateSets env matched sets).2 =
      (sets.find? (fun set => (evaluateConditionSet env matched set).2)).map
        (fun set => (evaluateConditionSet env matched set).1) := by
  induction sets with
  | nil => rfl
  | cons set rest ih =>
    rw [evaluateSets,List.find?_cons]
    rcases evaluated : evaluateConditionSet env matched set with ⟨after,ok⟩
    cases ok with
    | true => simp [evaluated]
    | false => simp [ih]

theorem evaluatePbcts_found (env : Surroundings) (matched : Int) (entries : List PbctEntry) :
    (evaluatePbcts env matched entries).2 =
      (entries.find? (fun entry => (evaluateConditionSet env matched entry.conditions).2)).map (·.target) := by
  induction entries with
  | nil => rfl
  | cons entry rest ih =>
    rw [evaluatePbcts,List.find?_cons]
    rcases evaluateConditionSet env matched entry.conditions with ⟨after,ok⟩
    cases ok with
    | true => rfl
    | false => simp [ih]

theorem reported_entry (env : Surroundings) (g : Gddv) :
    (evaluatePbctConditions env g).2 = (matchedEntry env g).map (·.target) :=
  evaluatePbcts_found env g.currentTargetMatched g.pbcts

theorem evaluated_empty (env : Surroundings) (matched : Int) (set : List Condition) :
    (evaluateConditionSet env matched set).1 = [] ↔ set = [] := by
  cases set with
  | nil => exact Iff.rfl
  | cons c rest =>
    rw [evaluateConditionSet]
    rcases evaluateCondition env matched c with ⟨after,ok⟩
    cases ok <;> simp

theorem checked_inside (env : Surroundings) (g : Gddv) :
    (evaluateConditionsChecked env g).isSome = true ↔ matchedSet env g ≠ some [] := by
  have found := evaluateSets_found env g.currentTargetMatched g.conditions
  change _ = (matchedSet env g).map _ at found
  unfold evaluateConditionsChecked
  generalize evaluateSets env g.currentTargetMatched g.conditions = searched at found ⊢
  rcases searched with ⟨conditions,set⟩
  cases matched : matchedSet env g with
  | none =>
    rw [matched] at found
    cases found
    simp
  | some given =>
    rw [matched] at found
    cases found
    have empty := evaluated_empty env g.currentTargetMatched given
    cases shape : (evaluateConditionSet env g.currentTargetMatched given).1 with
    | nil =>
      simp only [shape]
      simp [empty.mp shape]
    | cons c rest =>
      simp only [shape]
      have filled : given ≠ [] := fun none => List.cons_ne_nil c rest (shape.symm.trans (empty.mpr none))
      simp [filled]

-- The accesses of both evaluations exist, and no set without conditions is what
-- they report.
structure NoEmptyMatch (env : Surroundings) (g : Gddv) : Prop where
  inside : (evaluateConditionsChecked env g).isSome = true
  sets : matchedSet env g ≠ some []
  entries : ∀ entry,matchedEntry env g = some entry → entry.conditions ≠ []

-- Every set without conditions stands behind one whose conditions all hold.
def Guarded (env : Surroundings) (g : Gddv) (sets : List (List Condition)) : Prop :=
  ∀ front back,sets = front++[]::back → ∃ set ∈ front,holds env g set = true

theorem empty_holds (env : Surroundings) (g : Gddv) : holds env g [] = true := rfl

theorem guarded_iff (env : Surroundings) (g : Gddv) (sets : List (List Condition)) :
    Guarded env g sets ↔ sets.find? (holds env g) ≠ some [] := by
  constructor
  · intro guarded found
    obtain ⟨_,front,back,split,earlier⟩ := List.find?_eq_some_iff_append.mp found
    obtain ⟨set,inside,held⟩ := guarded front back split
    have fails := earlier set inside
    rw [held] at fails
    cases fails
  · intro other front back split
    by_contra none
    apply other
    refine List.find?_eq_some_iff_append.mpr ⟨empty_holds env g,front,back,split,?_⟩
    intro set inside
    cases held : holds env g set with
    | false => rfl
    | true => exact absurd ⟨set,inside,held⟩ none

theorem matchedEntry_set (env : Surroundings) (g : Gddv) :
    (g.pbcts.map (·.conditions)).find? (holds env g) = (matchedEntry env g).map (·.conditions) := by
  rw [List.find?_map]
  rfl

theorem guarded_no_empty (env : Surroundings) (g : Gddv) :
    NoEmptyMatch env g ↔ Guarded env g g.conditions ∧ Guarded env g (g.pbcts.map (·.conditions)) := by
  rw [guarded_iff,guarded_iff,matchedEntry_set]
  constructor
  · intro given
    refine ⟨given.sets,?_⟩
    intro found
    obtain ⟨entry,matched,empty⟩ := Option.map_eq_some_iff.mp found
    exact given.entries entry matched empty
  · rintro ⟨sets,entries⟩
    refine ⟨(checked_inside env g).mpr sets,sets,?_⟩
    intro entry matched empty
    exact entries (by rw [matched,Option.map_some,empty])

-- Where the empty sets come from.
abbrev Quiet {α : Type} (p : Parse α) : Prop := ∀ I : Vault → Prop,Obeys I (fun _ => True) p

theorem quiet_getUint64 : Quiet getUint64 := by
  intro I
  refine obeys_any (fun _ => trivial) fun offset => obeys_any (fun _ => trivial) fun type => ?_
  split
  · exact trivial
  · exact fun _ _ => trivial

theorem quiet_getText : Quiet getText := by
  intro I
  refine obeys_any ?_ fun value _ => trivial
  refine obeys_any (fun _ => trivial) fun offset => obeys_any (fun _ => trivial) fun type => ?_
  split
  · exact trivial
  · exact fun _ _ _ => trivial

theorem quiet_skip (n : Int) : Quiet (skip n) := fun _ _ => trivial

section Slots
variable (I : Vault → Prop) (len target : Int)

theorem filled_slotsBy {head : Parse (Nat → Nat → Nat → Condition)} {timePart : Parse (Nat × Nat)} (headQuiet : Quiet head)
    (timeQuiet : Quiet timePart) (left : Nat) (set : List Condition) :
    Obeys I (fun given => given = [] ↔ set = [] ∧ left = 0) (slotsBy len head timePart left set) := by
  induction left using Nat.strong_induction_on generalizing set with
  | _ left ih =>
    match left with
    | 0 =>
      unfold slotsBy
      exact (and_iff_left rfl).symm
    | left+1 =>
      unfold slotsBy
      refine obeys_any (fun _ => trivial) fun offset => ?_
      split
      · exact trivial
      · refine obeys_any (headQuiet I) fun made => ?_
        cases left with
        | zero => simp [Obeys]
        | succ rest =>
          refine obeys_any (quiet_getUint64 I) fun operation => ?_
          split
          · refine obeys_any (timeQuiet I) fun time => ?_
            simpa using ih rest (by omega) (set++[made operation time.1 time.2])
          · simpa using ih (rest+1) (by omega) (set++[_])

theorem filled_slots1 (left : Nat) (set : List Condition) :
    Obeys I (fun given => given = [] ↔ set = [] ∧ left = 0) (slots1 len target left set) := by
  rw [slots1_by]
  refine filled_slotsBy I len ?_ ?_ left set
  · exact fun I => obeys_any (quiet_getUint64 I) fun _ => obeys_any (quiet_getUint64 I) fun _ =>
      obeys_any (quiet_getUint64 I) fun _ => trivial
  · exact fun I => obeys_any (quiet_skip 12 I) fun _ => obeys_any (quiet_getUint64 I) fun _ =>
      obeys_any (quiet_getUint64 I) fun _ => obeys_any (quiet_skip 12 I) fun _ => trivial

theorem filled_slots2 {reserved : Parse Unit} {timePart : Parse (Nat × Nat)} (reservedQuiet : Quiet reserved)
    (timeQuiet : Quiet timePart) (left : Nat) (set : List Condition) :
    Obeys I (fun given => given = [] ↔ set = [] ∧ left = 0) (slots2 len target reserved timePart left set) := by
  rw [slots2_by]
  refine filled_slotsBy I len ?_ timeQuiet left set
  exact fun I => obeys_any (quiet_getUint64 I) fun _ => obeys_any (quiet_getText I) fun _ =>
    obeys_any (reservedQuiet I) fun _ => obeys_any (quiet_getUint64 I) fun _ => obeys_any (quiet_getUint64 I) fun _ => trivial

end Slots

theorem quiet_apctTimePart : Quiet apctTimePart := by
  intro I
  refine obeys_any (quiet_skip 12 I) fun _ => obeys_any ?_ fun _ => obeys_any (quiet_skip 12 I) fun _ =>
    obeys_any (quiet_getUint64 I) fun _ => obeys_any (quiet_getUint64 I) fun _ =>
    obeys_any (quiet_skip 12 I) fun _ => trivial
  refine obeys_any (fun _ => trivial) fun offset => obeys_any (fun _ => trivial) fun type => ?_
  split
  · exact trivial
  · exact fun _ _ _ => trivial

theorem quiet_pbctTimePart : Quiet pbctTimePart := by
  intro I
  refine obeys_any (quiet_getUint64 I) fun _ => obeys_any (quiet_getUint64 I) fun _ =>
    obeys_any (quiet_getUint64 I) fun _ => obeys_any (quiet_getUint64 I) fun _ => ?_
  trivial

theorem quiet_pbctReserved : Quiet pbctReserved := by
  intro I
  refine obeys_any (quiet_getUint64 I) fun _ => ?_
  trivial

theorem slots2_empty {v : Bytes} {len target i j : Int} {reserved : Parse Unit} {timePart : Parse (Nat × Nat)}
    (reservedQuiet : Quiet reserved) (timeQuiet : Quiet timePart) {left : Nat} {set : List Condition}
    (parsed : exec v (slots2 len target reserved timePart left []) i = .ok (set,j)) : set = [] ↔ left = 0 := by
  have filled := filled_slots2 (fun _ => True) len target reservedQuiet timeQuiet left []
  rw [obeys_returns filled parsed]
  exact and_iff_right rfl

theorem apct_set_empty {v : Bytes} {len target count i j : Int} {set : List Condition}
    (parsed : exec v (slots2 len target apctReserved apctTimePart count.toNat []) i = .ok (set,j)) :
    set = [] ↔ count ≤ 0 :=
  (slots2_empty (quiet_skip 12) quiet_apctTimePart parsed).trans Int.toNat_eq_zero

theorem pbct_set_empty {v : Bytes} {len target count i j : Int} {set : List Condition}
    (parsed : exec v (slots2 len target pbctReserved pbctTimePart count.toNat []) i = .ok (set,j)) :
    set = [] ↔ count ≤ 0 :=
  (slots2_empty quiet_pbctReserved quiet_pbctTimePart parsed).trans Int.toNat_eq_zero

def Filled (g : Vault) : Prop :=
  (∀ set ∈ g.conditions,set ≠ []) ∧ ∀ entry ∈ g.pbcts,entry.conditions ≠ []

-- A record of version 1 of either table keeps a set of conditions.
theorem filled_record1 (refused : Nat → Prop) [DecidablePred refused] (keep : Nat → List Condition → Vault → Vault)
    (kept : ∀ target set g,set ≠ [] → Filled g → Filled (keep target set g)) (len : Int) :
    Obeys Filled (fun _ => True) (getUint64.bind fun target => if refused target then .throw
      else (slots1 len (toInt target) 10 []).bind fun set => write (keep target set)) := by
  refine obeys_any (quiet_getUint64 Filled) fun target => ?_
  rw [obeys_ite]
  constructor
  · exact fun _ => trivial
  · intro _
    refine obeys_bind (filled_slots1 Filled len (toInt target) 10 []) fun set given => ⟨?_,trivial⟩
    intro g filled
    refine kept target set g ?_ filled
    intro empty
    cases (given.mp empty).2

theorem filled_apctRecord1 (len : Int) (u : Unit) : Obeys Filled (fun _ => True) (apctRecord1 len u) := by
  refine filled_record1 (fun target => toInt target = -1) (fun _ set g => {g with conditions := g.conditions++[set]})
    ?_ len
  rintro target set g filled ⟨sets,entries⟩
  refine ⟨?_,entries⟩
  intro other listed
  rcases List.mem_append.mp listed with before | now
  · exact sets other before
  · rw [List.mem_singleton.mp now]
    exact filled

theorem filled_pbctRecord1 (len : Int) (u : Unit) : Obeys Filled (fun _ => True) (pbctRecord1 len u) := by
  refine filled_record1 (fun target => target = uint64Max) (fun target set g => {g with pbcts := g.pbcts++[⟨target,set⟩]})
    ?_ len
  rintro target set g filled ⟨sets,entries⟩
  refine ⟨sets,?_⟩
  intro other listed
  rcases List.mem_append.mp listed with before | now
  · exact entries other before
  · rw [List.mem_singleton.mp now]
    exact filled

theorem filled_guarded (env : Surroundings) {g : Vault} (filled : Filled g) :
    Guarded env g.toGddv g.conditions ∧ Guarded env g.toGddv (g.pbcts.map (·.conditions)) := by
  obtain ⟨sets,entries⟩ := filled
  constructor
  · intro front back split
    exact absurd rfl (sets [] (by simp [split]))
  · intro front back split
    have listed : [] ∈ g.pbcts.map (·.conditions) := by simp [split]
    obtain ⟨entry,inside,empty⟩ := List.mem_map.mp listed
    exact absurd empty (entries entry inside)

theorem version_one_filled {v : Bytes} {j : Int} (version : exec v getUint64 0 = .ok (1,j)) (fuel : Nat) (len : Int)
    {g : Vault} (filled : Filled g) :
    Filled (effect v (parseApct fuel len) 0 g) ∧ Filled (effect v (parsePbct fuel len) 0 g) := by
  have quiet := obeys_effect (quiet_getUint64 Filled) v 0 filled
  have unit : ∀ acc : Unit,True → Obeys Filled (fun _ => True) (apctRecord1 len acc) :=
    fun acc _ => filled_apctRecord1 len acc
  constructor
  · unfold parseApct
    rw [bind_eq,effect_bind,version]
    simp only [Function.comp_apply,if_true]
    exact obeys_effect (obeys_whileBelow unit len fuel trivial) v j quiet
  · unfold parsePbct
    rw [bind_eq,effect_bind,version]
    simp only [Function.comp_apply,if_true]
    exact obeys_effect (obeys_whileBelow (fun acc _ => filled_pbctRecord1 len acc) len fuel trivial) v j quiet

-- A table of version 1 leaves no empty set behind, and a record of version 2 one
-- exactly when its count, taken as an int, is not positive.
structure EmptyByCount (v : Bytes) (len : Int) : Prop where
  first : ∀ (env : Surroundings) (fuel : Nat) (g : Vault) (j : Int),exec v getUint64 0 = .ok (1,j) → Filled g →
    ∀ parse ∈ [parseApct fuel len,parsePbct fuel len],
      Filled (effect v parse 0 g) ∧ NoEmptyMatch env (effect v parse 0 g).toGddv
  apct : ∀ (target count i j : Int) (set : List Condition),
    exec v (slots2 len target apctReserved apctTimePart count.toNat []) i = .ok (set,j) → (set = [] ↔ count ≤ 0)
  pbct : ∀ (target count i j : Int) (set : List Condition),
    exec v (slots2 len target pbctReserved pbctTimePart count.toNat []) i = .ok (set,j) → (set = [] ↔ count ≤ 0)

theorem empty_by_count (v : Bytes) (len : Int) : EmptyByCount v len := by
  refine ⟨?_,fun _ _ _ _ _ => apct_set_empty,fun _ _ _ _ _ => pbct_set_empty⟩
  intro env fuel g j version filled parse listed
  obtain ⟨apct,pbct⟩ := version_one_filled version fuel len filled
  have left : Filled (effect v parse 0 g) := by
    rcases List.mem_pair.mp listed with rfl | rfl
    · exact apct
    · exact pbct
  exact ⟨left,(guarded_no_empty env _).mpr (filled_guarded env left)⟩

-- Exact for every vault, with the records that leave an empty set in it.
theorem no_empty_match_iff (env : Surroundings) (g : Gddv) :
    (NoEmptyMatch env g ↔ Guarded env g g.conditions ∧ Guarded env g (g.pbcts.map (·.conditions))) ∧
      ∀ (v : Bytes) (len : Int),EmptyByCount v len :=
  ⟨guarded_no_empty env g,empty_by_count⟩

-- One record with the count 0, which either parser accepts.
def emptyTable : ConditionTable where
  sets := [⟨5,.none,trivial,by decide⟩]
  small := by decide +kernel

def noTables : Vault where
  targets := []
  conditions := []
  psvts := []
  itmts := []
  idsps := []
  pbats := []
  pbcts := []
  currentTargetMatched := -1
  customConditions := []
  ppccs := []
  trippoints := []
  vsctsName := ""
  vscts := []
  vspts := []

def afterTable (v : Bytes) : Vault :=
  (run v (parsePbct 2 (toInt v.length))).effect ((run v (parseApct 2 (toInt v.length))).effect noTables)

def anySurroundings : Surroundings := ⟨1000,fun _ => none,fun _ => none,none,none,none,none,0⟩

theorem empty_table_reported :
    (run emptyTable.bytes (parseApct 2 (toInt emptyTable.bytes.length))).result = .ok () ∧
    (run emptyTable.bytes (parsePbct 2 (toInt emptyTable.bytes.length))).result = .ok () ∧
    ¬NoEmptyMatch anySurroundings (afterTable emptyTable.bytes).toGddv ∧
    (evaluatePbctConditions anySurroundings (afterTable emptyTable.bytes).toGddv).2 = some 5 := by
  have enough : emptyTable.sets.length < 2 := by decide
  have apct := apct_accepts emptyTable enough
  have pbct := pbct_accepts_plain emptyTable (by decide) enough
  have left : (afterTable emptyTable.bytes).toGddv =
      ({noTables with conditions := [[]],pbcts := [⟨5,[]⟩]} : Vault).toGddv := by
    rw [afterTable,apct,pbct]
    rfl
  rw [left]
  refine ⟨by rw [apct],by rw [pbct],?_,rfl⟩
  intro given
  exact given.sets rfl

end ChuwiMinibook.EmptySets
