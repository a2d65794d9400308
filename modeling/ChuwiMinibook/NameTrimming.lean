import ChuwiMinibook.AdaptiveEngine
import Mathlib.Data.List.DropRight

namespace ChuwiMinibook.StdString

-- while (s.back() == c) s.pop_back(); none is back() of an empty string.
def popBackWhile (c : Char) (s : List Char) : Option (List Char) :=
  if empty : s = [] then none
  else if s.getLast empty = c then popBackWhile c s.dropLast
  else some s
termination_by s.length
decreasing_by
  have := List.length_pos_iff.mpr empty
  rw [List.length_dropLast]
  omega

theorem popBackWhile_nil (c : Char) : popBackWhile c [] = none := by
  rw [popBackWhile,dif_pos rfl]

theorem popBackWhile_snoc (c b : Char) (s : List Char) :
    popBackWhile c (s++[b]) = if b = c then popBackWhile c s else some (s++[b]) := by
  rw [popBackWhile,dif_neg (by simp),List.getLast_append_singleton,List.dropLast_concat]

theorem popBackWhile_eq (c : Char) (s : List Char) :
    popBackWhile c s = if s.any (· ≠ c) then some (s.rdropWhile (· = c)) else none := by
  induction s using List.reverseRecOn with
  | nil => exact popBackWhile_nil c
  | append_singleton s b ih =>
    rw [popBackWhile_snoc,List.rdropWhile_concat,List.any_append]
    by_cases same : b = c
    · rw [if_pos same,ih]
      subst same
      simp
    · simp [same]

theorem popBackAll_toList (c : Char) (s : String) : (popBackAll c s).toList = s.toList.rdropWhile (· = c) := by
  rw [popBackAll,String.toList_ofList]
  rfl

theorem afterLast_toList (c : Char) (s : String) : (afterLast c s).toList = s.toList.rtakeWhile (· ≠ c) := by
  rw [afterLast,String.toList_ofList]
  rfl

-- A string is its part behind the last separator, or that and a separator in front.
theorem afterLast_split (c : Char) (s : String) :
    s.toList = (afterLast c s).toList ∨ ∃ front,s.toList = front++c::(afterLast c s).toList := by
  have whole : s.toList.rdropWhile (· ≠ c)++s.toList.rtakeWhile (· ≠ c) = s.toList :=
    List.rdropWhile_append_rtakeWhile
  rw [afterLast_toList]
  rcases List.eq_nil_or_concat (s.toList.rdropWhile (· ≠ c)) with none | ⟨front,b,ends⟩
  · rw [none,List.nil_append] at whole
    exact .inl whole.symm
  · rw [List.concat_eq_append] at ends
    have nonempty : s.toList.rdropWhile (· ≠ c) ≠ [] := by
      rw [ends]
      exact List.append_ne_nil_of_right_ne_nil _ (List.cons_ne_nil b [])
    have stopped := List.rdropWhile_last_not _ _ nonempty
    simp only [ends,List.getLast_append_singleton] at stopped
    have same : b = c := by simpa using stopped
    rw [ends,same,List.append_assoc] at whole
    exact .inr ⟨front,whole.symm⟩

theorem afterLast_apart (c : Char) (s : String) : c ∉ (afterLast c s).toList := by
  intro member
  rw [afterLast_toList] at member
  simpa using List.mem_rtakeWhile_imp member

end ChuwiMinibook.StdString

namespace ChuwiMinibook.AdaptiveEngine
open StdString

-- The extraction of a name as the functions below run it.
def extractName (path : String) : Option String := (popBackWhile '_' (afterLast '.' path).toList).map String.ofList

-- A name is the last dot-separated component of a path without its trailing underscores.
structure LastName (path name : List Char) : Prop where
  component : ∃ under,(∀ c ∈ under,c = '_') ∧ '.' ∉ name ++ under ∧
    (path = name ++ under ∨ ∃ front,path = front ++ '.' :: (name ++ under))
  trimmed : name.getLast? ≠ some '_'

-- The last component has a character that is no underscore.
def Named (path : String) : Prop := ∃ c ∈ (afterLast '.' path).toList,c ≠ '_'

instance (path : String) : Decidable (Named path) :=
  decidable_of_iff ((afterLast '.' path).toList.any (· ≠ '_') = true) (by simp [Named])

theorem extractName_eq (path : String) : extractName path = if Named path then some (participant path) else none := by
  have trimmed : String.ofList ((afterLast '.' path).toList.rdropWhile (· = '_')) = participant path := by
    rw [← popBackAll_toList,String.ofList_toList,participant]
  have other : (afterLast '.' path).toList.any (· ≠ '_') = true ↔ Named path := by simp [Named]
  rw [extractName,popBackWhile_eq]
  by_cases named : Named path
  · rw [if_pos named,if_pos (other.mpr named),Option.map_some,trimmed]
  · rw [if_neg named,if_neg (fun any => named (other.mp any)),Option.map_none]

theorem participant_lastName (path : String) : LastName path.toList (participant path).toList := by
  have trimmed : (participant path).toList = (afterLast '.' path).toList.rdropWhile (· = '_') := by
    rw [participant,popBackAll_toList]
  have whole : (participant path).toList++(afterLast '.' path).toList.rtakeWhile (· = '_') = (afterLast '.' path).toList := by
    rw [trimmed]
    exact List.rdropWhile_append_rtakeWhile
  refine ⟨⟨(afterLast '.' path).toList.rtakeWhile (· = '_'),?_,?_,?_⟩,?_⟩
  · intro c member
    simpa using List.mem_rtakeWhile_imp member
  · rw [whole]
    exact afterLast_apart '.' path
  · rw [whole]
    exact afterLast_split '.' path
  · intro last
    rw [trimmed] at last
    have nonempty : (afterLast '.' path).toList.rdropWhile (· = '_') ≠ [] := by
      intro empty
      rw [empty] at last
      cases last
    have stopped := List.rdropWhile_last_not _ _ nonempty
    rw [List.getLast?_eq_some_getLast nonempty] at last
    simp [Option.some.inj last] at stopped

section Callers
variable {σ : Type} (host : Host σ) (e : Engine σ)

-- install_passive trims the source only once it has found the zone of the target.
def installPassiveTrimming (psv : Psv) : Option (Engine σ) :=
  (extractName psv.target).bind fun psvZone =>
    match zoneFor e psvZone with
    | none => some e
    | some (i,zone) =>
      (extractName psv.source).map fun psvCdev =>
        match cdevFor e psvCdev with
        | none => e
        | some k =>
          match e.searchSensor zone with
          | none => e
          | some sensor =>
            let state := limitState psv.limit
            {e with zones := e.zones.modify i (fun z => install host.sort e.sensors z
              (passiveTrip host.sort e.cdevType z (toUnsigned (psvTemp zone psv.temp)) 0 sensor k
                (psv.samplePeriod.tdiv 10) (state ≠ 0) state false 0 0))}

-- In set_trip stof comes first; the inner none is its exception.
def setTripTrimming (t : AdaptiveTarget) : Option (Option (Engine σ)) :=
  match host.stofMilli t.argument with
  | none => some none
  | some temp =>
    (extractName t.participant).map fun psvZone =>
      match e.searchZone psvZone with
      | none => some e
      | some i => some {e with zones := e.zones.modify i (updateFirstPassive (toUnsigned temp))}

def installItmtTrimming (entry : ItmtEntry) : Option (Engine σ) :=
  (extractName entry.target).map fun itmtZone =>
    match zoneFor e itmtZone with
    | none => e
    | some (i,zone) =>
      match e.searchCdev "rapl_controller_mmio" with
      | none => e
      | some k =>
        match e.searchSensor zone with
        | none => e
        | some sensor =>
          {e with zones := e.zones.modify i (fun z => install host.sort e.sensors z
            (passiveTrip host.sort e.cdevType z (toUnsigned (toInt ((entry.tripPoint - 2732)*100))) itmtHyst sensor k
              defaultSampleTimeSec false 0 true (limitState entry.pl1Max) (limitState entry.pl1Min)))}

-- The names that a call of install_passive trims.
def PassiveNamed (psv : Psv) : Prop :=
  Named psv.target ∧ ((zoneFor e (participant psv.target)).isSome = true → Named psv.source)

instance (psv : Psv) : Decidable (PassiveNamed e psv) := inferInstanceAs (Decidable (_ ∧ _))

theorem installPassiveTrimming_eq (psv : Psv) : installPassiveTrimming host e psv =
    if PassiveNamed e psv then some (installPassive host e psv) else none := by
  by_cases named : PassiveNamed e psv
  · rw [if_pos named]
    unfold installPassiveTrimming installPassive
    rw [extractName_eq,if_pos named.1,Option.bind_some]
    cases found : zoneFor e (participant psv.target) with
    | none => rfl
    | some place =>
      have source : Named psv.source := named.2 (by rw [found]; rfl)
      rw [extractName_eq,if_pos source]
      rfl
  · rw [if_neg named]
    unfold installPassiveTrimming
    rw [extractName_eq]
    by_cases target : Named psv.target
    · rw [if_pos target,Option.bind_some]
      cases found : zoneFor e (participant psv.target) with
      | none => exact absurd ⟨target,fun zone => by simp [found] at zone⟩ named
      | some place =>
        have source : ¬Named psv.source := fun source => named ⟨target,fun _ => source⟩
        rw [extractName_eq,if_neg source]
        rfl
    · rw [if_neg target]
      rfl

theorem setTripTrimming_eq (t : AdaptiveTarget) : setTripTrimming host e t =
    if host.stofMilli t.argument = none ∨ Named t.participant then some (setTrip host e t) else none := by
  unfold setTripTrimming setTrip
  cases host.stofMilli t.argument with
  | none => rfl
  | some temp =>
    rw [extractName_eq]
    by_cases named : Named t.participant
    · simp only [named,if_true,or_true,Option.map_some]
      cases e.searchZone (participant t.participant) <;> rfl
    · simp [named]

theorem installItmtTrimming_eq (entry : ItmtEntry) : installItmtTrimming host e entry =
    if Named entry.target then some (installItmt host e entry) else none := by
  unfold installItmtTrimming installItmt
  rw [extractName_eq]
  by_cases named : Named entry.target
  · rw [if_pos named,if_pos named]
    rfl
  · rw [if_neg named,if_neg named]
    rfl

end Callers

-- The extraction is right exactly for a path whose last component has more than
-- underscores, and each caller gets past its names exactly when they are so.
theorem names_trimmed_iff {σ : Type} (host : Host σ) (e : Engine σ) :
    (∀ path : String,(∃ name,extractName path = some name ∧ LastName path.toList name.toList) ↔ Named path) ∧
    (∀ psv,(installPassiveTrimming host e psv).isSome = true ↔ PassiveNamed e psv) ∧
    (∀ t,(setTripTrimming host e t).isSome = true ↔ host.stofMilli t.argument = none ∨ Named t.participant) ∧
    (∀ entry,(installItmtTrimming host e entry).isSome = true ↔ Named entry.target) := by
  refine ⟨?_,?_,?_,?_⟩
  · intro path
    rw [extractName_eq]
    constructor
    · rintro ⟨name,extracted,_⟩
      by_cases named : Named path
      · exact named
      · rw [if_neg named] at extracted
        cases extracted
    · intro named
      exact ⟨participant path,if_pos named,participant_lastName path⟩
  · intro psv
    rw [installPassiveTrimming_eq]
    split <;> simp [*]
  · intro t
    rw [setTripTrimming_eq]
    split <;> simp [*]
  · intro entry
    rw [installItmtTrimming_eq]
    split <;> simp [*]

theorem underscores_read_empty : ¬∀ path : String,∃ name,extractName path = some name ∧ LastName path.toList name.toList := by
  intro total
  obtain ⟨name,extracted,_⟩ := total "\\_SB_.___"
  have empty : extractName "\\_SB_.___" = none := by
    rw [extractName_eq,if_neg (by decide)]
  rw [empty] at extracted
  cases extracted

end ChuwiMinibook.AdaptiveEngine
