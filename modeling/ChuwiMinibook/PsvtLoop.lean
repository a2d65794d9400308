import ChuwiMinibook.AdaptiveEngine

namespace ChuwiMinibook.PsvtLoop
open AdaptiveEngine

-- No valid target is the sentinel: the loop leaves such a trip as it is.
def Settled (t : TripPoint) : Prop := isTargetValid t ≠ some tripPtInvalidTargetState

theorem bare_untargeted {p : TripPoint} (bare : p.cdevs = []) : isTargetValid p = none := by
  rw [isTargetValid,bare]
  rfl

theorem untargeted_settled {t : TripPoint} (untargeted : isTargetValid t = none) : Settled t := by
  rw [Settled,untargeted]
  exact (Option.some_ne_none _).symm

instance (t : TripPoint) : Decidable (Settled t) := inferInstanceAs (Decidable (_ ≠ _))

-- A MAX trip and the one behind it, for which the loop stores a midpoint.
structure Halved (t u : TripPoint) (k : Nat) (target : Int) : Prop where
  sentinel : isTargetValid t = some tripPtInvalidTargetState
  sensor : t.sensorId = u.sensorId
  device : getFirstCdev t = some k
  same : getFirstCdev u = some k
  target : isTargetValid u = some target

def half (state target : Int) : Int := (toInt (state+target)).tdiv 2

theorem tdiv_two (n : Int) : n-1 ≤ 2*n.tdiv 2 ∧ 2*n.tdiv 2 ≤ n+1 := by
  rw [Int.tdiv_eq_ediv]
  split
  · omega
  · rw [Int.sign_eq_one_of_pos (by decide)]
    omega

theorem half_small (state target : Int) : half state target ≠ tripPtInvalidTargetState := by
  have near := tdiv_two (toInt (state+target))
  have small : toInt (state+target) ≤ 2147483647 := by
    unfold toInt Int.bmod
    dsimp only
    split <;> omega
  unfold half tripPtInvalidTargetState
  omega

theorem half_between {state target : Int} (fits : FitsInt (state+target)) :
    min state target ≤ half state target ∧ half state target ≤ max state target := by
  have near := tdiv_two (state+target)
  rw [half,toInt_fits fits]
  omega

section Loop
variable (minState : Nat → Int)

-- Everything that the body of the loop can do.
theorem consolidateTrip_cases (t : TripPoint) (next : Option TripPoint) :
    Settled t ∧ consolidateTrip minState t next = t ∨
    ¬Settled t ∧ consolidateTrip minState t next = oneDegreeUp (setFirstTargetInvalid t) ∨
    ∃ u k target,next = some u ∧ Halved t u k target ∧ consolidateTrip minState t next =
      {setFirstTarget t (half (minState k) target) with temp := (u.temp+t.temp) % 4294967296/2} := by
  unfold consolidateTrip
  cases valid : isTargetValid t with
  | none => exact .inl ⟨untargeted_settled valid,rfl⟩
  | some state =>
    dsimp only
    by_cases other : state ≠ tripPtInvalidTargetState
    · rw [if_pos other]
      exact .inl ⟨by rw [Settled,valid]; exact fun same => other (Option.some.inj same),rfl⟩
    · rw [if_neg other]
      have sentinel : isTargetValid t = some tripPtInvalidTargetState := by rw [valid,Decidable.not_not.mp other]
      have unsettled : ¬Settled t := fun settled => settled sentinel
      cases next with
      | none => exact .inr (.inl ⟨unsettled,rfl⟩)
      | some u =>
        dsimp only
        cases same : getFirstCdev u with
        | none => exact .inr (.inl ⟨unsettled,rfl⟩)
        | some k =>
          dsimp only
          cases target : isTargetValid u with
          | none => exact .inr (.inl ⟨unsettled,rfl⟩)
          | some n =>
            dsimp only
            split
            · rename_i both
              exact .inr (.inr ⟨u,k,n,rfl,⟨sentinel,both.1,both.2,same,target⟩,rfl⟩)
            · exact .inr (.inl ⟨unsettled,rfl⟩)

theorem consolidateTrip_halved {t u : TripPoint} {k : Nat} {target : Int} (halved : Halved t u k target) :
    consolidateTrip minState t (some u) =
      {setFirstTarget t (half (minState k) target) with temp := (u.temp+t.temp) % 4294967296/2} := by
  unfold consolidateTrip
  rw [halved.sentinel]
  dsimp only
  rw [if_neg (by simp),halved.same]
  dsimp only
  rw [halved.target]
  exact if_pos ⟨halved.sensor,halved.device⟩

theorem invalid_untargeted {t : TripPoint} (single : t.cdevs.length ≤ 1) :
    isTargetValid (oneDegreeUp (setFirstTargetInvalid t)) = none := by
  unfold isTargetValid oneDegreeUp setFirstTargetInvalid
  cases shape : t.cdevs with
  | nil => rfl
  | cons b rest =>
    rw [shape,List.length_cons] at single
    rw [List.length_eq_zero_iff.mp (by omega : rest.length = 0)]
    rfl

theorem stored_target {t : TripPoint} {k : Nat} (device : getFirstCdev t = some k) (state : Int) (temp : Nat) :
    isTargetValid {setFirstTarget t state with temp := temp} = some state := by
  unfold getFirstCdev at device
  unfold isTargetValid setFirstTarget
  cases shape : t.cdevs with
  | nil =>
    rw [shape] at device
    cases device
  | cons b rest => rfl

theorem settled_after {t : TripPoint} (single : t.cdevs.length ≤ 1) (next : Option TripPoint) :
    Settled (consolidateTrip minState t next) := by
  rcases consolidateTrip_cases minState t next with ⟨settled,same⟩ | ⟨_,raised⟩ | ⟨u,k,target,_,halved,stored⟩
  · rw [same]
    exact settled
  · rw [raised]
    exact untargeted_settled (invalid_untargeted single)
  · rw [stored,Settled,stored_target halved.device]
    exact fun same => half_small _ _ (Option.some.inj same)

theorem consolidateTrip_settled {t : TripPoint} (settled : Settled t) (next : Option TripPoint) :
    consolidateTrip minState t next = t := by
  rcases consolidateTrip_cases minState t next with ⟨_,same⟩ | ⟨unsettled,_⟩ | ⟨_,_,_,_,halved,_⟩
  · exact same
  · exact absurd settled unsettled
  · exact absurd halved.sentinel settled

theorem consolidateTrips_settles {trips : List TripPoint} (single : ∀ t ∈ trips,t.cdevs.length ≤ 1) :
    ∀ t ∈ consolidateTrips minState trips,Settled t := by
  induction trips with
  | nil =>
    intro t inside
    cases inside
  | cons t rest ih =>
    intro u inside
    rcases List.mem_cons.mp inside with rfl | later
    · exact settled_after minState (single t List.mem_cons_self) rest.head?
    · exact ih (fun v listed => single v (List.mem_cons_of_mem t listed)) u later

theorem consolidateTrips_settled {trips : List TripPoint} (settled : ∀ t ∈ trips,Settled t) :
    consolidateTrips minState trips = trips := by
  induction trips with
  | nil => rfl
  | cons t rest ih =>
    rw [consolidateTrips,consolidateTrip_settled minState (settled t List.mem_cons_self),
      ih (fun u inside => settled u (List.mem_cons_of_mem t inside))]

-- The fixed points of the loop.
theorem consolidateTrips_fixed_iff {trips : List TripPoint} (single : ∀ t ∈ trips,t.cdevs.length ≤ 1) :
    consolidateTrips minState trips = trips ↔ ∀ t ∈ trips,Settled t := by
  constructor
  · intro fixed
    have settled := consolidateTrips_settles minState single
    rw [fixed] at settled
    exact settled
  · exact consolidateTrips_settled minState

theorem consolidateTrips_at (front : List TripPoint) (t u : TripPoint) (back : List TripPoint) :
    (consolidateTrips minState (front++t::u::back))[front.length]? = some (consolidateTrip minState t (some u)) := by
  induction front with
  | nil => rfl
  | cons first front ih => exact ih

end Loop

end ChuwiMinibook.PsvtLoop
