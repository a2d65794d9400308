import ChuwiMinibook.CdevActions
import ChuwiMinibook.CdevArbitration

namespace ChuwiMinibook.TargetArbitration
open Cdev CdevActions CdevArbitration Machine
variable {σ : Type} (srt : StdSort)

-- From the least to the most restrictive target in the direction of the range.
def Ordered (d : Dev σ) (limits : List ZoneTripLimit) : Prop :=
  limits.Pairwise (fun a b => cooling d a.targetValue ≤ cooling d b.targetValue)

-- The target in force: that of the last entry, or min_state without one.
def inForce (d : Dev σ) (limits : List ZoneTripLimit) : Int :=
  (limits.getLast?.map (·.targetValue)).getD d.minState

structure Restricts (c : Cdev σ) : Prop where
  targeted : ∀ l ∈ c.zoneTripLimits,l.targetStateValid = true
  ordered : Ordered c.dev c.zoneTripLimits
  current : c.dev.currState = inForce c.dev c.zoneTripLimits

-- An unforced request with a target; activations come after the debounce interval.
structure Targeted (c : Cdev σ) (call : Call) : Prop where
  unforced : call.request.force = false
  targeted : call.request.targetStateValid = true
  late : call.request.state = true → c.dev.debounceInterval < call.now - c.dev.lastActionTime

-- "Target state and min_max_valid or mutually exclusive in thermal tables."
structure Plain (c : Cdev σ) (call : Call) : Prop extends Targeted c call where
  plain : call.request.state = true → call.request.minMaxValid = false

theorem sortClamp_ordered {d : Dev σ} (distinct : d.minState ≠ d.maxState) (limits : List ZoneTripLimit) :
    Ordered d (srt.sort (if d.minState < d.maxState then sortClampValuesAsc else sortClampValuesDec) limits) := by
  by_cases up : d.minState < d.maxState
  · rw [if_pos up]
    have sorted := srt.sorted sortClampValuesAsc limits (by simp [sortClampValuesAsc]; omega)
      (by simp [sortClampValuesAsc]; omega)
    refine sorted.imp ?_
    intro a b below
    simpa [sortClampValuesAsc,cooling,Int.le_of_lt up] using below
  · have down : ¬ d.minState ≤ d.maxState := by omega
    rw [if_neg up]
    have sorted := srt.sorted sortClampValuesDec limits (by simp [sortClampValuesDec]; omega)
      (by simp [sortClampValuesDec]; omega)
    refine sorted.imp ?_
    intro a b below
    simpa [sortClampValuesDec,cooling,down] using below

theorem enlist_found {d : Dev σ} {limits : List ZoneTripLimit} {q : Request} (found : q.pair ∈ limits.map (·.pair)) :
    enlist srt d limits q = limits := by
  obtain ⟨l,inside,same⟩ := List.mem_map.mp found
  exact if_pos (List.any_eq_true.mpr ⟨l,inside,by simpa using same⟩)

theorem enlist_new {d : Dev σ} {limits : List ZoneTripLimit} {q : Request} (missing : q.pair ∉ limits.map (·.pair))
    (targeted : q.targetStateValid = true) (plain : q.minMaxValid = false) :
    enlist srt d limits q = srt.sort (if d.minState < d.maxState then sortClampValuesAsc else sortClampValuesDec)
      (limits++[newLimit d q]) := by
  have absent : ¬ limits.any (fun l => l.pair = q.pair) = true := by
    intro found
    obtain ⟨l,inside,same⟩ := List.any_eq_true.mp found
    exact missing (List.mem_map.mpr ⟨l,inside,by simpa using same⟩)
  unfold enlist
  rw [if_neg absent]
  simp only [targeted,plain,if_true,Bool.false_eq_true,if_false]

theorem ordered_last {d : Dev σ} {front : List ZoneTripLimit} {last l : ZoneTripLimit}
    (ordered : Ordered d (front++[last])) (inside : l ∈ front++[last]) :
    cooling d l.targetValue ≤ cooling d last.targetValue := by
  rcases List.mem_append.mp inside with early | own
  · exact (List.pairwise_append.mp ordered).2.2 l early last (List.mem_singleton_self _)
  · rw [List.mem_singleton.mp own]

theorem inForce_snoc (d : Dev σ) (front : List ZoneTripLimit) (last : ZoneTripLimit) :
    inForce d (front++[last]) = last.targetValue := by simp [inForce]

theorem cmpCurrentState_le {d : Dev σ} (distinct : d.minState ≠ d.maxState) (state : Int) :
    cmpCurrentState base d state ≤ 0 ↔ cooling d state ≤ cooling d d.currState := by
  unfold cmpCurrentState cooling
  simp only [show ∀ d : Dev σ,(base : Methods σ).getCurrState d = d.currState from fun _ => rfl]
  repeat' split
  all_goals omega

-- What Restricts says does not depend on the rest of the device.
theorem restricts_acted {c : Cdev σ} {d : Dev σ} {limits : List ZoneTripLimit} (low : d.minState = c.dev.minState)
    (high : d.maxState = c.dev.maxState) (targeted : ∀ l ∈ limits,l.targetStateValid = true)
    (ordered : Ordered c.dev limits) (current : d.currState = inForce c.dev limits) :
    Restricts {c with dev := d,zoneTripLimits := limits} := by
  refine ⟨targeted,?_,?_⟩
  · simpa only [Ordered,cooling,low,high] using ordered
  · show d.currState = inForce d limits
    rw [current,inForce,inForce,low]

-- A call that acts with a target in force leaves the device there.
theorem setState_acted {c : Cdev σ} {call : Call} {limits : List ZoneTripLimit} {o : Order}
    (decided : arbitrate base srt c call.now call.request = (limits,some o)) (valid : o.targetStateValid = true)
    (value : o.targetValue = inForce c.dev limits) (targeted : ∀ l ∈ limits,l.targetStateValid = true)
    (ordered : Ordered c.dev limits) : Restricts (step base srt c call) := by
  have acted := actuate_target base c.dev call.now call.request o call.pid valid
  have range := actuate_range base c.dev call.now call.request o call.pid
  unfold step thdCdevSetState
  rw [decided]
  exact restricts_acted acted.2 range.2 targeted ordered (acted.1.trans value)

theorem setState_kept {c : Cdev σ} {call : Call} {limits : List ZoneTripLimit}
    (decided : arbitrate base srt c call.now call.request = (limits,none))
    (value : c.dev.currState = inForce c.dev limits) (targeted : ∀ l ∈ limits,l.targetStateValid = true)
    (ordered : Ordered c.dev limits) : Restricts (step base srt c call) := by
  unfold step thdCdevSetState
  rw [decided]
  exact restricts_acted rfl rfl targeted ordered value

-- The list after an activation, and its last entry against the target in force before.
theorem enlist_spec {c : Cdev σ} (distinct : c.dev.minState ≠ c.dev.maxState) (restricts : Restricts c) {q : Request}
    (targeted : q.targetStateValid = true) (plain : q.minMaxValid = false) :
    ∃ front last,enlist srt c.dev c.zoneTripLimits q = front++[last] ∧ Ordered c.dev (front++[last]) ∧
      (∀ l ∈ front++[last],l.targetStateValid = true) ∧
      (c.zoneTripLimits ≠ [] → cooling c.dev c.dev.currState ≤ cooling c.dev last.targetValue) := by
  have valid : ∀ l ∈ enlist srt c.dev c.zoneTripLimits q,l.targetStateValid = true := by
    intro l inside
    rcases enlist_mem srt inside with old | rfl
    · exact restricts.targeted l old
    · exact targeted
  have ordered : Ordered c.dev (enlist srt c.dev c.zoneTripLimits q) := by
    by_cases found : q.pair ∈ c.zoneTripLimits.map (·.pair)
    · rw [enlist_found srt found]
      exact restricts.ordered
    · rw [enlist_new srt found targeted plain]
      exact sortClamp_ordered srt distinct _
  have kept : ∀ l ∈ c.zoneTripLimits,l ∈ enlist srt c.dev c.zoneTripLimits q := by
    intro l inside
    by_cases found : q.pair ∈ c.zoneTripLimits.map (·.pair)
    · rwa [enlist_found srt found]
    · rw [enlist_new srt found targeted plain,srt.mem_sort]
      exact List.mem_append_left _ inside
  rcases (enlist srt c.dev c.zoneTripLimits q).eq_nil_or_concat' with empty | ⟨front,last,shape⟩
  · have perm := enlist_pairs srt c.dev c.zoneTripLimits q
    rw [empty,List.map_nil] at perm
    have gone := perm.nil_eq
    split at gone
    · rename_i found
      rw [← gone] at found
      cases found
    · simp at gone
  · rw [shape] at valid ordered kept
    refine ⟨front,last,shape,ordered,valid,?_⟩
    intro filled
    obtain ⟨before,top,whole⟩ := c.zoneTripLimits.eq_nil_or_concat'.resolve_left filled
    have top_in : top ∈ c.zoneTripLimits := by simp [whole]
    rw [restricts.current,whole,inForce_snoc]
    exact ordered_last ordered (kept top top_in)

theorem activation_restricts {c : Cdev σ} {call : Call} (distinct : c.dev.minState ≠ c.dev.maxState)
    (restricts : Restricts c) (plain : Plain c call) (on : call.request.state = true) :
    Restricts (step base srt c call) := by
  obtain ⟨front,last,shape,ordered,valid,above⟩ := enlist_spec srt distinct restricts plain.targeted (plain.plain on)
  have lastValid : last.targetStateValid = true := valid last (by simp)
  have late := plain.late on
  by_cases already : (!c.zoneTripLimits.isEmpty && last.targetStateValid &&
      decide (cmpCurrentState base c.dev last.targetValue ≤ 0)) = true
  · have decided : arbitrate base srt c call.now call.request = (front++[last],none) := by
      unfold arbitrate
      rw [if_pos on,shape]
      simp only [List.getLastD_concat]
      exact if_pos already
    refine setState_kept srt decided ?_ valid ordered
    simp only [Bool.and_eq_true,Bool.not_eq_true',List.isEmpty_eq_false_iff,decide_eq_true_eq] at already
    obtain ⟨⟨filled,_⟩,below⟩ := already
    have same : cooling c.dev c.dev.currState = cooling c.dev last.targetValue :=
      Int.le_antisymm (above filled) ((cmpCurrentState_le distinct _).mp below)
    rw [inForce_snoc]
    exact cooling_inj.mp same
  · have decided : arbitrate base srt c call.now call.request = (front++[last],some (ZoneTripLimit.order last)) := by
      unfold arbitrate
      rw [if_pos on,shape]
      simp only [List.getLastD_concat]
      rw [if_neg]
      · rw [if_neg]
        simp [Int.not_le.mpr late]
      · exact already
    exact setState_acted srt decided lastValid (inForce_snoc _ _ _).symm valid ordered

theorem deactivation_restricts {c : Cdev σ} {call : Call} (distinct : c.dev.minState ≠ c.dev.maxState)
    (restricts : Restricts c) (plain : Plain c call) (off : call.request.state = false) :
    Restricts (step base srt c call) := by
  rcases c.zoneTripLimits.eq_nil_or_concat' with empty | ⟨front,last,shape⟩
  · have idle : inMinState base c.dev = true := by
      have low : c.dev.currState = c.dev.minState := by simp [restricts.current,inForce,empty]
      simp only [inMinState,show (base : Methods σ).getCurrState c.dev = c.dev.currState from rfl,low]
      simp only [Bool.or_eq_true,decide_eq_true_eq]
      omega
    have decided := arbitrate_empty base srt call.now off empty
    rw [if_pos idle] at decided
    exact setState_kept srt decided (by rw [restricts.current,empty]) (by simp) List.Pairwise.nil
  · have valid := restricts.targeted
    have ordered := restricts.ordered
    rw [shape] at valid ordered
    have early : ∀ l ∈ front,l.targetStateValid = true := fun l inside => valid l (List.mem_append_left _ inside)
    have sorted : Ordered c.dev front := (List.pairwise_append.mp ordered).1
    by_cases own : last.pair = call.request.pair
    · rcases front.eq_nil_or_concat' with rfl | ⟨before,next,rfl⟩
      · have decided := arbitrate_single base srt call.now off shape own
        rw [if_pos (valid last (by simp))] at decided
        exact setState_acted srt decided plain.targeted rfl (by simp) List.Pairwise.nil
      · have decided : arbitrate base srt c call.now call.request =
            (before++[next],some (ZoneTripLimit.order next)) := by
          unfold arbitrate
          rw [if_neg (by simp [off]),shape]
          simp only [List.getLast?_append,List.getLast?_singleton,Option.some_or,own,if_true,List.dropLast_concat]
        exact setState_acted srt decided (early next (by simp)) (inForce_snoc _ _ _).symm early sorted
    · have decided : arbitrate base srt c call.now call.request = (front++[last],none) := by
        unfold arbitrate
        rw [if_neg (by simp [off]),shape]
        simp only [List.getLast?_append,List.getLast?_singleton,Option.some_or,own,if_false]
      exact setState_kept srt decided (by rw [restricts.current,shape]) valid ordered

theorem restricts_fresh {c : Cdev σ} (fresh : c.zoneTripLimits = []) (low : c.dev.currState = c.dev.minState) :
    Restricts c := by
  refine ⟨?_,?_,?_⟩
  · simp [fresh]
  · rw [fresh]
    exact List.Pairwise.nil
  · rw [low,fresh]
    rfl

theorem step_restricts {c : Cdev σ} {call : Call} (distinct : c.dev.minState ≠ c.dev.maxState)
    (restricts : Restricts c) (plain : Plain c call) : Restricts (step base srt c call) := by
  cases state : call.request.state with
  | true => exact activation_restricts srt distinct restricts plain state
  | false => exact deactivation_restricts srt distinct restricts plain state

theorem targets_arbitrated {c : Cdev σ} (distinct : c.dev.minState ≠ c.dev.maxState) (start : Restricts c)
    {calls : List Call} (plain : Meets (step base srt) Plain c calls) :
    ∀ first second,calls = first++second → Restricts (run (step base srt) c first) := by
  intro first second split
  subst split
  have kept (c : Cdev σ) (call : Call) (inv : c.dev.minState ≠ c.dev.maxState ∧ Restricts c) (plain : Plain c call) :
      (step base srt c call).dev.minState ≠ (step base srt c call).dev.maxState ∧ Restricts (step base srt c call) := by
    obtain ⟨low,high⟩ := setState_range base srt c call.now call.request call.pid
    refine ⟨?_,step_restricts srt inv.1 inv.2 plain⟩
    rw [step,low,high]
    exact inv.1
  exact (run_invariant kept ⟨distinct,start⟩ (meets_append.mp plain).1).2

-- Two trips on a device of the base class, from 0 to 10.
def coolingFan : Cdev Unit :=
  ⟨0,"Fan","",⟨0,10,0,0,0,1,false,2,0,false,false,Pid.new,false,0,0,()⟩,[]⟩

def fanTarget (now : Int) (state : Bool) (trip target : Int) (minMaxValid : Bool) (low high : Int) : Call :=
  ⟨now,⟨50000,60000,false,state,1,trip,true,target,none,false,minMaxValid,low,high⟩,Pid.new⟩

-- With limits besides the targets the list is in the order of the limits.
theorem limits_reorder_targets : ∃ calls,coolingFan.dev.minState ≠ coolingFan.dev.maxState ∧ Restricts coolingFan ∧
    Meets (step base StdSort.insertion) Targeted coolingFan calls ∧
    ¬Restricts (run (step base StdSort.insertion) coolingFan calls) := by
  refine ⟨[fanTarget 10 true 1 8 true 5 10,fanTarget 20 true 2 3 true 9 10],by decide,restricts_fresh rfl rfl,?_,?_⟩
  · exact ⟨⟨rfl,rfl,fun _ => by decide⟩,⟨rfl,rfl,fun _ => by decide⟩,trivial⟩
  · intro restricts
    exact absurd restricts.current (by decide)

theorem targets_arbitrated_two_trips : coolingFan.dev.minState ≠ coolingFan.dev.maxState ∧
    Restricts (run (step base StdSort.insertion) coolingFan
      [fanTarget 10 true 1 8 false 0 0,fanTarget 20 true 2 3 false 0 0,fanTarget 21 false 1 8 false 0 0]) := by
  have plain : Meets (step base StdSort.insertion) Plain coolingFan
      [fanTarget 10 true 1 8 false 0 0,fanTarget 20 true 2 3 false 0 0,fanTarget 21 false 1 8 false 0 0] :=
    ⟨⟨⟨rfl,rfl,fun _ => by decide⟩,fun _ => rfl⟩,⟨⟨rfl,rfl,fun _ => by decide⟩,fun _ => rfl⟩,
      ⟨⟨rfl,rfl,fun on => absurd on (by decide)⟩,fun on => absurd on (by decide)⟩,trivial⟩
  have distinct : coolingFan.dev.minState ≠ coolingFan.dev.maxState := by decide
  exact ⟨distinct,targets_arbitrated StdSort.insertion distinct (restricts_fresh rfl rfl) plain _ [] (List.append_nil _).symm⟩

end ChuwiMinibook.TargetArbitration
