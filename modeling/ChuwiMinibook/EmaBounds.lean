import ChuwiMinibook.OrientFilter
import ChuwiMinibook.MovingAverage
import Mathlib.Algebra.Field.Rat
import Mathlib.Algebra.Order.Ring.Rat
import Mathlib.Tactic.NormNum

namespace ChuwiMinibook.EmaBounds
open Mxc6655 OrientFilter MovingAverage

-- The averages of one axis, and what is smoothed.
structure Axis (K : Type) where
  emaDelta : K
  emaAbsDelta : K
  smoothed : K

variable {K : Type} [Field K]

def axis (s : OrientState K) (i : Nat) : Axis K := ⟨s.emaDelta.getD i 0,s.emaAbsDelta.getD i 0,s.smoothed.getD i 0⟩

def component (v : Vec3 K) (i : Nat) : K := [v.x,v.y,v.z].getD i 0

variable [LinearOrder K]

def Within (M : K) (v : Vec3 K) : Prop := ∀ i < 3,-M ≤ component v i ∧ component v i ≤ M

-- What holds of an axis between two samples.
structure Bounded (M : K) (a : Axis K) : Prop where
  follows : |a.emaDelta| ≤ a.emaAbsDelta
  inside : -M ≤ a.smoothed ∧ a.smoothed ≤ M

def emaStep (a : Axis K) (x : K) : Axis K :=
  ⟨(emaAxis a.emaDelta a.emaAbsDelta a.smoothed x).1,(emaAxis a.emaDelta a.emaAbsDelta a.smoothed x).2.1,
    (emaAxis a.emaDelta a.emaAbsDelta a.smoothed x).2.2⟩

theorem axis_emaSmooth (s : OrientState K) (input : Vec3 K) {i : Nat} (one : i < 3) :
    axis (emaSmooth s input) i = emaStep (axis s i) (component input i) := by
  match i with
  | 0 => rfl
  | 1 => rfl
  | 2 => rfl

variable [IsStrictOrderedRing K]

-- Its three assignments are steps of averages.
theorem emaStep_blend (a : Axis K) (x : K) :
    (emaStep a x).emaDelta = blend (1/100) a.emaDelta (x-a.smoothed) ∧
      (emaStep a x).emaAbsDelta = blend (1/100) a.emaAbsDelta |x-a.smoothed| ∧
      (emaStep a x).smoothed = blend (weight (emaStep a x).emaDelta (emaStep a x).emaAbsDelta) a.smoothed x := by
  have decay : (99/100 : K) = 1-1/100 := by norm_num
  refine ⟨?_,?_,rfl⟩
  · change a.emaDelta*(99/100)+(x-a.smoothed)*(1/100) = (1-1/100)*a.emaDelta+1/100*(x-a.smoothed)
    rw [decay]
    ring
  · change a.emaAbsDelta*(99/100)+|x-a.smoothed| * (1/100) = (1-1/100)*a.emaAbsDelta+1/100 * |x-a.smoothed|
    rw [decay]
    ring

theorem weight_mem {d a : K} (follows : |d| ≤ a) : 0 ≤ weight d a ∧ weight d a ≤ 1 := by
  unfold weight
  split
  · exact quotient_weight follows
  · constructor <;> norm_num

theorem emaStep_follows {a : Axis K} (follows : |a.emaDelta| ≤ a.emaAbsDelta) (x : K) :
    |(emaStep a x).emaDelta| ≤ (emaStep a x).emaAbsDelta := by
  obtain ⟨delta,absDelta,_⟩ := emaStep_blend a x
  rw [delta,absDelta]
  exact blend_abs (by norm_num) (by norm_num) follows _

theorem emaStep_between {a : Axis K} (follows : |a.emaDelta| ≤ a.emaAbsDelta) (x : K) :
    min a.smoothed x ≤ (emaStep a x).smoothed ∧ (emaStep a x).smoothed ≤ max a.smoothed x := by
  obtain ⟨low,high⟩ := weight_mem (emaStep_follows follows x)
  rw [(emaStep_blend a x).2.2]
  exact blend_between low high _ _

theorem emaStep_bounded {M x : K} {a : Axis K} (bounded : Bounded M a) (inside : -M ≤ x ∧ x ≤ M) :
    Bounded M (emaStep a x) := by
  have follows := emaStep_follows bounded.follows x
  obtain ⟨low,high⟩ := weight_mem follows
  refine ⟨follows,?_⟩
  rw [(emaStep_blend a x).2.2]
  exact blend_within low high bounded.inside inside

theorem start_bounded {M : K} (nonneg : 0 ≤ M) {i : Nat} (one : i < 3) : Bounded M (axis start i) := by
  have zero : axis (start : OrientState K) i = ⟨0,0,0⟩ := by
    match i with
    | 0 => rfl
    | 1 => rfl
    | 2 => rfl
  rw [zero]
  exact ⟨by simp,by simpa using nonneg,nonneg⟩

theorem run_bounded {M : K} {i : Nat} (one : i < 3) (samples : List (Vec3 K)) (s : OrientState K)
    (bounded : Bounded M (axis s i)) (inside : ∀ v ∈ samples,Within M v) :
    Bounded M (axis (samples.foldl emaSmooth s) i) := by
  induction samples generalizing s with
  | nil => exact bounded
  | cons v rest ih =>
    have here : Within M v := inside v (by simp)
    apply ih
    · rw [axis_emaSmooth s v one]
      exact emaStep_bounded bounded (here i one)
    · exact fun u listed => inside u (by simp [listed])

-- After any samples, one more: the averages stay in order, the weight is a weight,
-- and the smoothed value moves towards the input and not past it.
theorem smoothing_stays {M : K} (nonneg : 0 ≤ M) (samples : List (Vec3 K)) (input : Vec3 K)
    (inside : ∀ v ∈ samples++[input],Within M v) {i : Nat} (one : i < 3) :
    let before := axis (samples.foldl emaSmooth start) i
    let after := axis ((samples++[input]).foldl emaSmooth start) i
    let w := weight after.emaDelta after.emaAbsDelta
    |after.emaDelta| ≤ after.emaAbsDelta ∧ (0 ≤ w ∧ w ≤ 1) ∧
      after.smoothed = (1-w)*before.smoothed+w*component input i ∧
      (-M ≤ after.smoothed ∧ after.smoothed ≤ M) ∧
      min before.smoothed (component input i) ≤ after.smoothed ∧
      after.smoothed ≤ max before.smoothed (component input i) := by
  intro before after w
  have held : Bounded M before :=
    run_bounded one samples start (start_bounded nonneg one) (fun v listed => inside v (by simp [listed]))
  have here : Within M input := inside input (by simp)
  have step : after = emaStep before (component input i) := by
    change axis ((samples++[input]).foldl emaSmooth start) i = _
    rw [List.foldl_append,List.foldl_cons,List.foldl_nil]
    exact axis_emaSmooth _ _ one
  have bounded : Bounded M after := step ▸ emaStep_bounded held (here i one)
  refine ⟨bounded.follows,weight_mem bounded.follows,?_,bounded.inside,?_⟩
  · rw [show w = weight after.emaDelta after.emaAbsDelta from rfl,step]
    exact (emaStep_blend before (component input i)).2.2
  · rw [step]
    exact emaStep_between held.follows _

theorem smoothing_stays_one :
    let after := axis ([⟨1/2,-1,0⟩,⟨1,-1,1/3⟩].foldl emaSmooth (start : OrientState ℚ)) 0
    |after.emaDelta| ≤ after.emaAbsDelta ∧ -1 ≤ after.smoothed ∧ after.smoothed ≤ 1 := by
  have inside : ∀ v ∈ ([⟨1/2,-1,0⟩]++[⟨1,-1,1/3⟩] : List (Vec3 ℚ)),Within 1 v := by
    intro v listed i one
    simp only [List.cons_append,List.nil_append,List.mem_cons,List.not_mem_nil,or_false] at listed
    have cases : i = 0 ∨ i = 1 ∨ i = 2 := by omega
    rcases listed with rfl | rfl <;> rcases cases with rfl | rfl | rfl <;> norm_num [component]
  have held := smoothing_stays (by norm_num) [⟨1/2,-1,0⟩] ⟨1,-1,1/3⟩ inside (by norm_num : 0 < 3)
  exact ⟨held.1,held.2.2.2.1⟩

end ChuwiMinibook.EmaBounds
