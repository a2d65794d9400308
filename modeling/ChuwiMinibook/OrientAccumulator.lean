import ChuwiMinibook.OrientFilter
import ChuwiMinibook.Variance
import Mathlib.Algebra.Field.Rat
import Mathlib.Algebra.Order.Ring.Rat
import Mathlib.Order.Bounds.Basic
import Mathlib.Tactic.NormNum

namespace ChuwiMinibook.OrientAccumulator
open Mxc6655 OrientFilter Variance

variable {K : Type} [Field K]

def each (f : List K → K) (avgs : List (Vec3 K)) : Vec3 K := ⟨f (avgs.map (·.x)),f (avgs.map (·.y)),f (avgs.map (·.z))⟩

-- The sums and the sums of squares of the accumulated averages.
def Sums (acc accSq : Vec3 K) (avgs : List (Vec3 K)) : Prop := acc = each List.sum avgs ∧ accSq = each squares avgs

-- What handle_long_stable computes from them.
def longValues (avgs : List (Vec3 K)) : Vec3 K := each (fun xs => longVariance xs.sum (squares xs)) avgs

def Kept (s : OrientState K) : Prop :=
  Sums s.acc s.accSq s.accumulated ∧ ∀ done ∈ s.computed,done.1 = longValues done.2

theorem sums_append {acc accSq : Vec3 K} {avgs : List (Vec3 K)} (sums : Sums acc accSq avgs) (avg : Vec3 K) :
    Sums ⟨acc.x+avg.x,acc.y+avg.y,acc.z+avg.z⟩ ⟨accSq.x+avg.x*avg.x,accSq.y+avg.y*avg.y,accSq.z+avg.z*avg.z⟩ (avgs++[avg]) := by
  obtain ⟨rfl,rfl⟩ := sums
  simp [Sums,each,squares]

section Parts
variable {s : OrientState K}

theorem reset_kept (kept : Kept s) : Kept (resetAccumulator s) := ⟨⟨rfl,rfl⟩,kept.2⟩

theorem accumulate_kept (kept : Kept s) (avg : Vec3 K) : Kept (accumulateSample s avg) := ⟨sums_append kept.1 avg,kept.2⟩

theorem record_kept (kept : Kept s) : Kept (recordOffset s) := by
  unfold recordOffset
  split
  · exact kept
  · exact kept

end Parts

-- The divisor is that of a thousand averages.
theorem longVariance_exact [CharZero K] {xs : List K} (thousand : xs.length = 1000) :
    longVariance xs.sum (squares xs) = variance xs := by
  rw [variance_sums (by omega),thousand,longVariance]
  norm_num

theorem longValues_exact [CharZero K] {avgs : List (Vec3 K)} (thousand : avgs.length = 1000) :
    longValues avgs = each variance avgs := by
  unfold longValues each
  dsimp only
  rw [longVariance_exact (by rwa [List.length_map]),longVariance_exact (by rwa [List.length_map]),
    longVariance_exact (by rwa [List.length_map])]

theorem start_kept : Kept (start : OrientState K) := ⟨⟨rfl,rfl⟩,fun _ listed => nomatch listed⟩

-- sample_variance of a buffer is its variance.
theorem sampleVariance_exact [CharZero K] {buf : List K} {n : Nat} (several : 1 < n) (full : n ≤ buf.length) :
    sampleVariance buf n = variance (buf.take n) := by
  have size : (buf.take n).length = n := List.length_take_of_le full
  have whole : (n : K) ≠ 0 := Nat.cast_ne_zero.mpr (by omega)
  have less : ((n-1 : Nat) : K) ≠ 0 := Nat.cast_ne_zero.mpr (by omega)
  rw [variance_sums (by omega),size,sampleVariance,if_neg (by omega),squares]
  field_simp

variable [LinearOrder K] (m : Maths K)

section Steps
variable {s : OrientState K}

theorem resolve_kept (kept : Kept s) (ref cur : Vec3 K) : Kept (tryResolveOffset m s ref cur) := by
  unfold tryResolveOffset
  dsimp only
  apply reset_kept
  split
  · exact record_kept (s := {s with zDir := _,gravityOffset := _}) kept
  · exact kept

theorem peak_kept (kept : Kept s) (avg : Vec3 K) : Kept (updatePeakTrough s avg) := by
  unfold updatePeakTrough
  dsimp only
  split_ifs <;> exact kept

theorem outlier_kept (kept : Kept s) (avgZ : K) : Kept (detectOutlier s avgZ) := by
  unfold detectOutlier
  dsimp only
  split_ifs <;> exact kept

theorem long_kept (kept : Kept s) (avgZ zSq : K) : Kept (handleLongStable m s avgZ zSq) := by
  have values : (⟨longVariance s.acc.x s.accSq.x,longVariance s.acc.y s.accSq.y,longVariance s.acc.z s.accSq.z⟩ : Vec3 K) =
      longValues s.accumulated := by
    rw [kept.1.1,kept.1.2]
    rfl
  have given : Kept {s with computed := s.computed++
      [(⟨longVariance s.acc.x s.accSq.x,longVariance s.acc.y s.accSq.y,longVariance s.acc.z s.accSq.z⟩,s.accumulated)]} := by
    refine ⟨kept.1,fun done listed => ?_⟩
    rcases List.mem_append.mp listed with before | now
    · exact kept.2 done before
    · rw [List.mem_singleton.mp now]
      exact values
  unfold handleLongStable
  dsimp only
  split_ifs
  all_goals
    first
    | exact record_kept (s := {s with computed := _,gravityOffset := _}) given
    | exact given

theorem drift_kept (kept : Kept s) (avg : Vec3 K) (zSq : K) : Kept (handleStableDrift m s avg zSq) := by
  have given := peak_kept (accumulate_kept kept avg) avg
  have looked := outlier_kept given avg.z
  unfold handleStableDrift
  dsimp only
  split_ifs
  · exact given
  · exact resolve_kept m looked _ _
  · exact long_kept m looked _ _
  · exact looked

theorem follow_kept (kept : Kept s) (avg : Vec3 K) : Kept (followReference s avg).1 := by
  unfold followReference updateOffsetTrimmedMean
  dsimp only
  split_ifs <;> exact kept

theorem tracking_kept (kept : Kept s) (avg : Vec3 K) (zSq : K) : Kept (updateGravityTracking m s avg zSq).1 := by
  unfold updateGravityTracking
  dsimp only
  split_ifs
  · exact kept
  · exact follow_kept (drift_kept m kept avg zSq) avg
  · exact kept
  · exact follow_kept (resolve_kept m kept _ avg) avg

theorem track_kept (kept : Kept s) : Kept (trackBuffer m s).1 := by
  unfold trackBuffer
  dsimp only
  split
  · exact tracking_kept m (reset_kept kept) _ _
  · exact tracking_kept m kept _ _

theorem warm_kept (kept : Kept s) (maxVar : K) : Kept (warmUp maxVar s) := by
  unfold warmUp
  split_ifs
  · exact reset_kept kept
  · exact kept
  · exact kept

theorem filtered_kept (kept : Kept s) (accel : Vec3 K) : Kept (filtered s accel).1 := by
  unfold filtered medianFilterZ emaSmooth storeInBuffer
  dsimp only
  split_ifs <;> exact kept

-- update_orientation without its outputs.
def tracked (s : OrientState K) (accel : Vec3 K) : OrientState K :=
  let t := (filtered s accel).1
  if t.bufFull then
    let w := warmUp (maxBufferVariance t) t
    if w.stableCount > orientStableMin then (trackBuffer m w).1 else w
  else t

theorem outputs_frame (s : OrientState K) (input : Vec3 K) (maxVar : K) (meanOffset : Option K) : ∃ offset mean z,
    (outputs m s input maxVar meanOffset).1 = {s with outOffset := offset,outMean := mean,outZ := z} := by
  cases meanOffset with
  | none => exact ⟨_,_,_,rfl⟩
  | some meanOffset =>
    unfold outputs
    dsimp only
    split_ifs <;> exact ⟨_,_,_,rfl⟩

theorem orientation_tracked (s : OrientState K) (accel : Vec3 K) : ∃ offset mean z,
    (updateOrientation m s accel).1 = {tracked m s accel with outOffset := offset,outMean := mean,outZ := z} := by
  unfold updateOrientation tracked
  generalize filtered s accel = input
  obtain ⟨t,input⟩ := input
  dsimp only
  by_cases full : t.bufFull = true
  · rw [if_neg (by simp [full]),if_pos full]
    by_cases warm : (warmUp (maxBufferVariance t) t).stableCount > orientStableMin
    · simp only [if_pos warm]
      exact outputs_frame m _ input _ _
    · simp only [if_neg warm]
      exact outputs_frame m _ input _ _
  · rw [if_pos (by simp [full]),if_neg full]
    exact ⟨_,_,_,rfl⟩

theorem orientation_kept (kept : Kept s) (accel : Vec3 K) : Kept (updateOrientation m s accel).1 := by
  have input := filtered_kept kept accel
  have warm := warm_kept input (maxBufferVariance (filtered s accel).1)
  have core : Kept (tracked m s accel) := by
    unfold tracked
    dsimp only
    split_ifs
    · exact track_kept m warm
    · exact warm
    · exact input
  obtain ⟨offset,mean,z,same⟩ := orientation_tracked m s accel
  rw [same]
  exact core

end Steps

-- Samples given one after the other: what holds in every state, and at every step.
def next (s : OrientState K) (accel : Vec3 K) : OrientState K := (updateOrientation m s accel).1

def Always (P : OrientState K → Prop) : OrientState K → List (Vec3 K) → Prop
  | s,[] => P s
  | s,accel::rest => P s ∧ Always P (next m s accel) rest

def Steps (P : OrientState K → Vec3 K → Prop) : OrientState K → List (Vec3 K) → Prop
  | _,[] => True
  | s,accel::rest => P s accel ∧ Steps P (next m s accel) rest

theorem always_kept {s : OrientState K} (kept : Kept s) (samples : List (Vec3 K)) : Always m Kept s samples := by
  induction samples generalizing s with
  | nil => exact kept
  | cons accel rest ih => exact ⟨kept,ih (orientation_kept m kept accel)⟩

theorem always_mono {P Q : OrientState K → Prop} (mono : ∀ s,P s → Q s) {s : OrientState K} {samples : List (Vec3 K)}
    (always : Always m P s samples) : Always m Q s samples := by
  induction samples generalizing s with
  | nil => exact mono s always
  | cons accel rest ih => exact ⟨mono s always.1,ih always.2⟩

theorem always_last {P : OrientState K → Prop} {s : OrientState K} {samples : List (Vec3 K)} (always : Always m P s samples) :
    P (samples.foldl (next m) s) := by
  induction samples generalizing s with
  | nil => exact always
  | cons accel rest ih => exact ih always.2

-- The sums are exact in every run, and the values computed from a thousand averages are
-- their variances.
theorem thousand_exact [CharZero K] (samples : List (Vec3 K)) : Always m
    (fun s => Sums s.acc s.accSq s.accumulated ∧ ∀ done ∈ s.computed,done.2.length = 1000 → done.1 = each variance done.2)
    start samples := by
  refine always_mono m ?_ (always_kept m start_kept samples)
  intro s kept
  refine ⟨kept.1,fun done listed thousand => ?_⟩
  rw [kept.2 done listed,longValues_exact thousand]

-- The accumulator holds exactly the averages given to it, and what is computed from
-- them is their variance.
structure Exact (s : OrientState K) : Prop where
  count : s.stableCount = s.accumulated.length
  sums : Sums s.acc s.accSq s.accumulated
  peak : s.accumulated ≠ [] → IsGreatest {z | z ∈ s.accumulated.map (·.z)} s.peak.z
  trough : s.accumulated ≠ [] → IsLeast {z | z ∈ s.accumulated.map (·.z)} s.trough.z
  variances : ∀ done ∈ s.computed,done.1 = each variance done.2

structure Idle (s : OrientState K) : Prop where
  kept : Kept s
  count : s.stableCount = 0
  accumulated : s.accumulated = []
  computed : s.computed = []

section Idle
variable {s : OrientState K} (idle : Idle s)
include idle

theorem idle_exact : Exact s where
  count := by rw [idle.count,idle.accumulated,List.length_nil]
  sums := idle.kept.1
  peak some := absurd idle.accumulated some
  trough some := absurd idle.accumulated some
  variances := by
    rw [idle.computed]
    intro done listed
    cases listed

theorem filtered_idle (accel : Vec3 K) : Idle (filtered s accel).1 := by
  have kept := filtered_kept idle.kept accel
  refine ⟨kept,?_,?_,?_⟩
  · rw [← idle.count]
    unfold filtered medianFilterZ emaSmooth storeInBuffer
    dsimp only
    split_ifs <;> rfl
  · rw [← idle.accumulated]
    unfold filtered medianFilterZ emaSmooth storeInBuffer
    dsimp only
    split_ifs <;> rfl
  · rw [← idle.computed]
    unfold filtered medianFilterZ emaSmooth storeInBuffer
    dsimp only
    split_ifs <;> rfl

-- The first stable buffer is counted and nothing is accumulated.
theorem stable_miscounts {accel : Vec3 K} (stable : Stable s accel) : ¬Exact (next m s accel) := by
  obtain ⟨full,small⟩ := stable
  have input := filtered_idle idle accel
  have counted : warmUp (maxBufferVariance (filtered s accel).1) (filtered s accel).1 =
      {(filtered s accel).1 with stableCount := 1} := by
    rw [warmUp,if_neg (not_lt.mpr small),input.count,if_pos (Nat.zero_le _)]
  have core : tracked m s accel = {(filtered s accel).1 with stableCount := 1} := by
    unfold tracked
    dsimp only
    rw [if_pos full,counted]
    exact if_neg (by simp [orientStableMin])
  obtain ⟨offset,mean,z,same⟩ := orientation_tracked m s accel
  intro exact
  have count := exact.count
  rw [next,same,core] at count
  rw [show (filtered s accel).1.accumulated = [] from input.accumulated] at count
  cases count

theorem unstable_idle {accel : Vec3 K} (unstable : ¬Stable s accel) : Idle (next m s accel) := by
  have input := filtered_idle idle accel
  have core : Idle (tracked m s accel) := by
    unfold tracked
    dsimp only
    split
    · rename_i full
      have large : maxBufferVariance (filtered s accel).1 > 1/100 := lt_of_not_ge fun small => unstable ⟨full,small⟩
      rw [warmUp,if_pos large,if_neg (by simp [resetAccumulator])]
      exact ⟨reset_kept input.kept,rfl,rfl,input.computed⟩
    · exact input
  obtain ⟨offset,mean,z,same⟩ := orientation_tracked m s accel
  rw [next,same]
  exact ⟨core.kept,core.count,core.accumulated,core.computed⟩

theorem idle_exact_iff (samples : List (Vec3 K)) :
    Always m Exact s samples ↔ Steps m (fun s accel => ¬Stable s accel) s samples := by
  induction samples generalizing s with
  | nil => exact iff_of_true (idle_exact idle) trivial
  | cons accel rest ih =>
    by_cases stable : Stable s accel
    · refine iff_of_false ?_ (fun steps => steps.1 stable)
      intro exact
      refine stable_miscounts m idle stable ?_
      cases rest with
      | nil => exact exact.2
      | cons _ _ => exact exact.2.1
    · have later := ih (unstable_idle m idle stable)
      exact ⟨fun exact => ⟨stable,later.mp exact.2⟩,fun steps => ⟨idle_exact idle,later.mpr steps.2⟩⟩

end Idle

theorem accumulator_exact_iff (samples : List (Vec3 K)) :
    Always m Exact start samples ↔ Steps m (fun s accel => ¬Stable s accel) start samples :=
  idle_exact_iff m ⟨start_kept,rfl,rfl,rfl⟩ samples

-- A sensor that lies still at 0, for one full buffer.
def restingMaths : Maths ℚ := ⟨fun x => x,fun x => x⟩

theorem first_stable_miscounted : ¬∀ samples : List (Vec3 ℚ),Always restingMaths Exact start samples := by
  intro claim
  have exact := always_last restingMaths (claim (List.replicate 20 ⟨0,0,0⟩))
  have count := exact.count
  revert count
  decide +kernel

end ChuwiMinibook.OrientAccumulator
