import ChuwiMinibook.EndInsertion
import Mathlib.Algebra.Order.Ring.Int
import Mathlib.Data.List.Nodup

namespace ChuwiMinibook.CpuFreq

-- The fields of cthd_cdev_cpufreq and of its base that the methods below use.
structure Dev where
  cpuStartIndex : Nat
  cpuEndIndex : Nat
  cpufreqs : List Int
  pstateActiveFreqIndex : Int
  cpuIndex : Int
  currState : Int
  maxState : Int

def Dev.cpus (d : Dev) : List Nat := List.range' d.cpuStartIndex (d.cpuEndIndex+1-d.cpuStartIndex)

-- A vector of int that takes unsigned int.
def addFrequency (cpufreqs : List Int) (freqInt : BitVec 32) : List Int :=
  match cpufreqs with
  | [] => [freqInt.toInt]
  | first::_ => if freqInt.toInt < first then cpufreqs++[freqInt.toInt] else freqInt.toInt::cpufreqs

-- What init reads: the range of CPUs, the list of cpu0 in the order of sysfs and the
-- limits of the CPUs that have them.
structure Sysfs where
  first : Nat
  last : Nat
  available : List (BitVec 32)
  minFreq : Nat → Option (BitVec 32)
  maxFreq : Nat → Option (BitVec 32)

def scalingMin (freqs : List (BitVec 32)) : BitVec 32 := freqs.foldl (fun m f => if m = 0#32 ∨ f < m then f else m) 0#32
def scalingMax (freqs : List (BitVec 32)) : BitVec 32 := freqs.foldl (fun m f => if m = 0#32 ∨ m < f then f else m) 0#32

-- The listed frequencies that the limits of the given CPUs leave.
def Sysfs.kept (sys : Sysfs) (cpus : List Nat) : List (BitVec 32) :=
  let low := scalingMin (cpus.filterMap sys.minFreq)
  let high := scalingMax (cpus.filterMap sys.maxFreq)
  sys.available.filter fun f => low ≤ f ∧ f ≤ high

-- none is THD_ERROR.
def init (d : Dev) (sys : Sysfs) : Option Dev :=
  if sys.last = 0 ∨ sys.last < sys.first ∨ 63 < sys.last then none
  else
    let d := { d with cpuStartIndex := sys.first, cpuEndIndex := sys.last }
    let cpufreqs := (sys.kept d.cpus).foldl addFrequency d.cpufreqs
    some { d with cpufreqs,
                  maxState := if cpufreqs = [] then d.maxState else cpufreqs.length-1,
                  pstateActiveFreqIndex := 0 }

-- With the scaling_max_freq files written, by CPU.
def setCurrState (d : Dev) (writable : Nat → Bool) (applyCpuOperation : Bool) (state : Int) : Dev × List (Nat × Int) :=
  if 0 ≤ state then
    match d.cpufreqs[state.toNat]? with
    | none => (d,[])
    | some freq =>
      let selected := { d with pstateActiveFreqIndex := state, currState := state }
      if d.cpuIndex = -1 then
        (if d.cpus = [] then d else selected,(d.cpus.filter writable).map fun i => (i,freq))
      else if applyCpuOperation then
        (selected,if writable d.cpuIndex.toNat then [(d.cpuIndex.toNat,freq)] else [])
      else (d,[])
  else (d,[])

def addAll (fs : List (BitVec 32)) : List Int := fs.foldl addFrequency []

-- The frequencies in strictly descending order, and the one that a state writes is at
-- most that of any lower state.
structure Ordered (fs : List (BitVec 32)) (cpufreqs : List Int) : Prop where
  same : cpufreqs.Perm (fs.map fun f => (f.toNat : Int))
  descending : cpufreqs.Pairwise (· > ·)
  lower : ∀ d before after apply apply' state state',d.cpufreqs = cpufreqs → state ≤ state' →
    ∀ w ∈ (setCurrState d before apply state).2,∀ w' ∈ (setCurrState d after apply' state').2,w'.2 ≤ w.2

theorem addAll_collect (fs : List (BitVec 32)) : addAll fs = EndInsertion.collect (fs.map BitVec.toInt) := by
  have step (xs : List Int) (f : BitVec 32) : addFrequency xs f = EndInsertion.add xs f.toInt := by
    cases xs <;> rfl
  unfold addAll EndInsertion.collect
  rw [List.foldl_map]
  exact congrArg (fun add => fs.foldl add []) (funext fun xs => funext fun f => step xs f)

-- A first init adds the listed frequencies that its limits leave, in their order.
theorem init_addAll {d d' : Dev} {sys : Sysfs} (fresh : d.cpufreqs = []) (run : init d sys = some d') :
    (sys.kept d'.cpus).Sublist sys.available ∧ d'.cpufreqs = addAll (sys.kept d'.cpus) := by
  unfold init at run
  split at run
  · cases run
  · cases Option.some.inj run
    refine ⟨List.filter_sublist,?_⟩
    dsimp only
    rw [fresh]
    rfl

theorem written_state {d : Dev} {writable : Nat → Bool} {apply : Bool} {state : Int} {w : Nat × Int}
    (written : w ∈ (setCurrState d writable apply state).2) : 0 ≤ state ∧ d.cpufreqs[state.toNat]? = some w.2 := by
  unfold setCurrState at written
  by_cases positive : 0 ≤ state
  · rw [if_pos positive] at written
    refine ⟨positive,?_⟩
    cases entry : d.cpufreqs[state.toNat]? with
    | none => simp [entry] at written
    | some freq =>
      simp only [entry] at written
      split at written
      · obtain ⟨i,_,rfl⟩ := List.mem_map.mp written
        rfl
      · split at written
        · split at written
          · cases List.mem_singleton.mp written
            rfl
          · cases written
        · cases written
  · simp [positive] at written

theorem lower_of_descending {cpufreqs : List Int} (descending : cpufreqs.Pairwise (· > ·)) {i j : Nat} {f g : Int}
    (order : i ≤ j) (first : cpufreqs[i]? = some f) (second : cpufreqs[j]? = some g) : g ≤ f := by
  obtain ⟨inside,rfl⟩ := List.getElem?_eq_some_iff.mp first
  obtain ⟨inside',rfl⟩ := List.getElem?_eq_some_iff.mp second
  rcases Nat.eq_or_lt_of_le order with same | before
  · subst same
    exact Int.le_refl _
  · have pairs := List.pairwise_iff_getElem.mp descending
    exact Int.le_of_lt (pairs i j inside inside' before)

theorem toInt_small {f : BitVec 32} : f.toInt = f.toNat ↔ f.toNat < 2^31 := by
  have bound := f.isLt
  rw [BitVec.toInt_eq_toNat_cond]
  split <;> omega

theorem toInt_positive {f : BitVec 32} : 0 ≤ f.toInt ↔ f.toNat < 2^31 := by
  have bound := f.isLt
  rw [BitVec.toInt_eq_toNat_cond]
  split <;> omega

section Tables
variable {fs : List (BitVec 32)}

theorem addAll_content : (addAll fs).Perm (fs.map BitVec.toInt) := by
  rw [addAll_collect]
  exact EndInsertion.collect_perm

theorem addAll_descending (distinct : fs.Nodup) :
    (addAll fs).Pairwise (· > ·) ↔ EndInsertion.Extreme BitVec.toInt fs := by
  have injective : Function.Injective (BitVec.toInt : BitVec 32 → Int) := fun _ _ => BitVec.eq_of_toInt_eq
  rw [addAll_collect]
  exact EndInsertion.collect_descending (List.Nodup.map injective distinct)

theorem extreme_small (small : ∀ f ∈ fs,f.toNat < 2^31) :
    EndInsertion.Extreme BitVec.toInt fs ↔ EndInsertion.Extreme BitVec.toNat fs := by
  apply EndInsertion.extreme_congr
  intro f here g there
  rw [toInt_small.mpr (small f here),toInt_small.mpr (small g there),Int.ofNat_lt]

-- Only a frequency that an int can hold is stored as itself.
theorem same_iff_small : (addAll fs).Perm (fs.map fun f => (f.toNat : Int)) ↔ ∀ f ∈ fs,f.toNat < 2^31 := by
  constructor
  · intro same f member
    have stored : f.toInt ∈ addAll fs := addAll_content.mem_iff.mpr (List.mem_map_of_mem member)
    obtain ⟨g,_,number⟩ := List.mem_map.mp (same.mem_iff.mp stored)
    apply toInt_positive.mp
    omega
  · intro small
    have plain : fs.map BitVec.toInt = fs.map fun f => (f.toNat : Int) :=
      List.map_congr_left fun f member => toInt_small.mpr (small f member)
    rw [← plain]
    exact addAll_content

end Tables

-- Insertion compares with the first entry alone: the table is right exactly when
-- sysfs lists each frequency above or below all that it listed before.
theorem addAll_ordered_iff {fs : List (BitVec 32)} (distinct : fs.Nodup) : Ordered fs (addAll fs) ↔
    (∀ f ∈ fs,f.toNat < 2^31) ∧ EndInsertion.Extreme BitVec.toNat fs := by
  constructor
  · intro ordered
    have small : ∀ f ∈ fs,f.toNat < 2^31 := same_iff_small.mp ordered.same
    refine ⟨small,?_⟩
    rw [← extreme_small small]
    exact (addAll_descending distinct).mp ordered.descending
  · rintro ⟨small,ends⟩
    have descending : (addAll fs).Pairwise (· > ·) := by
      rw [addAll_descending distinct,extreme_small small]
      exact ends
    refine ⟨same_iff_small.mpr small,descending,?_⟩
    intro d before after apply apply' state state' same le w written w' written'
    obtain ⟨positive,entry⟩ := written_state written
    obtain ⟨_,entry'⟩ := written_state written'
    rw [same] at entry entry'
    exact lower_of_descending descending (Int.toNat_le_toNat le) entry entry'

theorem addAll_ordered_outward : Ordered [1600000#32,2400000#32,800000#32] (addAll [1600000#32,2400000#32,800000#32]) :=
  (addAll_ordered_iff (by decide)).mpr ⟨by simp,by decide⟩

theorem addAll_unordered : ¬∀ fs : List (BitVec 32),fs.Nodup → Ordered fs (addAll fs) := by
  intro ordered
  have descending := (ordered [2400000#32,800000#32,1600000#32] (by decide)).descending
  have stored : addAll [2400000#32,800000#32,1600000#32] = [2400000,800000,1600000] := rfl
  rw [stored] at descending
  simp at descending

end ChuwiMinibook.CpuFreq
