import ChuwiMinibook.DeviceParts
import ChuwiMinibook.Machine

namespace ChuwiMinibook.I2cDescriptors
open Mxc6655 DeviceParts Machine Descriptors

-- The open descriptors are those in i2c_fds, no more and no less.
structure Exact (t : Table) (fds : Int×Int) : Prop where
  sound : Sound t
  opened : t.opened.Perm (heldFds fds)

def AllClosed (t : Table) : Prop := t.opened = [] ∧ ∀ fd : Int,0 ≤ fd ∧ fd < t.next → t.closed.count fd = 1

theorem allClosed_of_nil {t : Table} (sound : Sound t) (none : t.opened.Perm []) : AllClosed t :=
  ⟨none.eq_nil,fun _ issued => sound.closed_once none.eq_nil issued⟩

-- The buses that answer as an accelerometer.
def answering (buses : List Bus) : Nat := (buses.filter (fun bus => bus.onI2c && bus.probe = .answers)).length

theorem probeBus_sound {t : Table} {fds : List Int} (sound : Sound t) (opened : t.opened.Perm fds) (probe : Probe) :
    Sound (probeBus probe t).1 ∧ (probeBus probe t).1.opened.Perm (fds++(probeBus probe t).2.toList) := by
  have added : (t.opened++[(t.next : Int)]).Perm (fds++[(t.next : Int)]) := opened.append_right _
  cases probe with
  | refused =>
    rw [probeBus,Option.toList_none,List.append_nil]
    exact ⟨sound,opened⟩
  | silent =>
    rw [probeBus,Option.toList_none,List.append_nil]
    have isOpen : (t.next : Int) ∈ t.openNew.opened := List.mem_append_right _ List.mem_cons_self
    refine ⟨sound.openNew.close isOpen,?_⟩
    have absent : (t.next : Int) ∉ t.opened := fun inside => sound.fresh (List.mem_append_left _ inside)
    change ((t.opened++[(t.next : Int)]).erase t.next).Perm fds
    rw [List.erase_append_right _ absent,List.erase_cons_head,List.append_nil]
    exact opened
  | answers => exact ⟨sound.openNew,added⟩

theorem findAccels_sound (buses : List Bus) {t : Table} {fds : List Int} (sound : Sound t) (opened : t.opened.Perm fds) :
    Sound (findAccels buses fds t).1 ∧ (findAccels buses fds t).1.opened.Perm (findAccels buses fds t).2 := by
  induction buses generalizing t fds with
  | nil => exact ⟨sound,opened⟩
  | cons bus rest ih =>
    unfold findAccels
    split
    · split
      · obtain ⟨probed,found⟩ := probeBus_sound sound opened bus.probe
        exact ih probed found
      · exact ih sound opened
    · exact ⟨sound,opened⟩

theorem probeBus_found (probe : Probe) (t : Table) : (probeBus probe t).2.toList.length = if probe = .answers then 1 else 0 := by
  cases probe <;> rfl

theorem answering_cons (bus : Bus) (rest : List Bus) :
    answering (bus::rest) = (if bus.onI2c && bus.probe = .answers then 1 else 0)+answering rest := by
  unfold answering
  rw [List.filter_cons]
  split
  · rw [List.length_cons,Nat.add_comm]
  · rw [Nat.zero_add]

theorem findAccels_length (buses : List Bus) (fds : List Int) (t : Table) (few : fds.length ≤ 2) :
    (findAccels buses fds t).2.length = min 2 (fds.length+answering buses) := by
  induction buses generalizing fds t with
  | nil => exact (Nat.min_eq_right few).symm
  | cons bus rest ih =>
    rw [answering_cons]
    unfold findAccels
    by_cases room : fds.length < 2
    · rw [if_pos room]
      by_cases onI2c : bus.onI2c
      · rw [if_pos onI2c,onI2c]
        have found := probeBus_found bus.probe t
        have length : (fds++(probeBus bus.probe t).2.toList).length = fds.length+(if bus.probe = .answers then 1 else 0) := by
          rw [List.length_append,found]
        have fits : (fds++(probeBus bus.probe t).2.toList).length ≤ 2 := by
          rw [length]
          split <;> omega
        refine (ih _ _ fits).trans ?_
        rw [length]
        simp only [Bool.true_and,decide_eq_true_eq]
        rw [Nat.add_assoc]
      · rw [if_neg onI2c,ih _ _ few]
        simp [onI2c]
    · rw [if_neg room]
      change fds.length = _
      omega

theorem place_pair {found : List Int} (two : found.length = 2) (valid : ∀ fd ∈ found,0 ≤ fd) :
    heldFds (place found (-1,-1)) = found := by
  match found,two with
  | [first,second],_ =>
    have one := valid first (by simp)
    have other := valid second (by simp)
    simp [heldFds,place,one,other]

theorem placed_exact {t : Table} {found : List Int} (sound : Sound t) (opened : t.opened.Perm found) (two : found.length = 2) :
    Exact t (place found (-1,-1)) := by
  refine ⟨sound,?_⟩
  rw [place_pair two (fun fd inside => sound.valid (opened.mem_iff.mpr inside))]
  exact opened

section
variable {K Filter Hinge : Type}

theorem findBoth_sound (setup : Setup K Filter Hinge) :
    Sound (findBoth setup).1 ∧ (findBoth setup).1.opened.Perm (findBoth setup).2 ∧ (findBoth setup).2.length ≤ 2 := by
  obtain ⟨sound,opened⟩ := findAccels_sound setup.first empty_sound (List.Perm.refl [])
  have length := findAccels_length setup.first [] empty (Nat.zero_le _)
  unfold findBoth
  simp only
  split
  · obtain ⟨closed,none⟩ := sound.closeAll (List.append_nil (findAccels setup.first [] empty).2 ▸ opened)
    obtain ⟨again,found⟩ := findAccels_sound setup.second closed none
    refine ⟨again,found,?_⟩
    rw [findAccels_length setup.second [] _ (Nat.zero_le _)]
    omega
  · refine ⟨sound,opened,?_⟩
    change (findAccels setup.first [] empty).2.length ≤ 2
    omega

theorem open_null {setup : Setup K Filter Hinge} {t : Table} (null : mxc6655Open setup = .error t) : AllClosed t := by
  obtain ⟨sound,opened,_⟩ := findBoth_sound setup
  unfold mxc6655Open at null
  simp only at null
  split at null
  · cases null
    obtain ⟨closed,none⟩ := sound.closeAll (List.append_nil (findBoth setup).2 ▸ opened)
    exact allClosed_of_nil closed none
  · cases null

theorem open_exact {setup : Setup K Filter Hinge} {d : Device K Filter Hinge} (ok : mxc6655Open setup = .ok d) :
    Exact d.fds d.i2cFds := by
  obtain ⟨sound,opened,few⟩ := findBoth_sound setup
  unfold mxc6655Open at ok
  simp only at ok
  split at ok
  · cases ok
  · have exact := placed_exact sound opened (by omega)
    cases ok
    unfold setupLidWatch
    split <;> exact exact

theorem recover_exact {d : Device K Filter Hinge} (exact : Exact d.fds d.i2cFds) {buses : List Bus} (lucky : answering buses ≠ 1) :
    Exact (recoverI2c buses d).fds (recoverI2c buses d).i2cFds := by
  obtain ⟨closed,none⟩ := exact.sound.closeAll (List.append_nil (heldFds d.i2cFds) ▸ exact.opened)
  obtain ⟨sound,opened⟩ := findAccels_sound buses closed none
  have length := findAccels_length buses [] (closeAll (heldFds d.i2cFds) d.fds) (Nat.zero_le _)
  rw [List.length_nil,Nat.zero_add] at length
  unfold recoverI2c
  simp only
  split
  · refine ⟨sound,?_⟩
    have nothing : (findAccels buses [] (closeAll (heldFds d.i2cFds) d.fds)).2.length = 0 := by omega
    rw [List.length_eq_zero_iff.mp nothing] at opened
    exact opened
  · exact placed_exact sound opened (by omega)

def fdPart (d : Device K Filter Hinge) : Table×Int×Int := (d.fds,d.i2cFds)

theorem fdPart_timerFree : TimerFree (fdPart : Device K Filter Hinge → Table×Int×Int) := fun _ _ _ _ _ _ => rfl

theorem fdPart_sampleFree : SampleFree (fdPart : Device K Filter Hinge → Table×Int×Int) := fun _ _ _ _ _ _ _ _ _ _ _ _ _ => rfl

theorem exact_of_same {d d' : Device K Filter Hinge} (same : fdPart d' = fdPart d) (exact : Exact d.fds d.i2cFds) :
    Exact d'.fds d'.i2cFds := by
  obtain ⟨fds,i2cFds⟩ := Prod.mk.inj same
  rw [fds,i2cFds]
  exact exact

theorem setPolling_fdPart (state : Bool) (d : Device K Filter Hinge) : fdPart (mxc6655SetPolling state d) = fdPart d := by
  refine (fdPart_timerFree.setWantPolling state _).trans ?_
  cases state with
  | false => rfl
  | true => exact fdPart_sampleFree.emitOrientation _ d

theorem close_allClosed {d : Device K Filter Hinge} (exact : Exact d.fds d.i2cFds) : AllClosed (mxc6655Close d).fds := by
  have same : (mxc6655Close d).fds = closeAll (heldFds d.i2cFds) d.fds := by
    unfold mxc6655Close
    simp only
    split <;> rfl
  obtain ⟨closed,none⟩ := exact.sound.closeAll (List.append_nil (heldFds d.i2cFds) ▸ exact.opened)
  rw [same]
  exact allClosed_of_nil closed none

section
variable [LinearOrder K] [Zero K] [Neg K]

-- A poll that has to recover does not find exactly one accelerometer.
def Recovers (arith : Arithmetic K Filter Hinge) (d : Device K Filter Hinge) : Event K → Prop
  | .poll sample => calibrated arith sample d = none → answering sample.buses ≠ 1
  | .setPolling _ => True
  | .lid _ => True

theorem step_exact (arith : Arithmetic K Filter Hinge) (d : Device K Filter Hinge) (event : Event K)
    (exact : Exact d.fds d.i2cFds) (recovers : Recovers arith d event) :
    Exact (step arith d event).fds (step arith d event).i2cFds := by
  cases event with
  | poll sample =>
    rcases pollSensors_cases arith sample d with ⟨failed,poll⟩ | ⟨a1,a2,_,poll⟩
    · rw [step,poll]
      exact recover_exact exact (recovers failed)
    · refine exact_of_same ?_ exact
      rw [step,poll,fdPart_sampleFree.updateHinge,fdPart_sampleFree.updateOrientationDebounce]
  | setPolling state => exact exact_of_same (setPolling_fdPart state d) exact
  | lid dispatch => exact exact_of_same (fdPart_timerFree.dispatchLid dispatch d) exact

theorem i2c_descriptors_not_leaked (arith : Arithmetic K Filter Hinge) (setup : Setup K Filter Hinge) :
    (∀ t,mxc6655Open setup = .error t → AllClosed t) ∧
    ∀ d,mxc6655Open setup = .ok d → ∀ events,Meets (step arith) (Recovers arith) d events →
      (run (step arith) d events).fds.opened.Perm (heldFds (run (step arith) d events).i2cFds) ∧
      AllClosed (mxc6655Close (run (step arith) d events)).fds := by
  refine ⟨fun t null => open_null null,?_⟩
  intro d ok events meets
  have reached : Exact (run (step arith) d events).fds (run (step arith) d events).i2cFds := by
    apply run_invariant (step_exact arith) (open_exact ok) meets
  exact ⟨reached.opened,close_allClosed reached⟩

end

end

def bothBack : Sample Int := ⟨none,none,[⟨some "\\_SB_.PC00.I2C0",.answers⟩,⟨some "\\_SB_.PC00.I2C1",.answers⟩]⟩

theorem full_recovery_kept : mxc6655Open minibook = .ok minibookDevice ∧
    answering bothBack.buses ≠ 1 ∧
    (run (step deskArithmetic) minibookDevice [.poll bothBack]).fds.opened.Perm
      (heldFds (run (step deskArithmetic) minibookDevice [.poll bothBack]).i2cFds) := by
  have kept := (i2c_descriptors_not_leaked deskArithmetic minibook).2 minibookDevice minibook_opens [.poll bothBack]
    ⟨fun _ => by decide,trivial⟩
  exact ⟨minibook_opens,by decide,kept.1⟩

-- One of two answers after the bus came back: its descriptor stays open for good.
def halfBack : Sample Int := ⟨none,none,[⟨some "\\_SB_.PC00.I2C0",.answers⟩,⟨some "\\_SB_.PC00.I2C1",.refused⟩]⟩

theorem half_recovery_leaks : mxc6655Open minibook = .ok minibookDevice ∧
    ¬ (run (step deskArithmetic) minibookDevice [.poll halfBack]).fds.opened.Perm
      (heldFds (run (step deskArithmetic) minibookDevice [.poll halfBack]).i2cFds) ∧
    (mxc6655Close (run (step deskArithmetic) minibookDevice [.poll halfBack])).fds.opened = [2] :=
  ⟨minibook_opens,by decide,by decide⟩

end ChuwiMinibook.I2cDescriptors
