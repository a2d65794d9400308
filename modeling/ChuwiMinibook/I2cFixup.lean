import Mathlib.Data.BitVec
import Mathlib.Data.List.Basic
import Mathlib.Logic.Function.Basic

namespace ChuwiMinibook.I2cFixup

def dwIcEnable : Nat := 0x6c
def dwIcFsSpklen : Nat := 0xa0
def dwIcHsSpklen : Nat := 0xa4
def lpssPrivOffset : Nat := 0x200
def lpssPrivClkgate : Nat := 0x38

-- A controller: whether its BAR has the private registers, the values to program,
-- its registers, and the writes made to them.
structure LpssI2cFixup where
  priv : Bool
  spklenFs : BitVec 8
  spklenHs : BitVec 8
  regs : Nat → BitVec 32
  writes : List (Nat × BitVec 32)

def writel (value : BitVec 32) (reg : Nat) (fix : LpssI2cFixup) : LpssI2cFixup :=
  {fix with regs := Function.update fix.regs reg value,writes := fix.writes++[(reg,value)]}

-- What the status register returns is up to the hardware: one value for each read.
def waitFrom (status : Nat → BitVec 32) : Nat → Nat → Bool
  | 0,i => status i &&& 1 = 0
  | timeout+1,i =>
    if status i &&& 1 = 0 then true else if timeout = 0 then false else waitFrom status timeout (i+1)

def waitControllerDisabled (status : Nat → BitVec 32) : Bool := waitFrom status 100 0

-- How apply_fixup ends: at one of its two early returns, or with its message.
inductive Ending
  | configured | timeout | patched
deriving DecidableEq

def program (fix : LpssI2cFixup) : LpssI2cFixup :=
  let fix := writel (fix.spklenFs.setWidth 32) dwIcFsSpklen fix
  if fix.spklenHs ≠ 0 then writel (fix.spklenHs.setWidth 32) dwIcHsSpklen fix else fix

def applyFixup (status : Nat → BitVec 32) (fix : LpssI2cFixup) : LpssI2cFixup × Ending :=
  let oldFs := fix.regs dwIcFsSpklen
  let oldHs := fix.regs dwIcHsSpklen
  if oldFs = fix.spklenFs.setWidth 32 ∧ (fix.spklenHs = 0 ∨ oldHs = fix.spklenHs.setWidth 32) then (fix,.configured)
  else
    let wasEnabled := fix.regs dwIcEnable &&& 1
    if wasEnabled ≠ 0 then
      let fix := writel 0 dwIcEnable fix
      if waitControllerDisabled status then (writel 1 dwIcEnable (program fix),.patched) else (fix,.timeout)
    else (program fix,.patched)

def applyClkgate (fix : LpssI2cFixup) : LpssI2cFixup :=
  if !fix.priv then fix
  else if fix.regs (lpssPrivOffset+lpssPrivClkgate) = 1 then fix
  else writel 1 (lpssPrivOffset+lpssPrivClkgate) fix

-- Each controller answers with its own status values.
def applyAll (clkgate : Bool) (status : Nat → Nat → BitVec 32) (controllers : List LpssI2cFixup) : List LpssI2cFixup :=
  controllers.mapIdx (fun i fix =>
    let fix := (applyFixup (status i) fix).1
    if clkgate then applyClkgate fix else fix)

def Configured (fix : LpssI2cFixup) : Prop :=
  fix.regs dwIcFsSpklen = fix.spklenFs.setWidth 32 ∧
    (fix.spklenHs ≠ 0 → fix.regs dwIcHsSpklen = fix.spklenHs.setWidth 32)

-- One of the reads before the timeout shows the controller disabled.
def Disables (status : Nat → BitVec 32) : Prop := ∃ i < 100,status i &&& 1 = 0

theorem waitFrom_iff (status : Nat → BitVec 32) (timeout i : Nat) :
    waitFrom status (timeout+1) i = true ↔ ∃ k < timeout+1,status (i+k) &&& 1 = 0 := by
  induction timeout generalizing i with
  | zero =>
    have once : waitFrom status 1 i = decide (status i &&& 1 = 0) := by simp [waitFrom]
    rw [once,decide_eq_true_iff]
    constructor
    · exact fun clear => ⟨0,by omega,clear⟩
    · rintro ⟨k,small,clear⟩
      obtain rfl : k = 0 := by omega
      exact clear
  | succ timeout ih =>
    unfold waitFrom
    by_cases clear : status i &&& 1 = 0
    · rw [if_pos clear]
      exact iff_of_true rfl ⟨0,by omega,clear⟩
    · rw [if_neg clear,if_neg (by omega),ih]
      constructor
      · rintro ⟨k,small,found⟩
        exact ⟨k+1,by omega,by rwa [Nat.add_right_comm] at found⟩
      · rintro ⟨k,small,found⟩
        cases k with
        | zero => exact absurd found clear
        | succ k => exact ⟨k,by omega,by rwa [Nat.add_right_comm]⟩

theorem waitControllerDisabled_iff (status : Nat → BitVec 32) :
    waitControllerDisabled status = true ↔ Disables status := by
  rw [waitControllerDisabled,waitFrom_iff]
  simp only [Nat.zero_add,Disables]

section Registers

variable (fix : LpssI2cFixup)

theorem writel_same (value : BitVec 32) (reg : Nat) : (writel value reg fix).regs reg = value :=
  Function.update_self _ _ _

theorem writel_other (value : BitVec 32) {reg other : Nat} (apart : other ≠ reg) :
    (writel value reg fix).regs other = fix.regs other := Function.update_of_ne apart _ _

-- What program leaves in the registers.
structure Programmed (fix next : LpssI2cFixup) : Prop where
  configured : Configured next
  others : ∀ reg,reg ≠ dwIcFsSpklen → reg ≠ dwIcHsSpklen → next.regs reg = fix.regs reg
  values : next.spklenFs = fix.spklenFs ∧ next.spklenHs = fix.spklenHs

theorem program_spec : Programmed fix (program fix) := by
  unfold program
  dsimp only
  split
  · rename_i high
    refine ⟨⟨?_,fun _ => ?_⟩,?_,rfl,rfl⟩
    · simp [writel,dwIcFsSpklen,dwIcHsSpklen]
    · simp [writel]
    · intro reg fs hs
      simp [writel,fs,hs]
  · rename_i none
    refine ⟨⟨?_,fun high => ?_⟩,?_,rfl,rfl⟩
    · simp [writel]
    · exact absurd high none
    · intro reg fs _
      simp [writel,fs]

theorem configured_iff : (fix.regs dwIcFsSpklen = fix.spklenFs.setWidth 32 ∧
    (fix.spklenHs = 0 ∨ fix.regs dwIcHsSpklen = fix.spklenHs.setWidth 32)) ↔ Configured fix := by
  unfold Configured
  rw [or_iff_not_imp_left]

theorem applyFixup_configured (status : Nat → BitVec 32) (done : Configured fix) :
    applyFixup status fix = (fix,.configured) := by
  unfold applyFixup
  exact if_pos ((configured_iff fix).mpr done)

-- The four ways through apply_fixup.
theorem applyFixup_cases (status : Nat → BitVec 32) :
    (Configured fix ∧ applyFixup status fix = (fix,.configured)) ∨
    (¬Configured fix ∧ fix.regs dwIcEnable &&& 1 = 0 ∧ applyFixup status fix = (program fix,.patched)) ∨
    (¬Configured fix ∧ fix.regs dwIcEnable &&& 1 ≠ 0 ∧ Disables status ∧
      applyFixup status fix = (writel 1 dwIcEnable (program (writel 0 dwIcEnable fix)),.patched)) ∨
    (¬Configured fix ∧ fix.regs dwIcEnable &&& 1 ≠ 0 ∧ ¬Disables status ∧
      applyFixup status fix = (writel 0 dwIcEnable fix,.timeout)) := by
  by_cases done : Configured fix
  · exact .inl ⟨done,applyFixup_configured fix status done⟩
  · have programs := mt (configured_iff fix).mp done
    by_cases idle : fix.regs dwIcEnable &&& 1 = 0
    · refine .inr (.inl ⟨done,idle,?_⟩)
      unfold applyFixup
      dsimp only
      rw [if_neg programs,if_neg (not_not.mpr idle)]
    · by_cases disables : Disables status
      · refine .inr (.inr (.inl ⟨done,idle,disables,?_⟩))
        unfold applyFixup
        dsimp only
        rw [if_neg programs,if_pos idle,if_pos ((waitControllerDisabled_iff status).mpr disables)]
      · refine .inr (.inr (.inr ⟨done,idle,disables,?_⟩))
        unfold applyFixup
        dsimp only
        rw [if_neg programs,if_pos idle,if_neg (mt (waitControllerDisabled_iff status).mp disables)]

theorem configured_writel {value : BitVec 32} {reg : Nat} (done : Configured fix) (fs : reg ≠ dwIcFsSpklen)
    (hs : reg ≠ dwIcHsSpklen) : Configured (writel value reg fix) := by
  unfold Configured
  rw [writel_other fix value (Ne.symm fs),writel_other fix value (Ne.symm hs)]
  exact done

-- Whoever gets to the end has the lengths in place.
theorem applyFixup_completed {status : Nat → BitVec 32} (completed : (applyFixup status fix).2 ≠ .timeout) :
    Configured (applyFixup status fix).1 := by
  rcases applyFixup_cases fix status with ⟨done,ran⟩ | ⟨_,_,ran⟩ | ⟨_,_,_,ran⟩ | ⟨_,_,_,ran⟩
  · rw [ran]
    exact done
  · rw [ran]
    exact (program_spec fix).configured
  · rw [ran]
    exact configured_writel _ (program_spec _).configured (by decide) (by decide)
  · exact absurd (congrArg Prod.snd ran) completed

-- The controller after apply_fixup: enabled as before, both lengths programmed or both
-- as they were, and after a completed run nothing left to write.
structure LeavesAsFound (status : Nat → BitVec 32) (fix : LpssI2cFixup) : Prop where
  enable : (applyFixup status fix).1.regs dwIcEnable = fix.regs dwIcEnable
  lengths : Configured (applyFixup status fix).1 ∨
    (applyFixup status fix).1.regs dwIcFsSpklen = fix.regs dwIcFsSpklen ∧
      (applyFixup status fix).1.regs dwIcHsSpklen = fix.regs dwIcHsSpklen
  again : (applyFixup status fix).2 ≠ .timeout → ∀ later,
    (applyFixup later (applyFixup status fix).1).1.writes = (applyFixup status fix).1.writes

theorem lengths_kept (status : Nat → BitVec 32) : Configured (applyFixup status fix).1 ∨
    (applyFixup status fix).1.regs dwIcFsSpklen = fix.regs dwIcFsSpklen ∧
      (applyFixup status fix).1.regs dwIcHsSpklen = fix.regs dwIcHsSpklen := by
  by_cases completed : (applyFixup status fix).2 ≠ .timeout
  · exact .inl (applyFixup_completed fix completed)
  · rcases applyFixup_cases fix status with ⟨_,ran⟩ | ⟨_,_,ran⟩ | ⟨_,_,_,ran⟩ | ⟨_,_,_,ran⟩
    · exact absurd (by simp [ran]) completed
    · exact absurd (by simp [ran]) completed
    · exact absurd (by simp [ran]) completed
    · rw [ran]
      exact .inr ⟨writel_other fix 0 (by decide),writel_other fix 0 (by decide)⟩

theorem completed_again {status : Nat → BitVec 32} (completed : (applyFixup status fix).2 ≠ .timeout)
    (later : Nat → BitVec 32) : applyFixup later (applyFixup status fix).1 = ((applyFixup status fix).1,.configured) :=
  applyFixup_configured _ later (applyFixup_completed fix completed)

-- The controller is left as it was found when there is nothing to do, when it was
-- disabled, or when no other bit of IC_ENABLE is set and it is disabled in time.
theorem leaves_as_found_iff (status : Nat → BitVec 32) : LeavesAsFound status fix ↔
    Configured fix ∨ fix.regs dwIcEnable &&& 1 = 0 ∨ (fix.regs dwIcEnable = 1 ∧ Disables status) := by
  have rest (enable : (applyFixup status fix).1.regs dwIcEnable = fix.regs dwIcEnable) : LeavesAsFound status fix := by
    refine ⟨enable,lengths_kept fix status,fun completed later => ?_⟩
    rw [completed_again fix completed later]
  rcases applyFixup_cases fix status with ⟨done,ran⟩ | ⟨_,idle,ran⟩ | ⟨todo,busy,disables,ran⟩ | ⟨todo,busy,stuck,ran⟩
  · refine iff_of_true (rest ?_) (.inl done)
    rw [ran]
  · refine iff_of_true (rest ?_) (.inr (.inl idle))
    rw [ran]
    exact (program_spec fix).others _ (by decide) (by decide)
  · have after : (applyFixup status fix).1.regs dwIcEnable = 1 := by
      rw [ran]
      exact writel_same _ 1 _
    constructor
    · intro found
      exact .inr (.inr ⟨found.enable.symm.trans after,disables⟩)
    · rintro (done | idle | ⟨one,_⟩)
      · exact absurd done todo
      · exact absurd idle busy
      · exact rest (after.trans one.symm)
  · have after : (applyFixup status fix).1.regs dwIcEnable = 0 := by
      rw [ran]
      exact writel_same fix 0 _
    constructor
    · intro found
      have zero := found.enable.symm.trans after
      exact absurd (by simp [zero]) busy
    · rintro (done | idle | ⟨_,disables⟩)
      · exact absurd done todo
      · exact absurd idle busy
      · exact absurd disables stuck

end Registers

-- An enabled controller whose status never shows it disabled.
def stuckController : LpssI2cFixup := ⟨false,6,0,fun reg => if reg = dwIcEnable then 1 else 0,[]⟩

theorem stuck_left_disabled : stuckController.regs dwIcEnable = 1 ∧
    (applyFixup (fun _ => 1) stuckController).2 = .timeout ∧
    (applyFixup (fun _ => 1) stuckController).1.regs dwIcEnable = 0 := by
  decide

section All

theorem applyClkgate_configured {fix : LpssI2cFixup} (done : Configured fix) : Configured (applyClkgate fix) := by
  unfold applyClkgate
  split
  · exact done
  · split
    · exact done
    · exact configured_writel fix done (by decide) (by decide)

theorem applyClkgate_again (fix : LpssI2cFixup) : applyClkgate (applyClkgate fix) = applyClkgate fix := by
  by_cases missing : (!fix.priv) = true
  · have same : applyClkgate fix = fix := if_pos missing
    rw [same,same]
  · by_cases gated : fix.regs (lpssPrivOffset+lpssPrivClkgate) = 1
    · have same : applyClkgate fix = fix := (if_neg missing).trans (if_pos gated)
      rw [same,same]
    · have written : applyClkgate fix = writel 1 (lpssPrivOffset+lpssPrivClkgate) fix :=
        (if_neg missing).trans (if_neg gated)
      rw [written]
      exact (if_neg missing).trans (if_pos (writel_same fix 1 _))

-- After a resume in which no controller timed out, another one changes nothing.
theorem applyAll_again (clkgate : Bool) (status later : Nat → Nat → BitVec 32) (controllers : List LpssI2cFixup)
    (completed : ∀ i fix,controllers[i]? = some fix → (applyFixup (status i) fix).2 ≠ .timeout) :
    applyAll clkgate later (applyAll clkgate status controllers) = applyAll clkgate status controllers := by
  apply List.ext_getElem?
  intro i
  unfold applyAll
  rw [List.getElem?_mapIdx,List.getElem?_mapIdx]
  cases there : controllers[i]? with
  | none => rfl
  | some fix =>
    have done := applyFixup_completed fix (completed i fix there)
    cases clkgate with
    | false => simp [applyFixup_configured _ (later i) done]
    | true => simp [applyFixup_configured _ (later i) (applyClkgate_configured done),applyClkgate_again]

end All

end ChuwiMinibook.I2cFixup
