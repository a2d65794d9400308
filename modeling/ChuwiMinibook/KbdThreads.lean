import ChuwiMinibook.I2ecThreads
import ChuwiMinibook.KbdBacklight

namespace ChuwiMinibook.KbdThreads
open I2ec I2ecThreads KbdBacklight Machine
open I2ecThreads.Accesses

-- The functions of the keyboard backlight as threads, one access after another.
def kbdBlOutputGated : Accesses Bool := do
  let gpio ← i2ecRead it5570eKbdBlGpioGate
  return gpio &&& kbdBlGpioGateOff ≠ 0

def kbdBlSetOutput (enable : Bool) : Accesses Unit := do
  let gpio ← i2ecRead it5570eKbdBlGpioGate
  i2ecWrite it5570eKbdBlGpioGate (if enable then gpio &&& ~~~kbdBlGpioGateOff else gpio ||| kbdBlGpioGateOff)

def kbdBlSetDuty (duty : BitVec 8) : Accesses Unit := do
  i2ecWrite it5570eKbdBlDcr duty
  i2ecWrite ecKbdBlSetpoint duty

def kbdBlTimerSuspended : Accesses Bool := do
  let flag ← i2ecRead ecKbdBlTimerSuspend
  return flag = kbdBlTimerSuspendMagic

def kbdBlSetAutoOff (enable : Bool) : Accesses Unit :=
  i2ecWrite ecKbdBlTimerSuspend (if enable then 0 else kbdBlTimerSuspendMagic)

def kbdBlBrightnessSet (value : BitVec 8) : Accesses Unit := do
  kbdBlSetDuty value
  let suspended ← kbdBlTimerSuspended
  if suspended then kbdBlSetOutput (value ≠ 0)

def kbdBlBrightnessGet : Accesses (BitVec 8) := do
  let gated ← kbdBlOutputGated
  if gated then return 0
  else i2ecRead it5570eKbdBlDcr

-- The calls of brightness_set by the LED core, which makes them one at a time.
def brightnessSets : List (BitVec 8) → Accesses (BitVec 8)
  | [] => .done 0
  | value::rest => (kbdBlBrightnessSet value).bind fun _ => brightnessSets rest

theorem set_eq (value : BitVec 8) (next : Accesses (BitVec 8)) : ((kbdBlBrightnessSet value).bind fun _ => next) =
    .write it5570eKbdBlDcr value (.write ecKbdBlSetpoint value (.read ecKbdBlTimerSuspend fun flag =>
      if flag = kbdBlTimerSuspendMagic then .read it5570eKbdBlGpioGate fun gpio =>
        .write it5570eKbdBlGpioGate (if value ≠ 0 then gpio &&& ~~~kbdBlGpioGateOff else gpio ||| kbdBlGpioGateOff) next
      else next)) := by
  refine congrArg (Accesses.write _ _) (congrArg (Accesses.write _ _) (congrArg (Accesses.read _) (funext fun flag => ?_)))
  change (if decide (flag = kbdBlTimerSuspendMagic) = true then kbdBlSetOutput (decide (value ≠ 0)) else pure ()).bind _ = _
  simp only [decide_eq_true_eq]
  split
  · refine congrArg (Accesses.read _) (funext fun gpio => ?_)
    simp only [decide_eq_true_eq]
    rfl
  · rfl

theorem get_eq : kbdBlBrightnessGet = .read it5570eKbdBlGpioGate fun gpio =>
    if gpio &&& kbdBlGpioGateOff ≠ 0 then .done 0 else .read it5570eKbdBlDcr .done := by
  refine congrArg (Accesses.read _) (funext fun gpio => ?_)
  change (if decide (gpio &&& kbdBlGpioGateOff ≠ 0) = true then _ else _) = _
  simp only [decide_eq_true_eq]
  rfl

-- Undisturbed they are the functions of the sequential model.
theorem brightnessGet_alone (ec : Pnpcfg) : kbdBlBrightnessGet.alone ec = KbdBacklight.kbdBlBrightnessGet ec := by
  rw [get_eq]
  unfold KbdBacklight.kbdBlBrightnessGet KbdBacklight.kbdBlOutputGated
  by_cases closed : (minibookEcI2ecRead ec it5570eKbdBlGpioGate).2 &&& kbdBlGpioGateOff ≠ 0
  case pos =>
    rw [alone,if_pos closed]
    exact (if_pos (decide_eq_true closed)).symm
  case neg =>
    rw [alone,if_neg closed]
    exact (if_neg (mt of_decide_eq_true closed)).symm

theorem brightnessSets_alone (values : List (BitVec 8)) (kbl : Kbl) :
    ((brightnessSets values).alone kbl.ec).1 = (values.foldl KbdBacklight.kbdBlBrightnessSet kbl).ec := by
  induction values generalizing kbl with
  | nil => rfl
  | cons value rest ih =>
    rw [List.foldl_cons,← ih,brightnessSets,set_eq]
    unfold KbdBacklight.kbdBlBrightnessSet KbdBacklight.kbdBlTimerSuspended KbdBacklight.kbdBlSetOutput
    simp only [alone]
    by_cases magic : (minibookEcI2ecRead (KbdBacklight.kbdBlSetDuty kbl.ec value) ecKbdBlTimerSuspend).2 = kbdBlTimerSuspendMagic
    case pos =>
      rw [if_pos (by exact magic)]
      simp only [magic,decide_true,if_true,decide_eq_true_eq]
      rfl
    case neg =>
      rw [if_neg (by exact magic)]
      simp only [magic,decide_false,Bool.false_eq_true,if_false]
      rfl

section Readers
variable {ram₀ ram : BitVec 16 → BitVec 8} {values : List (BitVec 8)}

-- The setter's accesses, and whether the first value has been written: the gate is set
-- behind a value, and closed for 0 only.
def Setting (values : List (BitVec 8)) : Bool → Accesses (BitVec 8) → Prop
  | _,.done _ => True
  | started,.read _ next => ∀ val,Setting values started (next val)
  | started,.write addr val next =>
    if addr = it5570eKbdBlDcr then val ∈ values ∧ Setting values true next
    else if addr = it5570eKbdBlGpioGate then
      started = true ∧ (val &&& kbdBlGpioGateOff ≠ 0 → 0 ∈ values) ∧ Setting values started next
    else Setting values started next

-- The other threads leave these two registers alone.
def Spared (addr : BitVec 16) : Prop := addr ≠ it5570eKbdBlDcr ∧ addr ≠ it5570eKbdBlGpioGate

-- How far brightness_get has come.
inductive Reading (ram₀ : BitVec 16 → BitVec 8) (values : List (BitVec 8)) (ram : BitVec 16 → BitVec 8) :
    Accesses (BitVec 8) → Prop
  | started : Reading ram₀ values ram kbdBlBrightnessGet
  | opened (open' : gated ram₀ = false ∨ duty ram ∈ values) : Reading ram₀ values ram (.read it5570eKbdBlDcr .done)
  | returned (b : BitVec 8) (seen : b = visible ram₀ ∨ b ∈ values) : Reading ram₀ values ram (.done b)

theorem Reading.later {ram' : BitVec 16 → BitVec 8} {a : Accesses (BitVec 8)} (kept : duty ram ∈ values → duty ram' ∈ values)
    (reading : Reading ram₀ values ram a) : Reading ram₀ values ram' a := by
  cases reading with
  | started => exact .started
  | opened open' => exact .opened (open'.imp_right kept)
  | returned b seen => exact .returned b seen

theorem gate_opened (gpio : BitVec 8) : gpio &&& ~~~kbdBlGpioGateOff &&& kbdBlGpioGateOff = 0 := by
  rw [BitVec.and_assoc,BitVec.and_comm (~~~_),BitVec.and_not_self]
  exact BitVec.and_zero

theorem brightnessSets_setting {rest : List (BitVec 8)} (among : ∀ value ∈ rest,value ∈ values) (started : Bool) :
    Setting values started (brightnessSets rest) := by
  induction rest generalizing started with
  | nil => trivial
  | cons value rest ih =>
    have here : value ∈ values := among value List.mem_cons_self
    have onward : Setting values true (brightnessSets rest) := ih (fun v listed => among v (List.mem_cons_of_mem _ listed)) true
    have setpoint : ecKbdBlSetpoint ≠ it5570eKbdBlDcr ∧ ecKbdBlSetpoint ≠ it5570eKbdBlGpioGate := ⟨by decide,by decide⟩
    have gate : it5570eKbdBlGpioGate ≠ it5570eKbdBlDcr := by decide
    rw [brightnessSets,set_eq]
    simp only [Setting,if_true,setpoint.1,setpoint.2,if_false]
    refine ⟨here,fun flag => ?_⟩
    split
    · intro gpio
      simp only [Setting,gate,if_false,if_true,true_and]
      refine ⟨fun closed => ?_,onward⟩
      by_cases zero : value = 0
      case pos => exact zero ▸ here
      case neg =>
        rw [if_pos zero] at closed
        exact absurd (gate_opened gpio) closed
    · exact onward

-- What a write may do to the two registers.
structure Kept (values : List (BitVec 8)) (ram ram' : BitVec 16 → BitVec 8) : Prop where
  value : duty ram' = duty ram ∨ duty ram' ∈ values
  gate : gated ram' = gated ram ∨ (duty ram' ∈ values ∧ (gated ram' = true → 0 ∈ values))

theorem Kept.among {ram' : BitVec 16 → BitVec 8} (kept : Kept values ram ram') (before : duty ram ∈ values) : duty ram' ∈ values := by
  obtain same | among := kept.value
  · exact same ▸ before
  · exact among

theorem spared_kept {addr : BitVec 16} (spared : Spared addr) (val : BitVec 8) : Kept values ram (Function.update ram addr val) := by
  refine ⟨.inl ?_,.inl ?_⟩
  · exact Function.update_of_ne spared.1.symm _ _
  · unfold gated
    rw [Function.update_of_ne spared.2.symm]

theorem setting_kept {started : Bool} {addr : BitVec 16} {val : BitVec 8} {next : Accesses (BitVec 8)}
    (among : started = true → duty ram ∈ values) (setting : Setting values started (.write addr val next)) :
    Kept values ram (Function.update ram addr val) ∧
      ∃ later,(later = true → duty (Function.update ram addr val) ∈ values) ∧ Setting values later next := by
  unfold Setting at setting
  by_cases dcr : addr = it5570eKbdBlDcr
  case pos =>
    subst dcr
    rw [if_pos rfl] at setting
    have written : duty (Function.update ram it5570eKbdBlDcr val) = val := Function.update_self _ _ _
    refine ⟨⟨.inr (written ▸ setting.1),.inl ?_⟩,true,fun _ => written ▸ setting.1,setting.2⟩
    unfold gated
    rw [Function.update_of_ne (by decide)]
  case neg =>
    rw [if_neg dcr] at setting
    have same : duty (Function.update ram addr val) = duty ram := Function.update_of_ne (Ne.symm dcr) _ _
    by_cases gate : addr = it5570eKbdBlGpioGate
    case pos =>
      subst gate
      rw [if_pos rfl] at setting
      obtain ⟨begun,zero,onward⟩ := setting
      refine ⟨⟨.inl same,.inr ⟨same ▸ among begun,fun closed => zero ?_⟩⟩,started,fun _ => same ▸ among begun,onward⟩
      unfold gated at closed
      rw [Function.update_self] at closed
      exact of_decide_eq_true closed
    case neg =>
      rw [if_neg gate] at setting
      exact ⟨spared_kept ⟨dcr,gate⟩ val,started,fun begun => same ▸ among begun,setting⟩

variable {T : Type} {w r : T} {threads : T → Accesses (BitVec 8)}

-- Where thread u stands: w sets, r reads, and nobody but w writes the two registers.
structure Doing (ram₀ : BitVec 16 → BitVec 8) (values : List (BitVec 8)) (w r : T) (ram : BitVec 16 → BitVec 8) (u : T)
    (a : Accesses (BitVec 8)) : Prop where
  setter : u = w → ∃ started,(started = true → duty ram ∈ values) ∧ Setting values started a
  reader : u = r → Reading ram₀ values ram a
  other : u ≠ w → a.Writes Spared

-- Until the first value is written both registers are what they were, and from then on the
-- duty is one of the values.
structure Inv (ram₀ : BitVec 16 → BitVec 8) (values : List (BitVec 8)) (w r : T) (ram : BitVec 16 → BitVec 8)
    (threads : T → Accesses (BitVec 8)) : Prop where
  value : duty ram ∈ values ∨ (duty ram = duty ram₀ ∧ gated ram = gated ram₀)
  closed : gated ram = true → visible ram₀ = 0 ∨ 0 ∈ values
  doing : ∀ u,Doing ram₀ values w r ram u (threads u)

theorem Doing.later {ram' : BitVec 16 → BitVec 8} {u : T} {a : Accesses (BitVec 8)} (kept : Kept values ram ram')
    (doing : Doing ram₀ values w r ram u a) : Doing ram₀ values w r ram' u a := by
  refine ⟨fun mine => ?_,fun mine => (doing.reader mine).later kept.among,doing.other⟩
  obtain ⟨started,among,setting⟩ := doing.setter mine
  exact ⟨started,fun begun => kept.among (among begun),setting⟩

-- One access of the reader.
theorem reading_read (inv : Inv ram₀ values w r ram threads) {addr : BitVec 16} {next : BitVec 8 → Accesses (BitVec 8)}
    (reading : Reading ram₀ values ram (.read addr next)) : Reading ram₀ values ram (next (ram addr)) := by
  generalize here : Accesses.read addr next = a at reading
  cases reading with
  | started =>
    rw [get_eq] at here
    cases here
    dsimp only
    by_cases closed : ram it5570eKbdBlGpioGate &&& kbdBlGpioGateOff ≠ 0
    case pos =>
      rw [if_pos closed]
      exact .returned 0 ((inv.closed (decide_eq_true closed)).imp_left Eq.symm)
    case neg =>
      rw [if_neg closed]
      have open' : gated ram = false := decide_eq_false closed
      refine .opened ?_
      obtain among | untouched := inv.value
      · exact .inr among
      · exact .inl (untouched.2 ▸ open')
  | opened open' =>
    cases here
    refine .returned _ ?_
    obtain among | untouched := inv.value
    · exact .inr among
    · obtain open' | among := open'
      · refine .inl (untouched.1.trans ?_)
        rw [visible,open']
        rfl
      · exact .inr among
  | returned b seen => cases here

theorem reading_writes {addr : BitVec 16} {val : BitVec 8} {next : Accesses (BitVec 8)} :
    ¬Reading ram₀ values ram (.write addr val next) := by
  intro reading
  generalize here : Accesses.write addr val next = a at reading
  cases reading with
  | started =>
    rw [get_eq] at here
    cases here
  | opened open' => cases here
  | returned b seen => cases here

variable [DecidableEq T]

theorem inv_read (inv : Inv ram₀ values w r ram threads) {t : T} {addr : BitVec 16} {next : BitVec 8 → Accesses (BitVec 8)}
    (reads : threads t = .read addr next) : Inv ram₀ values w r ram (Function.update threads t (next (ram addr))) := by
  have before := inv.doing t
  rw [reads] at before
  refine ⟨inv.value,inv.closed,(Function.forall_update_iff threads _).mpr ⟨⟨fun mine => ?_,fun mine => ?_,fun mine => ?_⟩,
    fun u _ => inv.doing u⟩⟩
  · obtain ⟨started,among,setting⟩ := before.setter mine
    exact ⟨started,among,setting _⟩
  · exact reading_read inv (before.reader mine)
  · exact before.other mine _

theorem inv_write (inv : Inv ram₀ values w r ram threads) {t : T} {addr : BitVec 16} {val : BitVec 8} {next : Accesses (BitVec 8)}
    (writes : threads t = .write addr val next) :
    Inv ram₀ values w r (Function.update ram addr val) (Function.update threads t next) := by
  have before := inv.doing t
  rw [writes] at before
  have moved : Kept values ram (Function.update ram addr val) ∧ Doing ram₀ values w r (Function.update ram addr val) t next := by
    by_cases mine : t = w
    case pos =>
      obtain ⟨started,among,setting⟩ := before.setter mine
      obtain ⟨kept,later⟩ := setting_kept among setting
      exact ⟨kept,fun _ => later,fun reader => absurd (before.reader reader) reading_writes,fun other => absurd mine other⟩
    case neg =>
      have spared := before.other mine
      exact ⟨spared_kept spared.1 val,fun setter => absurd setter mine,
        fun reader => absurd (before.reader reader) reading_writes,fun _ => spared.2⟩
  obtain ⟨kept,here⟩ := moved
  refine ⟨?_,fun closed => ?_,(Function.forall_update_iff threads _).mpr ⟨here,fun u _ => (inv.doing u).later kept⟩⟩
  · obtain among | untouched := inv.value
    · exact .inl (kept.among among)
    · obtain same | among := kept.value
      · obtain gate | ⟨among,-⟩ := kept.gate
        · exact .inr ⟨same.trans untouched.1,gate.trans untouched.2⟩
        · exact .inl among
      · exact .inl among
  · obtain gate | ⟨-,zero⟩ := kept.gate
    · exact inv.closed (gate ▸ closed)
    · exact .inr (zero closed)

theorem inv_step (x : (BitVec 16 → BitVec 8)×(T → Accesses (BitVec 8))) (t : T) (inv : Inv ram₀ values w r x.1 x.2) :
    Inv ram₀ values w r (flatStep x t).1 (flatStep x t).2 := by
  cases doing : x.2 t with
  | done a =>
    have stays : flatStep x t = x := by simp only [flatStep,doing]
    rw [stays]
    exact inv
  | read addr next =>
    have moves : flatStep x t = (x.1,Function.update x.2 t (next (x.1 addr))) := by simp only [flatStep,doing]
    rw [moves]
    exact inv_read inv doing
  | write addr val next =>
    have moves : flatStep x t = (Function.update x.1 addr val,Function.update x.2 t next) := by simp only [flatStep,doing]
    rw [moves]
    exact inv_write inv doing

-- The brightness is in two registers, and neither brightness_set nor brightness_get holds the
-- lock over both. Yet nobody reads a brightness that was never there.
theorem brightness_never_torn {p : Pnpcfg} {threads : T → Accesses (BitVec 8)} (schedule : List T)
    (setter : threads w = brightnessSets values) (reader : threads r = kbdBlBrightnessGet)
    (others : ∀ t,t ≠ w → (threads t).Writes Spared)
    (outside : ∀ acts,(atPorts p threads schedule).holder ≠ some (r,acts)) {b : BitVec 8}
    (returned : (atPorts p threads schedule).locals r = .done b) : b = visible p.ram ∨ b ∈ values := by
  have start : Inv p.ram values w r p.ram threads := by
    refine ⟨.inr ⟨rfl,rfl⟩,fun closed => .inl (if_pos closed),fun u => ⟨fun mine => ?_,fun mine => ?_,others u⟩⟩
    · rw [mine,setter]
      exact ⟨false,fun begun => (by cases begun),brightnessSets_setting (fun _ listed => listed) false⟩
    · rw [mine,reader]
      exact .started
  have inv : Inv p.ram values w r (onFlatMemory p threads schedule).1 (onFlatMemory p threads schedule).2 :=
    foldl_keeps (P := fun x : (BitVec 16 → BitVec 8)×(T → Accesses (BitVec 8)) => Inv p.ram values w r x.1 x.2) inv_step _ start
  have reading := (inv.doing r).reader rfl
  rw [← outside_flat p threads schedule outside,returned] at reading
  generalize here : Accesses.done b = a at reading
  cases reading with
  | started =>
    rw [get_eq] at here
    cases here
  | opened open' => cases here
  | returned b seen =>
    cases here
    exact seen

-- The timer is suspended and the gate closed over a duty of 5. The setter of 7 and 0 opens
-- and closes the gate, and the reader comes in between.
def suspended : Kbl := ⟨⟨0,fun _ => 0,0,0,0,fun _ => 0,
  Function.update (Function.update (fun _ => 5) ecKbdBlTimerSuspend kbdBlTimerSuspendMagic) it5570eKbdBlGpioGate kbdBlGpioGateOff⟩,0,[]⟩

def setterAndReader (setter : Bool) : Accesses (BitVec 8) := if setter then brightnessSets [7,0] else kbdBlBrightnessGet

def between : List Bool := List.replicate 70 true++List.replicate 28 false

def finished : Accesses (BitVec 8) → Option (BitVec 8)
  | .done b => some b
  | _ => none

theorem done_of_finished {a : Accesses (BitVec 8)} {b : BitVec 8} (some : finished a = some b) : a = .done b := by
  cases a with
  | done b' => exact congrArg Accesses.done (Option.some.inj some)
  | read addr next => cases some
  | write addr val next => cases some

theorem get_writes (allowed : BitVec 16 → Prop) : kbdBlBrightnessGet.Writes allowed := by
  rw [get_eq]
  intro gpio
  dsimp only
  split
  · trivial
  · exact fun _ => trivial

theorem reader_writes (allowed : BitVec 16 → Prop) : ∀ t,t ≠ true → (setterAndReader t).Writes allowed := by
  intro t other
  cases t with
  | true => exact absurd rfl other
  | false => exact get_writes allowed

theorem brightness_never_torn_between : visible suspended.ec.ram = 0 ∧
    (atPorts suspended.ec setterAndReader between).locals false = .done 7 ∧
    (7 = visible suspended.ec.ram ∨ 7 ∈ ([7,0] : List (BitVec 8))) := by
  have free : (atPorts suspended.ec setterAndReader between).holder = none := Option.isNone_iff_eq_none.mp (by decide +kernel)
  have returned : (atPorts suspended.ec setterAndReader between).locals false = .done 7 := done_of_finished (by decide +kernel)
  refine ⟨by decide +kernel,returned,brightness_never_torn between (w := true) rfl rfl (reader_writes _) (fun acts held => ?_) returned⟩
  rw [free] at held
  cases held

end Readers

section Registers
variable {T : Type} [DecidableEq T] {w : T} {values : List (BitVec 8)}

-- The registers that brightness_set comes to.
def Backlight (addr : BitVec 16) : Prop :=
  addr = it5570eKbdBlDcr ∨ addr = ecKbdBlSetpoint ∨ addr = ecKbdBlTimerSuspend ∨ addr = it5570eKbdBlGpioGate

theorem brightnessSets_within (values : List (BitVec 8)) : (brightnessSets values).Within Backlight := by
  have gate : Backlight it5570eKbdBlGpioGate := .inr (.inr (.inr rfl))
  induction values with
  | nil => trivial
  | cons value rest ih =>
    rw [brightnessSets,set_eq]
    refine ⟨.inl rfl,.inr (.inl rfl),.inr (.inr (.inl rfl)),fun flag => ?_⟩
    dsimp only
    split
    · exact ⟨gate,fun _ => ⟨gate,ih⟩⟩
    · exact ih

-- With any number of readers beside them, the calls of brightness_set leave in these registers
-- what they leave one after the other.
theorem brightness_sets_stand {kbl : Kbl} {threads : T → Accesses (BitVec 8)} (schedule : List T)
    (setter : threads w = brightnessSets values) (others : ∀ t,t ≠ w → (threads t).Writes fun addr => ¬Backlight addr)
    (outside : ∀ acts,(atPorts kbl.ec threads schedule).holder ≠ some (w,acts)) {b : BitVec 8}
    (returned : (atPorts kbl.ec threads schedule).locals w = .done b) (addr : BitVec 16) (register : Backlight addr) :
    (LockedSections.settled (atPorts kbl.ec threads schedule)).1.ram addr =
        (values.foldl KbdBacklight.kbdBlBrightnessSet kbl).ec.ram addr ∧
      ((atPorts kbl.ec threads schedule).holder = none → (atPorts kbl.ec threads schedule).shared.ram addr =
        (values.foldl KbdBacklight.kbdBlBrightnessSet kbl).ec.ram addr) := by
  have within : (threads w).Within Backlight := setter ▸ brightnessSets_within values
  have stands : (LockedSections.settled (atPorts kbl.ec threads schedule)).1.ram addr =
      (values.foldl KbdBacklight.kbdBlBrightnessSet kbl).ec.ram addr := by
    rw [(undisturbed schedule within others outside returned).2 addr register,setter,brightnessSets_alone]
  refine ⟨stands,fun free => ?_⟩
  rw [LockedSections.settled,free] at stands
  exact stands

theorem brightness_sets_stand_between : (atPorts suspended.ec setterAndReader between).shared.ram it5570eKbdBlGpioGate = 0 ∧
    (atPorts suspended.ec setterAndReader (between++List.replicate 70 true)).shared.ram it5570eKbdBlGpioGate =
      ([7,0].foldl KbdBacklight.kbdBlBrightnessSet suspended).ec.ram it5570eKbdBlGpioGate := by
  have free : (atPorts suspended.ec setterAndReader (between++List.replicate 70 true)).holder = none :=
    Option.isNone_iff_eq_none.mp (by decide +kernel)
  have returned : (atPorts suspended.ec setterAndReader (between++List.replicate 70 true)).locals true = .done 0 :=
    done_of_finished (by decide +kernel)
  have outside (acts : List (LockedSections.Act Pnpcfg (Accesses (BitVec 8)))) :
      (atPorts suspended.ec setterAndReader (between++List.replicate 70 true)).holder ≠ some (true,acts) := by
    rw [free]
    exact (Option.some_ne_none _).symm
  have stands := brightness_sets_stand (between++List.replicate 70 true) rfl (reader_writes _) outside returned it5570eKbdBlGpioGate
    (.inr (.inr (.inr rfl)))
  exact ⟨by decide +kernel,stands.2 free⟩

end Registers

end ChuwiMinibook.KbdThreads
