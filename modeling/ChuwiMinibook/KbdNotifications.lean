import ChuwiMinibook.KbdBacklight

namespace ChuwiMinibook.KbdBacklight
open I2ec Machine

def FromHost : Event → Prop
  | .ec _ => False
  | _ => True

def IsStore : Event → Prop
  | .store _ => True
  | _ => False

-- The next poll takes the brightness for changed.
def Stale (kbl : Kbl) : Prop := visible kbl.ec.ram ≠ kbl.lastObserved

-- A brightness that the closed gate hides: the driver leaves the gate to the EC.
def Hides (kbl : Kbl) (value : BitVec 8) : Prop :=
  value ≠ 0 ∧ gated kbl.ec.ram = true ∧ suspended kbl.ec.ram = false

instance (kbl : Kbl) (value : BitVec 8) : Decidable (Hides kbl value) := inferInstanceAs (Decidable (_ ∧ _ ∧ _))

-- Such a brightness is the last one written, and no poll came behind it.
def Hidden (start : Kbl) (events : List Event) : Prop :=
  ∃ before value mid,events = before++.write value::mid ∧ (∀ e ∈ mid,IsStore e) ∧ Hides (run step start before) value

theorem hidden_nil (start : Kbl) : ¬Hidden start [] := by
  rintro ⟨before,value,mid,split,_⟩
  exact absurd split.symm (List.append_ne_nil_of_right_ne_nil _ (List.cons_ne_nil _ _))

theorem hidden_snoc {start : Kbl} {events : List Event} {e : Event} : Hidden start (events++[e]) ↔
    (IsStore e ∧ Hidden start events) ∨ ∃ value,e = .write value ∧ Hides (run step start events) value := by
  constructor
  · rintro ⟨before,value,mid,split,stores,hides⟩
    rcases mid.eq_nil_or_concat' with rfl | ⟨rest,last,rfl⟩
    · obtain ⟨rfl,single⟩ := List.append_inj' split rfl
      exact .inr ⟨value,List.singleton_inj.mp single,hides⟩
    · rw [← List.cons_append,← List.append_assoc] at split
      obtain ⟨rfl,single⟩ := List.append_inj' split rfl
      have same : e = last := List.singleton_inj.mp single
      refine .inl ⟨same ▸ stores last (by simp),before,value,rest,rfl,fun e listed => stores e (by simp [listed]),hides⟩
  · rintro (⟨store,before,value,mid,rfl,stores,hides⟩ | ⟨value,rfl,hides⟩)
    · refine ⟨before,value,mid++[e],by simp,?_,hides⟩
      intro other listed
      rcases List.mem_append.mp listed with old | new
      · exact stores other old
      · rw [List.mem_singleton.mp new]
        exact store
    · exact ⟨events,value,[],rfl,by simp,hides⟩

section Steps

variable (kbl : Kbl)

theorem write_stale (value : BitVec 8) : Stale (step kbl (.write value)) ↔ Hides kbl value := by
  have written := step_write kbl value
  unfold Stale Hides visible
  rw [written.gated,written.duty,written.lastObserved]
  cases held : suspended kbl.ec.ram with
  | true =>
    by_cases zero : value = 0
    · simp [zero]
    · rw [if_pos rfl,decide_eq_false zero]
      simp
  | false =>
    cases closed : gated kbl.ec.ram with
    | true => exact ⟨fun differs => ⟨Ne.symm differs,rfl,rfl⟩,fun hides => Ne.symm hides.1⟩
    | false => simp

theorem store_stale (enable : Option Bool) : Stale (step kbl (.store enable)) ↔ Stale kbl := by
  have stored := step_store kbl enable
  unfold Stale visible
  rw [stored.gated,stored.duty,stored.lastObserved]

theorem poll_fresh : ¬Stale (step kbl .poll) := by
  obtain ⟨ram,observed,_⟩ := step_poll kbl
  unfold Stale
  rw [ram,observed]
  exact not_not.mpr rfl

theorem step_notified {e : Event} (host : FromHost e) :
    (step kbl e).notified = [] ↔ kbl.notified = [] ∧ (e = .poll → ¬Stale kbl) := by
  cases e with
  | write value => simp [(step_write kbl value).notified]
  | store enable => simp [(step_store kbl enable).notified]
  | poll =>
    rw [(step_poll kbl).2.2]
    unfold Stale
    split
    · rename_i stale
      simp [stale]
    · rename_i fresh
      simp [not_not.mp fresh]
  | ec ram => exact host.elim

end Steps

section Runs

variable {p : Pnpcfg} {events : List Event}

theorem run_stale (host : ∀ e ∈ events,FromHost e) :
    Stale (run step (registerKbdBacklight p) events) ↔ Hidden (registerKbdBacklight p) events := by
  induction events using List.reverseRecOn with
  | nil =>
    obtain ⟨observed,ram,_⟩ := register_parts p
    refine iff_of_false ?_ (hidden_nil _)
    unfold Stale
    rw [run_nil,observed,ram]
    exact not_not.mpr rfl
  | append_singleton events e ih =>
    have before := ih fun e listed => host e (by simp [listed])
    have last : FromHost e := host e (by simp)
    rw [run_snoc,hidden_snoc]
    cases e with
    | write value => simp [write_stale,IsStore]
    | store enable => simp [store_stale,before,IsStore]
    | poll => simp [poll_fresh,IsStore]
    | ec ram => exact last.elim

theorem run_quiet (host : ∀ e ∈ events,FromHost e) :
    (run step (registerKbdBacklight p) events).notified = [] ↔
      Stepwise (fun before e => e = .poll → ¬Stale (run step (registerKbdBacklight p) before)) events := by
  induction events using List.reverseRecOn with
  | nil => exact iff_of_true (register_parts p).2.2 (stepwise_nil _)
  | append_singleton events e ih =>
    rw [run_snoc,step_notified _ (host e (by simp)),stepwise_snoc,ih fun e listed => host e (by simp [listed])]

end Runs

-- Without changes by the EC: nothing is notified exactly when no poll follows a write
-- that the gate hides before the next write.
theorem notified_iff (p : Pnpcfg) (events : List Event) (host : ∀ e ∈ events,FromHost e) :
    (run step (registerKbdBacklight p) events).notified = [] ↔
      ∀ before value mid after,events = before++.write value::(mid++.poll::after) → (∀ e ∈ mid,IsStore e) →
        ¬Hides (run step (registerKbdBacklight p) before) value := by
  rw [run_quiet host]
  constructor
  · intro quiet before value mid after split stores hides
    have fresh := quiet (before++.write value::mid) .poll after (by simp [split]) rfl
    have early : ∀ e ∈ before++.write value::mid,FromHost e := by
      intro e listed
      apply host
      rw [split]
      rcases List.mem_append.mp listed with old | new
      · simp [old]
      · rcases List.mem_cons.mp new with same | later
        · simp [same]
        · simp [later]
    exact fresh ((run_stale early).mpr ⟨before,value,mid,rfl,stores,hides⟩)
  · rintro kept before e after split rfl stale
    have early : ∀ e ∈ before,FromHost e := fun e listed => host e (by simp [split,listed])
    obtain ⟨first,value,mid,rfl,stores,hides⟩ := (run_stale early).mp stale
    exact kept first value mid after (by simp [split]) stores hides

-- Registers with a gate, a duty and a timer flag.
def registers (gate duty flag : BitVec 8) : Pnpcfg where
  index := 0
  config := fun _ => 0
  d2adr := 0
  addrL := 0
  addrH := 0
  depth2 := fun _ => 0
  ram := fun addr =>
    if addr = it5570eKbdBlGpioGate then gate
    else if addr = it5570eKbdBlDcr then duty
    else if addr = ecKbdBlTimerSuspend then flag
    else 0

theorem notified_iff_open : (run step (registerKbdBacklight (registers 0 50 0)) [.write 100,.poll]).notified = [] := by
  refine (notified_iff (registers 0 50 0) [.write 100,.poll] ?_).mpr ?_
  · intro e listed
    simp only [List.mem_cons,List.not_mem_nil,or_false] at listed
    rcases listed with rfl | rfl <;> trivial
  · intro before value mid after split _ hides
    cases before with
    | nil => exact absurd hides.2.1 (by decide)
    | cons e rest =>
      cases rest with
      | nil => simp at split
      | cons e' rest => simp at split

-- The gate was closed by the auto-off timer, which is running.
theorem hidden_write_notified :
    (run step (registerKbdBacklight (registers 0x40 0 0)) [.write 100,.poll]).notified = [0] := by
  decide

end ChuwiMinibook.KbdBacklight
