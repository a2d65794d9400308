import ChuwiMinibook.KbdNotifications

namespace ChuwiMinibook.KbdBacklight
open I2ec Machine

def storeValue : Event → Option Bool
  | .store enable => enable
  | _ => none

-- The last value of auto_off_timer that was accepted.
def lastStore (events : List Event) : Option Bool := (events.filterMap storeValue).getLast?

-- The gate is open exactly when there is something to show.
def Lit (kbl : Kbl) : Prop := gated kbl.ec.ram = false ↔ duty kbl.ec.ram ≠ 0

instance (kbl : Kbl) : Decidable (Lit kbl) := inferInstanceAs (Decidable (_ ↔ _))

-- The timer is suspended in a state that needs no change of the gate.
def HandsOver (kbl : Kbl) : Event → Prop
  | .store (some false) => Lit kbl
  | _ => True

theorem lastStore_snoc (events : List Event) (e : Event) :
    lastStore (events++[e]) = (storeValue e).elim (lastStore events) some := by
  unfold lastStore
  rw [List.filterMap_append]
  cases value : storeValue e with
  | none => simp [value]
  | some enable => simp [value]

theorem store_lit (kbl : Kbl) (enable : Option Bool) : Lit (step kbl (.store enable)) ↔ Lit kbl := by
  have stored := step_store kbl enable
  unfold Lit
  rw [stored.gated,stored.duty]

-- While the timer is suspended the driver keeps the gate.
theorem step_lit {kbl : Kbl} {e : Event} (held : suspended kbl.ec.ram = true) (lit : Lit kbl)
    (off : storeValue e ≠ some true) : suspended (step kbl e).ec.ram = true ∧ Lit (step kbl e) := by
  cases e with
  | write value =>
    have written := step_write kbl value
    refine ⟨written.suspended.trans held,?_⟩
    unfold Lit
    rw [written.gated,written.duty,held]
    simp
  | store enable =>
    refine ⟨?_,(store_lit kbl enable).mpr lit⟩
    rw [(step_store kbl enable).suspended]
    cases enable with
    | none => exact held
    | some enable =>
      cases enable with
      | true => exact absurd rfl off
      | false => rfl
  | poll =>
    unfold Lit at lit ⊢
    rw [(step_poll kbl).1]
    exact ⟨held,lit⟩
  | ec ram =>
    have idle : step kbl (.ec ram) = kbl := if_pos held
    rw [idle]
    exact ⟨held,lit⟩

theorem run_lit {kbl : Kbl} {events : List Event} (meets : Meets step HandsOver kbl events)
    (off : lastStore events = some false) :
    suspended (run step kbl events).ec.ram = true ∧ Lit (run step kbl events) := by
  induction events using List.reverseRecOn with
  | nil => cases off
  | append_singleton events e ih =>
    obtain ⟨early,last⟩ := meets_append.mp meets
    rw [run_snoc]
    rw [lastStore_snoc] at off
    cases value : storeValue e with
    | none =>
      rw [value] at off
      obtain ⟨held,lit⟩ := ih early off
      exact step_lit held lit (by simp [value])
    | some enable =>
      rw [value] at off
      obtain rfl : enable = false := Option.some.inj off
      have suspends : e = .store (some false) := by
        cases e with
        | store enable =>
          cases value
          rfl
        | write value' => cases value
        | poll => cases value
        | ec ram => cases value
      subst suspends
      refine ⟨?_,(store_lit _ _).mpr last.1⟩
      rw [(step_store _ _).suspended]
      rfl

-- Whatever the EC does while its timer runs: with the timer suspended the keyboard is
-- lit in every state exactly when each suspension found it so.
theorem always_on_iff (kbl : Kbl) (events : List Event) :
    (∀ before after,events = before++after → lastStore before = some false → Lit (run step kbl before)) ↔
      Meets step HandsOver kbl events := by
  constructor
  · intro lit
    refine meets_iff_stepwise.mpr fun before e after split => ?_
    match e with
    | .store (some false) =>
      have next := lit (before++[.store (some false)]) after (by simp [split]) (by simp [lastStore_snoc,storeValue])
      rw [run_snoc] at next
      exact (store_lit _ _).mp next
    | .store (some true) => trivial
    | .store none => trivial
    | .write value => trivial
    | .poll => trivial
    | .ec ram => trivial
  · rintro meets before after rfl off
    exact (run_lit (meets_append.mp meets).1 off).2

-- The gate was closed by the firmware, and the timer is suspended to have the keyboard
-- lit: nothing opens the gate.
theorem suspended_with_closed_gate :
    lastStore [.store (some false)] = some false ∧
      gated (run step (registerKbdBacklight (registers 0x40 100 0)) [.store (some false)]).ec.ram = true ∧
      duty (run step (registerKbdBacklight (registers 0x40 100 0)) [.store (some false)]).ec.ram = 100 := by
  decide

end ChuwiMinibook.KbdBacklight
