import Mathlib.Data.List.Basic
import Mathlib.Data.List.Induction

namespace ChuwiMinibook.Machine

-- Deterministic machines driven by a list of events. A condition on steps is
-- evaluated in the state before the step; nothing is assumed about the result.
variable {State Event : Type}

def run (step : State → Event → State) (s : State) (events : List Event) : State :=
  events.foldl step s

def Meets (step : State → Event → State) (cond : State → Event → Prop) :
    State → List Event → Prop
  | _,[] => True
  | s,event::rest => cond s event ∧ Meets step cond (step s event) rest

instance decidableMeets (step : State → Event → State) (cond : State → Event → Prop) [∀ s event,Decidable (cond s event)] :
    (s : State) → (events : List Event) → Decidable (Meets step cond s events)
  | _,[] => inferInstanceAs (Decidable True)
  | s,event::rest =>
    have := decidableMeets step cond (step s event) rest
    inferInstanceAs (Decidable (cond s event ∧ Meets step cond (step s event) rest))

@[simp] theorem run_nil (step : State → Event → State) (s : State) : run step s [] = s := rfl

@[simp] theorem run_cons (step : State → Event → State) (s : State) (event : Event)
    (rest : List Event) : run step s (event::rest) = run step (step s event) rest := rfl

theorem run_append (step : State → Event → State) (s : State) (first second : List Event) :
    run step s (first++second) = run step (run step s first) second :=
  List.foldl_append

@[simp] theorem run_snoc (step : State → Event → State) (s : State) (events : List Event)
    (event : Event) : run step s (events++[event]) = step (run step s events) event := by
  rw [run_append,run_cons,run_nil]

theorem meets_append {step : State → Event → State} {cond : State → Event → Prop} {s : State}
    {first second : List Event} : Meets step cond s (first++second) ↔
      Meets step cond s first ∧ Meets step cond (run step s first) second := by
  induction first generalizing s with
  | nil => simp [Meets]
  | cons event rest ih => simp [Meets,ih,and_assoc]

theorem meets_mono {step : State → Event → State} {weak strong : State → Event → Prop}
    (weaker : ∀ s event, strong s event → weak s event) {s : State} {events : List Event}
    (meets : Meets step strong s events) : Meets step weak s events := by
  induction events generalizing s with
  | nil => trivial
  | cons event rest ih => exact ⟨weaker _ _ meets.1,ih meets.2⟩

theorem run_invariant {step : State → Event → State} {cond : State → Event → Prop}
    {inv : State → Prop} (preserved : ∀ s event, inv s → cond s event → inv (step s event))
    {s : State} {events : List Event} (start : inv s) (meets : Meets step cond s events) :
    inv (run step s events) := by
  induction events generalizing s with
  | nil => exact start
  | cons event rest ih => exact ih (preserved s event start meets.1) meets.2

theorem foldl_keeps {α : Type} {act : State → α → State} {P : State → Prop} (kept : ∀ s a,P s → P (act s a)) (items : List α)
    {s : State} (holds : P s) : P (items.foldl act s) := by
  induction items generalizing s with
  | nil => exact holds
  | cons a rest ih => exact ih (kept s a holds)

-- A property of every event of a history, given the events before it.
def Stepwise (holds : List Event → Event → Prop) (events : List Event) : Prop :=
  ∀ before event after,events = before++event::after → holds before event

theorem stepwise_nil (holds : List Event → Event → Prop) : Stepwise holds [] := by
  intro before event after split
  exact absurd split.symm (List.append_ne_nil_of_right_ne_nil _ (List.cons_ne_nil _ _))

theorem stepwise_congr {holds other : List Event → Event → Prop} {events : List Event}
    (each : ∀ before event after,events = before++event::after → (holds before event ↔ other before event)) :
    Stepwise holds events ↔ Stepwise other events :=
  forall₄_congr each

theorem stepwise_snoc {holds : List Event → Event → Prop} {events : List Event} {event : Event} :
    Stepwise holds (events++[event]) ↔ Stepwise holds events ∧ holds events event := by
  constructor
  · intro all
    refine ⟨?_,all events event [] rfl⟩
    intro before prior after split
    exact all before prior (after++[event]) (by rw [split,List.append_assoc,List.cons_append])
  · intro given before prior after split
    obtain ⟨all,last⟩ := given
    rcases after.eq_nil_or_concat' with rfl | ⟨rest,final,rfl⟩
    · obtain ⟨rfl,rfl⟩ := List.append_inj' split rfl |>.imp_right List.singleton_inj.mp
      exact last
    · rw [← List.cons_append,← List.append_assoc] at split
      exact all before prior rest (List.append_inj' split rfl).1

theorem meets_iff_stepwise {step : State → Event → State} {cond : State → Event → Prop} {s : State} {events : List Event} :
    Meets step cond s events ↔ Stepwise (fun before event => cond (run step s before) event) events := by
  induction events using List.reverseRecOn with
  | nil => exact ⟨fun _ => stepwise_nil _,fun _ => trivial⟩
  | append_singleton events event ih =>
    rw [meets_append,stepwise_snoc,ih]
    exact and_congr_right (fun _ => ⟨And.left,fun last => ⟨last,trivial⟩⟩)

-- A loop whose body is a run of its own is one longer run.
theorem foldl_run {α : Type} {step : State → Event → State} {act : State → α → State}
    {events : α → List Event} (each : ∀ s a,act s a = run step s (events a)) (items : List α) (s : State) :
    items.foldl act s = run step s (items.flatMap events) := by
  induction items generalizing s with
  | nil => rfl
  | cons a rest ih => rw [List.foldl_cons,ih,each,List.flatMap_cons,run_append]

-- What is seen along a run, each step looked at in the state before it.
def observed {α : Type} (step : State → Event → State) (see : State → Event → List α) : State → List Event → List α
  | _,[] => []
  | s,event::rest => see s event++observed step see (step s event) rest

theorem observed_snoc {α : Type} (step : State → Event → State) (see : State → Event → List α) (s : State)
    (events : List Event) (event : Event) :
    observed step see s (events++[event]) = observed step see s events++see (run step s events) event := by
  induction events generalizing s with
  | nil => simp [observed]
  | cons first rest ih => rw [List.cons_append,observed,observed,ih,run_cons,List.append_assoc]

end ChuwiMinibook.Machine
