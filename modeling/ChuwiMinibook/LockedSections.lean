import ChuwiMinibook.Machine
import Mathlib.Logic.Function.Basic

namespace ChuwiMinibook.LockedSections
open Machine

-- Threads over a shared state. What a thread does next is a section: it takes the lock,
-- does one act after another, each on the shared state and its own, and releases the lock.
variable {T S L : Type} [DecidableEq T]

abbrev Act (S L : Type) := S×L → S×L

structure System (T S L : Type) where
  shared : S
  locals : T → L
  holder : Option (T×List (Act S L))

def advance (t : T) (x : S×(T → L)) (act : Act S L) : S×(T → L) :=
  ((act (x.1,x.2 t)).1,Function.update x.2 t (act (x.1,x.2 t)).2)

-- The next move of one thread, as the schedule has it: a thread in front of a taken lock waits.
def step (plan : L → Option (List (Act S L))) (s : System T S L) (t : T) : System T S L :=
  match s.holder with
  | none =>
    match plan (s.locals t) with
    | none => s
    | some acts => {s with holder := some (t,acts)}
  | some (owner,acts) =>
    if owner = t then
      match acts with
      | [] => {s with holder := none}
      | act::rest => ⟨(advance t (s.shared,s.locals) act).1,(advance t (s.shared,s.locals) act).2,some (t,rest)⟩
    else s

-- A whole section at once.
def whole (plan : L → Option (List (Act S L))) (x : S×(T → L)) (t : T) : S×(T → L) :=
  match plan (x.2 t) with
  | none => x
  | some acts => acts.foldl (advance t) x

-- What stands when the owner of the lock comes to the end of its section.
def settled (s : System T S L) : S×(T → L) :=
  match s.holder with
  | none => (s.shared,s.locals)
  | some (owner,acts) => acts.foldl (advance owner) (s.shared,s.locals)

-- A thread that takes the lock.
def entry (plan : L → Option (List (Act S L))) (s : System T S L) (t : T) : List T :=
  if s.holder.isNone ∧ (plan (s.locals t)).isSome then [t] else []

variable {plan : L → Option (List (Act S L))}

theorem advance_other {t u : T} (other : t ≠ u) (acts : List (Act S L)) (x : S×(T → L)) :
    (acts.foldl (advance u) x).2 t = x.2 t := by
  induction acts generalizing x with
  | nil => rfl
  | cons act rest ih =>
    rw [List.foldl_cons,ih]
    exact Function.update_of_ne other _ _

-- Nobody but the owner of the lock is ahead of its own state.
theorem settled_outside {s : System T S L} {t : T} (outside : ∀ acts,s.holder ≠ some (t,acts)) :
    (settled s).2 t = s.locals t := by
  unfold settled
  cases held : s.holder with
  | none => rfl
  | some owned =>
    obtain ⟨owner,acts⟩ := owned
    have other : t ≠ owner := fun same => outside acts (by rw [held,same])
    exact advance_other other acts _

theorem settled_step (s : System T S L) (t : T) :
    settled (step plan s t) = run (whole plan) (settled s) (entry plan s t) := by
  obtain ⟨shared,locals,holder⟩ := s
  cases holder with
  | none =>
    cases next : plan (locals t) with
    | none => simp only [step,entry,next,Option.isSome_none,Bool.false_eq_true,and_false,if_false,run_nil]
    | some acts =>
      simp only [step,entry,settled,next,Option.isNone_none,Option.isSome_some,and_self,if_true,run_cons,run_nil,whole]
  | some owned =>
    obtain ⟨owner,acts⟩ := owned
    have quiet : entry plan (⟨shared,locals,some (owner,acts)⟩ : System T S L) t = [] := by
      simp only [entry,Option.isNone_some,Bool.false_eq_true,false_and,if_false]
    rw [quiet,run_nil]
    by_cases mine : owner = t
    case neg => simp only [step,mine,if_false]
    case pos =>
      subst mine
      cases acts with
      | nil => simp only [step,settled,if_true,List.foldl_nil]
      | cons act rest => simp only [step,settled,if_true,List.foldl_cons]

-- Whatever the schedule: the sections come about one after the other, each of them whole, in
-- the order in which the lock was taken.
theorem settled_run (s : System T S L) (schedule : List T) :
    settled (run (step plan) s schedule) =
      run (whole plan) (settled s) (observed (step plan) (entry plan) s schedule) := by
  induction schedule using List.reverseRecOn with
  | nil => rfl
  | append_singleton schedule t ih => rw [run_snoc,observed_snoc,run_append,← ih,settled_step]

-- The owner alone comes to the end of its section, and the lock is free.
theorem released (s : System T S L) {owner : T} {acts : List (Act S L)} (held : s.holder = some (owner,acts)) :
    run (step plan) s (List.replicate (acts.length+1) owner) = ⟨(settled s).1,(settled s).2,none⟩ := by
  obtain ⟨shared,locals,holder⟩ := s
  cases held
  induction acts generalizing shared locals with
  | nil => simp only [List.length_nil,List.replicate,run_cons,run_nil,step,settled,if_true,List.foldl_nil]
  | cons act rest ih =>
    rw [List.length_cons,List.replicate_succ,run_cons]
    have moved : step plan (⟨shared,locals,some (owner,act::rest)⟩ : System T S L) owner =
        ⟨(advance owner (shared,locals) act).1,(advance owner (shared,locals) act).2,some (owner,rest)⟩ := by
      simp only [step,if_true]
    rw [moved,ih]
    rfl

end ChuwiMinibook.LockedSections
