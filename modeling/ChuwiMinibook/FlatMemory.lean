import ChuwiMinibook.Machine
import Mathlib.Logic.Function.Basic

namespace ChuwiMinibook.FlatMemory
open Machine

-- A memory that is reached through a device: reads are answered, and a write
-- changes the one cell it names.
inductive Access (A V : Type) where
  | read (a : A)
  | write (a : A) (v : V)
deriving DecidableEq

variable {A V S : Type} [DecidableEq A]

def perform (memory : A → V) : Access A V → A → V
  | .read _ => memory
  | .write a v => Function.update memory a v

def valueTo (a : A) : Access A V → Option V
  | .read _ => none
  | .write b v => if b = a then some v else none

-- The value of the last write to a cell, or what it held at the start.
def lastWrite (initial : A → V) (history : List (Access A V)) (a : A) : V :=
  (history.filterMap (valueTo a)).getLast?.getD (initial a)

theorem lastWrite_snoc (initial : A → V) (history : List (Access A V)) (access : Access A V) :
    lastWrite initial (history++[access]) = perform (lastWrite initial history) access := by
  funext a
  unfold lastWrite
  rw [List.filterMap_append]
  cases access with
  | read b => simp [perform,valueTo]
  | write b v =>
    by_cases same : b = a
    · subst same
      simp [perform,valueTo]
    · simp [perform,valueTo,same,Function.update_of_ne (Ne.symm same)]

theorem perform_other {memory : A → V} {access : Access A V} {a : A} (other : ∀ v,access ≠ .write a v) :
    perform memory access a = memory a := by
  cases access with
  | read b => rfl
  | write b v =>
    have distinct : a ≠ b := fun same => other v (by rw [same])
    exact Function.update_of_ne distinct v memory

-- A device serves accesses like the memory that is read off its state.
structure Serves (read : S → A → V) (step : S → Access A V → S) (contents : S → A → V) : Prop where
  answer : ∀ s a,read s a = contents s a
  memory : ∀ s access,contents (step s access) = perform (contents s) access

variable {read : S → A → V} {step : S → Access A V → S} {contents : S → A → V}

theorem Serves.run (serves : Serves read step contents) (s : S) (history : List (Access A V)) :
    contents (run step s history) = lastWrite (contents s) history := by
  induction history using List.reverseRecOn with
  | nil => rfl
  | append_singleton history access ih => rw [run_snoc,serves.memory,ih,lastWrite_snoc]

theorem Serves.read_last (serves : Serves read step contents) (s : S) (history : List (Access A V)) (a : A) :
    read (Machine.run step s history) a = lastWrite (contents s) history a := by
  rw [serves.answer,serves.run]

end ChuwiMinibook.FlatMemory
