import Mathlib.Data.List.Basic
import Mathlib.Data.List.Nodup

namespace ChuwiMinibook.MainLoop

-- The sources of a main loop. Adding one returns an identifier above zero that no
-- other source has; removing an identifier detaches the source that has it.
structure Loop (κ : Type) where
  last : Nat
  live : List (Nat×κ)
deriving DecidableEq

variable {κ : Type} [DecidableEq κ]

def Loop.addId (l : Loop κ) : Nat := l.last+1

def Loop.add (l : Loop κ) (kind : κ) : Loop κ := ⟨l.addId,l.live++[(l.addId,kind)]⟩

def Loop.remove (l : Loop κ) (id : Nat) : Loop κ := { l with live := l.live.filter (fun source => source.1 ≠ id) }

def Loop.ofKind (l : Loop κ) (kind : κ) : List Nat := (l.live.filter (fun source => source.2 = kind)).map Prod.fst

theorem ofKind_add_same (l : Loop κ) (kind : κ) : (l.add kind).ofKind kind = l.ofKind kind++[l.addId] := by
  simp [Loop.ofKind,Loop.add]

theorem ofKind_add_other (l : Loop κ) {kind other : κ} (distinct : kind ≠ other) : (l.add kind).ofKind other = l.ofKind other := by
  simp [Loop.ofKind,Loop.add,distinct]

theorem ofKind_remove (l : Loop κ) (id : Nat) (kind : κ) : (l.remove id).ofKind kind = (l.ofKind kind).filter (· ≠ id) := by
  rw [Loop.ofKind,Loop.ofKind,Loop.remove,List.filter_map,List.filter_comm]
  rfl

-- An identifier field and the sources it stands for; zero stands for none.
def sourceIds (id : Nat) : List Nat := if id = 0 then [] else [id]

theorem sourceIds_nil : sourceIds 0 = [] := rfl

theorem sourceIds_pos {id : Nat} (set : id ≠ 0) : sourceIds id = [id] := if_neg set

theorem sourceIds_length (id : Nat) : (sourceIds id).length ≤ 1 := by
  unfold sourceIds
  split <;> simp

theorem filter_sourceIds {id other : Nat} (distinct : id = other → id = 0) :
    (sourceIds id).filter (· ≠ other) = sourceIds id := by
  by_cases unset : id = 0
  · rw [unset]
    rfl
  · have apart : id ≠ other := fun same => unset (distinct same)
    rw [sourceIds_pos unset,List.filter_cons_of_pos (by simpa using apart),List.filter_nil]

theorem filter_sourceIds_self (id : Nat) : (sourceIds id).filter (· ≠ id) = [] := by
  unfold sourceIds
  split <;> simp

-- A field that names exactly the sources of a kind.
structure Names (l : Loop κ) (kind : κ) (id : Nat) : Prop where
  ids : l.ofKind kind = sourceIds id
  issued : id ≤ l.last

theorem names_add {l : Loop κ} {kind : κ} (names : Names l kind 0) : Names (l.add kind) kind l.addId := by
  refine ⟨?_,Nat.le_refl _⟩
  rw [ofKind_add_same,names.ids,sourceIds_nil,List.nil_append,Loop.addId,sourceIds_pos (Nat.succ_ne_zero _)]

theorem names_add_other {l : Loop κ} {kind other : κ} {id : Nat} (distinct : kind ≠ other) (names : Names l other id) :
    Names (l.add kind) other id :=
  ⟨(ofKind_add_other l distinct).trans names.ids,Nat.le_succ_of_le names.issued⟩

theorem names_remove {l : Loop κ} {kind : κ} {id : Nat} (names : Names l kind id) : Names (l.remove id) kind 0 := by
  refine ⟨?_,Nat.zero_le _⟩
  rw [ofKind_remove,names.ids,filter_sourceIds_self,sourceIds_nil]

theorem names_remove_other {l : Loop κ} {kind : κ} {id other : Nat} (distinct : id = other → id = 0)
    (names : Names l kind id) : Names (l.remove other) kind id := by
  refine ⟨?_,names.issued⟩
  rw [ofKind_remove,names.ids,filter_sourceIds distinct]

theorem names_live {l : Loop κ} {kind : κ} {id : Nat} (names : Names l kind id) (set : id ≠ 0) : l.ofKind kind ≠ [] := by
  rw [names.ids,sourceIds_pos set]
  exact List.cons_ne_nil _ _

end ChuwiMinibook.MainLoop
