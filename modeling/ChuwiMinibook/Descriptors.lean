import Mathlib.Data.List.Basic
import Mathlib.Data.List.Nodup

namespace ChuwiMinibook.Descriptors

-- A table of file descriptors. A descriptor is named by the call that opened it, so
-- that a number the kernel hands out again is not taken for the old one.
structure Table where
  next : Nat
  opened : List Int
  closed : List Int
deriving DecidableEq

def empty : Table := ⟨0,[],[]⟩

def Table.openNew (t : Table) : Table := { t with next := t.next+1,opened := t.opened++[(t.next : Int)] }

def Table.close (t : Table) (fd : Int) : Table := { t with opened := t.opened.erase fd,closed := t.closed++[fd] }

def closeAll (fds : List Int) (t : Table) : Table := fds.foldl Table.close t

-- Every descriptor handed out is open or was closed once.
structure Sound (t : Table) : Prop where
  known : ∀ fd,fd ∈ t.opened++t.closed ↔ 0 ≤ fd ∧ fd < t.next
  once : (t.opened++t.closed).Nodup

theorem empty_sound : Sound empty := ⟨by intro fd; simp [empty],List.nodup_nil⟩

theorem Sound.fresh {t : Table} (sound : Sound t) : (t.next : Int) ∉ t.opened++t.closed := by
  intro inside
  have bound := (sound.known _).mp inside
  omega

theorem Sound.openNew {t : Table} (sound : Sound t) : Sound t.openNew := by
  have moved : (t.opened++[(t.next : Int)]++t.closed).Perm ((t.next : Int)::(t.opened++t.closed)) := by
    rw [List.append_assoc]
    exact List.perm_middle
  constructor
  · intro fd
    change fd ∈ t.opened++[(t.next : Int)]++t.closed ↔ 0 ≤ fd ∧ fd < ((t.next+1 : Nat) : Int)
    rw [moved.mem_iff,List.mem_cons,sound.known]
    omega
  · exact moved.nodup_iff.mpr (List.nodup_cons.mpr ⟨sound.fresh,sound.once⟩)

theorem Sound.close {t : Table} (sound : Sound t) {fd : Int} (isOpen : fd ∈ t.opened) : Sound (t.close fd) := by
  have moved : (t.opened.erase fd++(t.closed++[fd])).Perm (t.opened++t.closed) := by
    refine List.Perm.trans ?_ ((List.perm_cons_erase isOpen).symm.append_right t.closed)
    rw [← List.append_assoc,List.cons_append]
    exact List.perm_append_comm
  exact ⟨fun other => moved.mem_iff.trans (sound.known other),moved.nodup_iff.mpr sound.once⟩

theorem Sound.closeAll {t : Table} (sound : Sound t) {fds rest : List Int} (opened : t.opened.Perm (fds++rest)) :
    Sound (closeAll fds t) ∧ (Descriptors.closeAll fds t).opened.Perm rest := by
  induction fds generalizing t with
  | nil => exact ⟨sound,opened⟩
  | cons fd others ih =>
    have isOpen : fd ∈ t.opened := opened.mem_iff.mpr List.mem_cons_self
    refine ih (sound.close isOpen) ?_
    have erased := opened.erase fd
    rwa [List.cons_append,List.erase_cons_head] at erased

theorem Sound.valid {t : Table} (sound : Sound t) {fd : Int} (isOpen : fd ∈ t.opened) : 0 ≤ fd :=
  ((sound.known fd).mp (List.mem_append_left _ isOpen)).1

-- Nothing left open: every descriptor ever handed out was closed exactly once.
theorem Sound.closed_once {t : Table} (sound : Sound t) (none : t.opened = []) {fd : Int} (issued : 0 ≤ fd ∧ fd < t.next) :
    t.closed.count fd = 1 := by
  have all := sound.once
  have inside := (sound.known fd).mpr issued
  rw [none,List.nil_append] at all inside
  exact List.count_eq_one_of_mem all inside

end ChuwiMinibook.Descriptors
