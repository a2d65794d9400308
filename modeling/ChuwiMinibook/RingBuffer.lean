import Mathlib.Data.List.Rotate

namespace ChuwiMinibook.RingBuffer

-- Buffers that keep the last values of a list.
variable {α : Type} {n count : Nat} {buf xs : List α}

def lastOf (n : Nat) (xs : List α) : List α := xs.drop (xs.length-n)

theorem length_lastOf (full : n ≤ xs.length) : (lastOf n xs).length = n := by
  rw [lastOf,List.length_drop]
  omega

theorem map_lastOf {β : Type} (f : α → β) : (lastOf n xs).map f = lastOf n (xs.map f) := by
  rw [lastOf,lastOf,List.map_drop,List.length_map]

-- Cells that are written round and round.
structure Ring (n : Nat) (buf xs : List α) : Prop where
  size : buf.length = n
  cells : ∀ j,j < xs.length → xs.length ≤ j+n → buf[j%n]? = xs[j]?

theorem ring_empty (size : buf.length = n) : Ring n buf [] := ⟨size,fun j inside => absurd inside (Nat.not_lt_zero j)⟩

theorem ring_store (some : 0 < n) (ring : Ring n buf xs) (x : α) : Ring n (buf.set (xs.length%n) x) (xs++[x]) := by
  have inside : xs.length%n < buf.length := by
    rw [ring.size]
    exact Nat.mod_lt _ some
  refine ⟨(List.length_set).trans ring.size,fun j before recent => ?_⟩
  rw [List.length_append,List.length_singleton] at before recent
  rcases Nat.eq_or_lt_of_le (Nat.le_of_lt_succ before) with same | older
  · rw [same,List.getElem?_set_self inside,List.getElem?_concat_length]
  · have apart : xs.length%n ≠ j%n := by
      intro equal
      have multiple := Nat.sub_mod_eq_zero_of_mod_eq equal
      rw [Nat.mod_eq_of_lt (by omega)] at multiple
      omega
    rw [List.getElem?_set_ne apart,ring.cells j older (by omega),List.getElem?_append_left older]

-- Read from the next cell on, a full ring is the list of the last values.
theorem ring_full (ring : Ring n buf xs) (full : n ≤ xs.length) : buf.rotate (xs.length%n) = lastOf n xs := by
  apply List.ext_getElem?
  intro i
  by_cases inside : i < n
  · have start : xs.length-n+i < xs.length := by omega
    have cell : (i+xs.length%n)%n = (xs.length-n+i)%n := by
      have total : xs.length-n+i+n = i+xs.length := by omega
      rw [Nat.add_mod_mod,← total,Nat.add_mod_right]
    rw [List.getElem?_rotate (by rwa [ring.size]),ring.size,cell,ring.cells _ start (by omega),lastOf,List.getElem?_drop]
  · have short : (buf.rotate (xs.length%n)).length ≤ i := by
      rw [List.length_rotate,ring.size]
      omega
    have past : (lastOf n xs).length ≤ i := by
      rw [length_lastOf full]
      omega
    rw [List.getElem?_eq_none short,List.getElem?_eq_none past]

theorem ring_perm (ring : Ring n buf xs) (full : n ≤ xs.length) : buf.Perm (lastOf n xs) := by
  rw [← ring_full ring full]
  exact (List.rotate_perm _ _).symm

-- Cells that are filled in order and then shifted.
structure Window (n count : Nat) (buf xs : List α) : Prop where
  size : buf.length = n
  filled : count = min n xs.length
  held : buf.take count = lastOf n xs

theorem window_empty (size : buf.length = n) : Window n 0 buf [] := ⟨size,(Nat.min_zero n).symm,List.drop_nil.symm⟩

theorem window_fill (window : Window n count buf xs) (room : count < n) (x : α) :
    Window n (count+1) (buf.set count x) (xs++[x]) := by
  have filled := window.filled
  have few : xs.length = count := by omega
  have all : buf.take count = xs := by
    rw [window.held,lastOf,show xs.length-n = 0 by omega,List.drop_zero]
  refine ⟨(List.length_set).trans window.size,?_,?_⟩
  · rw [List.length_append,List.length_singleton]
    omega
  · have none : (xs++[x]).length-n = 0 := by
      rw [List.length_append,List.length_singleton]
      omega
    have inside : count < (buf.set count x).length := by
      rw [List.length_set,window.size]
      exact room
    rw [lastOf,none,List.drop_zero,List.take_succ_eq_append_getElem inside,List.getElem_set_self,
      List.take_set_of_le (Nat.le_refl count),all]

theorem window_shift (window : Window n count buf xs) (some : 0 < n) (full : count = n) (x : α) :
    Window n count (buf.drop 1++[x]) (xs++[x]) := by
  have filled := window.filled
  have all : buf = lastOf n xs := by
    rw [← window.held,List.take_of_length_le]
    rw [window.size,full]
  have size : (buf.drop 1++[x]).length = n := by
    rw [List.length_append,List.length_drop,List.length_singleton,window.size]
    omega
  refine ⟨size,?_,?_⟩
  · rw [List.length_append]
    omega
  · have from_one : xs.length-n+1 = (xs++[x]).length-n := by
      rw [List.length_append,List.length_singleton]
      omega
    have least : (xs++[x]).length-n ≤ xs.length := by omega
    rw [List.take_of_length_le (by omega),all,lastOf,List.drop_drop,lastOf,from_one,List.drop_append_of_le_length least]

end ChuwiMinibook.RingBuffer
