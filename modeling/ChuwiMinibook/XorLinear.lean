import Mathlib.Data.List.Basic
import Mathlib.Logic.Function.Iterate

namespace ChuwiMinibook.XorLinear

-- Words as vectors over the two-element field: xor is the addition, and a map
-- that respects it is known from its values on the words with a single bit.
variable {w : Nat}

def Additive (f : BitVec w → BitVec w) : Prop := ∀ x y,f (x ^^^ y) = f x ^^^ f y

def pick (b : Bool) (x : BitVec w) : BitVec w := if b then x else 0#w

@[simp] theorem pick_false (x : BitVec w) : pick false x = 0#w := rfl

@[simp] theorem pick_true (x : BitVec w) : pick true x = x := rfl

theorem pick_xor (a b : Bool) (x : BitVec w) : pick (a ^^ b) x = pick a x ^^^ pick b x := by
  cases a <;> cases b <;> simp

theorem Additive.zero {f : BitVec w → BitVec w} (additive : Additive f) : f 0#w = 0#w := by
  have doubled := additive 0#w 0#w
  rw [BitVec.xor_self] at doubled
  rw [doubled,BitVec.xor_self]

theorem Additive.pick {f : BitVec w → BitVec w} (additive : Additive f) (b : Bool) (x : BitVec w) :
    f (pick b x) = XorLinear.pick b (f x) := by
  cases b with
  | false => exact additive.zero
  | true => rfl

theorem Additive.comp {f g : BitVec w → BitVec w} (outer : Additive f) (inner : Additive g) : Additive (f ∘ g) := by
  intro x y
  rw [Function.comp_apply,inner,outer]
  rfl

theorem Additive.iterate {f : BitVec w → BitVec w} (additive : Additive f) (n : Nat) : Additive f^[n] := by
  induction n with
  | zero => exact fun _ _ => rfl
  | succ n ih =>
    intro x y
    rw [Function.iterate_succ_apply',Function.iterate_succ_apply',Function.iterate_succ_apply',ih,additive]

-- The additive map that sends the word with bit i alone to images i.
def combine (images : Nat → BitVec w) : Nat → BitVec w → BitVec w
  | 0,_ => 0#w
  | n+1,x => combine images n x ^^^ pick (x.getLsbD n) (images n)

theorem additive_combine (images : Nat → BitVec w) (n : Nat) : Additive (combine images n) := by
  induction n with
  | zero => exact fun _ _ => (BitVec.xor_self).symm
  | succ n ih =>
    intro x y
    rw [combine,combine,combine,ih,BitVec.getLsbD_xor,pick_xor]
    ac_rfl

theorem getLsbD_combine_units (x : BitVec w) (n j : Nat) :
    (combine (BitVec.twoPow w) n x).getLsbD j = (decide (j < n) && x.getLsbD j) := by
  induction n with
  | zero => simp [combine]
  | succ n ih =>
    rw [combine,BitVec.getLsbD_xor,ih]
    cases bit : x.getLsbD n with
    | false =>
      by_cases equal : j = n
      · subst j
        simp [bit]
      · simp [show j < n+1 ↔ j < n by omega]
    | true =>
      have inside : n < w := BitVec.lt_of_getLsbD bit
      by_cases equal : j = n
      · subst j
        simp [bit,inside]
      · simp [show j < n+1 ↔ j < n by omega,Ne.symm equal]

theorem combine_units (x : BitVec w) : combine (BitVec.twoPow w) w x = x := by
  apply BitVec.eq_of_getLsbD_eq
  intro i inside
  rw [getLsbD_combine_units,decide_eq_true inside,Bool.true_and]

theorem Additive.combine {f : BitVec w → BitVec w} (additive : Additive f) (images : Nat → BitVec w) (n : Nat) (x : BitVec w) :
    f (combine images n x) = XorLinear.combine (fun i => f (images i)) n x := by
  induction n with
  | zero => exact additive.zero
  | succ n ih => rw [XorLinear.combine,additive,ih,additive.pick,XorLinear.combine]

theorem combine_congr {first second : Nat → BitVec w} {n : Nat} (same : ∀ i < n,first i = second i) (x : BitVec w) :
    combine first n x = combine second n x := by
  induction n with
  | zero => rfl
  | succ n ih =>
    rw [combine,combine,ih (fun i below => same i (Nat.lt_succ_of_lt below)),same n (Nat.lt_succ_self n)]

theorem additive_ext {f g : BitVec w → BitVec w} (left : Additive f) (right : Additive g)
    (units : ∀ i < w,f (BitVec.twoPow w i) = g (BitVec.twoPow w i)) (x : BitVec w) : f x = g x := by
  have onUnits := combine_congr units x
  rw [← left.combine,← right.combine,combine_units] at onUnits
  exact onUnits

-- A register that is stepped once for every bit, with a word added for each set bit.
def feed (step : BitVec w → BitVec w) (word : BitVec w) (bits : List Bool) (start : BitVec w) : BitVec w :=
  bits.foldl (fun r b => step r ^^^ pick b word) start

theorem feed_map {f step other : BitVec w → BitVec w} (additive : Additive f) (intertwined : ∀ r,f (step r) = other (f r))
    (word : BitVec w) (bits : List Bool) (start : BitVec w) :
    f (feed step word bits start) = feed other (f word) bits (f start) := by
  induction bits generalizing start with
  | nil => rfl
  | cons b rest ih =>
    rw [feed,List.foldl_cons,feed,List.foldl_cons,← additive.pick,← intertwined,← additive]
    exact ih _

-- Two registers with an injective additive map between them run dry on the same bits.
theorem feed_zero_iff {f step other : BitVec w → BitVec w} (additive : Additive f) (injective : Function.Injective f)
    (intertwined : ∀ r,f (step r) = other (f r)) (word : BitVec w) (bits : List Bool) :
    feed other (f word) bits 0#w = 0#w ↔ feed step word bits 0#w = 0#w := by
  have mapped := feed_map additive intertwined word bits 0#w
  rw [additive.zero] at mapped
  rw [← mapped]
  exact ⟨fun zero => injective (zero.trans additive.zero.symm),fun zero => by rw [zero,additive.zero]⟩

end ChuwiMinibook.XorLinear
