import Mathlib.Algebra.Order.Ring.Int
import Mathlib.Order.Lattice
import Mathlib.Tactic.Ring
import Mathlib.Tactic.Linarith

namespace ChuwiMinibook.CodedBits

-- Programs whose decisions come out of a stream of coded bits: a bit of the model
-- at an index, a bit that is not modelled, and a byte of a window in between.
inductive Coded (α : Type) : Type where
  | done (a : α)
  | bit (i : Nat) (next : Bool → Coded α)
  | direct (next : Bool → Coded α)
  | load (i : Int) (next : UInt8 → Coded α)

-- The probability of a zero in 2048ths, which no update leaves these bounds.
structure Prob where
  value : Nat
  low : 31 ≤ value
  high : value ≤ 2017

theorem Prob.ext {p q : Prob} (same : p.value = q.value) : p = q := by
  cases p
  cases q
  cases same
  rfl

theorem half_low : 31 ≤ 1024 := by decide
theorem half_high : 1024 ≤ 2017 := by decide

def Prob.half : Prob := ⟨1024,half_low,half_high⟩

def moved (p : Nat) (b : Bool) : Nat := if b then p-p/32 else p+(2048-p)/32

theorem moved_low (p : Prob) (b : Bool) : 31 ≤ moved p.value b := by
  have low := p.low
  cases b
  case false => simp only [moved,Bool.false_eq_true,if_false]; omega
  case true => simp only [moved,if_true]; omega

theorem moved_high (p : Prob) (b : Bool) : moved p.value b ≤ 2017 := by
  have high := p.high
  cases b
  case false => simp only [moved,Bool.false_eq_true,if_false]; omega
  case true => simp only [moved,if_true]; omega

def learn (p : Prob) (b : Bool) : Prob := ⟨moved p.value b,moved_low p b,moved_high p b⟩

-- What a dry run does with a probability.
def keep (p : Prob) (_ : Bool) : Prob := p

structure Coder where
  range : Nat
  code : Nat
  probs : List Prob
  input : List UInt8

inductive Halt where
  | outside | starved
deriving DecidableEq

def topValue : Nat := 16777216
def word : Nat := 4294967296

def normalize (c : Coder) : Except Halt Coder :=
  if c.range < topValue then
    match c.input with
    | [] => .error .starved
    | byte::rest => .ok {c with range := c.range*256,code := (c.code*256+byte.toNat) % word,input := rest}
  else .ok c

def bound (c : Coder) (p : Prob) : Nat := c.range/2048*p.value

-- The two outcomes of a modelled bit, on a normalized coder.
def split (p : Prob) (c : Coder) : Bool × Coder :=
  if c.code < bound c p then (false,{c with range := bound c p})
  else (true,{c with range := c.range-bound c p,code := c.code-bound c p})

def difference (c : Coder) : Nat := (c.code+word-c.range/2) % word

-- A bit that is not modelled: the sign of the difference decides.
@[irreducible] def halve (c : Coder) : Bool × Coder :=
  if difference c < 2147483648 then (true,{c with range := c.range/2,code := difference c})
  else (false,{c with range := c.range/2})

def peek (window : List UInt8) (i : Int) : Option UInt8 := if 0 ≤ i then window[i.toNat]? else none

-- What is left to spend, in hundredths of a bit, and the contexts that were used.
structure Ledger where
  budget : Nat
  used : Nat → Prop

@[irreducible] def bitCost : Nat := 605
@[irreducible] def directCost : Nat := 101

def Ledger.pay (s : Ledger) (i : Nat) : Ledger := ⟨s.budget-bitCost,fun j => s.used j ∨ j = i⟩
def Ledger.payDirect (s : Ledger) : Ledger := ⟨s.budget-directCost,s.used⟩

namespace Coded
variable {α β γ : Type}

def bind : Coded α → (α → Coded β) → Coded β
  | .done a,f => f a
  | .bit i next,f => .bit i (fun b => (next b).bind f)
  | .direct next,f => .direct (fun b => (next b).bind f)
  | .load i next,f => .load i (fun b => (next b).bind f)

instance : Monad Coded where
  pure := .done
  bind := Coded.bind

@[simp] theorem pure_eq (a : α) : (pure a : Coded α) = .done a := rfl

@[simp] theorem bind_eq (p : Coded α) (f : α → Coded β) : p >>= f = p.bind f := rfl

theorem bind_assoc (p : Coded α) (f : α → Coded β) (g : β → Coded γ) :
    (p.bind f).bind g = p.bind fun a => (f a).bind g := by
  induction p with
  | done a => rfl
  | bit i next ih => simp only [bind,ih]
  | direct next ih => simp only [bind,ih]
  | load i next ih => simp only [bind,ih]

theorem bind_done (p : Coded α) : p.bind .done = p := by
  induction p with
  | done a => rfl
  | bit i next ih => simp only [bind,ih]
  | direct next ih => simp only [bind,ih]
  | load i next ih => simp only [bind,ih]

theorem ite_bind {c : Prop} [Decidable c] (p q : Coded α) (f : α → Coded β) :
    (if c then p else q).bind f = if c then p.bind f else q.bind f := by
  split <;> rfl

def aBit (i : Nat) : Coded Bool := .bit i .done

-- The interpreter; the updates of the probabilities are an argument of it.
def exec (window : List UInt8) (adapt : Prob → Bool → Prob) : Coded α → Coder → Except Halt (α × Coder)
  | .done a,c => .ok (a,c)
  | .bit i next,c =>
    match c.probs[i]? with
    | none => .error .outside
    | some p =>
      match normalize c with
      | .error h => .error h
      | .ok c =>
        let (b,d) := split p c
        exec window adapt (next b) {d with probs := c.probs.set i (adapt p b)}
  | .direct next,c =>
    match normalize c with
    | .error h => .error h
    | .ok c => exec window adapt (next (halve c).1) (halve c).2
  | .load i next,c =>
    match peek window i with
    | none => .error .outside
    | some byte => exec window adapt (next byte) c

attribute [local simp] bind exec

theorem exec_bind (window : List UInt8) (adapt : Prob → Bool → Prob) (p : Coded α) (f : α → Coded β) (c : Coder) :
    exec window adapt (p.bind f) c = match exec window adapt p c with
      | .ok (a,d) => exec window adapt (f a) d
      | .error h => .error h := by
  induction p generalizing c with
  | done a => rfl
  | bit i next ih =>
    simp only [bind,exec]
    cases c.probs[i]? with
    | none => rfl
    | some p =>
      cases normalize c with
      | error h => rfl
      | ok c => exact ih _ _
  | direct next ih =>
    simp only [bind,exec]
    cases normalize c with
    | error h => rfl
    | ok c => exact ih _ _
  | load i next ih =>
    simp only [bind,exec]
    cases peek window i with
    | none => rfl
    | some byte => exact ih _ _

-- Every run stays within the model, the window and the budget and comes to a
-- context at most once; its result and what is left of the ledger satisfy post.
def Allowed (contexts window : Nat) : Coded α → Ledger → (α → Ledger → Prop) → Prop
  | .done a,s,post => post a s
  | .bit i next,s,post => i < contexts ∧ ¬s.used i ∧ bitCost ≤ s.budget ∧ ∀ b,Allowed contexts window (next b) (s.pay i) post
  | .direct next,s,post => directCost ≤ s.budget ∧ ∀ b,Allowed contexts window (next b) s.payDirect post
  | .load i next,s,post => 0 ≤ i ∧ i < window ∧ ∀ byte,Allowed contexts window (next byte) s post

attribute [local simp] Allowed

theorem allowed_bind {contexts window : Nat} {p : Coded α} {f : α → Coded β} {s : Ledger} {post : β → Ledger → Prop} :
    Allowed contexts window (p.bind f) s post ↔
      Allowed contexts window p s (fun a s => Allowed contexts window (f a) s post) := by
  induction p generalizing s with
  | done a => exact Iff.rfl
  | bit i next ih => simp only [bind,Allowed,ih]
  | direct next ih => simp only [bind,Allowed,ih]
  | load i next ih => simp only [bind,Allowed,ih]

theorem Allowed.mono {contexts window : Nat} {p : Coded α} {s : Ledger} {post weaker : α → Ledger → Prop}
    (weaken : ∀ a s,post a s → weaker a s) (allowed : Allowed contexts window p s post) :
    Allowed contexts window p s weaker := by
  induction p generalizing s with
  | done a => exact weaken a s allowed
  | bit i next ih => exact ⟨allowed.1,allowed.2.1,allowed.2.2.1,fun b => ih b (allowed.2.2.2 b)⟩
  | direct next ih => exact ⟨allowed.1,fun b => ih b (allowed.2 b)⟩
  | load i next ih => exact ⟨allowed.1,allowed.2.1,fun b => ih b (allowed.2.2 b)⟩

end Coded

-- Between two bits the range is never smaller than this.
def Wide (c : Coder) : Prop := 65536 ≤ c.range ∧ c.range < word

def Normal (c : Coder) : Prop := topValue ≤ c.range ∧ c.range < word

theorem Normal.wide {c : Coder} (normal : Normal c) : Wide c := by
  obtain ⟨low,high⟩ := normal
  simp only [topValue] at low
  exact ⟨by omega,high⟩

theorem normalize_normal {c : Coder} (normal : Normal c) : normalize c = .ok c := by
  simp only [normalize,Nat.not_lt.mpr normal.1,if_false]

theorem normalize_cons {c : Coder} {byte : UInt8} {rest : List UInt8} (narrow : c.range < topValue)
    (cons : c.input = byte::rest) :
    normalize c = .ok {c with range := c.range*256,code := (c.code*256+byte.toNat) % word,input := rest} := by
  simp only [normalize,narrow,if_true,cons]

-- What a normalization does: nothing to a normal coder, else one byte of input
-- and a range 256 times as wide.
theorem normalize_cases {c d : Coder} (ran : normalize c = .ok d) :
    (topValue ≤ c.range ∧ d = c) ∨
      (c.range < topValue ∧ ∃ byte rest,c.input = byte::rest ∧
        d = {c with range := c.range*256,code := (c.code*256+byte.toNat) % word,input := rest}) := by
  unfold normalize at ran
  split at ran
  case isFalse normal => exact .inl ⟨Nat.not_lt.mp normal,(Except.ok.inj ran).symm⟩
  case isTrue narrow =>
    split at ran
    case h_1 => cases ran
    case h_2 byte rest cons => exact .inr ⟨narrow,byte,rest,cons,(Except.ok.inj ran).symm⟩

theorem normalize_error {c : Coder} {h : Halt} (failed : normalize c = .error h) :
    h = .starved ∧ c.range < topValue ∧ c.input = [] := by
  unfold normalize at failed
  split at failed
  case isFalse => cases failed
  case isTrue narrow =>
    split at failed
    case h_1 empty =>
      cases failed
      exact ⟨rfl,narrow,empty⟩
    case h_2 => cases failed

theorem normalize_wide {c d : Coder} (wide : Wide c) (ran : normalize c = .ok d) : Normal d := by
  obtain ⟨low,high⟩ := wide
  obtain ⟨normal,same⟩ | ⟨narrow,byte,rest,-,same⟩ := normalize_cases ran
  · subst same
    exact ⟨normal,high⟩
  · subst same
    simp only [topValue] at narrow
    exact ⟨by simp only [topValue]; omega,by simp only [word]; omega⟩

theorem normalize_probs {c d : Coder} (ran : normalize c = .ok d) : d.probs = c.probs := by
  obtain ⟨-,same⟩ | ⟨-,byte,rest,-,same⟩ := normalize_cases ran
  · rw [same]
  · rw [same]

theorem normalize_length {c d : Coder} (ran : normalize c = .ok d) :
    d.input.length ≤ c.input.length ∧ c.input.length ≤ d.input.length+1 := by
  obtain ⟨-,same⟩ | ⟨-,byte,rest,cons,same⟩ := normalize_cases ran
  · rw [same]
    omega
  · rw [same,cons]
    simp only [List.length_cons]
    omega

theorem bound_bounds (c : Coder) (p : Prob) : c.range/2048*31 ≤ bound c p ∧ bound c p ≤ c.range/2048*2017 :=
  ⟨Nat.mul_le_mul_left _ p.low,Nat.mul_le_mul_left _ p.high⟩

theorem split_input (p : Prob) (c : Coder) : (split p c).2.input = c.input := by
  unfold split
  split <;> rfl

-- However a modelled bit falls, the range shrinks by less than 8193/124.
theorem split_range {p : Prob} {c : Coder} (normal : Normal c) :
    124*c.range ≤ 8193*(split p c).2.range ∧ (split p c).2.range < word := by
  obtain ⟨low,high⟩ := normal
  obtain ⟨few,many⟩ := bound_bounds c p
  simp only [topValue,word] at low high ⊢
  unfold split
  split
  case isTrue => exact ⟨by dsimp only; omega,by dsimp only; omega⟩
  case isFalse => exact ⟨by dsimp only; omega,by dsimp only; omega⟩

theorem split_wide {p : Prob} {c : Coder} (normal : Normal c) : Wide (split p c).2 := by
  have shrinks := split_range (p := p) normal
  have low := normal.1
  simp only [topValue] at low
  exact ⟨by omega,shrinks.2⟩

theorem halve_range (c : Coder) : (halve c).2.range = c.range/2 := by
  unfold halve
  split <;> rfl

theorem halve_probs (c : Coder) : (halve c).2.probs = c.probs := by
  unfold halve
  split <;> rfl

theorem halve_input (c : Coder) : (halve c).2.input = c.input := by
  unfold halve
  split <;> rfl

theorem halve_wide {c : Coder} (normal : Normal c) : Wide (halve c).2 := by
  obtain ⟨low,high⟩ := normal
  simp only [topValue,word] at low high
  refine ⟨?_,?_⟩
  · rw [halve_range]; omega
  · rw [halve_range]; simp only [word]; omega

-- How much input lies between two coders, and that what was spent on the way pays
-- for it: the hundredth power keeps hundredths of a bit in whole numbers.
def Paid (c d : Coder) (spent : Nat) : Prop :=
  ∃ k,k ≤ c.input.length ∧ d.input = c.input.drop k ∧ c.range^100*2^(800*k) ≤ d.range^100*2^spent

theorem Paid.refl (c : Coder) : Paid c c 0 := ⟨0,Nat.zero_le _,rfl,le_of_eq rfl⟩

theorem Paid.trans {c d e : Coder} {m n : Nat} (first : Paid c d m) (second : Paid d e n) : Paid c e (m+n) := by
  obtain ⟨j,inside,rest,pays⟩ := first
  obtain ⟨k,inside',rest',pays'⟩ := second
  have length : d.input.length = c.input.length-j := by rw [rest,List.length_drop]
  refine ⟨j+k,by omega,by rw [rest',rest,List.drop_drop],?_⟩
  calc c.range^100*2^(800*(j+k)) = c.range^100*2^(800*j)*2^(800*k) := by ring
    _ ≤ d.range^100*2^m*2^(800*k) := Nat.mul_le_mul_right _ pays
    _ = d.range^100*2^(800*k)*2^m := by ring
    _ ≤ e.range^100*2^n*2^m := Nat.mul_le_mul_right _ pays'
    _ = e.range^100*2^(m+n) := by ring

theorem Paid.more {c d : Coder} {m n : Nat} (paid : Paid c d m) (le : m ≤ n) : Paid c d n := by
  obtain ⟨k,inside,rest,pays⟩ := paid
  exact ⟨k,inside,rest,pays.trans (Nat.mul_le_mul_left _ (Nat.pow_le_pow_right (by omega) le))⟩

theorem hundred_bytes : 256^100 = 2^(800*1) := by decide +kernel

theorem normalize_paid {c d : Coder} (ran : normalize c = .ok d) : Paid c d 0 := by
  obtain ⟨-,same⟩ | ⟨-,byte,rest,cons,same⟩ := normalize_cases ran
  · subst same
    exact Paid.refl d
  · subst same
    refine ⟨1,by rw [cons,List.length_cons]; omega,by rw [cons,List.drop_one,List.tail_cons],le_of_eq ?_⟩
    simp only [mul_pow,hundred_bytes,pow_zero,mul_one]

-- A ratio of two widths as a number of hundredths.
theorem spend {low high a b cost : Nat} (ratio : low*a ≤ high*b) (rate : high^100 ≤ low^100*2^cost) (pos : 0 < low) :
    a^100 ≤ b^100*2^cost := by
  have powers : low^100*a^100 ≤ low^100*(b^100*2^cost) :=
    calc low^100*a^100 = (low*a)^100 := (mul_pow _ _ _).symm
      _ ≤ (high*b)^100 := Nat.pow_le_pow_left ratio 100
      _ = high^100*b^100 := mul_pow _ _ _
      _ ≤ low^100*2^cost*b^100 := Nat.mul_le_mul_right _ rate
      _ = low^100*(b^100*2^cost) := by ring
  exact Nat.le_of_mul_le_mul_left powers (Nat.pow_pos pos)

theorem bit_rate : 8193^100 ≤ 124^100*2^bitCost := by decide +kernel

theorem direct_rate : 16777217^100 ≤ 8388608^100*2^directCost := by decide +kernel

theorem same_input_paid {c d : Coder} {spent : Nat} (input : d.input = c.input) (pays : c.range^100 ≤ d.range^100*2^spent) :
    Paid c d spent :=
  ⟨0,Nat.zero_le _,by rw [input,List.drop_zero],by rwa [Nat.mul_zero,pow_zero,mul_one]⟩

theorem split_paid {p : Prob} {c : Coder} (normal : Normal c) : Paid c (split p c).2 bitCost :=
  same_input_paid (split_input p c) (spend (split_range normal).1 bit_rate (by omega))

theorem halve_paid {c : Coder} (normal : Normal c) : Paid c (halve c).2 directCost := by
  have ratio : 8388608*c.range ≤ 16777217*(halve c).2.range := by
    have low := normal.1
    simp only [topValue] at low
    rw [halve_range]
    omega
  exact same_input_paid (halve_input c) (spend ratio direct_rate (by omega))

theorem peek_some {window : List UInt8} {i : Int} (low : 0 ≤ i) (high : i < window.length) :
    ∃ byte,peek window i = some byte := by
  have inside : i.toNat < window.length := by omega
  exact ⟨window[i.toNat],by simp only [peek,low,if_true,List.getElem?_eq_getElem inside]⟩

-- What a run under a ledger leaves, with what it spent.
structure Left {α : Type} (post : α → Ledger → Prop) (s : Ledger) (c : Coder) (a : α) (d : Coder) (t : Ledger) : Prop where
  result : post a t
  within : t.budget ≤ s.budget
  paid : Paid c d (s.budget-t.budget)
  wide : Wide d
  probs : d.probs.length = c.probs.length

-- A run that gets no input gets none with a range that needs some.
structure Exhausted (s : Ledger) (c : Coder) : Prop where
  short : ∃ range,range < topValue ∧ c.range^100*2^(800*c.input.length) ≤ range^100*2^s.budget

theorem Exhausted.here {s : Ledger} {c : Coder} (narrow : c.range < topValue) (empty : c.input = []) : Exhausted s c :=
  ⟨c.range,narrow,by
    rw [empty,List.length_nil,Nat.mul_zero,pow_zero]
    exact Nat.mul_le_mul_left _ Nat.one_le_two_pow⟩

theorem Exhausted.earlier {s t : Ledger} {c d : Coder} {spent : Nat} (paid : Paid c d spent)
    (budget : spent+t.budget ≤ s.budget) (exhausted : Exhausted t d) : Exhausted s c := by
  obtain ⟨k,inside,rest,pays⟩ := paid
  obtain ⟨range,narrow,pays'⟩ := exhausted.short
  have length : c.input.length = k+d.input.length := by rw [rest,List.length_drop]; omega
  refine ⟨range,narrow,?_⟩
  calc c.range^100*2^(800*c.input.length) = c.range^100*2^(800*k)*2^(800*d.input.length) := by rw [length]; ring
    _ ≤ d.range^100*2^spent*2^(800*d.input.length) := Nat.mul_le_mul_right _ pays
    _ = d.range^100*2^(800*d.input.length)*2^spent := by ring
    _ ≤ range^100*2^t.budget*2^spent := Nat.mul_le_mul_right _ pays'
    _ = range^100*2^(spent+t.budget) := by ring
    _ ≤ range^100*2^s.budget := Nat.mul_le_mul_left _ (Nat.pow_le_pow_right (by omega) budget)

section Allowed
variable {α : Type} {window : List UInt8} {adapt : Prob → Bool → Prob}

theorem Left.earlier {post : α → Ledger → Prop} {s t u : Ledger} {c d e : Coder} {a : α} {spent : Nat}
    (paid : Paid c d spent) (budget : spent+t.budget ≤ s.budget) (probs : d.probs.length = c.probs.length)
    (left : Left post t d a e u) : Left post s c a e u where
  result := left.result
  within := by have within := left.within; omega
  paid := (paid.trans left.paid).more (by have within := left.within; omega)
  wide := left.wide
  probs := left.probs.trans probs

-- Within its demands a run comes to its end or to the end of its input, and never
-- leaves the model or the window.
theorem exec_allowed (adapt : Prob → Bool → Prob) {p : Coded α} {s : Ledger} {post : α → Ledger → Prop} {c : Coder}
    (allowed : p.Allowed c.probs.length window.length s post) (wide : Wide c) :
    (∃ a d t,p.exec window adapt c = .ok (a,d) ∧ Left post s c a d t) ∨
      (p.exec window adapt c = .error .starved ∧ Exhausted s c) := by
  induction p generalizing s c with
  | done a => exact .inl ⟨a,c,s,rfl,allowed,le_rfl,by rw [Nat.sub_self]; exact Paid.refl c,wide,rfl⟩
  | bit i next ih =>
    obtain ⟨inside,-,affordable,continues⟩ := allowed
    simp only [Coded.exec,List.getElem?_eq_getElem inside]
    cases normalized : normalize c with
    | error h =>
      obtain ⟨rfl,narrow,empty⟩ := normalize_error normalized
      exact .inr ⟨rfl,.here narrow empty⟩
    | ok n =>
      have normal := normalize_wide wide normalized
      have same := normalize_probs normalized
      generalize c.probs[i] = prob
      let d : Coder := {(split prob n).2 with probs := n.probs.set i (adapt prob (split prob n).1)}
      have length : d.probs.length = c.probs.length := by rw [List.length_set,same]
      have paid : Paid c d bitCost := by
        have whole := (normalize_paid normalized).trans (split_paid (p := prob) normal)
        exact whole.more (le_of_eq (Nat.zero_add _))
      have budget : bitCost+(s.pay i).budget ≤ s.budget := by
        simp only [Ledger.pay]
        omega
      have step := ih (split prob n).1 (s := s.pay i) (c := d)
        (by rw [length]; exact continues _) (split_wide (p := prob) normal)
      obtain ⟨a,e,t,ran,left⟩ | ⟨ran,exhausted⟩ := step
      · exact .inl ⟨a,e,t,ran,left.earlier paid budget length⟩
      · exact .inr ⟨ran,exhausted.earlier paid budget⟩
  | direct next ih =>
    obtain ⟨affordable,continues⟩ := allowed
    simp only [Coded.exec]
    cases normalized : normalize c with
    | error h =>
      obtain ⟨rfl,narrow,empty⟩ := normalize_error normalized
      exact .inr ⟨rfl,.here narrow empty⟩
    | ok n =>
      have normal := normalize_wide wide normalized
      have length : (halve n).2.probs.length = c.probs.length := by rw [halve_probs,normalize_probs normalized]
      have paid : Paid c (halve n).2 directCost :=
        ((normalize_paid normalized).trans (halve_paid normal)).more (le_of_eq (Nat.zero_add _))
      have budget : directCost+s.payDirect.budget ≤ s.budget := by
        simp only [Ledger.payDirect]
        omega
      have step := ih (halve n).1 (s := s.payDirect) (c := (halve n).2)
        (by rw [length]; exact continues _) (halve_wide normal)
      obtain ⟨a,e,t,ran,left⟩ | ⟨ran,exhausted⟩ := step
      · exact .inl ⟨a,e,t,ran,left.earlier paid budget length⟩
      · exact .inr ⟨ran,exhausted.earlier paid budget⟩
  | load i next ih =>
    obtain ⟨low,high,continues⟩ := allowed
    obtain ⟨byte,found⟩ := peek_some low high
    simp only [Coded.exec,found]
    exact ih byte (continues byte) wide

-- Two coders at one place of the input, with one model but for the contexts used.
structure Alike (used : Nat → Prop) (c d : Coder) : Prop where
  range : d.range = c.range
  code : d.code = c.code
  input : d.input = c.input
  probs : ∀ j,¬used j → d.probs[j]? = c.probs[j]?

-- A run but for the model it leaves.
def sketch : Except Halt (α × Coder) → Except Halt (α × Nat × Nat × List UInt8)
  | .ok (a,c) => .ok (a,c.range,c.code,c.input)
  | .error h => .error h

theorem Alike.normalize {used : Nat → Prop} {c d : Coder} (alike : Alike used c d) :
    (∃ h,normalize c = .error h ∧ normalize d = .error h) ∨
      ∃ n m,normalize c = .ok n ∧ normalize d = .ok m ∧ Alike used n m ∧ n.probs = c.probs ∧ m.probs = d.probs := by
  obtain ⟨range,code,input,probs⟩ := alike
  unfold CodedBits.normalize
  rw [range,code,input]
  split
  case isFalse => exact .inr ⟨c,d,rfl,rfl,⟨range,code,input,probs⟩,rfl,rfl⟩
  case isTrue =>
    cases c.input with
    | nil => exact .inl ⟨.starved,rfl,rfl⟩
    | cons byte rest => exact .inr ⟨_,_,rfl,rfl,⟨rfl,rfl,rfl,probs⟩,rfl,rfl⟩

theorem Alike.split {used : Nat → Prop} {c d : Coder} (alike : Alike used c d) (p : Prob) (i : Nat) (x y : Prob) :
    (split p d).1 = (split p c).1 ∧
      Alike (fun j => used j ∨ j = i) {(split p c).2 with probs := c.probs.set i x} {(split p d).2 with probs := d.probs.set i y} := by
  obtain ⟨range,code,input,probs⟩ := alike
  have others : ∀ j,¬(used j ∨ j = i) → (d.probs.set i y)[j]? = (c.probs.set i x)[j]? := by
    intro j unused
    obtain ⟨unused,other⟩ := not_or.mp unused
    rw [List.getElem?_set_ne (Ne.symm other),List.getElem?_set_ne (Ne.symm other),probs j unused]
  unfold CodedBits.split bound
  rw [range,code]
  split
  · exact ⟨rfl,rfl,rfl,input,others⟩
  · exact ⟨rfl,rfl,rfl,input,others⟩

theorem Alike.halve {used : Nat → Prop} {c d : Coder} (alike : Alike used c d) :
    (halve d).1 = (halve c).1 ∧ Alike used (halve c).2 (halve d).2 := by
  obtain ⟨range,code,input,probs⟩ := alike
  unfold CodedBits.halve difference
  rw [range,code]
  split
  · exact ⟨rfl,rfl,rfl,input,probs⟩
  · exact ⟨rfl,rfl,rfl,input,probs⟩

-- As no context is used twice, what a run does with the probabilities it has used
-- does not matter to what it reads.
theorem exec_alike {change : Prob → Bool → Prob} {contexts : Nat} {p : Coded α} {s : Ledger} {post : α → Ledger → Prop}
    {c d : Coder} (allowed : p.Allowed contexts window.length s post) (alike : Alike s.used c d) :
    sketch (p.exec window change d) = sketch (p.exec window adapt c) := by
  induction p generalizing s c d with
  | done a => simp only [Coded.exec,sketch,alike.range,alike.code,alike.input]
  | bit i next ih =>
    obtain ⟨-,unused,-,continues⟩ := allowed
    simp only [Coded.exec,alike.probs i unused]
    cases c.probs[i]? with
    | none => rfl
    | some prob =>
      obtain ⟨h,left,right⟩ | ⟨n,m,left,right,same,-,-⟩ := alike.normalize
      · simp only [left,right]
      · simp only [left,right]
        obtain ⟨decision,after⟩ := same.split prob i (adapt prob (CodedBits.split prob n).1) (change prob (CodedBits.split prob n).1)
        rw [decision]
        exact ih _ (continues _) after
  | direct next ih =>
    obtain ⟨-,continues⟩ := allowed
    simp only [Coded.exec]
    obtain ⟨h,left,right⟩ | ⟨n,m,left,right,same,-,-⟩ := alike.normalize
    · simp only [left,right]
    · simp only [left,right]
      obtain ⟨decision,after⟩ := same.halve
      rw [decision]
      exact ih _ (continues _) after
  | load i next ih =>
    obtain ⟨-,-,continues⟩ := allowed
    simp only [Coded.exec]
    cases peek window i with
    | none => rfl
    | some byte => exact ih byte (continues byte) alike

-- Only the bytes of the window that a run may come to matter to it.
theorem exec_window {other : List UInt8} {contexts : Nat} {p : Coded α} {s : Ledger} {post : α → Ledger → Prop} {c : Coder}
    (allowed : p.Allowed contexts window.length s post) (same : ∀ i < window.length,other[i]? = window[i]?) :
    p.exec other adapt c = p.exec window adapt c := by
  induction p generalizing s c with
  | done a => rfl
  | bit i next ih =>
    obtain ⟨-,-,-,continues⟩ := allowed
    simp only [Coded.exec]
    cases c.probs[i]? with
    | none => rfl
    | some prob =>
      cases normalize c with
      | error h => rfl
      | ok n => exact ih _ (continues _)
  | direct next ih =>
    obtain ⟨-,continues⟩ := allowed
    simp only [Coded.exec]
    cases normalize c with
    | error h => rfl
    | ok n => exact ih _ (continues _)
  | load i next ih =>
    obtain ⟨low,high,continues⟩ := allowed
    have here : peek other i = peek window i := by simp only [peek,low,if_true,same i.toNat (by omega)]
    simp only [Coded.exec,here]
    cases peek window i with
    | none => rfl
    | some byte => exact ih byte (continues byte)

end Allowed

-- A run that begins with a bit may as well begin normalized.
theorem exec_normalize {α : Type} {window : List UInt8} {adapt : Prob → Bool → Prob} {i : Nat} {next : Bool → Coded α}
    {c d : Coder} (wide : Wide c) (ran : normalize c = .ok d) :
    (Coded.bit i next).exec window adapt c = (Coded.bit i next).exec window adapt d := by
  simp only [Coded.exec,ran,normalize_probs ran,normalize_normal (normalize_wide wide ran)]

theorem exec_bit {α : Type} {window : List UInt8} {adapt : Prob → Bool → Prob} {i : Nat} {next : Bool → Coded α} {c : Coder}
    {p : Prob} (normal : Normal c) (found : c.probs[i]? = some p) :
    (Coded.bit i next).exec window adapt c =
      (next (split p c).1).exec window adapt {(split p c).2 with probs := c.probs.set i (adapt p (split p c).1)} := by
  simp only [Coded.exec,found,normalize_normal normal]

def Coder.append (c : Coder) (tail : List UInt8) : Coder := {c with input := c.input ++ tail}

theorem normalize_append {c d : Coder} (tail : List UInt8) (ran : normalize c = .ok d) :
    normalize (c.append tail) = .ok (d.append tail) := by
  obtain ⟨normal,same⟩ | ⟨narrow,byte,rest,cons,same⟩ := normalize_cases ran
  · subst same
    simp only [normalize,Coder.append,Nat.not_lt.mpr normal,if_false]
  · subst same
    simp only [normalize,Coder.append,narrow,if_true,cons,List.cons_append]

theorem split_append (p : Prob) (c : Coder) (tail : List UInt8) :
    split p (c.append tail) = ((split p c).1,(split p c).2.append tail) := by
  have same : bound (c.append tail) p = bound c p := by simp only [bound,Coder.append]
  simp only [split,same]
  by_cases below : c.code < bound c p
  · simp only [Coder.append,below,if_true]
  · simp only [Coder.append,below,if_false]

theorem halve_append (c : Coder) (tail : List UInt8) :
    halve (c.append tail) = ((halve c).1,(halve c).2.append tail) := by
  have same : difference (c.append tail) = difference c := by simp only [difference,Coder.append]
  simp only [halve,same]
  by_cases below : difference c < 2147483648
  · simp only [Coder.append,below,if_true]
  · simp only [Coder.append,below,if_false]

-- A run that its input suffices for does not depend on what stands behind.
theorem exec_append {α : Type} {window : List UInt8} {adapt : Prob → Bool → Prob} {p : Coded α} {c d : Coder} {a : α}
    (tail : List UInt8) (ran : p.exec window adapt c = .ok (a,d)) :
    p.exec window adapt (c.append tail) = .ok (a,d.append tail) := by
  induction p generalizing c with
  | done b =>
    cases ran
    rfl
  | bit i next ih =>
    simp only [Coded.exec] at ran ⊢
    rw [show (c.append tail).probs = c.probs from rfl]
    cases found : c.probs[i]? with
    | none => simp only [found] at ran; cases ran
    | some prob =>
      cases normalized : normalize c with
      | error h => simp only [found,normalized] at ran; cases ran
      | ok n =>
        simp only [found,normalized] at ran
        simp only [normalize_append tail normalized]
        have parts := split_append prob n tail
        generalize split prob n = x at ran parts
        obtain ⟨b,m⟩ := x
        rw [parts]
        exact ih b ran
  | direct next ih =>
    simp only [Coded.exec] at ran ⊢
    cases normalized : normalize c with
    | error h => simp only [normalized] at ran; cases ran
    | ok n =>
      simp only [normalized] at ran
      simp only [normalize_append tail normalized]
      have parts := halve_append n tail
      generalize halve n = x at ran parts
      obtain ⟨b,m⟩ := x
      rw [parts]
      exact ih b ran
  | load i next ih =>
    simp only [Coded.exec] at ran ⊢
    cases found : peek window i with
    | none => simp only [found] at ran; cases ran
    | some byte =>
      simp only [found] at ran
      simp only [ih byte ran]

theorem exec_length {α : Type} {window : List UInt8} {adapt : Prob → Bool → Prob} {p : Coded α} {c d : Coder} {a : α}
    (ran : p.exec window adapt c = .ok (a,d)) : d.input.length ≤ c.input.length := by
  induction p generalizing c with
  | done b =>
    cases ran
    exact le_rfl
  | bit i next ih =>
    simp only [Coded.exec] at ran
    cases found : c.probs[i]? with
    | none => simp only [found] at ran; cases ran
    | some prob =>
      cases normalized : normalize c with
      | error h => simp only [found,normalized] at ran; cases ran
      | ok n =>
        simp only [found,normalized] at ran
        have rest := ih _ ran
        rw [split_input] at rest
        exact rest.trans (normalize_length normalized).1
  | direct next ih =>
    simp only [Coded.exec] at ran
    cases normalized : normalize c with
    | error h => simp only [normalized] at ran; cases ran
    | ok n =>
      simp only [normalized] at ran
      have rest := ih _ ran
      rw [halve_input] at rest
      exact rest.trans (normalize_length normalized).1
  | load i next ih =>
    simp only [Coded.exec] at ran
    cases found : peek window i with
    | none => simp only [found] at ran; cases ran
    | some byte =>
      simp only [found] at ran
      exact ih byte ran

theorem starved_append {c d : Coder} {tail : List UInt8} (starved : normalize c = .error .starved)
    (ran : normalize (c.append tail) = .ok d) : d.input.length < tail.length := by
  obtain ⟨-,narrow,empty⟩ := normalize_error starved
  obtain ⟨normal,-⟩ | ⟨-,byte,rest,cons,same⟩ := normalize_cases ran
  · exact absurd narrow (Nat.not_lt.mpr normal)
  · have whole : tail = byte::rest := by
      simp only [Coder.append,empty,List.nil_append] at cons
      exact cons
    rw [same,whole]
    exact Nat.lt_succ_self _

-- A run that an input does not suffice for takes all of it where there is more.
theorem exec_starved_append {α : Type} {window : List UInt8} {adapt : Prob → Bool → Prob} {p : Coded α} {c d : Coder} {a : α}
    {tail : List UInt8} (starved : p.exec window adapt c = .error .starved)
    (ran : p.exec window adapt (c.append tail) = .ok (a,d)) : d.input.length < tail.length := by
  induction p generalizing c with
  | done b => cases starved
  | bit i next ih =>
    simp only [Coded.exec] at starved ran
    rw [show (c.append tail).probs = c.probs from rfl] at ran
    cases found : c.probs[i]? with
    | none => simp only [found] at starved; cases starved
    | some prob =>
      cases longer : normalize (c.append tail) with
      | error h => simp only [found,longer] at ran; cases ran
      | ok m =>
        simp only [found,longer] at ran
        cases normalized : normalize c with
        | error h =>
          obtain ⟨rfl,-,-⟩ := normalize_error normalized
          have first := starved_append normalized longer
          have rest := exec_length ran
          rw [split_input] at rest
          omega
        | ok n =>
          simp only [found,normalized] at starved
          rw [normalize_append tail normalized] at longer
          cases longer
          have parts := split_append prob n tail
          generalize split prob n = x at starved parts
          obtain ⟨b,e⟩ := x
          rw [parts] at ran
          exact ih b starved ran
  | direct next ih =>
    simp only [Coded.exec] at starved ran
    cases longer : normalize (c.append tail) with
    | error h => simp only [longer] at ran; cases ran
    | ok m =>
      simp only [longer] at ran
      cases normalized : normalize c with
      | error h =>
        obtain ⟨rfl,-,-⟩ := normalize_error normalized
        have first := starved_append normalized longer
        have rest := exec_length ran
        rw [halve_input] at rest
        omega
      | ok n =>
        simp only [normalized] at starved
        rw [normalize_append tail normalized] at longer
        cases longer
        have parts := halve_append n tail
        generalize halve n = x at starved parts
        obtain ⟨b,e⟩ := x
        rw [parts] at ran
        exact ih b starved ran
  | load i next ih =>
    simp only [Coded.exec] at starved ran
    cases found : peek window i with
    | none => simp only [found] at starved; cases starved
    | some byte =>
      simp only [found] at starved ran
      exact ih byte starved ran

-- The results that a program can come to.
def Coded.Leaves {α : Type} (q : α → Prop) : Coded α → Prop
  | .done a => q a
  | .bit _ next => ∀ b,(next b).Leaves q
  | .direct next => ∀ b,(next b).Leaves q
  | .load _ next => ∀ byte,(next byte).Leaves q

theorem Coded.leaves_all {α : Type} {q : α → Prop} (all : ∀ a,q a) (p : Coded α) : p.Leaves q := by
  induction p with
  | done a => exact all a
  | bit i next ih => exact ih
  | direct next ih => exact ih
  | load i next ih => exact ih

theorem Coded.leaves_bind {α β : Type} {p : Coded α} {f : α → Coded β} {q : β → Prop} :
    (p.bind f).Leaves q ↔ p.Leaves fun a => (f a).Leaves q := by
  induction p with
  | done a => exact Iff.rfl
  | bit i next ih => exact forall_congr' ih
  | direct next ih => exact forall_congr' ih
  | load i next ih => exact forall_congr' ih

theorem Coded.exec_leaves {α : Type} {window : List UInt8} {adapt : Prob → Bool → Prob} {p : Coded α} {q : α → Prop}
    {c d : Coder} {a : α} (leaves : p.Leaves q) (ran : p.exec window adapt c = .ok (a,d)) : q a := by
  induction p generalizing c with
  | done b =>
    cases ran
    exact leaves
  | bit i next ih =>
    simp only [Coded.exec] at ran
    cases found : c.probs[i]? with
    | none => simp only [found] at ran; cases ran
    | some prob =>
      cases normalized : normalize c with
      | error h => simp only [found,normalized] at ran; cases ran
      | ok n =>
        simp only [found,normalized] at ran
        exact ih _ (leaves _) ran
  | direct next ih =>
    simp only [Coded.exec] at ran
    cases normalized : normalize c with
    | error h => simp only [normalized] at ran; cases ran
    | ok n =>
      simp only [normalized] at ran
      exact ih _ (leaves _) ran
  | load i next ih =>
    simp only [Coded.exec] at ran
    cases found : peek window i with
    | none => simp only [found] at ran; cases ran
    | some byte =>
      simp only [found] at ran
      exact ih byte (leaves byte) ran

-- Where the demand of a budget ends: the bytes between two coders, and those of an
-- input that is exhausted.
theorem Paid.few {c d : Coder} {spent n : Nat} (paid : Paid c d spent) (normal : Normal c) (wide : Wide d)
    (few : 800+spent ≤ 800*n) : ∃ k < n,k ≤ c.input.length ∧ d.input = c.input.drop k := by
  obtain ⟨k,inside,rest,pays⟩ := paid
  refine ⟨k,?_,inside,rest⟩
  by_contra many
  have start : (2^24)^100 ≤ c.range^100 := Nat.pow_le_pow_left normal.1 100
  have finish : d.range^100 < (2^32)^100 := Nat.pow_lt_pow_left wide.2 (by omega)
  have chain : (2^24)^100*2^(800*k) < (2^32)^100*2^spent :=
    calc (2^24)^100*2^(800*k) ≤ c.range^100*2^(800*k) := Nat.mul_le_mul_right _ start
      _ ≤ d.range^100*2^spent := pays
      _ < (2^32)^100*2^spent := Nat.mul_lt_mul_of_pos_right finish (Nat.pow_pos (by omega))
  rw [← pow_mul,← pow_mul,← pow_add,← pow_add] at chain
  have exponents := (Nat.pow_lt_pow_iff_right (by omega)).mp chain
  omega

theorem Exhausted.few {s : Ledger} {c : Coder} {n : Nat} (exhausted : Exhausted s c) (normal : Normal c)
    (few : s.budget ≤ 800*n) : c.input.length < n := by
  obtain ⟨range,narrow,pays⟩ := exhausted.short
  by_contra many
  have start : (2^24)^100 ≤ c.range^100 := Nat.pow_le_pow_left normal.1 100
  have finish : range^100 < (2^24)^100 := Nat.pow_lt_pow_left narrow (by omega)
  have chain : (2^24)^100*2^(800*c.input.length) < (2^24)^100*2^s.budget :=
    calc (2^24)^100*2^(800*c.input.length) ≤ c.range^100*2^(800*c.input.length) := Nat.mul_le_mul_right _ start
      _ ≤ range^100*2^s.budget := pays
      _ < (2^24)^100*2^s.budget := Nat.mul_lt_mul_of_pos_right finish (Nat.pow_pos (by omega))
  have exponents := (Nat.pow_lt_pow_iff_right (by omega)).mp (Nat.lt_of_mul_lt_mul_left chain)
  omega

end ChuwiMinibook.CodedBits
