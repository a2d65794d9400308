import ChuwiMinibook.CodedBits
import Mathlib.Data.List.Induction

namespace ChuwiMinibook.RangeEncoding
open CodedBits
open Coded (exec Allowed)
variable {α β : Type}

-- The encoder's side of a coded program: an interval of the numbers that k bytes
-- can write. Nothing carries, as the lower end is a whole number.
structure Interval where
  low : Nat
  range : Nat
  size : Nat
  probs : List Prob

def Interval.normalize (e : Interval) : Interval :=
  if e.range < topValue then {e with low := e.low*256,range := e.range*256,size := e.size+1} else e

def Interval.split (e : Interval) (p : Prob) (b : Bool) : Interval :=
  let bound := e.range/2048*p.value
  if b then {e with low := e.low+bound,range := e.range-bound} else {e with range := bound}

def Interval.halve (e : Interval) (b : Bool) : Interval :=
  if b then {e with low := e.low+e.range/2,range := e.range/2} else {e with range := e.range/2}

-- The result of a program whose decisions are given, and those it leaves.
def follow (window : List UInt8) : Coded α → List Bool → Option (α × List Bool)
  | .done a,bits => some (a,bits)
  | .bit _ _,[] => none
  | .bit _ next,b::bits => follow window (next b) bits
  | .direct _,[] => none
  | .direct next,b::bits => follow window (next b) bits
  | .load i next,bits =>
    match peek window i with
    | none => none
    | some byte => follow window (next byte) bits

-- The interval that these decisions leave.
def narrow (window : List UInt8) (adapt : Prob → Bool → Prob) : Coded α → List Bool → Interval → Option (α × List Bool × Interval)
  | .done a,bits,e => some (a,bits,e)
  | .bit _ _,[],_ => none
  | .bit i next,b::bits,e =>
    match e.probs[i]? with
    | none => none
    | some p => narrow window adapt (next b) bits {e.normalize.split p b with probs := e.probs.set i (adapt p b)}
  | .direct _,[],_ => none
  | .direct next,b::bits,e => narrow window adapt (next b) bits (e.normalize.halve b)
  | .load i next,bits,e =>
    match peek window i with
    | none => none
    | some byte => narrow window adapt (next byte) bits e

theorem follow_bind (window : List UInt8) (p : Coded α) (f : α → Coded β) (bits : List Bool) :
    follow window (p.bind f) bits = (follow window p bits).bind fun x => follow window (f x.1) x.2 := by
  induction p generalizing bits with
  | done a => rfl
  | bit i next ih =>
    cases bits with
    | nil => rfl
    | cons b bits => exact ih b bits
  | direct next ih =>
    cases bits with
    | nil => rfl
    | cons b bits => exact ih b bits
  | load i next ih =>
    simp only [Coded.bind,follow]
    cases peek window i with
    | none => rfl
    | some byte => exact ih byte bits

-- A result that some decisions lead to.
def Yields (window : List UInt8) (p : Coded α) (a : α) : Prop := ∃ bits,∀ rest,follow window p (bits ++ rest) = some (a,rest)

section Yields
variable {window : List UInt8}

theorem Yields.done (a : α) : Yields window (.done a) a := ⟨[],fun _ => rfl⟩

theorem Yields.bit {i : Nat} {next : Bool → Coded α} {a : α} (b : Bool) (rest : Yields window (next b) a) :
    Yields window (.bit i next) a := by
  obtain ⟨bits,yields⟩ := rest
  exact ⟨b::bits,yields⟩

theorem Yields.direct {next : Bool → Coded α} {a : α} (b : Bool) (rest : Yields window (next b) a) : Yields window (.direct next) a := by
  obtain ⟨bits,yields⟩ := rest
  exact ⟨b::bits,yields⟩

theorem Yields.load {i : Int} {next : UInt8 → Coded α} {a : α} (low : 0 ≤ i) (high : i < window.length)
    (rest : ∀ byte,Yields window (next byte) a) : Yields window (.load i next) a := by
  obtain ⟨byte,found⟩ := peek_some low high
  obtain ⟨bits,yields⟩ := rest byte
  refine ⟨bits,fun rest => ?_⟩
  simp only [follow,found]
  exact yields rest

theorem Yields.bind {p : Coded α} {f : α → Coded β} {a : α} {b : β} (first : Yields window p a) (second : Yields window (f a) b) :
    Yields window (p.bind f) b := by
  obtain ⟨front,yields⟩ := first
  obtain ⟨back,ends⟩ := second
  refine ⟨front ++ back,fun rest => ?_⟩
  rw [follow_bind,List.append_assoc,yields]
  exact ends rest

end Yields

-- The number that bytes write, the first the most significant.
def number : List UInt8 → Nat := List.foldl (fun n byte => n*256+byte.toNat) 0

def digits : Nat → Nat → List UInt8
  | 0,_ => []
  | n+1,value => digits n (value/256) ++ [(value % 256).toUInt8]

theorem number_snoc (bytes : List UInt8) (byte : UInt8) : number (bytes ++ [byte]) = number bytes*256+byte.toNat := by
  simp only [number,List.foldl_append,List.foldl_cons,List.foldl_nil]

theorem digits_length (n value : Nat) : (digits n value).length = n := by
  induction n generalizing value with
  | zero => rfl
  | succ n ih => rw [digits,List.length_append,ih,List.length_singleton]

theorem number_digits {n value : Nat} (fits : value < 256^n) : number (digits n value) = value := by
  induction n generalizing value with
  | zero =>
    rw [pow_zero] at fits
    rw [digits,Nat.lt_one_iff.mp fits]
    rfl
  | succ n ih =>
    have upper : value/256 < 256^n := by
      rw [pow_succ] at fits
      omega
    have byte : (value % 256).toUInt8.toNat = value % 256 := by
      rw [Nat.toUInt8_eq,UInt8.toNat_ofNat',Nat.mod_mod]
    rw [digits,number_snoc,ih upper,byte]
    omega

theorem number_append (front back : List UInt8) :
    number (front ++ back) = number front*256^back.length+number back ∧ number back < 256^back.length := by
  induction back using List.reverseRecOn with
  | nil => exact ⟨by simp [number],by simp [number]⟩
  | append_singleton back byte ih =>
    obtain ⟨value,small⟩ := ih
    have limit := byte.toNat_lt
    rw [← List.append_assoc,number_snoc,number_snoc,value,List.length_append,List.length_singleton,pow_succ]
    exact ⟨by ring,by omega⟩

theorem number_take (stream : List UInt8) (k : Nat) :
    number (stream.take k) = number stream/256^(stream.length-k) := by
  have whole := number_append (stream.take k) (stream.drop k)
  rw [List.take_append_drop,List.length_drop] at whole
  obtain ⟨value,small⟩ := whole
  rw [value,Nat.mul_comm,Nat.mul_add_div (Nat.pow_pos (by omega)),Nat.div_eq_of_lt small,Nat.add_zero]

-- The stream's number lies in the interval, at the interval's scale.
structure Contains (stream : List UInt8) (e : Interval) : Prop where
  long : e.size ≤ stream.length
  low : e.low*256^(stream.length-e.size) ≤ number stream
  high : number stream < (e.low+e.range)*256^(stream.length-e.size)

-- The decoder beside an encoder: what it read so far, less the lower end.
structure Tracks (stream : List UInt8) (e : Interval) (c : Coder) : Prop where
  range : c.range = e.range
  probs : c.probs = e.probs
  input : c.input = stream.drop e.size
  code : c.code+e.low = number (stream.take e.size)

theorem Contains.bounds {stream : List UInt8} {e : Interval} (contains : Contains stream e) :
    e.low ≤ number (stream.take e.size) ∧ number (stream.take e.size) < e.low+e.range := by
  have pos : 0 < 256^(stream.length-e.size) := Nat.pow_pos (by omega)
  rw [number_take]
  exact ⟨(Nat.le_div_iff_mul_le pos).mpr contains.low,(Nat.div_lt_iff_lt_mul pos).mpr contains.high⟩

theorem Contains.within {stream : List UInt8} {e inner : Interval} (contains : Contains stream inner)
    (size : inner.size = e.size) (low : e.low ≤ inner.low) (high : inner.low+inner.range ≤ e.low+e.range) :
    Contains stream e where
  long := size ▸ contains.long
  low := (Nat.mul_le_mul_right _ low).trans (size ▸ contains.low)
  high := (size ▸ contains.high).trans_le (Nat.mul_le_mul_right _ high)

theorem Contains.before_normalize {stream : List UInt8} {e : Interval} (contains : Contains stream e.normalize) :
    Contains stream e := by
  unfold Interval.normalize at contains
  split at contains
  case isFalse => exact contains
  case isTrue =>
    obtain ⟨long,low,high⟩ := contains
    dsimp only at long low high
    have scale : 256^(stream.length-e.size) = 256*256^(stream.length-(e.size+1)) := by
      rw [← pow_succ',show stream.length-e.size = stream.length-(e.size+1)+1 by omega]
    rw [Nat.mul_assoc,← scale] at low
    rw [← Nat.add_mul,Nat.mul_assoc,← scale] at high
    exact ⟨by omega,low,high⟩

theorem Contains.before_split {stream : List UInt8} {e : Interval} {p : Prob} {b : Bool}
    (contains : Contains stream (e.split p b)) : Contains stream e := by
  have fits : e.range/2048*p.value ≤ e.range :=
    calc e.range/2048*p.value ≤ e.range/2048*2048 := Nat.mul_le_mul_left _ (by have high := p.high; omega)
      _ ≤ e.range := Nat.div_mul_le_self _ _
  cases b
  case false => exact contains.within rfl le_rfl (Nat.add_le_add_left fits _)
  case true =>
    refine contains.within rfl (Nat.le_add_right _ _) ?_
    simp only [Interval.split,if_true]
    omega

theorem Contains.before_halve {stream : List UInt8} {e : Interval} {b : Bool}
    (contains : Contains stream (e.halve b)) : Contains stream e := by
  cases b
  case false => exact contains.within rfl le_rfl (Nat.add_le_add_left (Nat.div_le_self _ _) _)
  case true =>
    refine contains.within rfl (Nat.le_add_right _ _) ?_
    simp only [Interval.halve,if_true]
    omega

-- A stream in the interval at the end lies in every interval on the way.
theorem narrow_contains {window stream : List UInt8} {adapt : Prob → Bool → Prob} {p : Coded α} {bits rest : List Bool}
    {e e' : Interval} {a : α} (narrowed : narrow window adapt p bits e = some (a,rest,e')) (contains : Contains stream e') :
    Contains stream e := by
  induction p generalizing bits e with
  | done a =>
    cases narrowed
    exact contains
  | bit i next ih =>
    cases bits with
    | nil => cases narrowed
    | cons b bits =>
      simp only [narrow] at narrowed
      cases found : e.probs[i]? with
      | none => simp only [found] at narrowed; cases narrowed
      | some p =>
        simp only [found] at narrowed
        have inner := ih b narrowed
        exact Contains.before_normalize (Contains.before_split (p := p) (b := b) ⟨inner.long,inner.low,inner.high⟩)
  | direct next ih =>
    cases bits with
    | nil => cases narrowed
    | cons b bits => exact (ih b narrowed).before_halve.before_normalize
  | load i next ih =>
    simp only [narrow] at narrowed
    cases found : peek window i with
    | none => simp only [found] at narrowed; cases narrowed
    | some byte =>
      simp only [found] at narrowed
      exact ih byte narrowed

theorem normalize_tracks {stream : List UInt8} {e : Interval} {c : Coder} (tracks : Tracks stream e c)
    (wide : CodedBits.Wide c) (contains : Contains stream e.normalize) :
    ∃ d,CodedBits.normalize c = .ok d ∧ Tracks stream e.normalize d ∧ Normal d := by
  obtain ⟨range,probs,input,code⟩ := tracks
  have bounds := contains.bounds
  have long := contains.long
  unfold Interval.normalize at bounds long ⊢
  split
  case isFalse normal =>
    rw [← range] at normal
    exact ⟨c,normalize_normal ⟨Nat.not_lt.mp normal,wide.2⟩,⟨range,probs,input,code⟩,Nat.not_lt.mp normal,wide.2⟩
  case isTrue narrow =>
    simp only [narrow,if_true] at bounds long
    have cons : c.input = stream[e.size]::stream.drop (e.size+1) := by rw [input,List.drop_eq_getElem_cons]
    have next : number (stream.take (e.size+1)) = number (stream.take e.size)*256+stream[e.size].toNat := by
      rw [List.take_succ_eq_append_getElem long,number_snoc]
    have narrow' : c.range < topValue := range.symm ▸ narrow
    have ran := normalize_cons narrow' cons
    have small : c.code*256+stream[e.size].toNat < word := by
      simp only [topValue] at narrow
      simp only [word]
      omega
    rw [Nat.mod_eq_of_lt small] at ran
    refine ⟨_,ran,⟨by simp only [range],probs,rfl,?_⟩,normalize_wide wide ran⟩
    simp only [next]
    omega

theorem split_tracks {stream : List UInt8} {e : Interval} {c : Coder} {p : Prob} {b : Bool} (tracks : Tracks stream e c)
    (contains : Contains stream (e.split p b)) :
    (CodedBits.split p c).1 = b ∧ Tracks stream (e.split p b) (CodedBits.split p c).2 := by
  obtain ⟨range,probs,input,code⟩ := tracks
  have same : bound c p = e.range/2048*p.value := by rw [bound,range]
  have bounds := contains.bounds
  unfold CodedBits.split
  cases b
  case false =>
    simp only [Interval.split,Bool.false_eq_true,if_false] at bounds ⊢
    have below : c.code < bound c p := by omega
    simp only [below,if_true]
    exact ⟨trivial,same,probs,input,code⟩
  case true =>
    simp only [Interval.split,if_true] at bounds ⊢
    have above : ¬c.code < bound c p := by omega
    simp only [above,if_false]
    exact ⟨trivial,by simp only [same,range],probs,input,by simp only [same]; omega⟩

theorem halve_tracks {stream : List UInt8} {e : Interval} {c : Coder} {b : Bool} (tracks : Tracks stream e c)
    (wide : CodedBits.Wide c) (contains : Contains stream (e.halve b)) :
    (CodedBits.halve c).1 = b ∧ Tracks stream (e.halve b) (CodedBits.halve c).2 := by
  obtain ⟨range,probs,input,code⟩ := tracks
  have high := wide.2
  have bounds := contains.bounds
  unfold CodedBits.halve
  simp only [word] at high
  cases b
  case false =>
    simp only [Interval.halve,Bool.false_eq_true,if_false] at bounds ⊢
    have borrows : ¬difference c < 2147483648 := by simp only [difference,word]; omega
    simp only [borrows,if_false]
    exact ⟨trivial,by simp only [range],probs,input,code⟩
  case true =>
    simp only [Interval.halve,if_true] at bounds ⊢
    have value : difference c = c.code-e.range/2 := by simp only [difference,word]; omega
    have above : difference c < 2147483648 := by omega
    simp only [above,if_true]
    exact ⟨trivial,by simp only [range],probs,input,by simp only [value]; omega⟩

-- The decoder takes, out of any stream in the final interval, the decisions the
-- interval was narrowed by.
theorem narrow_exec {window stream : List UInt8} {adapt : Prob → Bool → Prob} {p : Coded α} {bits rest : List Bool}
    {e e' : Interval} {a : α} {c : Coder} (narrowed : narrow window adapt p bits e = some (a,rest,e'))
    (contains : Contains stream e') (tracks : Tracks stream e c) (wide : CodedBits.Wide c) :
    ∃ d,exec window adapt p c = .ok (a,d) ∧ Tracks stream e' d ∧ CodedBits.Wide d := by
  induction p generalizing bits e c with
  | done a =>
    cases narrowed
    exact ⟨c,rfl,tracks,wide⟩
  | bit i next ih =>
    cases bits with
    | nil => cases narrowed
    | cons b bits =>
      simp only [narrow] at narrowed
      cases found : e.probs[i]? with
      | none => simp only [found] at narrowed; cases narrowed
      | some prob =>
        simp only [found] at narrowed
        have inner := narrow_contains narrowed contains
        have chosen : Contains stream (e.normalize.split prob b) := ⟨inner.long,inner.low,inner.high⟩
        obtain ⟨n,normalized,following,normal⟩ := normalize_tracks tracks wide chosen.before_split
        obtain ⟨decision,after⟩ := split_tracks following chosen
        have probs : n.probs = e.probs := (normalize_probs normalized).trans tracks.probs
        simp only [exec,tracks.probs,found,normalized,decision,probs]
        exact ih b narrowed ⟨after.range,rfl,after.input,after.code⟩ (split_wide (p := prob) normal)
  | direct next ih =>
    cases bits with
    | nil => cases narrowed
    | cons b bits =>
      have chosen := narrow_contains (p := next b) narrowed contains
      obtain ⟨n,normalized,following,normal⟩ := normalize_tracks tracks wide chosen.before_halve
      obtain ⟨decision,after⟩ := halve_tracks following normal.wide chosen
      simp only [exec,normalized,decision]
      exact ih b narrowed after (halve_wide normal)
  | load i next ih =>
    simp only [narrow] at narrowed
    simp only [exec]
    cases found : peek window i with
    | none => simp only [found] at narrowed; cases narrowed
    | some byte =>
      simp only [found] at narrowed ⊢
      exact ih byte narrowed tracks wide

-- An interval of the numbers of its size, which is never too narrow to be split.
structure Interval.Sound (e : Interval) : Prop where
  low : 65536 ≤ e.range
  high : e.range < word
  fits : e.low+e.range ≤ 256^e.size

theorem Interval.Sound.normalize {e : Interval} (sound : e.Sound) : e.normalize.Sound ∧ topValue ≤ e.normalize.range := by
  obtain ⟨low,high,fits⟩ := sound
  unfold Interval.normalize
  split
  case isFalse normal => exact ⟨⟨low,high,fits⟩,Nat.not_lt.mp normal⟩
  case isTrue narrow =>
    simp only [topValue] at narrow
    refine ⟨⟨by dsimp only; omega,by simp only [word]; omega,?_⟩,by simp only [topValue]; omega⟩
    dsimp only
    rw [← Nat.add_mul,pow_succ]
    exact Nat.mul_le_mul_right _ fits

theorem Interval.Sound.split {e : Interval} (sound : e.Sound) (normal : topValue ≤ e.range) (p : Prob) (b : Bool) :
    (e.split p b).Sound := by
  obtain ⟨-,high,fits⟩ := sound
  have few : e.range/2048*31 ≤ e.range/2048*p.value := Nat.mul_le_mul_left _ p.low
  have many : e.range/2048*p.value ≤ e.range/2048*2017 := Nat.mul_le_mul_left _ p.high
  simp only [topValue,word] at normal high
  cases b
  case false =>
    simp only [Interval.split,Bool.false_eq_true,if_false]
    exact ⟨by dsimp only; omega,by simp only [word]; omega,by dsimp only; omega⟩
  case true =>
    simp only [Interval.split,if_true]
    exact ⟨by dsimp only; omega,by simp only [word]; omega,by dsimp only; omega⟩

theorem Interval.Sound.halve {e : Interval} (sound : e.Sound) (normal : topValue ≤ e.range) (b : Bool) :
    (e.halve b).Sound := by
  obtain ⟨-,high,fits⟩ := sound
  simp only [topValue,word] at normal high
  cases b
  case false =>
    simp only [Interval.halve,Bool.false_eq_true,if_false]
    exact ⟨by dsimp only; omega,by simp only [word]; omega,by dsimp only; omega⟩
  case true =>
    simp only [Interval.halve,if_true]
    exact ⟨by dsimp only; omega,by simp only [word]; omega,by dsimp only; omega⟩

-- Decisions that a program can take can also be encoded.
theorem follow_narrow {window : List UInt8} {adapt : Prob → Bool → Prob} {p : Coded α} {bits rest : List Bool}
    {e : Interval} {a : α} {s : Ledger} {post : α → Ledger → Prop} (followed : follow window p bits = some (a,rest))
    (allowed : p.Allowed e.probs.length window.length s post) (sound : e.Sound) :
    ∃ e',narrow window adapt p bits e = some (a,rest,e') ∧ e'.Sound ∧ e'.probs.length = e.probs.length := by
  induction p generalizing bits e s with
  | done a =>
    cases followed
    exact ⟨e,rfl,sound,rfl⟩
  | bit i next ih =>
    cases bits with
    | nil => cases followed
    | cons b bits =>
      obtain ⟨inside,-,-,continues⟩ := allowed
      simp only [narrow,List.getElem?_eq_getElem inside]
      obtain ⟨wide,normal⟩ := sound.normalize
      have chosen := wide.split normal e.probs[i] b
      have length : (e.probs.set i (adapt e.probs[i] b)).length = e.probs.length := List.length_set
      obtain ⟨e',narrowed,ends,probs⟩ := ih b (e := {e.normalize.split e.probs[i] b with probs := e.probs.set i (adapt e.probs[i] b)})
        followed (by rw [length]; exact continues b) ⟨chosen.low,chosen.high,chosen.fits⟩
      exact ⟨e',narrowed,ends,probs.trans length⟩
  | direct next ih =>
    cases bits with
    | nil => cases followed
    | cons b bits =>
      obtain ⟨-,continues⟩ := allowed
      obtain ⟨wide,normal⟩ := sound.normalize
      have length : (e.normalize.halve b).probs.length = e.probs.length := by
        unfold Interval.halve Interval.normalize
        split <;> split <;> rfl
      obtain ⟨e',narrowed,ends,probs⟩ := ih b followed (by rw [length]; exact continues b) (wide.halve normal b)
      exact ⟨e',narrowed,ends,probs.trans length⟩
  | load i next ih =>
    obtain ⟨low,high,continues⟩ := allowed
    obtain ⟨byte,found⟩ := peek_some low high
    simp only [follow,found] at followed
    simp only [narrow,found]
    exact ih byte followed (continues byte) sound

-- What follows a stream in an interval does not take it out of it.
theorem Contains.append {stream : List UInt8} {e : Interval} (contains : Contains stream e) (tail : List UInt8) :
    Contains (stream ++ tail) e := by
  obtain ⟨long,low,high⟩ := contains
  obtain ⟨value,small⟩ := number_append stream tail
  have length : (stream ++ tail).length-e.size = stream.length-e.size+tail.length := by
    rw [List.length_append]
    omega
  refine ⟨by rw [List.length_append]; omega,?_,?_⟩
  · rw [length,pow_add,← Nat.mul_assoc,value]
    exact (Nat.mul_le_mul_right _ low).trans (Nat.le_add_right _ _)
  · rw [length,pow_add,← Nat.mul_assoc,value]
    calc number stream*256^tail.length+number tail < number stream*256^tail.length+256^tail.length := Nat.add_lt_add_left small _
      _ = (number stream+1)*256^tail.length := (Nat.succ_mul _ _).symm
      _ ≤ (e.low+e.range)*256^(stream.length-e.size)*256^tail.length := Nat.mul_le_mul_right _ high

-- The lower end of an interval, written out, is a stream in it.
theorem contains_digits {e : Interval} (sound : e.Sound) : Contains (digits e.size e.low) e := by
  have low := sound.low
  have fits := sound.fits
  have value : number (digits e.size e.low) = e.low := number_digits (by omega)
  refine ⟨by rw [digits_length],?_,?_⟩
  · rw [value,digits_length,Nat.sub_self,pow_zero,Nat.mul_one]
  · rw [value,digits_length,Nat.sub_self,pow_zero,Nat.mul_one]
    omega

end ChuwiMinibook.RangeEncoding
