import ChuwiMinibook.StdString
import Mathlib.Tactic.IntervalCases

namespace ChuwiMinibook.GLib
open StdString (isSpace)

-- Text functions of the C library and of GLib, on the characters before the NUL.
def cString (buf : List Char) : List Char := buf.takeWhile (· ≠ '\x00')

-- The pieces between the matches of a delimiter, the first match each time. The counter
-- passes over what is left of a match, and the piece so far is held backwards.
def pieces (delimiter : List Char) : Nat → List Char → List Char → List (List Char)
  | _,piece,[] => [piece.reverse]
  | k+1,piece,_::text => pieces delimiter k piece text
  | 0,piece,c::text =>
    if delimiter <+: c::text then piece.reverse::pieces delimiter (delimiter.length-1) [] text
    else pieces delimiter 0 (c::piece) text

-- g_strsplit without a limit: an empty text has no pieces.
def gStrsplit (delimiter text : List Char) : List (List Char) :=
  if text = [] then [] else pieces delimiter 0 [] text

section
variable {c : Char} {tail : List Char}

theorem pieces_skip (piece text : List Char) {delimiter : List Char} :
    pieces delimiter tail.length piece (tail++text) = pieces delimiter 0 piece text := by
  induction tail with
  | nil => rfl
  | cons d tail ih => exact ih

theorem pieces_match (piece text : List Char) :
    pieces (c::tail) 0 piece (c::tail++text) = piece.reverse::pieces (c::tail) 0 [] text := by
  rw [List.cons_append,pieces,if_pos]
  · rw [List.length_cons,Nat.add_sub_cancel,pieces_skip]
  · rw [← List.cons_append]
    exact List.prefix_append _ _

theorem pieces_other {d : Char} (other : d ≠ c) (piece text : List Char) :
    pieces (c::tail) 0 piece (d::text) = pieces (c::tail) 0 (d::piece) text := by
  rw [pieces,if_neg]
  intro found
  exact other (List.cons_prefix_cons.mp found).1.symm

theorem pieces_pass {word : List Char} (apart : c ∉ word) (piece text : List Char) :
    pieces (c::tail) 0 piece (word++text) = pieces (c::tail) 0 (word.reverse++piece) text := by
  induction word generalizing piece with
  | nil => rfl
  | cons d word ih =>
    rw [List.mem_cons,not_or] at apart
    rw [List.cons_append,pieces_other (Ne.symm apart.1),ih apart.2,List.reverse_cons,List.append_assoc]
    rfl

theorem pieces_last {word : List Char} (apart : c ∉ word) (piece : List Char) :
    pieces (c::tail) 0 piece word = [piece.reverse++word] := by
  have passed : pieces (c::tail) 0 piece (word++[]) = pieces (c::tail) 0 (word.reverse++piece) [] := pieces_pass apart piece []
  rw [List.append_nil] at passed
  rw [passed,pieces,List.reverse_append,List.reverse_reverse]

-- Words without the delimiter's first character come back as they were joined.
theorem pieces_intercalate (word : List Char) (words : List (List Char)) (apart : ∀ w ∈ word::words,c ∉ w) :
    pieces (c::tail) 0 [] ((c::tail).intercalate (word::words)) = word::words := by
  induction words generalizing word with
  | nil =>
    rw [List.intercalate_singleton,pieces_last (apart word List.mem_cons_self)]
    rfl
  | cons next words ih =>
    rw [List.intercalate_cons_cons,List.append_assoc,pieces_pass (apart word List.mem_cons_self),pieces_match,
      ih next (fun w among => apart w (List.mem_cons_of_mem _ among)),List.append_nil,List.reverse_reverse]

theorem strsplit_intercalate {words : List (List Char)} (apart : ∀ w ∈ words,c ∉ w) (filled : ∀ w ∈ words,w ≠ []) :
    gStrsplit (c::tail) ((c::tail).intercalate words) = words := by
  cases words with
  | nil => rfl
  | cons word words =>
    have some : (c::tail).intercalate (word::words) ≠ [] := by
      have first := filled word List.mem_cons_self
      cases words <;> simp [List.intercalate_cons_cons,first]
    rw [gStrsplit,if_neg some,pieces_intercalate word words apart]

end

-- A digit of any base up to 36, in either case.
def digitValue (c : Char) : Option Nat :=
  let c := c.toLower
  if c.isDigit then some (c.toNat-48) else if 'a' ≤ c ∧ c ≤ 'z' then some (c.toNat-87) else none

def digitOf (base : Nat) (c : Char) : Option Nat := (digitValue c).filter (· < base)

-- The number the digits at the front of a text stand for.
def number (base : Nat) : Nat → List Char → Nat
  | n,[] => n
  | n,c::text => match digitOf base c with
    | some d => number base (base*n+d) text
    | none => n

-- The sign behind leading blanks, and what follows it.
def signAt (text : List Char) : Bool×List Char :=
  match text.dropWhile isSpace with
  | '-' :: text => (true,text)
  | '+' :: text => (false,text)
  | text => (false,text)

-- With base 0 the text says which base it is in.
def baseOf : List Char → Nat×List Char
  | '0' :: 'x' :: text => (16,text)
  | '0' :: 'X' :: text => (16,text)
  | '0' :: text => (8,'0' :: text)
  | text => (10,text)

-- g_ascii_strtoull with base 0: blanks, a sign, the base, and the digits; the largest
-- 64-bit number when it does not fit.
def gAsciiStrtoull (text : List Char) : Nat :=
  let (negative,text) := signAt text
  let (base,text) := baseOf text
  let n := min (number base 0 text) (2^64-1)
  if negative then (2^64-n)%2^64 else n

theorem digitValue_digitChar : ∀ d < 16,digitValue (Nat.digitChar d) = some d := by decide

theorem digitOf_digitChar {base d : Nat} (small : base ≤ 16) (below : d < base) :
    digitOf base (Nat.digitChar d) = some d := by
  rw [digitOf,digitValue_digitChar d (Nat.lt_of_lt_of_le below small),Option.filter_some]
  simp [below]

theorem number_digit {base d : Nat} (small : base ≤ 16) (below : d < base) (n : Nat) (text : List Char) :
    number base n (Nat.digitChar d::text) = number base (base*n+d) text := by
  rw [number,digitOf_digitChar small below]

theorem number_toDigits {base : Nat} (proper : 1 < base) (small : base ≤ 16) (v : Nat) (text : List Char) :
    number base 0 (Nat.toDigits base v++text) = number base v text := by
  induction v using Nat.strongRecOn generalizing text with
  | _ v ih =>
    by_cases one : v < base
    · rw [Nat.toDigits_of_lt_base one,List.singleton_append,number_digit small one,Nat.mul_zero,Nat.zero_add]
    · have rest : v%base < base := Nat.mod_lt v (by omega)
      have shorter : v/base < v := Nat.div_lt_self (by omega) proper
      rw [Nat.toDigits_of_base_le proper (by omega),List.append_assoc,ih _ shorter,List.singleton_append,
        number_digit small rest,Nat.div_add_mod]

theorem number_zeros {base : Nat} (proper : 1 < base) (zeros : Nat) (text : List Char) :
    number base 0 (List.replicate zeros '0'++text) = number base 0 text := by
  induction zeros with
  | zero => rfl
  | succ zeros ih =>
    have zero : digitOf base '0' = some 0 := by
      rw [digitOf,show digitValue '0' = some 0 from rfl,Option.filter_some]
      simp [Nat.lt_of_succ_lt proper]
    rw [List.replicate_succ,List.cons_append,number,zero]
    exact ih

theorem toLower_again (c : Char) : c.toLower.toLower = c.toLower := by
  unfold Char.toLower
  split
  · rename_i upper
    rw [dif_neg]
    intro again
    have low : 65 ≤ c.val.toNat := upper.1
    have high : c.val.toNat ≤ 90 := upper.2
    have above : (c.val+32).toNat ≤ 90 := again.2
    rw [UInt32.toNat_add] at above
    change (c.val.toNat+32)%2^32 ≤ 90 at above
    omega
  · rfl

theorem number_lower {base : Nat} (n : Nat) (text : List Char) :
    number base n (text.map Char.toLower) = number base n text := by
  induction text generalizing n with
  | nil => rfl
  | cons c text ih =>
    have same : digitOf base c.toLower = digitOf base c := by
      rw [digitOf,digitOf,digitValue,digitValue,toLower_again]
    rw [List.map_cons,number,number,same]
    cases digitOf base c with
    | none => rfl
    | some d => exact ih _

theorem digit_of_mem {base : Nat} (proper : 1 < base) {v : Nat} {c : Char} (among : c ∈ Nat.toDigits base v) :
    ∃ d < base,c = Nat.digitChar d := by
  induction v using Nat.strongRecOn with
  | _ v ih =>
    by_cases one : v < base
    · rw [Nat.toDigits_of_lt_base one,List.mem_singleton] at among
      exact ⟨v,one,among⟩
    · rw [Nat.toDigits_of_base_le proper (by omega),List.mem_append,List.mem_singleton] at among
      rcases among with front | last
      · exact ih _ (Nat.div_lt_self (by omega) proper) front
      · exact ⟨v%base,Nat.mod_lt v (by omega),last⟩

theorem signAt_toDigits (n : Nat) (text : List Char) :
    signAt (Nat.toDigits 10 n++text) = (false,Nat.toDigits 10 n++text) := by
  cases front : Nat.toDigits 10 n with
  | nil => exact absurd front Nat.toDigits_ne_nil
  | cons c digits =>
    obtain ⟨d,below,same⟩ : ∃ d < 10,c = Nat.digitChar d := digit_of_mem (by decide) (front ▸ List.mem_cons_self)
    subst same
    interval_cases d <;> rfl

theorem toDigits_head {base : Nat} (proper : 1 < base) {v : Nat} (positive : 0 < v) :
    ∃ d text,0 < d ∧ d < base ∧ Nat.toDigits base v = Nat.digitChar d::text := by
  induction v using Nat.strongRecOn with
  | _ v ih =>
    by_cases one : v < base
    · exact ⟨v,[],positive,one,Nat.toDigits_of_lt_base one⟩
    · obtain ⟨d,text,nonzero,below,front⟩ := ih (v/base) (Nat.div_lt_self positive proper)
        (Nat.div_pos (by omega) (by omega))
      exact ⟨d,text++[Nat.digitChar (v%base)],nonzero,below,by
        rw [Nat.toDigits_of_base_le proper (by omega),front,List.cons_append]⟩

-- Decimal without leading zeros, or hexadecimal behind 0x in either case.
def Printed (v : Nat) (text : List Char) : Prop :=
  text = Nat.toDigits 10 v ∨
  ∃ zeros hex,text = '0' :: 'x' :: hex ∧ hex.map Char.toLower = List.replicate zeros '0'++Nat.toDigits 16 v

theorem strtoull_decimal {v : Nat} (fits : v < 2^64) : gAsciiStrtoull (Nat.toDigits 10 v) = v := by
  rcases Nat.eq_zero_or_pos v with zero | positive
  · subst zero
    rfl
  · have value : number 10 0 (Nat.toDigits 10 v++[]) = number 10 v [] := number_toDigits (by decide) (by decide) v []
    rw [List.append_nil] at value
    have plain : gAsciiStrtoull (Nat.toDigits 10 v) = min (number 10 0 (Nat.toDigits 10 v)) (2^64-1) := by
      obtain ⟨d,text,nonzero,below,front⟩ : ∃ d text,0 < d ∧ d < 10 ∧ Nat.toDigits 10 v = Nat.digitChar d::text :=
        toDigits_head (by decide) positive
      rw [front]
      interval_cases d <;> rfl
    rw [plain,value,number]
    omega

theorem strtoull_hex {v zeros : Nat} {hex : List Char} (fits : v < 2^64)
    (digits : hex.map Char.toLower = List.replicate zeros '0'++Nat.toDigits 16 v) :
    gAsciiStrtoull ('0' :: 'x' :: hex) = v := by
  have value : number 16 0 hex = v := by
    have read : number 16 0 (Nat.toDigits 16 v++[]) = number 16 v [] := number_toDigits (by decide) (by decide) v []
    rw [List.append_nil] at read
    rw [← number_lower,digits,number_zeros (by decide),read,number]
  change min (number 16 0 hex) (2^64-1) = v
  rw [value]
  omega

theorem strtoull_printed {v : Nat} {text : List Char} (fits : v < 2^64) (printed : Printed v text) :
    gAsciiStrtoull text = v := by
  rcases printed with decimal | ⟨zeros,hex,front,digits⟩
  · rw [decimal,strtoull_decimal fits]
  · rw [front,strtoull_hex fits digits]

theorem printed_nonempty {v : Nat} {text : List Char} (printed : Printed v text) : text ≠ [] := by
  rcases printed with decimal | ⟨zeros,hex,front,digits⟩
  · rw [decimal]
    exact Nat.toDigits_ne_nil
  · rw [front]
    exact List.cons_ne_nil _ _

-- No character that is not a digit stands in a printed number.
theorem printed_without {v : Nat} {text : List Char} {c : Char} (printed : Printed v text) (letter : c ≠ 'x')
    (lower : c.toLower = c) (other : ∀ d < 16,Nat.digitChar d ≠ c) : c ∉ text := by
  intro among
  rcases printed with decimal | ⟨zeros,hex,front,digits⟩
  · rw [decimal] at among
    obtain ⟨d,below,same⟩ := digit_of_mem (by decide) among
    exact other d (by omega) same.symm
  · rw [front,List.mem_cons,List.mem_cons] at among
    have zero : c ≠ '0' := Ne.symm (other 0 (by decide))
    have inside : c ∈ hex.map Char.toLower :=
      List.mem_map.mpr ⟨c,(among.resolve_left zero).resolve_left letter,lower⟩
    rw [digits,List.mem_append,List.mem_replicate] at inside
    rcases inside with zeros | inside
    · exact zero zeros.2
    · obtain ⟨d,below,same⟩ := digit_of_mem (by decide) inside
      exact other d below same.symm

end ChuwiMinibook.GLib
