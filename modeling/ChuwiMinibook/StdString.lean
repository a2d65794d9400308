import Mathlib.Data.List.Basic

namespace ChuwiMinibook.StdString

-- The library functions on strings that the program calls, by their documented
-- behaviour.
def startsWith (s front : String) : Bool := front.toList.isPrefixOf s.toList

-- find_last_of and the substring behind it; the whole string without a match.
def afterLast (c : Char) (s : String) : String :=
  String.ofList (s.toList.reverse.takeWhile (· ≠ c)).reverse

def popBackAll (c : Char) (s : String) : String :=
  String.ofList (s.toList.reverse.dropWhile (· = c)).reverse

def contains (s part : String) : Bool := s.toList.tails.any (part.toList.isPrefixOf ·)

def strncasecmp (s t : String) (n : Nat) : Bool :=
  decide ((s.toList.take n).map Char.toLower = (t.toList.take n).map Char.toLower)

def isSpace (c : Char) : Bool := c = ' ' || decide (9 ≤ c.toNat ∧ c.toNat ≤ 13)

def digits (s : List Char) : Nat := s.foldl (fun n c => 10*n + (c.toNat - 48)) 0

-- An optional sign and at least one digit behind leading blanks.
def decimal (s : String) : Option Int :=
  let s := s.toList.dropWhile isSpace
  let (negative,s) := match s with
    | '-'::rest => (true,rest)
    | '+'::rest => (false,rest)
    | _ => (false,s)
  let number := s.takeWhile Char.isDigit
  if number.isEmpty then none
  else some (if negative then -(digits number : Int) else digits number)

-- std::stoi: none is one of its exceptions.
def stoi (s : String) : Option Int :=
  (decimal s).bind (fun n => if -2147483648 ≤ n ∧ n ≤ 2147483647 then some n else none)

-- operator>> into an int: 0 without a number, the nearest limit out of range.
def streamInt (s : String) : Int :=
  match decimal s with
  | none => 0
  | some n => max (-2147483648) (min n 2147483647)

-- The number at the front of a string: 0 without one.
def leadingNumber (s : String) : Int := (decimal s).getD 0

-- atoi is strtol, which stops at the limits of a long, and a cast to int.
def longToInt (n : Int) : Int := (BitVec.ofInt 32 (max (-9223372036854775808) (min n 9223372036854775807))).toInt

def atoi (s : String) : Int := longToInt (leadingNumber s)

example : stoi " 15000mW" = some 15000 ∧ stoi "MAX" = none ∧ stoi "99999999999" = none ∧ atoi "4294967297" = 1 := by decide

example : popBackAll '_' (afterLast '.' "\\_SB_.PC00.SEN3__") = "SEN3" := by decide

end ChuwiMinibook.StdString
