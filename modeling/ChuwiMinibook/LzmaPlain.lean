import ChuwiMinibook.Lz77
import ChuwiMinibook.LzmaBits
import ChuwiMinibook.LzmaDec

namespace ChuwiMinibook.LzmaPlain
open ByteScan CodedBits LzmaSymbols LzmaBits LzmaDec
open Lz77 (extend)
open Coded (exec)

-- A decoder without a dictionary of its own, limits, pending matches or a dry run:
-- everything that was decoded, and one symbol after the other.
structure Lz where
  out : Bytes
  reps : Reps
  state : Nat

def Lz.view (prop : Props) (s : Lz) : View := ⟨prop,s.state,s.out.length,0,s.out.length,s.out.length,s.reps.rep0⟩

def Lz.copy (s : Lz) (len : Nat) : Option Lz :=
  if 0 < s.reps.rep0 ∧ s.reps.rep0 ≤ s.out.length then some {s with out := extend s.reps.rep0 len s.out} else none

def Lz.apply (prop : Props) (s : Lz) : Symbol → Option Lz
  | .literal symbol => some {s with out := s.out ++ [symbol.toUInt8],state := literalState s.state}
  | .shortRep => Lz.copy {s with state := shortRepState s.state} 1
  | .rep index len => Lz.copy {s with reps := s.reps.choose index,state := repState s.state} (len+kMatchMinLen)
  | .simple distance len =>
    if distance < s.out.length ∧ distance < prop.dicSize then
      Lz.copy {s with reps := s.reps.push (distance+1),state := matchState s.state} (len+kMatchMinLen)
    else none
  | .marker => none

-- One symbol, with the normalization behind it.
def next (prop : Props) (s : Lz) (c : Coder) : Except Halt (Symbol × Coder) :=
  match (readSymbol (s.view prop)).exec s.out learn c with
  | .error h => .error h
  | .ok (symbol,d) =>
    match normalize d with
    | .error h => .error h
    | .ok e => .ok (symbol,e)

theorem next_parts {prop : Props} {s : Lz} {c d : Coder} {symbol : Symbol} (ran : next prop s c = .ok (symbol,d)) :
    ∃ e,(readSymbol (s.view prop)).exec s.out learn c = .ok (symbol,e) ∧ normalize e = .ok d := by
  unfold next at ran
  cases read : (readSymbol (s.view prop)).exec s.out learn c with
  | error h => simp only [read] at ran; cases ran
  | ok r =>
    obtain ⟨other,e⟩ := r
    simp only [read] at ran
    cases normalized : normalize e with
    | error h => simp only [normalized] at ran; cases ran
    | ok f =>
      simp only [normalized] at ran
      cases ran
      exact ⟨e,rfl,normalized⟩

inductive Ending where
  | full | finished | short | bad
deriving DecidableEq

theorem copy_grows {s t : Lz} {len : Nat} (pos : 0 < len) (copied : s.copy len = some t) : s.out.length < t.out.length := by
  unfold Lz.copy at copied
  split at copied
  case isFalse => cases copied
  case isTrue valid =>
    cases copied
    simp only [Lz77.extend_length valid.1 valid.2]
    omega

theorem apply_grows {prop : Props} {s t : Lz} {symbol : Symbol} (applied : s.apply prop symbol = some t) :
    s.out.length < t.out.length := by
  cases symbol with
  | literal symbol =>
    cases applied
    simp only [List.length_append,List.length_singleton]
    omega
  | shortRep => exact copy_grows (s := {s with state := shortRepState s.state}) (by omega) applied
  | rep index len =>
    exact copy_grows (s := {s with reps := s.reps.choose index,state := repState s.state})
      (by simp only [kMatchMinLen]; omega) applied
  | simple distance len =>
    simp only [Lz.apply] at applied
    split at applied
    case isFalse => cases applied
    case isTrue =>
      exact copy_grows (s := {s with reps := s.reps.push (distance+1),state := matchState s.state})
        (by simp only [kMatchMinLen]; omega) applied
  | marker => cases applied

-- With the output complete only an end marker is looked for, if at all.
def atLimit (prop : Props) (limit : Nat) (finishMode : ELzmaFinishMode) (s : Lz) (c : Coder) : Lz × Coder × Ending :=
  if finishMode = .any then (s,c,.full)
  else if limit < s.out.length then (s,c,.bad)
  else if c.code = 0 then (s,c,.full)
  else
    match next prop s c with
    | .error _ => (s,c,.short)
    | .ok (.marker,d) => (s,d,.finished)
    | .ok (_,d) => (s,d,.bad)

def plain (prop : Props) (limit : Nat) (finishMode : ELzmaFinishMode) (s : Lz) (c : Coder) : Lz × Coder × Ending :=
  if limit ≤ s.out.length then atLimit prop limit finishMode s c
  else
    match next prop s c with
    | .error _ => (s,c,.short)
    | .ok (symbol,d) =>
      if symbol = .marker then (s,d,.finished)
      else
        match _applied : s.apply prop symbol with
        | none => (s,d,.bad)
        | some t => plain prop limit finishMode t d
termination_by limit-s.out.length
decreasing_by
  have grows := apply_grows _applied
  omega

section Equations
variable {prop : Props} {limit : Nat} {finishMode : ELzmaFinishMode} {s t : Lz} {c d : Coder} {symbol : Symbol} {h : Halt}

theorem plain_limit (full : limit ≤ s.out.length) : plain prop limit finishMode s c = atLimit prop limit finishMode s c := by
  rw [plain,if_pos full]

theorem plain_short (room : s.out.length < limit) (failed : next prop s c = .error h) :
    plain prop limit finishMode s c = (s,c,.short) := by
  rw [plain,if_neg (by omega),failed]

theorem plain_marker (room : s.out.length < limit) (came : next prop s c = .ok (.marker,d)) :
    plain prop limit finishMode s c = (s,d,.finished) := by
  rw [plain,if_neg (by omega),came]
  rfl

theorem plain_bad (room : s.out.length < limit) (came : next prop s c = .ok (symbol,d)) (other : symbol ≠ .marker)
    (refused : s.apply prop symbol = none) : plain prop limit finishMode s c = (s,d,.bad) := by
  rw [plain,if_neg (by omega),came]
  simp only [other,if_false]
  split
  case h_1 => rfl
  case h_2 applied => rw [refused] at applied; cases applied

theorem plain_step (room : s.out.length < limit) (came : next prop s c = .ok (symbol,d)) (other : symbol ≠ .marker)
    (applied : s.apply prop symbol = some t) : plain prop limit finishMode s c = plain prop limit finishMode t d := by
  rw [plain,if_neg (by omega),came]
  simp only [other,if_false]
  split
  case h_1 refused => rw [refused] at applied; cases applied
  case h_2 u same =>
    rw [same] at applied
    cases applied
    rfl

end Equations

def Ending.code (ending : Ending) (c : Coder) : Int :=
  match ending with
  | .full => 0
  | .finished => if c.code = 0 then 0 else szErrorData
  | .short => szErrorInputEof
  | .bad => szErrorData

def Lz.initial : Lz := ⟨[],⟨1,1,1,1⟩,0⟩

def startCoder (prop : Props) (src : Bytes) : Coder :=
  ⟨4294967295,startCode (src.take 5),List.replicate (numProbs prop) Prob.half,src.drop 5⟩

def plainDecode (dest src propData : Bytes) (finishMode : ELzmaFinishMode) : Result :=
  if src.length < rcInitSize then ⟨szErrorInputEof,dest,0⟩
  else
    match propsDecode propData with
    | none => ⟨szErrorUnsupported,dest,0⟩
    | some prop =>
      if src.head?.getD 0 ≠ 0 then ⟨szErrorData,dest,0⟩
      else
        let (s,c,ending) := plain prop dest.length finishMode Lz.initial (startCoder prop src)
        ⟨ending.code c,s.out.take dest.length ++ dest.drop s.out.length,min s.out.length dest.length⟩

end ChuwiMinibook.LzmaPlain
