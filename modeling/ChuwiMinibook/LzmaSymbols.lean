import ChuwiMinibook.CodedBits
import Mathlib.Data.Nat.Bitwise

namespace ChuwiMinibook.LzmaSymbols
open CodedBits
open Coded

-- Offsets into p->probs, so each stands kStartOffset above the one into probs_1664.
def lenLow : Nat := 0
def lenHigh : Nat := 256
def kNumLenProbs : Nat := lenHigh+256
def lenChoice : Nat := lenLow
def lenChoice2 : Nat := lenLow+8
def kNumStates : Nat := 12
def kNumLitStates : Nat := 7

def specPos : Nat := 0
def isRep0Long : Nat := specPos+128
def repLenCoder : Nat := isRep0Long+256
def lenCoder : Nat := repLenCoder+kNumLenProbs
def isMatch : Nat := lenCoder+kNumLenProbs
def align : Nat := isMatch+256
def isRep : Nat := align+16
def isRepG0 : Nat := isRep+kNumStates
def isRepG1 : Nat := isRepG0+kNumStates
def isRepG2 : Nat := isRepG1+kNumStates
def posSlot : Nat := isRepG2+kNumStates
def literal : Nat := posSlot+256

-- The layout in numbers; literal is the one that the source checks itself.
theorem lenTable : lenLow = 0 ∧ lenHigh = 256 ∧ kNumLenProbs = 512 ∧ lenChoice = 0 ∧ lenChoice2 = 8 := by decide

theorem layout : specPos = 0 ∧ isRep0Long = 128 ∧ repLenCoder = 384 ∧ lenCoder = 896 ∧ isMatch = 1408 ∧ align = 1664 ∧
    isRep = 1680 ∧ isRepG0 = 1692 ∧ isRepG1 = 1704 ∧ isRepG2 = 1716 ∧ posSlot = 1728 ∧ literal = 1984 := by decide

-- LzmaProps_Decode lets no other values through.
structure Props where
  lc : Nat
  lp : Nat
  pb : Nat
  dicSize : Nat
  lc_le : lc ≤ 8
  lp_le : lp ≤ 4
  pb_le : pb ≤ 4
  dicSize_ge : 4096 ≤ dicSize
  dicSize_lt : dicSize < word

def numProbs (prop : Props) : Nat := literal+768*2^(prop.lc+prop.lp)

-- The fields of CLzmaDec that the bits of a symbol are read by.
structure View where
  prop : Props
  state : Nat
  processedPos : Nat
  checkDicSize : Nat
  dicPos : Nat
  dicBufSize : Nat
  rep0 : Nat

def posState (v : View) : Nat := v.processedPos % 2^v.prop.pb*16

-- TREE_GET_BIT so many times
def treeBits (base : Nat) : Nat → Nat → Coded Nat
  | 0,i => .done i
  | n+1,i => .bit (base+i) fun b => treeBits base n (i+i+b.toNat)

-- TREE_DECODE, whose limit is 2^n
def treeDecode (base n : Nat) : Coded Nat := do
  let i ← treeBits base n 1
  return i-2^n

-- MATCHED_LITER_DEC so many times
def matchedBits (prob : Nat) : Nat → Nat → Nat → Nat → Coded Nat
  | 0,_,_,symbol => .done symbol
  | n+1,matchByte,offs,symbol =>
    .bit (prob+((offs &&& (matchByte+matchByte))+offs+symbol)) fun b =>
      if b then matchedBits prob n (matchByte+matchByte) (offs &&& (matchByte+matchByte)) (symbol+symbol+1)
      else matchedBits prob n (matchByte+matchByte) ((offs &&& (matchByte+matchByte)) ^^^ offs) (symbol+symbol)

-- REV_BIT_VAR so many times
def revBits (base : Nat) : Nat → Nat → Nat → Coded Nat
  | 0,i,m => .done (i-m)
  | n+1,i,m => .bit (base+i) fun b => if b then revBits base n (i+(m+m)) (m+m) else revBits base n (i+m) (m+m)

def directBits : Nat → Nat → Coded Nat
  | 0,distance => .done distance
  | n+1,distance => .direct fun b => directBits n (distance*2+b.toNat)

-- Three times REV_BIT_CONST and once REV_BIT_LAST
def alignBits : Coded Nat :=
  .bit (align+1) fun b =>
  let i := if b then 1+2 else 1+1
  .bit (align+i) fun b =>
  let i := if b then i+4 else i+2
  .bit (align+i) fun b =>
  let i := if b then i+8 else i+4
  .bit (align+i) fun b =>
  .done (if b then i else i-8)

theorem byte_values : 2^8 = 256 := rfl

-- The unrolled four bits are the loop's.
theorem alignBits_eq : alignBits = revBits align 4 1 1 := by
  unfold alignBits
  simp only [revBits]
  congr 1
  funext b
  cases b <;> congr 1 <;> funext b <;> cases b <;> congr 1 <;> funext b <;> cases b <;> congr 1 <;> funext b <;> cases b <;> rfl

def previousByte (v : View) : Int := (if v.dicPos = 0 then v.dicBufSize else v.dicPos)-1

def matchedByte (v : View) : Int := v.dicPos-v.rep0+(if v.dicPos < v.rep0 then v.dicBufSize else 0)

def lpMask (prop : Props) : Nat := (256 <<< prop.lp)-(256 >>> prop.lc)

-- 3 * ((((processedPos << 8) + byte) & lpMask) << lc)
def literalOffset (v : View) (byte : UInt8) : Nat :=
  3*(((v.processedPos*256+byte.toNat) % word &&& lpMask v.prop) <<< v.prop.lc)

inductive Symbol where
  | literal (symbol : Nat)
  | shortRep
  | rep (index len : Nat)
  | simple (distance len : Nat)
  | marker
deriving DecidableEq

def literalProb (v : View) (offset : UInt8 → Nat) : Coded Nat :=
  if v.processedPos ≠ 0 ∨ v.checkDicSize ≠ 0 then .load (previousByte v) fun byte => .done (literal+offset byte)
  else .done literal

def literalBits (v : View) (prob : Nat) : Coded Nat :=
  if v.state < kNumLitStates then treeBits prob 8 1
  else .load (matchedByte v) fun byte => matchedBits prob 8 byte.toNat 256 1

def readLiteral (v : View) : Coded Symbol := do
  let prob ← literalProb v (literalOffset v)
  let symbol ← literalBits v prob
  return .literal symbol

-- The second range of lengths starts where its tree does, at 8.
def lenBits (prob posState : Nat) : Coded Nat := do
  let choice ← aBit (prob+lenChoice)
  if choice then
    let choice ← aBit (prob+lenChoice2)
    if choice then
      let len ← treeDecode (prob+lenHigh) 8
      return len+16
    else treeBits (prob+lenLow+posState+8) 3 1
  else
    let len ← treeBits (prob+lenLow+posState) 3 1
    return len-8

def readDistance (len : Nat) : Coded Symbol := do
  let slot ← treeDecode (posSlot+(if len < 4 then len else 3)*64) 6
  if slot < 4 then return .simple slot len
  else
    let numDirectBits := slot/2-1
    let distance := 2+slot % 2
    if slot < 14 then
      let distance ← revBits specPos numDirectBits (distance*2^numDirectBits+1) 1
      return .simple distance len
    else
      let distance ← directBits (numDirectBits-4) distance
      let i ← alignBits
      if distance*16+i = 4294967295 then return .marker
      else return .simple (distance*16+i) len

def readRep (v : View) : Coded Symbol := do
  let g0 ← aBit (isRepG0+v.state)
  if g0 then
    let g1 ← aBit (isRepG1+v.state)
    if g1 then
      let g2 ← aBit (isRepG2+v.state)
      let len ← lenBits repLenCoder (posState v)
      return .rep (if g2 then 3 else 2) len
    else
      let len ← lenBits repLenCoder (posState v)
      return .rep 1 len
  else
    let long ← aBit (isRep0Long+posState v+v.state)
    if long then
      let len ← lenBits repLenCoder (posState v)
      return .rep 0 len
    else return .shortRep

-- The bits that one pass of the loop of LzmaDec_DecodeReal_3 reads.
def readSymbol (v : View) : Coded Symbol := do
  let found ← aBit (isMatch+posState v+v.state)
  if found then
    let again ← aBit (isRep+v.state)
    if again then readRep v
    else
      let len ← lenBits lenCoder (posState v)
      readDistance len
  else readLiteral v

inductive ELzmaDummy where
  | error | lit | «match» | rep
deriving DecidableEq

-- LzmaDec_TryDummy has its own formulas for three places.
def dummyOffset (v : View) (byte : UInt8) : Nat :=
  768*((v.processedPos % 2^v.prop.lp) <<< v.prop.lc+byte.toNat >>> (8-v.prop.lc))

def dummyLen (prob posState : Nat) : Coded Nat := do
  let choice ← aBit (prob+lenChoice)
  if choice then
    let choice ← aBit (prob+lenChoice2)
    if choice then
      let len ← treeDecode (prob+lenHigh) 8
      return len+16
    else
      let len ← treeDecode (prob+lenLow+posState+8) 3
      return len+8
  else
    let len ← treeDecode (prob+lenLow+posState) 3
    return len+0

def dummyDistance (len : Nat) : Coded Unit := do
  let slot ← treeDecode (posSlot+(if len < 3 then len else 3)*64) 6
  if slot < 4 then return ()
  else
    let numDirectBits := slot/2-1
    if slot < 14 then
      let _ ← revBits (specPos+(2+slot % 2)*2^numDirectBits) numDirectBits 1 1
      return ()
    else
      let _ ← directBits (numDirectBits-4) 0
      let _ ← revBits align 4 1 1
      return ()

def dummyRep (v : View) : Coded ELzmaDummy := do
  let g0 ← aBit (isRepG0+v.state)
  if g0 then
    let g1 ← aBit (isRepG1+v.state)
    if g1 then
      let _ ← aBit (isRepG2+v.state)
      let _ ← dummyLen repLenCoder (posState v)
      return .rep
    else
      let _ ← dummyLen repLenCoder (posState v)
      return .rep
  else
    let long ← aBit (isRep0Long+posState v+v.state)
    if long then
      let _ ← dummyLen repLenCoder (posState v)
      return .rep
    else return .rep

def dummySymbol (v : View) : Coded ELzmaDummy := do
  let found ← aBit (isMatch+posState v+v.state)
  if found then
    let again ← aBit (isRep+v.state)
    if again then dummyRep v
    else
      let len ← dummyLen lenCoder (posState v)
      dummyDistance len
      return .match
  else
    let prob ← literalProb v (dummyOffset v)
    let _ ← literalBits v prob
    return .lit

def Symbol.kind : Symbol → ELzmaDummy
  | .literal _ => .lit
  | .shortRep => .rep
  | .rep _ _ => .rep
  | .simple _ _ => .match
  | .marker => .match

end ChuwiMinibook.LzmaSymbols
