import ChuwiMinibook.ByteScan
import ChuwiMinibook.LzmaSymbols

namespace ChuwiMinibook.LzmaDec
open ByteScan CodedBits LzmaSymbols

structure Reps where
  rep0 : Nat
  rep1 : Nat
  rep2 : Nat
  rep3 : Nat
deriving DecidableEq

-- The Coder is range, code, probs and what is left to read from p->buf on;
-- dicBufSize is the length of dic, tempBufSize that of tempBuf.
structure CLzmaDec extends Coder where
  prop : Props
  dic : Bytes
  dicPos : Nat
  processedPos : Nat
  checkDicSize : Nat
  reps : Reps
  state : Nat
  remainLen : Nat
  tempBuf : Bytes

def CLzmaDec.view (p : CLzmaDec) : View :=
  ⟨p.prop,p.state,p.processedPos,p.checkDicSize,p.dicPos,p.dic.length,p.reps.rep0⟩

def kMatchMinLen : Nat := 2
def kMatchSpecLenStart : Nat := 274
def rcInitSize : Nat := 5
def lzmaRequiredInputMax : Nat := 20

def szErrorData : Int := 1
def szErrorUnsupported : Int := 4
def szErrorInputEof : Int := 6
def szErrorFail : Int := 11

-- A fault is an access outside an array. After an error only the dictionary and
-- dicPos are looked at again, so *srcLen and *status are left out.
inductive Failure where
  | fault
  | failed (code : Int) (dic : Bytes) (dicPos : Nat)
deriving DecidableEq

abbrev Run := Except Failure

def dataError {α : Type} (p : CLzmaDec) : Run α := .error (.failed szErrorData p.dic p.dicPos)

-- dic[dicPos++] = byte
def put (p : CLzmaDec) (byte : UInt8) : Run CLzmaDec :=
  if p.dicPos < p.dic.length then .ok {p with dic := p.dic.set p.dicPos byte,dicPos := p.dicPos+1} else .error .fault

-- A copy inside the dictionary, whose source moves on by next.
def copyBytes (next : Nat → Nat) : Nat → Nat → Nat → Bytes → Option Bytes
  | 0,_,_,dic => some dic
  | n+1,source,dest,dic =>
    match dic[source]? with
    | none => none
    | some byte => if dest < dic.length then copyBytes next n (next source) (dest+1) (dic.set dest byte) else none

-- A source that is further back than the dictionary's start is the start, and
-- wraps only when the copy would run over the end.
def copyMatch (limit : Nat) (p : CLzmaDec) (len : Nat) : Run CLzmaDec :=
  let rem := limit-p.dicPos
  if rem = 0 then dataError p
  else
    let curLen := if rem < len then rem else len
    let pos := if p.reps.rep0 ≤ p.dicPos then p.dicPos-p.reps.rep0 else 0
    let next := if curLen ≤ p.dic.length-pos then (· + 1) else fun i => if i+1 = p.dic.length then 0 else i+1
    match copyBytes next curLen pos p.dicPos p.dic with
    | none => .error .fault
    | some dic => .ok {p with
        dic := dic,dicPos := p.dicPos+curLen,processedPos := (p.processedPos+curLen) % word,remainLen := len-curLen}

def Reps.choose (reps : Reps) : Nat → Reps
  | 0 => reps
  | 1 => ⟨reps.rep1,reps.rep0,reps.rep2,reps.rep3⟩
  | 2 => ⟨reps.rep2,reps.rep0,reps.rep1,reps.rep3⟩
  | _ => ⟨reps.rep3,reps.rep0,reps.rep1,reps.rep2⟩

def Reps.push (reps : Reps) (distance : Nat) : Reps := ⟨distance,reps.rep0,reps.rep1,reps.rep2⟩

def literalState (state : Nat) : Nat :=
  if state < 4 then 0 else if state < kNumLitStates then state-3 else if state < 10 then state-3 else state-6

def shortRepState (state : Nat) : Nat := if state < kNumLitStates then 9 else 11
def repState (state : Nat) : Nat := if state < kNumLitStates then 8 else 11
def matchState (state : Nat) : Nat := if state < kNumLitStates then kNumLitStates else kNumLitStates+3

-- What the rest of the pass does with a symbol.
def emit (limit : Nat) (p : CLzmaDec) : Symbol → Run CLzmaDec
  | .literal symbol => put {p with processedPos := (p.processedPos+1) % word,state := literalState p.state} symbol.toUInt8
  | .shortRep =>
    match peek p.dic (matchedByte p.view) with
    | none => .error .fault
    | some byte => put {p with processedPos := (p.processedPos+1) % word,state := shortRepState p.state} byte
  | .rep index len => copyMatch limit {p with reps := p.reps.choose index,state := repState p.state} (len+kMatchMinLen)
  | .simple distance len =>
    let q := {p with reps := p.reps.push (distance+1),state := matchState p.state}
    if (if p.checkDicSize = 0 then p.processedPos else p.checkDicSize) ≤ distance then dataError q
    else copyMatch limit q (len+kMatchMinLen)
  | .marker => .ok {p with remainLen := kMatchSpecLenStart}

-- The loop of LzmaDec_DecodeReal_3. bufLimit lies so many bytes before the end of
-- the input; a pass writes or ends, so the passes are counted by what may be written.
def realLoop (limit reserve : Nat) : Nat → CLzmaDec → Run CLzmaDec
  | 0,_ => .error .fault
  | fuel+1,p =>
    match (readSymbol p.view).exec p.dic learn p.toCoder with
    | .error _ => .error .fault
    | .ok (symbol,c) =>
      match emit limit {p with toCoder := c} symbol with
      | .error f => .error f
      | .ok q =>
        if symbol ≠ .marker ∧ q.dicPos < limit ∧ reserve < q.input.length then realLoop limit reserve fuel q else .ok q

def decodeReal3 (p : CLzmaDec) (limit reserve : Nat) : Run CLzmaDec :=
  match realLoop limit reserve (limit-p.dicPos+1) {p with remainLen := 0} with
  | .error f => .error f
  | .ok q =>
    match normalize q.toCoder with
    | .error _ => .error .fault
    | .ok c => .ok {q with toCoder := c}

def writeBytes : Nat → CLzmaDec → Run CLzmaDec
  | 0,p => .ok p
  | n+1,p =>
    match peek p.dic (matchedByte p.view) with
    | none => .error .fault
    | some byte =>
      match put p byte with
      | .error f => .error f
      | .ok q => writeBytes n q

-- A difference of two UInt32.
def left32 (p : CLzmaDec) : Nat := (p.prop.dicSize+word-p.processedPos) % word

def writeRem (p : CLzmaDec) (limit : Nat) : Run CLzmaDec :=
  if p.remainLen ≠ 0 ∧ p.remainLen < kMatchSpecLenStart then
    let len := if limit-p.dicPos < p.remainLen then limit-p.dicPos else p.remainLen
    let checkDicSize := if p.checkDicSize = 0 ∧ left32 p ≤ len then p.prop.dicSize else p.checkDicSize
    writeBytes len {p with
      checkDicSize := checkDicSize,processedPos := (p.processedPos+len) % word,remainLen := p.remainLen-len}
  else .ok p

def kBadRepCode : Nat := 3221224448

-- The end of the output, or of the first dictionary's worth of it.
def limit2 (p : CLzmaDec) (limit : Nat) : Nat :=
  if p.checkDicSize = 0 ∧ left32 p < limit-p.dicPos then p.dicPos+left32 p else limit

def checked (p : CLzmaDec) : CLzmaDec :=
  {p with checkDicSize := if p.checkDicSize = 0 ∧ p.prop.dicSize ≤ p.processedPos then p.prop.dicSize else p.checkDicSize}

def real2Loop (limit reserve : Nat) : Nat → CLzmaDec → Run CLzmaDec
  | 0,_ => .error .fault
  | fuel+1,p =>
    if p.checkDicSize = 0 ∧ p.processedPos = 0 ∧ kBadRepCode ≤ p.code then dataError p
    else
      match decodeReal3 p (limit2 p limit) reserve with
      | .error f => .error f
      | .ok q =>
        match writeRem (checked q) limit with
        | .error f => .error f
        | .ok r =>
          if r.dicPos < limit ∧ reserve < r.input.length ∧ r.remainLen < kMatchSpecLenStart then real2Loop limit reserve fuel r
          else .ok r

def decodeReal2 (p : CLzmaDec) (limit reserve : Nat) : Run CLzmaDec := real2Loop limit reserve (limit-p.dicPos+1) p

def tryDummy (p : CLzmaDec) (buf : Bytes) : Run ELzmaDummy :=
  match (dummySymbol p.view).exec p.dic keep {p.toCoder with input := buf} with
  | .error .outside => .error .fault
  | .error .starved => .ok .error
  | .ok (kind,c) =>
    match normalize c with
    | .error _ => .ok .error
    | .ok _ => .ok kind

inductive ELzmaFinishMode where
  | any | «end»
deriving DecidableEq

inductive ELzmaStatus where
  | finishedWithMark | notFinished | needsMoreInput | maybeFinishedWithoutMark
deriving DecidableEq

structure Decoded where
  p : CLzmaDec
  srcLen : Nat
  status : ELzmaStatus

def initDicAndState (p : CLzmaDec) (initDic initState : Bool) : CLzmaDec :=
  {p with
    tempBuf := []
    processedPos := if initDic then 0 else p.processedPos
    checkDicSize := if initDic then 0 else p.checkDicSize
    remainLen := if initDic || initState then kMatchSpecLenStart+2 else kMatchSpecLenStart+1}

-- The four bytes behind the first of tempBuf.
def startCode (tempBuf : Bytes) : Nat :=
  ((tempBuf.drop 1).take 4).foldl (fun code byte => code*256+byte.toNat) 0

-- The range coder, and the state if that is asked for, from a full tempBuf.
def startUp (p : CLzmaDec) : CLzmaDec :=
  let q := {p with code := startCode p.tempBuf,range := 4294967295,tempBuf := [],remainLen := 0}
  if p.remainLen > kMatchSpecLenStart+1 then
    {q with probs := List.replicate (numProbs p.prop) Prob.half,reps := ⟨1,1,1,1⟩,state := 0}
  else q

-- One round from src, or from tempBuf with bytes of src behind it: the decoder and
-- what of src is left. Reading past tempBuf is taken as a fault, so the source's
-- first test for an internal error has nothing to find.
def oneRound (p : CLzmaDec) (dicLimit : Nat) (src : Bytes) (checkEndMarkNow : Bool) : Run (Option (CLzmaDec × Bytes)) :=
  if p.tempBuf = [] then
    if src.length < lzmaRequiredInputMax ∨ checkEndMarkNow then
      match tryDummy p src with
      | .error f => .error f
      | .ok .error => .ok none
      | .ok kind =>
        if checkEndMarkNow ∧ kind ≠ .match then dataError p
        else
          match decodeReal2 {p with input := src} dicLimit src.length with
          | .error f => .error f
          | .ok q => .ok (some (q,q.input))
    else
      match decodeReal2 {p with input := src} dicLimit lzmaRequiredInputMax with
      | .error f => .error f
      | .ok q => .ok (some (q,q.input))
  else
    let lookAhead := min (lzmaRequiredInputMax-p.tempBuf.length) src.length
    let tempBuf := p.tempBuf ++ src.take lookAhead
    if lzmaRequiredInputMax < tempBuf.length then .error .fault
    else
      let dummy := if tempBuf.length < lzmaRequiredInputMax ∨ checkEndMarkNow then tryDummy p tempBuf else .ok .match
      match dummy with
      | .error f => .error f
      | .ok .error => .ok none
      | .ok kind =>
        if checkEndMarkNow ∧ kind ≠ .match then dataError p
        else
          match decodeReal2 {p with input := tempBuf} dicLimit tempBuf.length with
          | .error f => .error f
          | .ok q =>
            if lookAhead < q.input.length then .error (.failed szErrorFail q.dic q.dicPos)
            else .ok (some ({q with tempBuf := []},src.drop (lookAhead-q.input.length)))

-- What is kept when the input ends within a symbol, in the LZMA_REQUIRED_INPUT_MAX bytes of tempBuf.
def keepInput (p : CLzmaDec) (src : Bytes) : Run CLzmaDec :=
  let tempBuf := p.tempBuf ++ (if p.tempBuf = [] then src else src.take (lzmaRequiredInputMax-p.tempBuf.length))
  if lzmaRequiredInputMax < tempBuf.length then .error .fault else .ok {p with tempBuf := tempBuf}

def mainLoop (dicLimit : Nat) (finishMode : ELzmaFinishMode) : Nat → CLzmaDec → Bytes → Nat → Run Decoded
  | 0,_,_,_ => .error .fault
  | fuel+1,p,src,srcLen =>
    if p.remainLen = kMatchSpecLenStart then
      if p.code ≠ 0 then dataError p else .ok ⟨p,srcLen,.finishedWithMark⟩
    else if dicLimit ≤ p.dicPos ∧ p.remainLen = 0 ∧ p.code = 0 then .ok ⟨p,srcLen,.maybeFinishedWithoutMark⟩
    else if dicLimit ≤ p.dicPos ∧ finishMode = .any then .ok ⟨p,srcLen,.notFinished⟩
    else if dicLimit ≤ p.dicPos ∧ p.remainLen ≠ 0 then dataError p
    else
      match oneRound p dicLimit src (decide (dicLimit ≤ p.dicPos)) with
      | .error f => .error f
      | .ok none =>
        match keepInput p src with
        | .error f => .error f
        | .ok q => .ok ⟨q,srcLen+(q.tempBuf.length-p.tempBuf.length),.needsMoreInput⟩
      | .ok (some (q,rest)) => mainLoop dicLimit finishMode fuel q rest (srcLen+(src.length-rest.length))

def decodeToDic (p : CLzmaDec) (dicLimit : Nat) (src : Bytes) (finishMode : ELzmaFinishMode) : Run Decoded :=
  if p.remainLen > kMatchSpecLenStart then
    let taken := min (rcInitSize-p.tempBuf.length) src.length
    let q := {p with tempBuf := p.tempBuf ++ src.take taken}
    if q.tempBuf.head?.getD 0 ≠ 0 then dataError q
    else if q.tempBuf.length < rcInitSize then .ok ⟨q,taken,.needsMoreInput⟩
    else
      match writeRem (startUp q) dicLimit with
      | .error f => .error f
      | .ok q => mainLoop dicLimit finishMode (dicLimit-q.dicPos+2) q (src.drop taken) taken
  else
    match writeRem p dicLimit with
    | .error f => .error f
    | .ok q => mainLoop dicLimit finishMode (dicLimit-q.dicPos+2) q src 0

theorem dicSize_lt {bytes : Bytes} (length : bytes.length = 4) : max 4096 (little bytes) < word := by
  obtain ⟨a,b,c,d,rfl⟩ := List.length_eq_four.mp length
  have la := a.toNat_lt
  have lb := b.toNat_lt
  have lc := c.toNat_lt
  have ld := d.toNat_lt
  simp only [little,word]
  omega

theorem propsByte_bounds (d : Nat) (h : d < 225) : d % 9 ≤ 8 ∧ d/9 % 5 ≤ 4 ∧ d/9/5 ≤ 4 := by omega

theorem take_four {data : Bytes} (size : 5 ≤ data.length) : ((data.drop 1).take 4).length = 4 := by
  rw [List.length_take,List.length_drop]
  omega

def propsDecode (data : Bytes) : Option Props :=
  if size : 5 ≤ data.length then
    let d := (data.head?.getD 0).toNat
    if h : d < 225 then
      some ⟨d % 9,d/9 % 5,d/9/5,max 4096 (little ((data.drop 1).take 4)),(propsByte_bounds d h).1,(propsByte_bounds d h).2.1,
        (propsByte_bounds d h).2.2,le_max_left _ _,dicSize_lt (take_four size)⟩
    else none
  else none

structure Result where
  code : Int
  dest : Bytes
  destLen : Nat
deriving DecidableEq

-- LzmaDec_Construct, LzmaDec_AllocateProbs and LzmaDec_Init: probs are written before they are read.
def fresh (prop : Props) (dest : Bytes) : CLzmaDec :=
  initDicAndState ⟨⟨0,0,[],[]⟩,prop,dest,0,0,0,⟨0,0,0,0⟩,0,0,[]⟩ true true

-- LzmaDecode, but for an allocation that fails; none is a fault.
def lzmaDecode (dest src propData : Bytes) (finishMode : ELzmaFinishMode) : Option Result :=
  if src.length < rcInitSize then some ⟨szErrorInputEof,dest,0⟩
  else
    match propsDecode propData with
    | none => some ⟨szErrorUnsupported,dest,0⟩
    | some prop =>
      match decodeToDic (fresh prop dest) dest.length src finishMode with
      | .error .fault => none
      | .error (.failed code dic dicPos) => some ⟨code,dic,dicPos⟩
      | .ok d => some ⟨if d.status = .needsMoreInput then szErrorInputEof else 0,d.p.dic,d.p.dicPos⟩

end ChuwiMinibook.LzmaDec
