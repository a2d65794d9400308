import ChuwiMinibook.ByteScan
import ChuwiMinibook.Gddv
import ChuwiMinibook.TripPoint

namespace ChuwiMinibook

structure CustomCondition where
  condition : Nat
  name : String
  participant : String
  domain : Int
  type : Int
deriving DecidableEq

structure Ppcc where
  name : String
  powerLimitMin : Int
  powerLimitMax : Int
  timeWindMin : Int
  timeWindMax : Int
  stepSize : Int
  limit1Valid : Bool
  powerLimit1Min : Int
  powerLimit1Max : Int
  timeWind1Min : Int
  timeWind1Max : Int
  step1Size : Int
deriving DecidableEq

structure VaultTrip where
  name : String
  typeStr : String
  type : TripPointType
  temp : Int
deriving DecidableEq

structure VsctEntry where
  target : String
  domainType : Int
  coeffType : Int
  coeff : Int
  operation : Int
  alpha : Int
  triggerPoint : Int
deriving DecidableEq

structure VsptEntry where
  virtualTemp : Int
  samplePeriod : Int
deriving DecidableEq

-- The members of cthd_gddv that the parser fills.
structure Vault extends Gddv where
  customConditions : List CustomCondition
  ppccs : List Ppcc
  trippoints : List VaultTrip
  vsctsName : String
  vscts : List VsctEntry
  vspts : List VsptEntry
deriving DecidableEq

-- cthd_gddv before it has parsed anything.
def Vault.new : Vault := ⟨⟨[],[],[],[],[],[],[],-1⟩,[],[],[],"",[],[]⟩

namespace GddvTables
open ByteScan Scan

abbrev Parse := Scan Vault

def toText (b : Bytes) : String := String.ofList (b.map (fun c => Char.ofNat c.toNat))

def toTime (n : Nat) : Int := (n : Int).bmod 18446744073709551616

def getType : Parse Nat := do
  let offset ← position
  word offset 4

-- The offset is an int; every addition to it wraps as one.
def getUint64 : Parse Nat := do
  let offset ← position
  let type ← word offset 4
  if type ≠ 4 then .throw
  else
    moveTo (toInt (offset+4))
    let offset ← position
    let value ← word offset 8
    moveTo (toInt (offset+8))
    return value

-- get_string returns a pointer; a std::string made of it is read separately.
def getString : Parse Int := do
  let offset ← position
  let type ← word offset 4
  if type ≠ 8 then .throw
  else
    moveTo (toInt (offset+4))
    let offset ← position
    let length ← word offset 8
    moveTo (toInt (offset+8))
    let value ← position
    moveTo (toInt (value+length))
    return value

def getText : Parse String := do
  let value ← getString
  let content ← cString value
  return toText content

def getInt : Parse Int := do
  let value ← getUint64
  return toInt value

def skip (n : Int) : Parse Unit := do
  let offset ← position
  moveTo (toInt (offset+n))

def appcRecord (_ : Unit) : Parse Unit := do
  let condition ← getUint64
  let name ← getText
  let participant ← getText
  let domain ← getInt
  let type ← getInt
  write (fun g => {g with
    customConditions := g.customConditions ++ [⟨condition % 4294967296,name,participant,domain,type⟩]})

-- "Invalid APPC tables aren't fatal"
def parseAppc (fuel : Nat) (len : Int) : Parse Unit := do
  let first ← word 0 1
  if first ≠ 4 then return ()
  else
    let version ← getUint64
    if version ≠ 1 then return ()
    else whileBelow len appcRecord fuel ()

-- PBAT and APAT hold the same records.
def targetRecord (keep : Nat → String → String → Nat → String → String → Vault → Vault) (_ : Unit) : Parse Unit := do
  let targetId ← getUint64
  let name ← getText
  let participant ← getText
  let domain ← getUint64
  let code ← getText
  let argument ← getText
  write (keep targetId name participant domain code argument)

def keepPbat (targetId : Nat) (name participant : String) (domain : Nat) (code argument : String) (g : Vault) : Vault :=
  {g with pbats := g.pbats ++ [⟨targetId,name,participant,domain,code,argument⟩]}

def keepTarget (targetId : Nat) (name participant : String) (domain : Nat) (code argument : String) (g : Vault) :
    Vault := {g with targets := g.targets ++ [⟨targetId,name,participant,domain,code,argument⟩]}

def parsePbat (fuel : Nat) (len : Int) : Parse Unit := do
  let version ← getUint64
  if version ≠ 1 ∧ version ≠ 2 then .throw
  else whileBelow len (targetRecord keepPbat) fuel ()

def parseApat (fuel : Nat) (len : Int) : Parse Unit := do
  let version ← getUint64
  if version ≠ 2 then .throw
  else whileBelow len (targetRecord keepTarget) fuel ()

def operationFor : Nat := 2

-- The casts of a slot's numbers to the types of struct condition.
def slot (target : Int) (condition : Nat) (device : String) (comparison argument operation timeComparison time : Nat) :
    Condition :=
  ⟨condition % 4294967296,device,comparison % 256,toInt argument,operation % 256,timeComparison % 256,toTime time,
    target,0⟩

-- The slots of one condition set in version 1, from the number of slots left; a
-- FOR operator takes the next slot as its time part.
def slots1 (len target : Int) : Nat → List Condition → Parse (List Condition)
  | 0,set => return set
  | left+1,set => do
    let offset ← position
    if offset ≥ len then .throw
    else
      let condition ← getUint64
      let comparison ← getUint64
      let argument ← getUint64
      match left with
      | 0 => return set ++ [slot target condition "" comparison argument 0 0 0]
      | rest+1 =>
        let operation ← getUint64
        if operation % 256 = operationFor then
          skip 12
          let timeComparison ← getUint64
          let time ← getUint64
          skip 12
          slots1 len target rest (set ++ [slot target condition "" comparison argument operation timeComparison time])
        else
          slots1 len target (rest+1) (set ++ [slot target condition "" comparison argument operation 0 0])

-- In version 2 a slot names its device; reserved and timePart are what APCT and
-- PBCT read differently.
def slots2 (len target : Int) (reserved : Parse Unit) (timePart : Parse (Nat × Nat)) :
    Nat → List Condition → Parse (List Condition)
  | 0,set => return set
  | left+1,set => do
    let offset ← position
    if offset ≥ len then .throw
    else
      let condition ← getUint64
      let device ← getText
      reserved
      let comparison ← getUint64
      let argument ← getUint64
      match left with
      | 0 => return set ++ [slot target condition device comparison argument 0 0 0]
      | rest+1 =>
        let operation ← getUint64
        if operation % 256 = operationFor then
          let (timeComparison,time) ← timePart
          slots2 len target reserved timePart rest
            (set ++ [slot target condition device comparison argument operation timeComparison time])
        else
          slots2 len target reserved timePart (rest+1)
            (set ++ [slot target condition device comparison argument operation 0 0])

def apctReserved : Parse Unit := skip 12

def apctTimePart : Parse (Nat × Nat) := do
  skip 12
  let _ ← getString
  skip 12
  let timeComparison ← getUint64
  let time ← getUint64
  skip 12
  return (timeComparison,time)

def pbctReserved : Parse Unit := do
  let _ ← getUint64
  return ()

def pbctTimePart : Parse (Nat × Nat) := do
  let _ ← getUint64
  let timeComparison ← getUint64
  let time ← getUint64
  let _ ← getUint64
  return (timeComparison,time)

def apctRecord1 (len : Int) (_ : Unit) : Parse Unit := do
  let target ← getUint64
  if toInt target = -1 then .throw
  else
    let set ← slots1 len (toInt target) 10 []
    write (fun g => {g with conditions := g.conditions ++ [set]})

def apctRecord2 (len : Int) (_ : Unit) : Parse Unit := do
  let target ← getUint64
  if toInt target = -1 then .throw
  else
    let count ← getUint64
    let set ← slots2 len (toInt target) apctReserved apctTimePart (toInt count).toNat []
    write (fun g => {g with conditions := g.conditions ++ [set]})

def parseApct (fuel : Nat) (len : Int) : Parse Unit := do
  let version ← getUint64
  if version = 1 then whileBelow len (apctRecord1 len) fuel ()
  else if version = 2 then whileBelow len (apctRecord2 len) fuel ()
  else .throw

def uint64Max : Nat := 18446744073709551615

def pbctRecord1 (len : Int) (_ : Unit) : Parse Unit := do
  let target ← getUint64
  if target = uint64Max then .throw
  else
    let set ← slots1 len (toInt target) 10 []
    write (fun g => {g with pbcts := g.pbcts ++ [⟨target,set⟩]})

def pbctRecord2 (len : Int) (_ : Unit) : Parse Unit := do
  let target ← getUint64
  if target = uint64Max then .throw
  else
    let count ← getUint64
    let set ← slots2 len (toInt target) pbctReserved pbctTimePart (toInt count).toNat []
    write (fun g => {g with pbcts := g.pbcts ++ [⟨target,set⟩]})

def parsePbct (fuel : Nat) (len : Int) : Parse Unit := do
  let version ← getUint64
  if version = 1 then whileBelow len (pbctRecord1 len) fuel ()
  else if version = 2 then whileBelow len (pbctRecord2 len) fuel ()
  else .throw

-- A limit is a text or a number.
def psvLimit : Parse String := do
  let type ← getType
  if type = 8 then getText
  else
    let value ← getUint64
    return toString value

def psvtRecord (psvs : List Psv) : Parse (List Psv) := do
  let source ← getText
  let target ← getText
  let priority ← getInt
  let samplePeriod ← getInt
  let temp ← getInt
  let domain ← getInt
  let controlKnob ← getInt
  let limit ← psvLimit
  let stepSize ← getInt
  let limitCoeff ← getInt
  let unlimitCoeff ← getInt
  skip 12
  return psvs ++ [⟨source,target,priority,samplePeriod,temp,domain,controlKnob,limit,stepSize,limitCoeff,unlimitCoeff⟩]

def parsePsvt (fuel : Nat) (name : Option Bytes) (len : Int) : Parse Unit := do
  let version ← getInt
  if version > 2 then .throw
  else
    let psvs ← whileBelow len psvtRecord fuel []
    write (fun g => {g with psvts := g.psvts ++ [⟨(name.map toText).getD "Default",psvs⟩]})

-- struct itmt3: texts of 64 bytes at 0, 80 and 144, the temperature at 64, 296
-- bytes in all behind a header of 12. A rest shorter than an entry drops the
-- table.
def itmt3Entries (len : Int) : Nat → List ItmtEntry → Parse (Option (List ItmtEntry))
  | 0,_ => .hang
  | fuel+1,entries => do
    let offset ← position
    if offset < len then
      if len-offset < 296 then return none
      else
        let target ← cString offset
        let temp ← word (offset+64) 8
        let pl1Min ← cString (offset+80)
        let pl1Max ← cString (offset+144)
        moveTo (offset+296)
        itmt3Entries len fuel (entries ++ [⟨toText target,toInt temp,toText pl1Min,toText pl1Max⟩])
    else return some entries

-- The length is unsigned here.
def parseItmt3 (fuel : Nat) (name : Option Bytes) (len : Int) : Parse Unit := do
  let len := len % 4294967296
  if len < 12 then return ()
  else
    moveTo 12
    if len-12 < 296 then return ()
    else
      let entries ← itmt3Entries len fuel []
      match entries with
      | none => return ()
      | some entries =>
        write (fun g => {g with itmts := g.itmts ++ [⟨3,(name.map toText).getD "Default",entries⟩]})

def vsptRecord (_ : Unit) : Parse Unit := do
  let virtualTemp ← getInt
  let samplePeriod ← getUint64
  write (fun g => {g with
    vspts := g.vspts ++ [⟨Gddv.deciKelvinToCelsius virtualTemp,toInt (samplePeriod/10 : Nat)⟩]})

def parseVspt (fuel : Nat) (len : Int) : Parse Unit := do
  let version ← getInt
  if version > 1 then return ()
  else whileBelow len vsptRecord fuel ()

def vsctRecord (_ : Unit) : Parse Unit := do
  let target ← getText
  let domainType ← getInt
  let coeffType ← getInt
  let coeff ← getInt
  let operation ← getInt
  let alpha ← getInt
  let triggerPoint ← getInt
  write (fun g => {g with vscts := g.vscts ++ [⟨target,domainType,coeffType,coeff,operation,alpha,triggerPoint⟩]})

def parseVsct (fuel : Nat) (name : Option Bytes) (len : Int) : Parse Unit := do
  write (fun g => {g with vsctsName := (name.map toText).getD "vsct"})
  let version ← getInt
  if version > 1 then return ()
  else whileBelow len vsctRecord fuel ()

-- Version 2 has three further fields, which are read and dropped.
def itmtRest (version : Int) : Parse Unit := do
  if version = 2 then
    let _ ← getUint64
    let _ ← getText
    let _ ← getUint64
    let _ ← getUint64
    return ()
  else skip 12

def itmtRecord (version : Int) (entries : List ItmtEntry) : Parse (List ItmtEntry) := do
  let target ← getText
  let tripPoint ← getInt
  let pl1Min ← getText
  let pl1Max ← getText
  let _ ← getText
  itmtRest version
  return entries ++ [⟨target,tripPoint,pl1Min,pl1Max⟩]

def parseItmt (fuel : Nat) (name : Option Bytes) (len : Int) : Parse Unit := do
  let version ← getInt
  if version > 2 then return ()
  else
    let entries ← whileBelow len (itmtRecord version) fuel []
    write (fun g => {g with itmts := g.itmts ++ [⟨1,(name.map toText).getD "Default",entries⟩]})

def hexDigit (n : Nat) : Char := Char.ofNat (if n < 10 then 48+n else 55+n)

def hexByte (b : UInt8) : List Char := [hexDigit (b.toNat/16),hexDigit (b.toNat%16)]

-- The GUID text of an IDSP, in capitals and with the newline of its format.
def idspText (b : Bytes) : String :=
  let part := fun places : List Nat => places.flatMap (fun i => hexByte (b.getD i 0))
  String.ofList (part [3,2,1,0] ++ '-'::part [5,4] ++ '-'::part [7,6] ++ '-'::part [8,9] ++
    '-'::part [10,11,12,13,14,15] ++ ['\n'])

-- The pointer moves with the index. The length is signed.
def idspEntries (length : Int) : Nat → Parse Unit
  | 0 => .hang
  | fuel+1 => do
    let i ← position
    if i < length then
      if length-i < 28 then return ()
      else
        let first ← word i 1
        if first ≠ 7 then return ()
        else
          moveTo (i+4)
          let len ← word (i+4) 4
          moveTo (i+12)
          let content ← Scan.read (i+12) 16 .done
          write (fun g => {g with idsps := g.idsps ++ [idspText content]})
          moveTo (toInt (i+12+toInt len))
          idspEntries length fuel
    else return ()

def parseIdsp (fuel : Nat) (length : Int) : Parse Unit := idspEntries length fuel

def parsePpcc (name : Bytes) (len : Int) : Parse Unit := do
  let powerLimitMin ← word 28 8
  let powerLimitMax ← word 40 8
  let timeWindMin ← word 52 8
  let timeWindMax ← word 64 8
  let stepSize ← word 76 8
  -- a value without the second limit is not kept
  if len < 156 then return ()
  else
    let powerLimit1Min ← word 100 8
    let powerLimit1Max ← word 112 8
    let timeWind1Min ← word 124 8
    let timeWind1Max ← word 136 8
    let step1Size ← word 148 8
    let valid := decide (toInt powerLimit1Max ≠ 0 ∧ toInt powerLimit1Min ≠ 0 ∧ toInt timeWind1Min ≠ 0 ∧
      toInt timeWind1Max ≠ 0 ∧ toInt step1Size ≠ 0)
    write (fun g => {g with ppccs := g.ppccs ++ [⟨toText name,toInt powerLimitMin,toInt powerLimitMax,
      toInt timeWindMin,toInt timeWindMax,toInt stepSize,valid,toInt powerLimit1Min,toInt powerLimit1Max,
      toInt timeWind1Min,toInt timeWind1Max,toInt step1Size⟩]})

def tripType (point : String) : TripPointType :=
  match point.toList.take 2 with
  | ['_','c'] => .critical
  | ['_','p'] => .passive
  | ['_','h'] => .hot
  | ['_','a'] => .active
  | _ => .invalidTripType

def parseTripPoint (name point : Bytes) : Parse Unit := do
  let value ← word 0 4
  write (fun g => {g with trippoints := g.trippoints ++ [⟨toText name,toText point,tripType (toText point),
    Gddv.deciKelvinToCelsius (toInt value)⟩]})

-- Only logged.
def trtRecord (_ : Unit) : Parse Unit := do
  let _ ← getText
  let _ ← getText
  let _ ← getInt
  let _ ← getInt
  let _ ← getInt
  let _ ← getInt
  let _ ← getInt
  let _ ← getInt
  return ()

def parseTrt (fuel : Nat) (len : Int) : Parse Unit := whileBelow len trtRecord fuel ()

end GddvTables
end ChuwiMinibook
