import ChuwiMinibook.ByteImage
import Mathlib.Algebra.Order.Ring.Int

namespace ChuwiMinibook.Vbt
open ByteImage

-- What the patcher takes from intel_vbt_defs.h: ids, offsets of fields and sizes of
-- array entries. Every field of an entry lies in it.
structure Layout where
  bdbLfpOptions : Nat
  bdbMipiConfig : Nat
  bdbMipiSequence : Nat
  bdbGenericDtd : Nat
  maxMipiPanel : Nat
  vbtSize : Nat
  vbtChecksum : Nat
  bdbOffset : Nat
  headerSize : Nat
  bdbSize : Nat
  panelType : Nat
  dtd : Nat
  dtdEntry : Nat
  pixelClock : Nat
  hactive : Nat
  hblank : Nat
  vactive : Nat
  vblank : Nat
  mipiConfig : Nat
  rotation : Nat
  rotationShift : Nat
  laneCnt : Nat
  laneShift : Nat
  pps : Nat
  ppsData : Nat
  panelOnDelay : Nat
  blEnableDelay : Nat
  blDisableDelay : Nat
  panelOffDelay : Nat
  panelPowerCycleDelay : Nat
  vbt_order : vbtSize+2 ≤ vbtChecksum ∧ vbtChecksum < bdbOffset
  clock_in : pixelClock+4 ≤ dtdEntry
  timings_in : ∀ field ∈ [hactive,hblank,vactive,vblank],field+2 ≤ dtdEntry
  config_in : rotation < mipiConfig ∧ laneCnt < mipiConfig
  rotation_in : rotationShift ≤ 6
  delays_in : ∀ field ∈ [panelOnDelay,blEnableDelay,blDisableDelay,panelOffDelay,panelPowerCycleDelay],field+2 ≤ ppsData

-- As in the kernel.
def intelVbtDefs : Layout where
  bdbLfpOptions := 40
  bdbMipiConfig := 52
  bdbMipiSequence := 53
  bdbGenericDtd := 58
  maxMipiPanel := 6
  vbtSize := 24
  vbtChecksum := 26
  bdbOffset := 28
  headerSize := 18
  bdbSize := 20
  panelType := 0
  dtd := 2
  dtdEntry := 28
  pixelClock := 0
  hactive := 4
  hblank := 6
  vactive := 12
  vblank := 14
  mipiConfig := 122
  rotation := 3
  rotationShift := 6
  laneCnt := 6
  laneShift := 2
  pps := 732
  ppsData := 10
  panelOnDelay := 0
  blEnableDelay := 2
  blDisableDelay := 4
  panelOffDelay := 6
  panelPowerCycleDelay := 8
  vbt_order := by decide
  clock_in := by decide
  timings_in := by decide
  config_in := by decide
  rotation_in := by decide
  delays_in := by decide

structure PatchOpts where
  clock : Int
  hz : Int
  rotation : Int
  panelOn : Int
  panelOff : Int
  blOn : Int
  blOff : Int
  cycle : Int
  output : Bool
deriving DecidableEq

-- The pointers are offsets in the file.
structure Ctx where
  vbt : Nat
  bdb : Nat
  bdbSize : Nat
  panel : Nat
  gdtd : Option Nat
  mipiCfg : Option Nat
deriving DecidableEq

def rotationStr : List String := ["0°","90°","180°","270°"]

-- "$VBT" as a little-endian word.
def signature : Nat := 0x54425624

-- The result is none at an access outside the file.
def findVbtFrom (f : Image) : Nat → Nat → Option (Option Nat)
  | 0,_ => some none
  | fuel+1,i =>
    if i+4 ≤ f.length then
      (readU32 f i).bind fun word => if word = signature then some (some i) else findVbtFrom f fuel (i+1)
    else some none

def findVbt (f : Image) : Option (Option Nat) := findVbtFrom f f.length 0

section

variable (L : Layout) (f : Image)

def blockSize (base index id : Nat) : Option Nat :=
  if id = L.bdbMipiSequence then
    (readU8 f (base+(index+3))).bind fun version =>
      if 3 ≤ version then readU32 f (base+(index+4)) else readU16 f (base+(index+1))
  else readU16 f (base+(index+1))

def walk (base total block : Nat) : Nat → Nat → Option (Option Nat)
  | 0,_ => some none
  | fuel+1,index =>
    if index+3 < total then
      (readU8 f (base+index)).bind fun id =>
      (blockSize L f base index id).bind fun size =>
        if id = block then some (some (base+(index+3))) else walk base total block fuel (index+3+size)
    else some none

-- An index grows in every round, so total rounds are enough.
def findBlock (bdb bdbSize block : Nat) : Option (Option Nat) :=
  (readU16 f (bdb+L.headerSize)).bind fun index =>
  (readU16 f (bdb+L.bdbSize)).bind fun total =>
    let total := if bdbSize < total then bdbSize else total
    walk L f bdb total block total index

def initCtx : Option (Except String Ctx) :=
  (findVbt f).bind fun
  | none => some (.error "VBT signature not found")
  | some vbt =>
    (readU32 f (vbt+L.bdbOffset)).bind fun offset =>
      let bdb := vbt+offset
      let bdbSize := (((f.length : Int)-vbt-offset)%2^64).toNat
      (findBlock L f bdb bdbSize L.bdbLfpOptions).bind fun
      | none => some (.error "Block 40 (LFP options) not found")
      | some lfpOpts =>
        (readU8 f (lfpOpts+L.panelType)).bind fun panel =>
        (findBlock L f bdb bdbSize L.bdbGenericDtd).bind fun gdtd =>
        (findBlock L f bdb bdbSize L.bdbMipiConfig).bind fun mipiCfg =>
          if gdtd = none ∧ mipiCfg = none then some (.error "Neither Block 58 (DTD) nor Block 52 (MIPI) found")
          else some (.ok ⟨vbt,bdb,bdbSize,panel,gdtd,mipiCfg⟩)

end

structure Timings where
  hactive : Nat
  hblank : Nat
  vactive : Nat
  vblank : Nat
deriving DecidableEq

def Timings.htotal (t : Timings) : Nat := t.hactive+t.hblank
def Timings.vtotal (t : Timings) : Nat := t.vactive+t.vblank

section

variable (L : Layout) (f : Image)

-- Where the entries of the active panel are.
def dtdAt (c : Ctx) (gdtd : Nat) : Nat := gdtd+L.dtd+c.panel*L.dtdEntry
def configAt (c : Ctx) (mipi : Nat) : Nat := mipi+c.panel*L.mipiConfig
def ppsAt (c : Ctx) (mipi : Nat) : Nat := mipi+L.pps+c.panel*L.ppsData

def readTimings (entry : Nat) : Option Timings :=
  (readU16 f (entry+L.hactive)).bind fun hactive =>
  (readU16 f (entry+L.hblank)).bind fun hblank =>
  (readU16 f (entry+L.vactive)).bind fun vactive =>
  (readU16 f (entry+L.vblank)).map fun vblank => ⟨hactive,hblank,vactive,vblank⟩

structure DtdInfo where
  timings : Timings
  pixelClock : Nat
deriving DecidableEq

-- Delays are in tenths of a millisecond.
structure MipiInfo where
  lanes : Nat
  rotation : String
  panelOn : Nat
  blEnable : Nat
  blDisable : Nat
  panelOff : Nat
  powerCycle : Nat
deriving DecidableEq

structure Info where
  panel : Nat
  dtd : Option DtdInfo
  mipi : Option MipiInfo
deriving DecidableEq

def printDtd (c : Ctx) (gdtd : Nat) : Option DtdInfo :=
  (readTimings L f (dtdAt L c gdtd)).bind fun timings =>
  (readU32 f (dtdAt L c gdtd+L.pixelClock)).map fun pixelClock => ⟨timings,pixelClock⟩

def printMipi (c : Ctx) (mipi : Nat) : Option MipiInfo :=
  (readU8 f (configAt L c mipi+L.laneCnt)).bind fun lanes =>
  (readU8 f (configAt L c mipi+L.rotation)).bind fun rotation =>
  (rotationStr[rotation/2^L.rotationShift%4]?).bind fun shown =>
  (readU16 f (ppsAt L c mipi+L.panelOnDelay)).bind fun panelOn =>
  (readU16 f (ppsAt L c mipi+L.blEnableDelay)).bind fun blEnable =>
  (readU16 f (ppsAt L c mipi+L.blDisableDelay)).bind fun blDisable =>
  (readU16 f (ppsAt L c mipi+L.panelOffDelay)).bind fun panelOff =>
  (readU16 f (ppsAt L c mipi+L.panelPowerCycleDelay)).map fun powerCycle =>
    ⟨lanes/2^L.laneShift%4+1,shown,panelOn,blEnable,blDisable,panelOff,powerCycle⟩

-- Blocks that are not there, and panels past the arrays of block 52, are not shown.
def printInfo (c : Ctx) : Option Info :=
  (match c.gdtd with
    | none => some none
    | some gdtd => (printDtd L f c gdtd).map some).bind fun dtd =>
  (match c.mipiCfg with
    | none => some none
    | some mipi => if c.panel < L.maxMipiPanel then (printMipi L f c mipi).map some else some none).map fun mipi =>
  ⟨c.panel,dtd,mipi⟩

-- The product is taken in 64 bits, its thousandth as an int.
def Timings.clock (t : Timings) (hz : Int) : Int :=
  (BitVec.ofNat 32 (hz.toNat*t.htotal%2^64*t.vtotal%2^64/1000)).toInt

def resolveHzToClock (entry : Nat) (hz : Int) : Option Int :=
  (readTimings L f entry).map (Timings.clock · hz)

def patchClock (entry : Nat) (clock : Int) : Option Image :=
  (readTimings L f entry).bind fun _ =>
  (readU32 f (entry+L.pixelClock)).bind fun _ =>
    stores f (dword (entry+L.pixelClock) (BitVec.ofInt 32 clock).toNat)

-- The two bits of the field only. Both the old and the new rotation are looked up in
-- the table for the message.
def rotationWrite (config : Nat) (rotation : Int) : Write :=
  ⟨config+L.rotation,3#8 <<< L.rotationShift,BitVec.ofInt 8 rotation <<< L.rotationShift⟩

def patchRotation (config : Nat) (rotation : Int) : Option Image :=
  (readU8 f (config+L.rotation)).bind fun old =>
  (store f (rotationWrite L config rotation)).bind fun patched =>
  (rotationStr[old/2^L.rotationShift%4]?).bind fun _ =>
  (rotationStr[rotation.toNat]?).map fun _ => patched

def patchPpsField (field : Nat) (ms : Int) : Option Image :=
  (readU16 f field).bind fun _ => stores f (word field (BitVec.ofInt 16 (ms*10)).toNat)

def delays (o : PatchOpts) (pps : Nat) : List (Int × Nat) :=
  [(o.panelOn,pps+L.panelOnDelay),(o.panelOff,pps+L.panelOffDelay),(o.blOn,pps+L.blEnableDelay),
    (o.blOff,pps+L.blDisableDelay),(o.cycle,pps+L.panelPowerCycleDelay)]

def patchDelays : List (Int × Nat) → Image → Nat → Option (Image × Nat)
  | [],f,changed => some (f,changed)
  | (ms,field)::rest,f,changed =>
    if 0 ≤ ms then (patchPpsField f field ms).bind fun patched => patchDelays rest patched (changed+1)
    else patchDelays rest f changed

def resolved (c : Ctx) (o : PatchOpts) : Option Int :=
  match c.gdtd with
  | none => some o.clock
  | some gdtd => if 0 < o.hz then resolveHzToClock L f (dtdAt L c gdtd) o.hz else some o.clock

def applyClock (c : Ctx) (clock : Int) : Option (Image × Nat) :=
  match c.gdtd with
  | none => some (f,0)
  | some gdtd => if 0 < clock then (patchClock L f (dtdAt L c gdtd) clock).map (·,1) else some (f,0)

def applyMipi (c : Ctx) (o : PatchOpts) (mipi : Nat) (changed : Nat) : Option (Image × Nat) :=
  (if 0 ≤ o.rotation then (patchRotation L f (configAt L c mipi) o.rotation).map (·,changed+1)
    else some (f,changed)).bind fun (patched,changed) => patchDelays (delays L o (ppsAt L c mipi)) patched changed

def applyPatches (c : Ctx) (o : PatchOpts) : Option (Image × Nat) :=
  (resolved L f c o).bind fun clock =>
  (applyClock L f c clock).bind fun (patched,changed) =>
    match c.mipiCfg with
    | none => some (patched,changed)
    | some mipi => if c.panel < L.maxMipiPanel then applyMipi L patched c o mipi changed else some (patched,changed)

def sumBytes (start : Nat) : Nat → Option Nat
  | 0 => some 0
  | n+1 => (sumBytes start n).bind fun sum => (readU8 f (start+n)).map fun b => (sum+b)%256

def updateChecksum (vbt : Nat) : Option Image :=
  (store f (byte (vbt+L.vbtChecksum) 0)).bind fun cleared =>
  (readU16 cleared (vbt+L.vbtSize)).bind fun size =>
  (sumBytes cleared vbt size).bind fun sum =>
    store cleared (byte (vbt+L.vbtChecksum) (BitVec.ofNat 8 (0x100-sum)))

end

def hasPatches (o : PatchOpts) : Bool :=
  0 < o.clock ∨ 0 < o.hz ∨ 0 ≤ o.rotation ∨ 0 ≤ o.panelOn ∨ 0 ≤ o.panelOff ∨ 0 ≤ o.blOn ∨ 0 ≤ o.blOff ∨ 0 ≤ o.cycle

inductive Outcome
  | rejected (message : String)
  | info (shown : Info)
  | unchanged
  | written (out : Image)
deriving DecidableEq

-- From the read file on.
def main (L : Layout) (f : Image) (o : PatchOpts) : Option Outcome :=
  (initCtx L f).bind fun
  | .error message => some (.rejected message)
  | .ok c =>
    if hasPatches o = false then (printInfo L f c).map .info
    else if o.output = false then some (.rejected "Output file required when patching")
    else
      (applyPatches L f c o).bind fun (patched,changed) =>
        if changed = 0 then some .unchanged else (updateChecksum L patched c.vbt).map .written

end ChuwiMinibook.Vbt
