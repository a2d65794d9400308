import ChuwiMinibook.Mxc6655
import Mathlib.Algebra.Order.Field.Basic

namespace ChuwiMinibook

-- OrientState, over exact numbers. The last two fields are not in the source: the
-- averages accumulated since the accumulator was last reset, and for each run of
-- handle_long_stable the values it computed and the averages accumulated then.
structure OrientState (K : Type) where
  zMedianBuf : List K
  zMedianCount : Nat
  emaDelta : List K
  emaAbsDelta : List K
  smoothed : List K
  bufX : List K
  bufY : List K
  bufZ : List K
  bufIdx : Nat
  bufFull : Bool
  stableCount : Nat
  acc : Mxc6655.Vec3 K
  accSq : Mxc6655.Vec3 K
  peak : Mxc6655.Vec3 K
  trough : Mxc6655.Vec3 K
  outlierDetected : Bool
  ref : Mxc6655.Vec3 K
  zDir : Int
  gravityOffset : K
  trimmedMean : K
  offsetBuf : List K
  offsetCount : Nat
  offsetInit : Bool
  outOffset : K
  outMean : K
  outZ : K
  accumulated : List (Mxc6655.Vec3 K)
  computed : List (Mxc6655.Vec3 K × List (Mxc6655.Vec3 K))

-- sqrt, and the cast of a float to an int.
structure Maths (K : Type) where
  sqrt : K → K
  truncate : K → K

namespace OrientFilter
open Mxc6655

variable {K : Type} [Field K] [LinearOrder K] (m : Maths K)

def orientBufSize : Nat := 20

def orientOffsetBuf : Nat := 5

def orientStableMin : Nat := 10

def median3 (a b c : K) : K :=
  let (a,b) := if a > b then (b,a) else (a,b)
  let (b,_) := if b > c then (c,b) else (b,c)
  let (_,b) := if a > b then (b,a) else (a,b)
  b

def sampleVariance (buf : List K) (n : Nat) : K :=
  if n ≤ 1 then 0
  else
    let sum := (buf.take n).sum
    let sumSq := ((buf.take n).map (fun x => x*x)).sum
    let mean := sum/n
    (sumSq-n*mean*mean)/(n-1 : Nat)

def reconstructZ (rawZ zSq zHint : K) : K :=
  let d := if zSq < 0 then 0 else zSq
  let val :=
    if d ≤ 9/100 then (if zHint ≤ 0 then -d*(1/2) else d*(1/2))
    else if d > 16/100 then (if zHint ≤ 0 then -m.sqrt d else m.sqrt d)
    else
      let interp := (d-9/100)*m.sqrt (16/100)+(16/100-d)*(9/100)*(1/2)
      (if zHint ≤ 0 then -interp else interp)/(7/100)
  val+(rawZ*100-m.truncate (rawZ*100))/100

-- The direction and, when the offset is accepted, the offset.
def resolveGravityOffset (ref cur : Vec3 K) (trimmedMean : K) (zDir : Int) : Int × Option K :=
  let refZsq := max (1-ref.x*ref.x-ref.y*ref.y) 0
  let curZsq := max (1-cur.x*cur.x-cur.y*cur.y) 0
  let refZp := ref.z+m.sqrt refZsq
  let refZm := ref.z-m.sqrt refZsq
  let curZp := cur.z+m.sqrt curZsq
  let curZm := cur.z-m.sqrt curZsq
  let dMm := fabsf (refZm-curZm)
  let dPm := fabsf (refZp-curZm)
  let dPp := fabsf (refZp-curZp)
  let dMp := fabsf (refZm-curZp)
  let threshold := (fabsf (curZm-curZp)+fabsf (refZm-refZp))*(8/100)
  let (offset,newDir) :=
    if dMm ≤ dPm ∧ dMm ≤ dPp ∧ dMm ≤ dMp ∧ dMm < threshold then ((curZm+refZm)*(1/2),(1 : Int))
    else if dPm ≤ dMm ∧ dPm ≤ dPp ∧ dPm ≤ dMp ∧ dPm < threshold then ((curZm+refZp)*(1/2),1)
    else if dPp ≤ dMm ∧ dPp ≤ dPm ∧ dPp ≤ dMp ∧ dPp < threshold then ((curZp+refZp)*(1/2),-1)
    else if dMp ≤ dMm ∧ dMp ≤ dPm ∧ dMp ≤ dPp ∧ dMp < threshold then ((curZp+refZm)*(1/2),-1)
    else ((curZp+refZp)*(1/2),-1)
  let refMag := (ref.z-offset)*(ref.z-offset)+ref.y*ref.y+ref.x*ref.x
  let curMag := (cur.z-offset)*(cur.z-offset)+cur.y*cur.y+cur.x*cur.x
  if refMag ≤ 85/100 ∨ refMag ≥ 115/100 ∨ curMag ≤ 85/100 ∨ curMag ≥ 115/100 then (zDir,none)
  else if trimmedMean ≠ 0 ∧ fabsf (offset-trimmedMean) > 1 then (newDir,none)
  else (newDir,some offset)

def medianFilterZ (s : OrientState K) (z : K) : OrientState K × K :=
  if s.zMedianCount < 3 then
    ({s with zMedianBuf := s.zMedianBuf.set s.zMedianCount z,zMedianCount := s.zMedianCount+1},z)
  else
    let buf := [s.zMedianBuf.getD 1 0,s.zMedianBuf.getD 2 0,z]
    ({s with zMedianBuf := buf},median3 (buf.getD 0 0) (buf.getD 1 0) (buf.getD 2 0))

-- One axis of ema_smooth: the averages of the steps and of their sizes, and the value.
def emaAxis (emaDelta emaAbsDelta smoothed input : K) : K × K × K :=
  let delta := input-smoothed
  let emaDelta := emaDelta*(99/100)+delta*(1/100)
  let emaAbsDelta := emaAbsDelta*(99/100)+fabsf delta*(1/100)
  let weight := if fabsf emaAbsDelta ≥ 1/10000 then fabsf (emaDelta/emaAbsDelta) else 1/2
  (emaDelta,emaAbsDelta,(1-weight)*smoothed+weight*input)

-- The weight that ema_smooth gives to its input.
def weight (emaDelta emaAbsDelta : K) : K :=
  if fabsf emaAbsDelta ≥ 1/10000 then fabsf (emaDelta/emaAbsDelta) else 1/2

def emaSmooth (s : OrientState K) (input : Vec3 K) : OrientState K :=
  let axes := [input.x,input.y,input.z].mapIdx (fun i value =>
    emaAxis (s.emaDelta.getD i 0) (s.emaAbsDelta.getD i 0) (s.smoothed.getD i 0) value)
  {s with
    emaDelta := axes.map (·.1)
    emaAbsDelta := axes.map (·.2.1)
    smoothed := axes.map (·.2.2)}

def storeInBuffer (s : OrientState K) (input : Vec3 K) : OrientState K :=
  let s := {s with
    bufX := s.bufX.set s.bufIdx input.x
    bufY := s.bufY.set s.bufIdx input.y
    bufZ := s.bufZ.set s.bufIdx input.z
    bufIdx := s.bufIdx+1}
  if s.bufIdx ≥ orientBufSize then {s with bufIdx := 0,bufFull := true} else s

def maxBufferVariance (s : OrientState K) : K :=
  let varX := sampleVariance s.bufX orientBufSize
  let varY := sampleVariance s.bufY orientBufSize
  let varZ := sampleVariance s.bufZ orientBufSize
  let mv := if varY > varX then varY else varX
  if varZ > mv then varZ else mv

def resetAccumulator (s : OrientState K) : OrientState K :=
  {s with
    acc := ⟨0,0,0⟩
    accSq := ⟨0,0,0⟩
    stableCount := 0
    outlierDetected := false
    accumulated := []}

def averageBuffer (s : OrientState K) : Vec3 K :=
  ⟨(s.bufX.take orientBufSize).sum/orientBufSize,(s.bufY.take orientBufSize).sum/orientBufSize,
    (s.bufZ.take orientBufSize).sum/orientBufSize⟩

def signedZ (zSq : K) (zDir : Int) : K := if zDir ≠ -1 then m.sqrt zSq else -m.sqrt zSq

def recordOffset (s : OrientState K) : OrientState K :=
  if s.offsetCount < orientOffsetBuf then
    {s with offsetBuf := s.offsetBuf.set s.offsetCount s.gravityOffset,offsetCount := s.offsetCount+1}
  else s

def tryResolveOffset (s : OrientState K) (ref cur : Vec3 K) : OrientState K :=
  let (zDir,newOffset) := resolveGravityOffset m ref cur s.trimmedMean s.zDir
  let s := {s with zDir := zDir}
  let s := match newOffset with
    | some offset => recordOffset {s with gravityOffset := offset}
    | none => s
  resetAccumulator s

def bootstrapReference (s : OrientState K) (avg : Vec3 K) (zSq : K) : OrientState K :=
  {s with ref := avg,gravityOffset := avg.z-signedZ m zSq s.zDir}

def accumulateSample (s : OrientState K) (avg : Vec3 K) : OrientState K :=
  {s with
    stableCount := s.stableCount+1
    acc := ⟨s.acc.x+avg.x,s.acc.y+avg.y,s.acc.z+avg.z⟩
    accSq := ⟨s.accSq.x+avg.x*avg.x,s.accSq.y+avg.y*avg.y,s.accSq.z+avg.z*avg.z⟩
    accumulated := s.accumulated++[avg]}

def updatePeakTrough (s : OrientState K) (avg : Vec3 K) : OrientState K :=
  let s := if s.stableCount = 1 then {s with peak := avg,trough := avg} else s
  let s := if avg.z > s.peak.z then {s with peak := avg} else s
  if avg.z < s.trough.z then {s with trough := avg} else s

def detectOutlier (s : OrientState K) (avgZ : K) : OrientState K :=
  let s := if avgZ = s.trough.z ∧ s.peak.z-avgZ > 1/2 then {s with outlierDetected := true} else s
  if avgZ = s.peak.z ∧ avgZ-s.trough.z > 1/2 then {s with outlierDetected := true} else s

-- The variance of one axis, with a divisor for 1000 values.
def longVariance (acc accSq : K) : K := (accSq*1000-acc*acc)/999000

def handleLongStable (s : OrientState K) (avgZ zSq : K) : OrientState K :=
  let v : Vec3 K := ⟨longVariance s.acc.x s.accSq.x,longVariance s.acc.y s.accSq.y,longVariance s.acc.z s.accSq.z⟩
  let mv := if v.y > v.x then v.y else v.x
  let mv := if v.z > mv then v.z else mv
  let s := {s with computed := s.computed++[(v,s.accumulated)]}
  if mv < 4/1000 then recordOffset {s with gravityOffset := avgZ-signedZ m zSq s.zDir} else s

def handleStableDrift (s : OrientState K) (avg : Vec3 K) (zSq : K) : OrientState K :=
  let s := updatePeakTrough (accumulateSample s avg) avg
  if s.stableCount < 2 then s
  else
    let s := detectOutlier s avg.z
    if s.outlierDetected then tryResolveOffset m s s.peak avg
    else if s.stableCount ≥ 1000 then handleLongStable m s avg.z zSq
    else s

def updateOffsetTrimmedMean (s : OrientState K) : OrientState K :=
  if s.offsetCount < orientOffsetBuf then s
  else
    let first := s.offsetBuf.getD 0 0
    let sum := (s.offsetBuf.take orientOffsetBuf).sum
    let mx := (s.offsetBuf.take orientOffsetBuf).foldl max first
    let mn := (s.offsetBuf.take orientOffsetBuf).foldl min first
    {s with offsetCount := 0,trimmedMean := (sum-mn-mx)/(orientOffsetBuf-2 : Nat)}

-- What follows in update_gravity_tracking on either way of tracking the drift.
def followReference (s : OrientState K) (avg : Vec3 K) : OrientState K × Option K :=
  let s := {updateOffsetTrimmedMean s with ref := avg}
  let (s,meanOffset) :=
    if s.offsetInit ∧ s.offsetCount > 0 then ({s with offsetInit := false},s.offsetBuf.getD 0 0) else (s,0)
  if avg.z-s.gravityOffset > 0 then ({s with zDir := 1},some meanOffset)
  else if avg.z-s.gravityOffset < 0 then ({s with zDir := -1},some meanOffset)
  else (s,some meanOffset)

-- The mean offset, or none for a return of -1.
def updateGravityTracking (s : OrientState K) (avg : Vec3 K) (zSq : K) : OrientState K × Option K :=
  if s.ref.x = 0 ∧ s.ref.y = 0 ∧ s.ref.z = 0 then (bootstrapReference m s avg zSq,some 0)
  else
    let zDrift := fabsf (avg.z-s.ref.z)
    if zDrift ≤ 2/10 then followReference (handleStableDrift m s avg zSq) avg
    else if zDrift > 24/10 then ({s with ref := ⟨0,0,0⟩},none)
    else followReference (tryResolveOffset m s s.ref avg) avg

def blendZOutput (s : OrientState K) (input : Vec3 K) (maxVar : K) : K :=
  let zSq := 1-s.smoothed.getD 0 0*s.smoothed.getD 0 0-s.smoothed.getD 1 0*s.smoothed.getD 1 0
  let zHint := s.smoothed.getD 2 0-s.gravityOffset
  let zRecon := reconstructZ m input.z zSq zHint
  let zRaw := input.z-s.gravityOffset
  let zOut :=
    if maxVar < 24/10000 then zRecon
    else if maxVar ≥ 56/10000 then zRaw
    else ((zRaw-zRecon)*maxVar+zRecon*(56/10000)-zRaw*(24/10000))/(32/10000)
  if maxVar < 2/1000 then
    let mag := m.sqrt (input.x*input.x+input.y*input.y+zOut*zOut)
    if mag < 6/10 ∨ mag > 14/10 then 1/2 else zOut
  else zOut

-- The filters in front of the accumulator.
def filtered (s : OrientState K) (accel : Vec3 K) : OrientState K × Vec3 K :=
  let (s,z) := medianFilterZ s accel.z
  let input : Vec3 K := ⟨accel.x,accel.y,z⟩
  (storeInBuffer (emaSmooth s input) input,input)

-- The buffer is full, and no axis of it varies by more than the threshold.
def Stable (s : OrientState K) (accel : Vec3 K) : Prop :=
  (filtered s accel).1.bufFull = true ∧ maxBufferVariance (filtered s accel).1 ≤ 1/100

-- The average is scaled where it is longer than one.
def trackBuffer (s : OrientState K) : OrientState K × Option K :=
  let avg := averageBuffer s
  let xySq := avg.x*avg.x+avg.y*avg.y
  if 1-xySq < 0 then
    let norm := m.sqrt xySq
    updateGravityTracking m (resetAccumulator s) ⟨avg.x/norm*(9999/10000),avg.y/norm*(9999/10000),avg.z⟩ 0
  else updateGravityTracking m s avg (1-xySq)

-- The count of stable buffers, which also starts the accumulator.
def warmUp (maxVar : K) (s : OrientState K) : OrientState K :=
  if maxVar > 1/100 then resetAccumulator s
  else if s.stableCount ≤ orientStableMin then {s with stableCount := s.stableCount+1}
  else s

-- The end of update_orientation.
def outputs (s : OrientState K) (input : Vec3 K) (maxVar : K) : Option K → OrientState K × Int
  | none => (s,0)
  | some meanOffset =>
    let s := {s with outOffset := s.gravityOffset,outMean := meanOffset,outZ := blendZOutput m s input maxVar}
    if fabsf s.gravityOffset < 1/1000000 then (s,0)
    else if fabsf meanOffset > 1/1000000 then (s,2)
    else (s,1)

def updateOrientation (s : OrientState K) (accel : Vec3 K) : OrientState K × Int :=
  let (s,input) := filtered s accel
  if !s.bufFull then
    let zSq := 1-s.smoothed.getD 0 0*s.smoothed.getD 0 0-s.smoothed.getD 1 0*s.smoothed.getD 1 0
    ({s with
      outOffset := s.gravityOffset
      outMean := 0
      outZ := if zSq ≥ 0 then signedZ m zSq s.zDir else 0},0)
  else
    let maxVar := maxBufferVariance s
    let s := warmUp maxVar s
    let (s,meanOffset) := if s.stableCount > orientStableMin then trackBuffer m s else (s,some 0)
    outputs m s input maxVar meanOffset

-- The private data of the driver start as zeros.
def start : OrientState K where
  zMedianBuf := [0,0,0]
  zMedianCount := 0
  emaDelta := [0,0,0]
  emaAbsDelta := [0,0,0]
  smoothed := [0,0,0]
  bufX := List.replicate orientBufSize 0
  bufY := List.replicate orientBufSize 0
  bufZ := List.replicate orientBufSize 0
  bufIdx := 0
  bufFull := false
  stableCount := 0
  acc := ⟨0,0,0⟩
  accSq := ⟨0,0,0⟩
  peak := ⟨0,0,0⟩
  trough := ⟨0,0,0⟩
  outlierDetected := false
  ref := ⟨0,0,0⟩
  zDir := 0
  gravityOffset := 0
  trimmedMean := 0
  offsetBuf := List.replicate orientOffsetBuf 0
  offsetCount := 0
  offsetInit := false
  outOffset := 0
  outMean := 0
  outZ := 0
  accumulated := []
  computed := []

end OrientFilter
end ChuwiMinibook
