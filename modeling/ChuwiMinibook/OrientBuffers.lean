import ChuwiMinibook.OrientAccumulator
import ChuwiMinibook.RingBuffer
import ChuwiMinibook.OrderStatistics

namespace ChuwiMinibook.OrientBuffers
open Mxc6655 OrientFilter OrientAccumulator RingBuffer OrderStatistics

variable {K : Type}

-- What the filters in front of the accumulator keep; nothing behind them writes it.
structure Front (K : Type) where
  zMedianBuf : List K
  zMedianCount : Nat
  bufX : List K
  bufY : List K
  bufZ : List K
  bufIdx : Nat
  bufFull : Bool

def front (s : OrientState K) : Front K := ⟨s.zMedianBuf,s.zMedianCount,s.bufX,s.bufY,s.bufZ,s.bufIdx,s.bufFull⟩

-- The offsets collected and the mean of the last five.
structure Offsets (K : Type) where
  buf : List K
  count : Nat
  mean : K

def offsets (s : OrientState K) : Offsets K := ⟨s.offsetBuf,s.offsetCount,s.trimmedMean⟩

section Frames
variable {s : OrientState K}

theorem record_front : front (recordOffset s) = front s := by
  unfold recordOffset
  split <;> rfl

theorem reset_front [Field K] : front (resetAccumulator s) = front s := rfl

theorem reset_offsets [Field K] : offsets (resetAccumulator s) = offsets s := rfl

variable [LinearOrder K]

theorem peak_frame (avg : Vec3 K) :
    front (updatePeakTrough s avg) = front s ∧ offsets (updatePeakTrough s avg) = offsets s := by
  unfold updatePeakTrough
  dsimp only
  split_ifs <;> exact ⟨rfl,rfl⟩

variable [Field K] (m : Maths K)

theorem resolve_front (ref cur : Vec3 K) : front (tryResolveOffset m s ref cur) = front s := by
  unfold tryResolveOffset
  dsimp only
  rw [reset_front]
  split
  · rw [record_front]
    rfl
  · rfl

theorem outlier_frame (avgZ : K) : front (detectOutlier s avgZ) = front s ∧ offsets (detectOutlier s avgZ) = offsets s := by
  unfold detectOutlier
  dsimp only
  split_ifs <;> exact ⟨rfl,rfl⟩

theorem long_front (avgZ zSq : K) : front (handleLongStable m s avgZ zSq) = front s := by
  unfold handleLongStable
  dsimp only
  split_ifs
  all_goals
    first
    | exact record_front
    | rfl

theorem drift_front (avg : Vec3 K) (zSq : K) : front (handleStableDrift m s avg zSq) = front s := by
  have given : front (updatePeakTrough (accumulateSample s avg) avg) = front s := (peak_frame avg).1
  have looked := (outlier_frame avg.z).1.trans given
  unfold handleStableDrift
  dsimp only
  split_ifs
  · exact given
  · rw [resolve_front]
    exact looked
  · rw [long_front]
    exact looked
  · exact looked

theorem follow_front (avg : Vec3 K) : front (followReference s avg).1 = front s := by
  unfold followReference updateOffsetTrimmedMean
  dsimp only
  split_ifs <;> rfl

theorem tracking_front (avg : Vec3 K) (zSq : K) : front (updateGravityTracking m s avg zSq).1 = front s := by
  unfold updateGravityTracking
  dsimp only
  split_ifs
  · rfl
  · rw [follow_front,drift_front]
  · rfl
  · rw [follow_front,resolve_front]

theorem track_front : front (trackBuffer m s).1 = front s := by
  unfold trackBuffer
  dsimp only
  split
  · rw [tracking_front,reset_front]
  · rw [tracking_front]

theorem warm_frame (maxVar : K) : front (warmUp maxVar s) = front s ∧ offsets (warmUp maxVar s) = offsets s := by
  unfold warmUp
  split_ifs <;> exact ⟨rfl,rfl⟩

theorem next_front (accel : Vec3 K) : front (next m s accel) = front (filtered s accel).1 := by
  obtain ⟨offset,mean,z,same⟩ := orientation_tracked m s accel
  have core : front (tracked m s accel) = front (filtered s accel).1 := by
    unfold tracked
    dsimp only
    split_ifs
    · rw [track_front]
      exact (warm_frame _).1
    · exact (warm_frame _).1
    · rfl
  rw [next,same]
  exact core

end Frames

-- The last raw values of z and the last filtered samples.
structure Buffers (raw inputs : List (Vec3 K)) (f : Front K) : Prop where
  window : Window 3 f.zMedianCount f.zMedianBuf (raw.map (·.z))
  ringX : Ring orientBufSize f.bufX (inputs.map (·.x))
  ringY : Ring orientBufSize f.bufY (inputs.map (·.y))
  ringZ : Ring orientBufSize f.bufZ (inputs.map (·.z))
  index : f.bufIdx = inputs.length%orientBufSize
  full : f.bufFull = true ↔ orientBufSize ≤ inputs.length

section Stores
variable {s : OrientState K} {raw inputs : List (Vec3 K)}

theorem start_buffers [Field K] : Buffers [] [] (front (start : OrientState K)) where
  window := window_empty rfl
  ringX := ring_empty List.length_replicate
  ringY := ring_empty List.length_replicate
  ringZ := ring_empty List.length_replicate
  index := rfl
  full := by simp [front,start,orientBufSize]

theorem store_buffers (buffers : Buffers raw inputs (front s)) (input : Vec3 K) :
    Buffers raw (inputs++[input]) (front (storeInBuffer s input)) := by
  obtain ⟨window,ringX,ringY,ringZ,index,full⟩ := buffers
  have size (f : Vec3 K → K) : (inputs.map f).length = inputs.length := List.length_map f
  have axis {buf : List K} {f : Vec3 K → K} (ring : Ring orientBufSize buf (inputs.map f)) :
      Ring orientBufSize (buf.set s.bufIdx (f input)) ((inputs++[input]).map f) := by
    have stored := ring_store (by decide) ring (f input)
    rw [size] at stored
    rw [List.map_append,List.map_singleton,show s.bufIdx = inputs.length%orientBufSize from index]
    exact stored
  have moved : s.bufIdx = inputs.length%20 := index
  have longer : (inputs++[input]).length = inputs.length+1 := by simp
  have was : s.bufFull = true ↔ 20 ≤ inputs.length := full
  unfold storeInBuffer
  dsimp only
  split
  · rename_i last
    have wrapped : 20 ≤ s.bufIdx+1 := last
    refine ⟨window,axis ringX,axis ringY,axis ringZ,?_,iff_of_true rfl ?_⟩
    · rw [longer]
      show 0 = (inputs.length+1)%20
      omega
    · rw [longer]
      show 20 ≤ inputs.length+1
      omega
  · rename_i inner
    have within : ¬20 ≤ s.bufIdx+1 := inner
    refine ⟨window,axis ringX,axis ringY,axis ringZ,?_,was.trans ?_⟩
    · rw [longer]
      show s.bufIdx+1 = (inputs.length+1)%20
      omega
    · rw [longer]
      show 20 ≤ inputs.length ↔ 20 ≤ inputs.length+1
      omega

variable [LinearOrder K]

-- median3 sorts three values by exchanges and takes the middle one.
theorem median3_isMedian (a b c : K) : IsMedian (median3 a b c) [a,b,c] := by
  unfold median3
  by_cases first : a > b
  · by_cases second : a > c
    · by_cases third : b > c
      · simp only [if_pos first,if_pos second,if_pos third]
        exact (median_between third.le first.le).of_perm (List.reverse_perm [a,b,c])
      · simp only [if_pos first,if_pos second,if_neg third]
        exact (median_between (not_lt.mp third) second.le).of_perm
          (show ([b,c]++[a]).Perm ([a]++[b,c]) from List.perm_append_comm)
    · simp only [if_pos first,if_neg second,if_neg (not_lt.mpr first.le)]
      exact (median_between first.le (not_lt.mp second)).of_perm (.swap a b [c])
  · by_cases second : b > c
    · by_cases third : a > c
      · simp only [if_neg first,if_pos second,if_pos third]
        exact (median_between third.le (not_lt.mp first)).of_perm
          (show ([c]++[a,b]).Perm ([a,b]++[c]) from List.perm_append_comm)
      · simp only [if_neg first,if_pos second,if_neg third]
        exact (median_between (not_lt.mp third) second.le).of_perm ((List.Perm.swap b c []).cons a)
    · simp only [if_neg first,if_neg second]
      exact median_between (not_lt.mp first) (not_lt.mp second)

variable [Field K]

theorem median_buffers (buffers : Buffers raw inputs (front s)) (accel : Vec3 K) :
    Buffers (raw++[accel]) inputs (front (medianFilterZ s accel.z).1) := by
  obtain ⟨window,ringX,ringY,ringZ,index,full⟩ := buffers
  have window : Window 3 s.zMedianCount s.zMedianBuf (raw.map (·.z)) := window
  have longer : (raw++[accel]).map (·.z) = raw.map (·.z)++[accel.z] := by simp
  unfold medianFilterZ
  split
  · rename_i room
    refine ⟨?_,ringX,ringY,ringZ,index,full⟩
    rw [longer]
    exact window_fill window room accel.z
  · rename_i past
    have three : s.zMedianCount = 3 := by
      have filled := window.filled
      omega
    obtain ⟨a,b,c,cells⟩ := List.length_eq_three.mp window.size
    refine ⟨?_,ringX,ringY,ringZ,index,full⟩
    have shifted := window_shift window (by decide) three accel.z
    rw [longer]
    rw [cells] at shifted
    simpa [front,cells] using shifted

theorem filtered_buffers (buffers : Buffers raw inputs (front s)) (accel : Vec3 K) :
    Buffers (raw++[accel]) (inputs++[(filtered s accel).2]) (front (filtered s accel).1) := by
  have median : Buffers (raw++[accel]) inputs (front (emaSmooth (medianFilterZ s accel.z).1 (filtered s accel).2)) :=
    median_buffers buffers accel
  exact store_buffers median _

-- Once the window is full the output is the median of the value and the two before it.
theorem median_last (buffers : Buffers raw inputs (front s)) (three : 3 ≤ raw.length) (accel : Vec3 K) :
    IsMedian (medianFilterZ s accel.z).2 (lastOf 3 ((raw++[accel]).map (·.z))) := by
  have window : Window 3 s.zMedianCount s.zMedianBuf (raw.map (·.z)) := buffers.window
  have count : s.zMedianCount = 3 := by
    have filled := window.filled
    rw [List.length_map] at filled
    omega
  have moved : medianFilterZ s accel.z =
      ({s with zMedianBuf := [s.zMedianBuf.getD 1 0,s.zMedianBuf.getD 2 0,accel.z]},
        median3 (s.zMedianBuf.getD 1 0) (s.zMedianBuf.getD 2 0) accel.z) := by
    rw [medianFilterZ,if_neg (by omega)]
    rfl
  have held := (median_buffers buffers accel).window.held
  simp only [moved,front,count] at held
  rw [moved,← held]
  exact median3_isMedian _ _ _

end Stores

-- What a step does to the offsets before their mean is taken: it records at most
-- one, the gravity offset that it has found.
structure Records (found : K) (b c : Offsets K) : Prop where
  buf : c.buf = b.buf ∧ c.count = b.count ∨
    b.count < orientOffsetBuf ∧ c.buf = b.buf.set b.count found ∧ c.count = b.count+1
  mean : c.mean = b.mean

-- The mean of five offsets without their extremes.
def reduced [Field K] [LinearOrder K] (buf : List K) : K :=
  (buf.sum-buf.foldl min (buf.getD 0 0)-buf.foldl max (buf.getD 0 0))/(orientOffsetBuf-2 : Nat)

-- What a whole step does to them: with the fifth the mean is taken anew.
structure Advances [Field K] [LinearOrder K] (found : K) (b c : Offsets K) : Prop where
  size : c.buf.length = orientOffsetBuf
  room : c.count < orientOffsetBuf
  moved : c = b ∨ c.buf = b.buf.set b.count found ∧ c.count = b.count+1 ∧ c.mean = b.mean ∨
    c.buf = b.buf.set b.count found ∧ b.count+1 = orientOffsetBuf ∧ c.count = 0 ∧ c.mean = reduced c.buf

section Steps
variable {s : OrientState K}

theorem Records.refl (found : K) (b : Offsets K) : Records found b b := ⟨.inl ⟨rfl,rfl⟩,rfl⟩

theorem Records.size {found : K} {b c : Offsets K} (records : Records found b c) : c.buf.length = b.buf.length := by
  rcases records.buf with ⟨same,_⟩ | ⟨_,stored,_⟩
  · rw [same]
  · rw [stored,List.length_set]

theorem record_records {u : OrientState K} (same : offsets u = offsets s) :
    Records (recordOffset u).gravityOffset (offsets s) (offsets (recordOffset u)) := by
  rw [← same]
  unfold recordOffset
  split
  · rename_i room
    exact ⟨.inr ⟨room,rfl,rfl⟩,rfl⟩
  · exact .refl _ _

variable [LinearOrder K] [Field K] (m : Maths K)

theorem resolve_records (ref cur : Vec3 K) :
    Records (tryResolveOffset m s ref cur).gravityOffset (offsets s) (offsets (tryResolveOffset m s ref cur)) := by
  unfold tryResolveOffset
  dsimp only
  rw [reset_offsets]
  split
  · exact record_records rfl
  · exact .refl _ _

theorem long_records (avgZ zSq : K) :
    Records (handleLongStable m s avgZ zSq).gravityOffset (offsets s) (offsets (handleLongStable m s avgZ zSq)) := by
  unfold handleLongStable
  dsimp only
  split_ifs
  all_goals
    first
    | exact record_records rfl
    | exact .refl _ _

theorem drift_records (avg : Vec3 K) (zSq : K) :
    Records (handleStableDrift m s avg zSq).gravityOffset (offsets s) (offsets (handleStableDrift m s avg zSq)) := by
  have given : offsets (updatePeakTrough (accumulateSample s avg) avg) = offsets s := (peak_frame avg).2
  have looked := (outlier_frame avg.z).2.trans given
  unfold handleStableDrift
  dsimp only
  split_ifs
  · rw [given]
    exact .refl _ _
  · rw [← looked]
    exact resolve_records m _ _
  · rw [← looked]
    exact long_records m _ _
  · rw [looked]
    exact .refl _ _

theorem follow_offsets (avg : Vec3 K) : offsets (followReference s avg).1 = offsets (updateOffsetTrimmedMean s) ∧
    (followReference s avg).1.gravityOffset = s.gravityOffset := by
  have kept : (updateOffsetTrimmedMean s).gravityOffset = s.gravityOffset := by
    unfold updateOffsetTrimmedMean
    split <;> rfl
  unfold followReference
  dsimp only
  split_ifs <;> exact ⟨rfl,kept⟩

theorem trimmed_offsets (five : s.offsetBuf.length = orientOffsetBuf) : offsets (updateOffsetTrimmedMean s) =
    if s.offsetCount < orientOffsetBuf then offsets s else ⟨s.offsetBuf,0,reduced s.offsetBuf⟩ := by
  unfold updateOffsetTrimmedMean
  split
  · rfl
  · rw [List.take_of_length_le five.le]
    rfl

-- The tail of update_gravity_tracking behind a state that has recorded.
theorem follow_advances {u : OrientState K} (size : s.offsetBuf.length = orientOffsetBuf) (room : s.offsetCount < orientOffsetBuf)
    (records : Records u.gravityOffset (offsets s) (offsets u)) (avg : Vec3 K) :
    Advances (followReference u avg).1.gravityOffset (offsets s) (offsets (followReference u avg).1) := by
  have five : u.offsetBuf.length = orientOffsetBuf := records.size.trans size
  have mean : u.trimmedMean = s.trimmedMean := records.mean
  rw [(follow_offsets avg).1,(follow_offsets avg).2,trimmed_offsets five]
  rcases records.buf with ⟨buf,count⟩ | ⟨_,buf,count⟩
  · have buf : u.offsetBuf = s.offsetBuf := buf
    have count : u.offsetCount = s.offsetCount := count
    have still : u.offsetCount < orientOffsetBuf := lt_of_eq_of_lt count room
    rw [if_pos still]
    refine ⟨five,still,.inl ?_⟩
    rw [offsets,offsets,buf,count,mean]
  · have count : u.offsetCount = s.offsetCount+1 := count
    split
    · rename_i still
      exact ⟨five,still,.inr (.inl ⟨buf,count,mean⟩)⟩
    · rename_i full
      have last : s.offsetCount+1 = orientOffsetBuf := by omega
      exact ⟨five,show 0 < 5 by decide,.inr (.inr ⟨buf,last,rfl,rfl⟩)⟩

theorem stays (found : K) (size : s.offsetBuf.length = orientOffsetBuf) (room : s.offsetCount < orientOffsetBuf) :
    Advances found (offsets s) (offsets s) := ⟨size,room,.inl rfl⟩

theorem tracking_advances (size : s.offsetBuf.length = orientOffsetBuf) (room : s.offsetCount < orientOffsetBuf)
    (avg : Vec3 K) (zSq : K) : Advances (updateGravityTracking m s avg zSq).1.gravityOffset (offsets s)
      (offsets (updateGravityTracking m s avg zSq).1) := by
  unfold updateGravityTracking
  dsimp only
  split_ifs
  · exact stays _ size room
  · exact follow_advances size room (drift_records m avg zSq) avg
  · exact stays _ size room
  · exact follow_advances size room (resolve_records m _ avg) avg

theorem track_advances (size : s.offsetBuf.length = orientOffsetBuf) (room : s.offsetCount < orientOffsetBuf) :
    Advances (trackBuffer m s).1.gravityOffset (offsets s) (offsets (trackBuffer m s).1) := by
  unfold trackBuffer
  dsimp only
  split
  · exact tracking_advances (s := resetAccumulator s) m size room _ _
  · exact tracking_advances m size room _ _

theorem filtered_offsets (accel : Vec3 K) : offsets (filtered s accel).1 = offsets s := by
  unfold filtered medianFilterZ emaSmooth storeInBuffer
  dsimp only
  split_ifs <;> rfl

theorem next_advances (size : s.offsetBuf.length = orientOffsetBuf) (room : s.offsetCount < orientOffsetBuf)
    (accel : Vec3 K) : Advances (next m s accel).gravityOffset (offsets s) (offsets (next m s accel)) := by
  obtain ⟨offset,mean,z,same⟩ := orientation_tracked m s accel
  have warm (maxVar : K) : offsets (warmUp maxVar (filtered s accel).1) = offsets s :=
    (warm_frame maxVar).2.trans (filtered_offsets accel)
  have core : Advances (tracked m s accel).gravityOffset (offsets s) (offsets (tracked m s accel)) := by
    unfold tracked
    dsimp only
    split_ifs
    · rw [← warm (maxBufferVariance (filtered s accel).1)]
      refine track_advances m ?_ ?_
      · exact (congrArg (fun o => o.buf.length) (warm _)).trans size
      · exact lt_of_eq_of_lt (congrArg Offsets.count (warm _)) room
    · rw [warm]
      exact stays _ size room
    · rw [filtered_offsets]
      exact stays _ size room
  rw [next,same]
  exact core

end Steps

section Means
variable [Field K] [LinearOrder K] [IsStrictOrderedRing K]

-- A mean without its extremes lies between them.
def Between (v : K) (buf : List K) : Prop :=
  buf.length = orientOffsetBuf ∧ ∃ lo hi,IsLeast {x | x ∈ buf} lo ∧ IsGreatest {x | x ∈ buf} hi ∧ lo ≤ v ∧ v ≤ hi

theorem reduced_between {buf : List K} (five : buf.length = orientOffsetBuf) : Between (reduced buf) buf := by
  obtain ⟨first,rest,cells⟩ := List.exists_cons_of_length_eq_add_one five
  subst cells
  have least := foldl_min first (first::rest)
  have greatest := foldl_max first (first::rest)
  have same : {y | y ∈ first::first::rest} = {y | y ∈ first::rest} := by
    simp
  rw [same] at least greatest
  have bounds := trimmed_between least greatest (by rw [five]; decide)
  rw [five] at bounds
  exact ⟨five,_,_,least,greatest,bounds.1,bounds.2⟩

end Means

theorem set_front {buf : List K} {n : Nat} (inside : n < buf.length) (v : K) : (buf.set n v).take (n+1) = buf.take n++[v] := by
  have front : (buf.take n).length = n := List.length_take_of_le inside.le
  rw [List.set_eq_take_append_cons_drop,if_pos inside,List.take_append,List.take_of_length_le (by omega),front,
    Nat.add_sub_cancel_left]
  rfl

section Runs
variable [Field K] [LinearOrder K] (m : Maths K)

-- The samples as they were stored, and the offsets that the present mean was taken of.
def stored : OrientState K → List (Vec3 K) → List (Vec3 K)
  | _,[] => []
  | s,accel::rest => (filtered s accel).2::stored (next m s accel) rest

def meanOf : OrientState K → Option (List K) → List (Vec3 K) → Option (List K)
  | _,taken,[] => taken
  | s,taken,accel::rest =>
    let t := next m s accel
    meanOf t (if t.offsetCount < s.offsetCount then some t.offsetBuf else taken) rest

-- The gravity offsets recorded since the mean was taken, and those that it was taken of.
def logged : OrientState K → List K × Option (List K) → List (Vec3 K) → List K × Option (List K)
  | _,log,[] => log
  | s,log,accel::rest =>
    let t := next m s accel
    logged t
      (if t.offsetCount = s.offsetCount then log
      else if s.offsetCount < t.offsetCount then (log.1++[t.gravityOffset],log.2)
      else ([],some (log.1++[t.gravityOffset]))) rest

theorem length_stored (s : OrientState K) (samples : List (Vec3 K)) : (stored m s samples).length = samples.length := by
  induction samples generalizing s with
  | nil => rfl
  | cons accel rest ih => exact congrArg (·+1) (ih (next m s accel))

theorem run_buffers {s : OrientState K} {raw inputs : List (Vec3 K)} (buffers : Buffers raw inputs (front s))
    (samples : List (Vec3 K)) :
    Buffers (raw++samples) (inputs++stored m s samples) (front (samples.foldl (next m) s)) := by
  induction samples generalizing s raw inputs with
  | nil =>
    rw [List.append_nil]
    exact (List.append_nil inputs).symm ▸ buffers
  | cons accel rest ih =>
    have step : Buffers (raw++[accel]) (inputs++[(filtered s accel).2]) (front (next m s accel)) := by
      rw [next_front]
      exact filtered_buffers buffers accel
    have later := ih step
    rw [List.append_assoc,List.append_assoc] at later
    exact later

-- The mean of the offsets, from none of them on.
def Meant [IsStrictOrderedRing K] (taken : Option (List K)) (v : K) : Prop :=
  match taken with
  | none => v = 0
  | some buf => Between v buf

theorem run_offsets [IsStrictOrderedRing K] {s : OrientState K} {taken : Option (List K)}
    (size : s.offsetBuf.length = orientOffsetBuf) (room : s.offsetCount < orientOffsetBuf) (meant : Meant taken s.trimmedMean)
    (samples : List (Vec3 K)) :
    (samples.foldl (next m) s).offsetBuf.length = orientOffsetBuf ∧ (samples.foldl (next m) s).offsetCount < orientOffsetBuf ∧
      Meant (meanOf m s taken samples) (samples.foldl (next m) s).trimmedMean := by
  induction samples generalizing s taken with
  | nil => exact ⟨size,room,meant⟩
  | cons accel rest ih =>
    obtain ⟨size',room',moved⟩ := next_advances m size room accel
    have kept (le : s.offsetCount ≤ (next m s accel).offsetCount) (same : (next m s accel).trimmedMean = s.trimmedMean) :
        Meant (if (next m s accel).offsetCount < s.offsetCount then some (next m s accel).offsetBuf else taken)
          (next m s accel).trimmedMean := by
      rw [if_neg (by omega),same]
      exact meant
    refine ih size' room' ?_
    rcases moved with same | ⟨_,count,same⟩ | ⟨_,last,zero,taken'⟩
    · exact kept (congrArg Offsets.count same).ge (congrArg Offsets.mean same)
    · exact kept ((Nat.le_succ _).trans count.ge) same
    · have last : s.offsetCount+1 = 5 := last
      have zero : (next m s accel).offsetCount = 0 := zero
      have taken' : (next m s accel).trimmedMean = reduced (next m s accel).offsetBuf := taken'
      rw [if_pos (by omega),taken']
      exact reduced_between size'

-- offset_buf holds what was recorded, in order, and the mean is one of the last five.
theorem run_logged {s : OrientState K} {log : List K × Option (List K)} (size : s.offsetBuf.length = orientOffsetBuf)
    (room : s.offsetCount < orientOffsetBuf) (entries : s.offsetBuf.take s.offsetCount = log.1) (samples : List (Vec3 K)) :
    (samples.foldl (next m) s).offsetBuf.take (samples.foldl (next m) s).offsetCount = (logged m s log samples).1 ∧
      meanOf m s log.2 samples = (logged m s log samples).2 := by
  induction samples generalizing s log with
  | nil => exact ⟨entries,rfl⟩
  | cons accel rest ih =>
    obtain ⟨size',room',moved⟩ := next_advances m size room accel
    have inside : s.offsetCount < s.offsetBuf.length := by rwa [size]
    simp only [List.foldl_cons,logged,meanOf]
    generalize next m s accel = t at size' room' moved ⊢
    rcases moved with same | ⟨buf,count,_⟩ | ⟨buf,last,zero,_⟩
    · have count : t.offsetCount = s.offsetCount := congrArg Offsets.count same
      have buf : t.offsetBuf = s.offsetBuf := congrArg Offsets.buf same
      rw [if_pos count,if_neg (by omega)]
      exact ih size' room' (by rw [buf,count,entries])
    · have count : t.offsetCount = s.offsetCount+1 := count
      have buf : t.offsetBuf = s.offsetBuf.set s.offsetCount t.gravityOffset := buf
      rw [if_neg (by omega),if_pos (by omega),if_neg (by omega)]
      exact ih size' room' (by rw [buf,count,set_front inside,entries])
    · have zero : t.offsetCount = 0 := zero
      have last : s.offsetCount+1 = orientOffsetBuf := last
      have buf : t.offsetBuf = s.offsetBuf.set s.offsetCount t.gravityOffset := buf
      have five : t.offsetBuf = log.1++[t.gravityOffset] := by
        rw [← entries,← set_front inside,last,← buf]
        exact (List.take_of_length_le (le_of_eq size')).symm
      have some : 0 < s.offsetCount := by
        simp only [orientOffsetBuf] at last
        omega
      rw [if_neg (by omega),if_neg (by omega),if_pos (by omega),five]
      exact ih size' room' (by rw [zero]; rfl)

end Runs

section Readers

theorem sampleVariance_perm [Field K] {n : Nat} {xs ys : List K} (perm : xs.Perm ys) (size : xs.length = n) :
    sampleVariance xs n = sampleVariance ys n := by
  have whole : xs.take n = xs := List.take_of_length_le size.le
  have whole' : ys.take n = ys := List.take_of_length_le (perm.length_eq ▸ size.le)
  rw [sampleVariance,sampleVariance,whole,whole',perm.sum_eq,(perm.map _).sum_eq]

theorem larger [LinearOrder K] (a b : K) : (if b > a then b else a) = max a b := by
  split
  · rename_i above
    exact (max_eq_right above.le).symm
  · rename_i below
    exact (max_eq_left (not_lt.mp below)).symm

-- What average_buffer and max_buffer_variance are of twenty samples.
def averageOf [Field K] (samples : List (Vec3 K)) : Vec3 K := each (fun xs => xs.sum/orientBufSize) samples

def varianceOf [Field K] [LinearOrder K] (samples : List (Vec3 K)) : K :=
  let v := each (fun xs => sampleVariance xs orientBufSize) samples
  max (max v.x v.y) v.z

variable {s : OrientState K} {raw inputs : List (Vec3 K)} (buffers : Buffers raw inputs (front s))
  (full : orientBufSize ≤ inputs.length)
include buffers full

theorem axes_perm : s.bufX.Perm ((lastOf orientBufSize inputs).map (·.x)) ∧
    s.bufY.Perm ((lastOf orientBufSize inputs).map (·.y)) ∧ s.bufZ.Perm ((lastOf orientBufSize inputs).map (·.z)) := by
  have size (f : Vec3 K → K) : orientBufSize ≤ (inputs.map f).length := by rwa [List.length_map]
  rw [map_lastOf,map_lastOf,map_lastOf]
  exact ⟨ring_perm buffers.ringX (size _),ring_perm buffers.ringY (size _),ring_perm buffers.ringZ (size _)⟩

-- Read from the next cell on, oldest first.
theorem buffers_last : s.bufX.rotate s.bufIdx = (lastOf orientBufSize inputs).map (·.x) ∧
    s.bufY.rotate s.bufIdx = (lastOf orientBufSize inputs).map (·.y) ∧
    s.bufZ.rotate s.bufIdx = (lastOf orientBufSize inputs).map (·.z) := by
  have index : s.bufIdx = inputs.length%orientBufSize := buffers.index
  have axis {buf : List K} (f : Vec3 K → K) (ring : Ring orientBufSize buf (inputs.map f)) :
      buf.rotate s.bufIdx = (lastOf orientBufSize inputs).map f := by
    have whole := ring_full ring (by rwa [List.length_map])
    rw [List.length_map] at whole
    rw [index,whole,map_lastOf]
  exact ⟨axis _ buffers.ringX,axis _ buffers.ringY,axis _ buffers.ringZ⟩

variable [Field K]

theorem averageBuffer_last : averageBuffer s = averageOf (lastOf orientBufSize inputs) := by
  obtain ⟨x,y,z⟩ := axes_perm buffers full
  have sizeX : s.bufX.length ≤ orientBufSize := buffers.ringX.size.le
  have sizeY : s.bufY.length ≤ orientBufSize := buffers.ringY.size.le
  have sizeZ : s.bufZ.length ≤ orientBufSize := buffers.ringZ.size.le
  rw [averageBuffer,averageOf,each,List.take_of_length_le sizeX,List.take_of_length_le sizeY,List.take_of_length_le sizeZ,
    x.sum_eq,y.sum_eq,z.sum_eq]

variable [LinearOrder K]

theorem maxBufferVariance_last : maxBufferVariance s = varianceOf (lastOf orientBufSize inputs) := by
  obtain ⟨x,y,z⟩ := axes_perm buffers full
  unfold maxBufferVariance varianceOf each
  dsimp only
  rw [larger,larger,sampleVariance_perm x buffers.ringX.size,sampleVariance_perm y buffers.ringY.size,
    sampleVariance_perm z buffers.ringZ.size]

end Readers

theorem records_bounded {found : K} {b c : Offsets K} (records : Records found b c) (room : b.count < orientOffsetBuf) :
    c.count ≤ orientOffsetBuf := by
  rcases records.buf with ⟨_,count⟩ | ⟨_,_,count⟩
  · omega
  · omega

section Filters
variable [Field K] [LinearOrder K] [IsStrictOrderedRing K] (m : Maths K)

-- The state behind a run of samples.
structure Filters (samples : List (Vec3 K)) (s : OrientState K) : Prop where
  median : ∀ accel : Vec3 K,3 ≤ samples.length → IsMedian (medianFilterZ s accel.z).2 (lastOf 3 ((samples++[accel]).map (·.z)))
  held : orientBufSize ≤ samples.length →
    s.bufX.rotate s.bufIdx = (lastOf orientBufSize (stored m start samples)).map (·.x) ∧
    s.bufY.rotate s.bufIdx = (lastOf orientBufSize (stored m start samples)).map (·.y) ∧
    s.bufZ.rotate s.bufIdx = (lastOf orientBufSize (stored m start samples)).map (·.z)
  average : orientBufSize ≤ samples.length → averageBuffer s = averageOf (lastOf orientBufSize (stored m start samples))
  variance : orientBufSize ≤ samples.length →
    maxBufferVariance s = varianceOf (lastOf orientBufSize (stored m start samples))
  ring : s.bufIdx < orientBufSize ∧ s.bufX.length = orientBufSize ∧ s.bufY.length = orientBufSize ∧
    s.bufZ.length = orientBufSize
  window : s.zMedianCount ≤ 3 ∧ s.zMedianBuf.length = 3
  collected : s.offsetCount < orientOffsetBuf ∧ s.offsetBuf.length = orientOffsetBuf
  recorded : ∀ u,offsets u = offsets s → ∀ ref cur avg zSq,
    (tryResolveOffset m u ref cur).offsetCount ≤ orientOffsetBuf ∧ (handleStableDrift m u avg zSq).offsetCount ≤ orientOffsetBuf
  mean : Meant (meanOf m start none samples) s.trimmedMean
  entries : s.offsetBuf.take s.offsetCount = (logged m start ([],none) samples).1 ∧
    meanOf m start none samples = (logged m start ([],none) samples).2

-- In every run the three buffers hold what their readers take them to hold.
theorem filters_run (samples : List (Vec3 K)) : Filters m samples (samples.foldl (next m) start) := by
  have buffers := run_buffers m start_buffers samples
  rw [List.nil_append,List.nil_append] at buffers
  have length := length_stored m (start : OrientState K) samples
  obtain ⟨size,room,mean⟩ := run_offsets (s := start) m List.length_replicate (show 0 < 5 by decide)
    (show Meant none (0 : K) from rfl) samples
  have many (full : orientBufSize ≤ samples.length) : orientBufSize ≤ (stored m start samples).length := by rwa [length]
  have entries : (samples.foldl (next m) start).offsetBuf.take (samples.foldl (next m) start).offsetCount =
      (logged m start ([],none) samples).1 ∧ meanOf m start none samples = (logged m start ([],none) samples).2 :=
    run_logged m List.length_replicate (show 0 < 5 by decide) rfl samples
  refine ⟨?_,?_,?_,?_,?_,?_,⟨room,size⟩,?_,mean,entries⟩
  · exact fun accel three => median_last buffers three accel
  · exact fun full => buffers_last buffers (many full)
  · exact fun full => averageBuffer_last buffers (many full)
  · exact fun full => maxBufferVariance_last buffers (many full)
  · refine ⟨?_,buffers.ringX.size,buffers.ringY.size,buffers.ringZ.size⟩
    exact lt_of_eq_of_lt buffers.index (Nat.mod_lt _ (by decide))
  · exact ⟨buffers.window.filled.trans_le (Nat.min_le_left _ _),buffers.window.size⟩
  · intro u same ref cur avg zSq
    have free : (offsets u).count < orientOffsetBuf := by
      rw [same]
      exact room
    exact ⟨records_bounded (resolve_records m ref cur) free,records_bounded (drift_records m avg zSq) free⟩

end Filters

-- A sensor that lies still and reads a tenth too much: five offsets, and their mean.
def still : List (Vec3 ℚ) := List.replicate 75 ⟨0,0,11/10⟩

theorem filters_run_still : Filters restingMaths still (still.foldl (next restingMaths) start) ∧
    meanOf restingMaths start none still = some (List.replicate 5 (1/10)) ∧
    (still.foldl (next restingMaths) start).trimmedMean = 1/10 := by
  have filters := filters_run restingMaths still
  refine ⟨filters,?_,by decide +kernel⟩
  rw [filters.entries.2]
  decide +kernel

end ChuwiMinibook.OrientBuffers
