import ChuwiMinibook.SysfsZone

namespace ChuwiMinibook.KernelTrips
open Zone SysfsZone

variable {σ : Type} (srt : StdSort) (devs : List (Cdev σ))

-- The kernel trips that become trips of the daemon, by their numbers.
def importable (attributes : TripAttributes) : Bool :=
  (readTemp attributes).any (· > 0) && decide (tripTypeOf attributes.type ≠ .invalidTripType) && !writable attributes

def imported (dir : ZoneDirectory) : List Nat := (List.range maxTripPoints).filter (fun i => importable (dir.trips i))

-- The place among the daemon's trips that kernel trip k has.
def importedAt (dir : ZoneDirectory) (k : Int) : Option Nat := (imported dir).findIdx? (fun i : Nat => decide ((i : Int) = k))

-- A cooling device that cdevN links to the kernel's trip k.
def linked (attributes : CdevAttributes) : Option (Int × Nat) :=
  attributes.tripPoint.bind (fun read => (readInt (-1) read).bind (fun k =>
    (attributes.link.bind deviceNumber).bind (fun number => (thdGetCdevAtIndex devs number).map (fun c => (k,c)))))

-- The trip that read_cdev_trip_points attaches the device of a link to.
def boundTo (tripPointCnt : Nat) (k : Int) : Option Nat :=
  if 0 ≤ k ∧ k < tripPointCnt then some k.toNat else none

def call (tripPointCnt : Nat) (attributes : CdevAttributes) : Option (Nat × TripPtCdev) :=
  (linked devs attributes).bind (fun link =>
    (boundTo tripPointCnt link.1).map (·,indexBinding link.2 AdaptiveEngine.defaultInfluence))

-- Every link goes to the trip that its kernel trip has become, or to none.
def BindingsKept (dir : ZoneDirectory) (tripPointCnt : Nat) : Prop :=
  ∀ i < maxCoolDevs,∀ k c,linked devs (dir.cdevs i) = some (k,c) → boundTo tripPointCnt k = importedAt dir k

-- The kernel's numbers are the daemon's for every trip that is linked to.
def NumbersAgree (dir : ZoneDirectory) : Prop :=
  ∀ i < maxCoolDevs,∀ (k : Nat) c,linked devs (dir.cdevs i) = some ((k : Int),c) →
    (k ∈ imported dir → ∀ j < k,j ∈ imported dir) ∧ (k ∉ imported dir → max 1 (imported dir).length ≤ k)

-- The daemon's trip for kernel trip i, as number place.
def kernelTrip (z : Zone) (sensor : Sensor) (attributes : TripAttributes) (place : Nat) : TripPoint :=
  TripPoint.new place (tripTypeOf attributes.type) ((readTemp attributes).getD 0).toNat
    ((readHyst attributes).getD 0).toNat z.index sensor.index .sequential

-- One pass of the loop that returns: the trip is imported or skipped.
theorem readTripPoint_spec {sensor : Sensor} {s s' : SysfsZone} {attributes : TripAttributes}
    (done : readTripPoint (some sensor) s attributes = some s') :
    s'.zone = {s.zone with tripPoints := s'.zone.tripPoints} ∧
      if importable attributes then
        s'.zone.tripPoints = s.zone.tripPoints++[kernelTrip s.zone sensor attributes s.tripPointCnt] ∧
          s'.tripPointCnt = s.tripPointCnt+1
      else s'.zone.tripPoints = s.zone.tripPoints ∧ s'.tripPointCnt = s.tripPointCnt := by
  unfold readTripPoint at done
  cases temp : readTemp attributes with
  | none =>
    rw [temp] at done
    cases done
  | some temp' =>
    cases hyst : readHyst attributes with
    | none =>
      rw [temp,hyst] at done
      cases done
    | some hyst' =>
      rw [temp,hyst] at done
      simp only [Option.isSome_some,Bool.true_and] at done
      by_cases taken : temp' > 0 ∧ tripTypeOf attributes.type ≠ .invalidTripType ∧ writable attributes = false
      · rw [if_pos taken] at done
        have chosen : importable attributes = true := by simp [importable,temp,taken]
        cases done
        rw [if_pos chosen]
        exact ⟨rfl,by simp [kernelTrip,temp,hyst],rfl⟩
      · rw [if_neg taken] at done
        have skipped : importable attributes = false := by
          by_contra other
          exact taken (by simpa [importable,temp,and_assoc] using other)
        cases done
        rw [skipped,if_neg Bool.false_ne_true]
        exact ⟨rfl,rfl,rfl⟩

theorem readTripPoint_sensorless {s s' : SysfsZone} {attributes : TripAttributes}
    (done : readTripPoint none s attributes = some s') : s'.tripPointCnt = s.tripPointCnt := by
  unfold readTripPoint at done
  cases temp : readTemp attributes with
  | none =>
    rw [temp] at done
    cases done
  | some temp' =>
    cases hyst : readHyst attributes with
    | none =>
      rw [temp,hyst] at done
      cases done
    | some hyst' =>
      rw [temp,hyst] at done
      cases done
      rfl

def numbered (z : Zone) (sensor : Sensor) (dir : ZoneDirectory) (kernel : List Nat) : List TripPoint :=
  kernel.zipIdx.map (fun entry => kernelTrip z sensor (dir.trips entry.1) entry.2)

theorem numbered_snoc (z : Zone) (sensor : Sensor) (dir : ZoneDirectory) (kernel : List Nat) (i : Nat) :
    numbered z sensor dir (kernel++[i]) = numbered z sensor dir kernel++[kernelTrip z sensor (dir.trips i) kernel.length] := by
  simp [numbered,List.zipIdx_append]

theorem foldlM_range_succ {α : Type} {f : α → Nat → Option α} {n : Nat} {a c : α}
    (done : (List.range (n+1)).foldlM f a = some c) :
    ∃ b,(List.range n).foldlM f a = some b ∧ f b n = some c := by
  rw [List.range_succ,List.foldlM_append] at done
  obtain ⟨b,first,last⟩ := Option.bind_eq_some_iff.mp done
  rw [List.foldlM_cons] at last
  obtain ⟨c',stepped,nothing⟩ := Option.bind_eq_some_iff.mp last
  cases nothing
  exact ⟨b,first,stepped⟩

-- The loop imports the importable trips in their order, numbered densely.
theorem readLoop_spec {sensor : Sensor} {dir : ZoneDirectory} {s s' : SysfsZone} (unread : s.zone.tripPoints = [])
    (zero : s.tripPointCnt = 0) (n : Nat)
    (done : (List.range n).foldlM (fun s i => readTripPoint (some sensor) s (dir.trips i)) s = some s') :
    s'.zone = {s.zone with
      tripPoints := numbered s.zone sensor dir ((List.range n).filter (fun i => importable (dir.trips i)))} ∧
    s'.tripPointCnt = ((List.range n).filter (fun i => importable (dir.trips i))).length := by
  induction n generalizing s' with
  | zero =>
    cases done
    obtain ⟨⟨_,_,_,_,_,_,_⟩,_,_,_⟩ := s
    cases unread
    exact ⟨rfl,zero⟩
  | succ n ih =>
    obtain ⟨middle,first,last⟩ := foldlM_range_succ done
    obtain ⟨zone,count⟩ := ih first
    obtain ⟨kept,changed⟩ := readTripPoint_spec last
    rw [List.range_succ,List.filter_append]
    cases chosen : importable (dir.trips n) with
    | true =>
      rw [chosen,if_pos rfl] at changed
      have one : [n].filter (fun i => importable (dir.trips i)) = [n] := by simp [chosen]
      rw [one,numbered_snoc,List.length_append,kept,changed.1,changed.2,zone,count]
      exact ⟨rfl,rfl⟩
    | false =>
      rw [chosen,if_neg Bool.false_ne_true] at changed
      have none : [n].filter (fun i => importable (dir.trips i)) = [] := by simp [chosen]
      rw [none,List.append_nil,kept,changed.1,changed.2,zone,count]
      exact ⟨rfl,rfl⟩

theorem readLoop_sensorless {dir : ZoneDirectory} {s s' : SysfsZone} (n : Nat)
    (done : (List.range n).foldlM (fun s i => readTripPoint none s (dir.trips i)) s = some s') :
    s'.tripPointCnt = s.tripPointCnt := by
  induction n generalizing s' with
  | zero =>
    cases done
    rfl
  | succ n ih =>
    obtain ⟨middle,first,last⟩ := foldlM_range_succ done
    rw [readTripPoint_sensorless last,ih first]

def defaultTrip (z : Zone) (sensor : Sensor) : TripPoint :=
  TripPoint.new 0 .passive int32Max 0 z.index sensor.index .sequential

-- What read_trip_points leaves of a new zone when it succeeds.
theorem readTripPoints_spec {sensor : Option Sensor} {dir : ZoneDirectory} {s s' : SysfsZone}
    (unread : s.zone.tripPoints = []) (zero : s.tripPointCnt = 0) (done : readTripPoints sensor dir s = some s') :
    ∃ own,sensor = some own ∧ s'.tripPointCnt = max 1 (imported dir).length ∧ s'.zone.tripPoints =
      if imported dir = [] then [defaultTrip s.zone own] else numbered s.zone own dir (imported dir) := by
  unfold readTripPoints at done
  obtain ⟨middle,loop,last⟩ := Option.bind_eq_some_iff.mp done
  cases sensor with
  | none =>
    have count := readLoop_sensorless maxTripPoints loop
    rw [count,zero,if_pos rfl] at last
    cases last
  | some own =>
    obtain ⟨zone,count⟩ := readLoop_spec unread zero maxTripPoints loop
    change middle.tripPointCnt = (imported dir).length at count
    change middle.zone = {s.zone with tripPoints := numbered s.zone own dir (imported dir)} at zone
    refine ⟨own,rfl,?_⟩
    rw [count] at last
    cases shape : imported dir with
    | nil =>
      rw [shape] at last zone
      cases last
      rw [zone]
      exact ⟨rfl,rfl⟩
    | cons first rest =>
      rw [shape,if_neg (by simp)] at last
      cases last
      rw [zone,count,shape,if_neg (List.cons_ne_nil _ _)]
      refine ⟨?_,rfl⟩
      rw [List.length_cons]
      omega

theorem readCdevTripPoint_spec {s s' : SysfsZone} {attributes : CdevAttributes}
    (done : readCdevTripPoint srt devs s attributes = some s') :
    s'.tripPointCnt = s.tripPointCnt ∧ s'.zone.tripPoints =
      attach srt (typeOf devs) s.zone.tripPoints (call devs s.tripPointCnt attributes).toList := by
  unfold readCdevTripPoint at done
  unfold call linked
  cases given : attributes.tripPoint with
  | none =>
    rw [given] at done
    cases done
    exact ⟨rfl,rfl⟩
  | some read =>
    rw [given] at done
    dsimp only [Option.bind_some] at done ⊢
    cases counted : readInt (-1) read with
    | none =>
      rw [counted] at done
      cases done
    | some k =>
      rw [counted] at done
      dsimp only [Option.bind_some] at done ⊢
      cases text : attributes.link.bind deviceNumber with
      | none =>
        rw [text] at done
        cases done
        exact ⟨rfl,rfl⟩
      | some number =>
        rw [text] at done
        dsimp only [Option.bind_some] at done ⊢
        unfold boundTo
        by_cases inside : 0 ≤ k ∧ k < s.tripPointCnt
        · rw [if_pos inside] at done
          cases done
          refine ⟨rfl,?_⟩
          unfold thdTripPointAddCdevIndex
          cases thdGetCdevAtIndex devs number with
          | none =>
            change s.zone.tripPoints.modify k.toNat (fun t => t) = s.zone.tripPoints
            exact List.modify_id _ _
          | some c =>
            rw [Option.map_some,Option.bind_some,if_pos inside]
            rfl
        · rw [if_neg inside] at done
          cases done
          refine ⟨rfl,?_⟩
          cases thdGetCdevAtIndex devs number with
          | none => rfl
          | some c =>
            rw [Option.map_some,Option.bind_some,if_neg inside]
            rfl

theorem attach_append (trips : List TripPoint) (first second : List (Nat × TripPtCdev)) (names : Nat → String) :
    attach srt names trips (first++second) = attach srt names (attach srt names trips first) second :=
  List.foldl_append

-- read_cdev_trip_points makes one attachment for each link that is bound.
theorem readCdevLoop_spec {dir : ZoneDirectory} {s s' : SysfsZone} (n : Nat)
    (done : (List.range n).foldlM (fun s i => readCdevTripPoint srt devs s (dir.cdevs i)) s = some s') :
    s'.tripPointCnt = s.tripPointCnt ∧ s'.zone.tripPoints = attach srt (typeOf devs) s.zone.tripPoints
      ((List.range n).filterMap (fun i => call devs s.tripPointCnt (dir.cdevs i))) := by
  induction n generalizing s' with
  | zero =>
    cases done
    exact ⟨rfl,rfl⟩
  | succ n ih =>
    obtain ⟨middle,first,last⟩ := foldlM_range_succ done
    obtain ⟨count,trips⟩ := ih first
    obtain ⟨same,bound⟩ := readCdevTripPoint_spec srt devs last
    refine ⟨same.trans count,?_⟩
    rw [bound,trips,count,← attach_append,List.range_succ,List.filterMap_append]
    congr 2

theorem mem_imported {dir : ZoneDirectory} {k : Nat} :
    k ∈ imported dir ↔ k < maxTripPoints ∧ importable (dir.trips k) = true := by
  simp [imported]

theorem findIdx_filter_range (f : Nat → Bool) (n k : Nat) :
    ((List.range n).filter f).findIdx? (fun i : Nat => decide ((i : Int) = k)) =
      if k < n ∧ f k = true then some ((List.range k).filter f).length else none := by
  induction n with
  | zero => rfl
  | succ n ih =>
    rw [List.range_succ,List.filter_append,List.findIdx?_append,ih]
    by_cases earlier : k < n ∧ f k = true
    · rw [if_pos earlier,if_pos ⟨Nat.lt_succ_of_lt earlier.1,earlier.2⟩]
      rfl
    · rw [if_neg earlier,Option.none_or]
      cases taken : f n with
      | false =>
        rw [List.filter_cons_of_neg (by simp [taken]),List.filter_nil,List.findIdx?_nil,Option.map_none]
        refine (if_neg ?_).symm
        rintro ⟨bound,given⟩
        rcases Nat.lt_succ_iff_lt_or_eq.mp bound with less | same
        · exact earlier ⟨less,given⟩
        · rw [same,taken] at given
          cases given
      | true =>
        rw [List.filter_cons_of_pos taken,List.filter_nil]
        by_cases same : n = k
        · rw [if_pos (by subst same; exact ⟨Nat.lt_succ_self n,taken⟩)]
          subst same
          simp
        · rw [if_neg (fun both => earlier ⟨by omega,both.2⟩)]
          simp only [List.findIdx?_cons,List.findIdx?_nil]
          rw [if_neg (by simpa using same)]
          rfl

theorem importedAt_nat (dir : ZoneDirectory) (k : Nat) :
    importedAt dir k = if k ∈ imported dir then
      some ((List.range k).filter (fun i => importable (dir.trips i))).length else none := by
  unfold importedAt
  rw [imported,findIdx_filter_range]
  exact if_congr mem_imported.symm rfl rfl

theorem importedAt_negative {dir : ZoneDirectory} {k : Int} (negative : k < 0) : importedAt dir k = none := by
  unfold importedAt
  apply List.findIdx?_eq_none_iff.mpr
  intro i _
  simp only [decide_eq_false_iff_not]
  omega

-- Kernel trip k keeps its number exactly when none before it was skipped.
theorem place_unmoved {dir : ZoneDirectory} {k : Nat} (here : k ∈ imported dir) :
    ((List.range k).filter (fun i => importable (dir.trips i))).length = k ↔ ∀ j < k,j ∈ imported dir := by
  have bound := (mem_imported.mp here).1
  constructor
  · intro all j before
    have full := List.length_filter_eq_length_iff.mp (all.trans List.length_range.symm)
    exact mem_imported.mpr ⟨Nat.lt_trans before bound,full j (List.mem_range.mpr before)⟩
  · intro all
    refine (List.length_filter_eq_length_iff.mpr ?_).trans List.length_range
    intro j inside
    exact (mem_imported.mp (all j (List.mem_range.mp inside))).2

theorem place_inside {dir : ZoneDirectory} {k place : Nat} (found : importedAt dir k = some place) :
    place < (imported dir).length :=
  (List.findIdx?_eq_some_iff_getElem.mp found).1

theorem bound_iff (dir : ZoneDirectory) (k : Nat) :
    boundTo (max 1 (imported dir).length) k = importedAt dir k ↔
      (k ∈ imported dir → ∀ j < k,j ∈ imported dir) ∧ (k ∉ imported dir → max 1 (imported dir).length ≤ k) := by
  have code : boundTo (max 1 (imported dir).length) k = if k < max 1 (imported dir).length then some k else none := by
    unfold boundTo
    exact if_congr ⟨fun both => Int.ofNat_lt.mp both.2,fun less => ⟨Int.natCast_nonneg k,Int.ofNat_lt.mpr less⟩⟩ rfl rfl
  rw [code,importedAt_nat]
  by_cases here : k ∈ imported dir
  · rw [if_pos here]
    constructor
    · intro same
      refine ⟨fun _ => (place_unmoved here).mp ?_,fun other => absurd here other⟩
      split at same
      · exact (Option.some.inj same).symm
      · cases same
    · intro given
      have unmoved := (place_unmoved here).mpr (given.1 here)
      have placed : importedAt dir k = some k := by rw [importedAt_nat,if_pos here,unmoved]
      have inside := place_inside placed
      rw [if_pos (by omega),unmoved]
  · rw [if_neg here]
    constructor
    · intro same
      refine ⟨fun other => absurd other here,fun _ => ?_⟩
      by_contra inside
      rw [if_pos (Nat.not_le.mp inside)] at same
      cases same
    · intro given
      exact if_neg (Nat.not_lt.mpr (given.2 here))

-- The names of the devices bound to a trip; trip_cdev_add keeps one of a name.
def holds (names : Nat → String) (name : String) (t : TripPoint) : Prop := ∃ b ∈ t.cdevs,names b.cdev = name

theorem holds_add (names : Nat → String) (t : TripPoint) (b : TripPtCdev) (name : String) :
    holds names name (TripPoint.tripCdevAdd srt names t b) ↔ holds names name t ∨ names b.cdev = name := by
  unfold holds TripPoint.tripCdevAdd
  simp only [srt.mem_sort]
  cases found : t.cdevs.findIdx? (fun old => names old.cdev == names b.cdev) with
  | none => simp [or_and_right,exists_or]
  | some i =>
    obtain ⟨inside,same,_⟩ := List.findIdx?_eq_some_iff_getElem.mp found
    have kept : (t.cdevs.modify i (fun old => {old with influence := b.influence})).map (names ·.cdev) =
        t.cdevs.map (names ·.cdev) := by
      apply List.ext_getElem?
      intro j
      rw [List.getElem?_map,List.getElem?_map,List.getElem?_modify]
      split <;> cases t.cdevs[j]? <;> rfl
    have listed (bindings : List TripPtCdev) : (∃ b ∈ bindings,names b.cdev = name) ↔ name ∈ bindings.map (names ·.cdev) :=
      List.mem_map.symm
    dsimp only
    rw [listed,kept,← listed]
    refine ⟨.inl,fun given => given.elim id ?_⟩
    intro own
    exact ⟨t.cdevs[i],List.getElem_mem inside,(eq_of_beq same).trans own⟩

theorem attach_holds (names : Nat → String) (links : List (Nat × TripPtCdev)) (trips : List TripPoint)
    {j : Nat} (inside : j < trips.length) (name : String) :
    (∃ t ∈ (attach srt names trips links)[j]?,holds names name t) ↔
      (∃ t ∈ trips[j]?,holds names name t) ∨ ∃ link ∈ links,link.1 = j ∧ names link.2.cdev = name := by
  induction links generalizing trips with
  | nil => simp [attach]
  | cons link rest ih =>
    have later := ih (trips.modify link.1 (fun t => TripPoint.tripCdevAdd srt names t link.2))
      (by rw [List.length_modify]; exact inside)
    change (∃ t ∈ (attach srt names (trips.modify link.1 _) rest)[j]?,_) ↔ _
    rw [later,List.getElem?_modify,List.getElem?_eq_getElem inside]
    by_cases target : link.1 = j
    · simp [target,holds_add,or_assoc]
    · simp [target]

theorem read_unbound {sensor : Option Sensor} {dir : ZoneDirectory} {s s' : SysfsZone} (unread : s.zone.tripPoints = [])
    (zero : s.tripPointCnt = 0) (trips : readTripPoints sensor dir s = some s') : ∀ t ∈ s'.zone.tripPoints,t.cdevs = [] := by
  obtain ⟨own,_,_,shape⟩ := readTripPoints_spec unread zero trips
  intro t inside
  rw [shape] at inside
  split at inside
  · cases List.mem_singleton.mp inside
    rfl
  · obtain ⟨_,_,rfl⟩ := List.mem_map.mp inside
    rfl

-- The devices of a trip are those of the links bound to its place.
def BoundByLinks (dir : ZoneDirectory) (tripPointCnt : Nat) (trips : List TripPoint) : Prop :=
  ∀ j < trips.length,∀ name,(∃ t ∈ trips[j]?,holds (typeOf devs) name t) ↔
    ∃ i < maxCoolDevs,∃ k c,linked devs (dir.cdevs i) = some (k,c) ∧ boundTo tripPointCnt k = some j ∧ typeOf devs c = name

theorem call_iff (tripPointCnt : Nat) (attributes : CdevAttributes) (link : Nat × TripPtCdev) :
    call devs tripPointCnt attributes = some link ↔ ∃ k c,linked devs attributes = some (k,c) ∧
      boundTo tripPointCnt k = some link.1 ∧ link.2 = indexBinding c AdaptiveEngine.defaultInfluence := by
  unfold call
  constructor
  · intro made
    obtain ⟨⟨k,c⟩,given,bound⟩ := Option.bind_eq_some_iff.mp made
    obtain ⟨j,target,rfl⟩ := Option.map_eq_some_iff.mp bound
    exact ⟨k,c,given,target,rfl⟩
  · rintro ⟨k,c,given,target,same⟩
    rw [given,Option.bind_some,target,Option.map_some,← same]

theorem length_attach (names : Nat → String) (links : List (Nat × TripPtCdev)) (trips : List TripPoint) :
    (attach srt names trips links).length = trips.length := by
  induction links generalizing trips with
  | nil => rfl
  | cons link rest ih => exact (ih _).trans (List.length_modify _ _ _)

theorem bound_by_links {dir : ZoneDirectory} {s s' : SysfsZone} (unbound : ∀ t ∈ s.zone.tripPoints,t.cdevs = [])
    (cdevs : readCdevTripPoints srt devs dir s = some s') : BoundByLinks devs dir s.tripPointCnt s'.zone.tripPoints := by
  intro j inside name
  have shape := (readCdevLoop_spec srt devs maxCoolDevs cdevs).2
  rw [shape,length_attach] at inside
  rw [shape,attach_holds srt (typeOf devs) _ _ inside]
  constructor
  · rintro (⟨t,here,b,bound,_⟩ | ⟨link,listed,target,named⟩)
    · rw [unbound t (List.mem_of_getElem? here)] at bound
      cases bound
    · obtain ⟨i,range,made⟩ := List.mem_filterMap.mp listed
      obtain ⟨k,c,given,bound,same⟩ := (call_iff devs s.tripPointCnt (dir.cdevs i) link).mp made
      rw [same] at named
      exact ⟨i,List.mem_range.mp range,k,c,given,target ▸ bound,named⟩
  · rintro ⟨i,range,k,c,given,bound,named⟩
    refine .inr ⟨(j,indexBinding c AdaptiveEngine.defaultInfluence),List.mem_filterMap.mpr ⟨i,List.mem_range.mpr range,?_⟩,rfl,named⟩
    exact (call_iff devs s.tripPointCnt (dir.cdevs i) _).mpr ⟨k,c,given,bound,rfl⟩

-- A trip without its devices.
def bare (t : TripPoint) : TripPoint := {t with cdevs := []}

-- The trip at a place is the one imported from the kernel trip of that place.
def Imports (z : Zone) (sensor : Sensor) (dir : ZoneDirectory) (trips : List TripPoint) : Prop :=
  trips.length = max 1 (imported dir).length ∧ ∀ (k : Nat) place,importedAt dir k = some place →
    trips[place]?.map bare = some (kernelTrip z sensor (dir.trips k) place)

theorem attach_bare (names : Nat → String) (links : List (Nat × TripPtCdev)) (trips : List TripPoint) :
    (attach srt names trips links).map bare = trips.map bare := by
  induction links generalizing trips with
  | nil => rfl
  | cons link rest ih =>
    refine (ih _).trans ?_
    apply List.ext_getElem?
    intro i
    rw [List.getElem?_map,List.getElem?_map,List.getElem?_modify]
    split <;> cases trips[i]? <;> rfl

theorem numbered_imports (z : Zone) (sensor : Sensor) {dir : ZoneDirectory} {k place : Nat}
    (found : importedAt dir k = some place) :
    (numbered z sensor dir (imported dir))[place]?.map bare = some (kernelTrip z sensor (dir.trips k) place) := by
  obtain ⟨inside,same,_⟩ := List.findIdx?_eq_some_iff_getElem.mp found
  have kernel : (imported dir)[place] = k := Int.ofNat_inj.mp (of_decide_eq_true same)
  rw [numbered,List.getElem?_map,List.getElem?_zipIdx,List.getElem?_eq_getElem inside,kernel,Nat.zero_add]
  rfl

theorem read_imports {sensor : Option Sensor} {dir : ZoneDirectory} {s s' s'' : SysfsZone} (unread : s.zone.tripPoints = [])
    (zero : s.tripPointCnt = 0) (trips : readTripPoints sensor dir s = some s')
    (cdevs : readCdevTripPoints srt devs dir s' = some s'') :
    ∃ own,sensor = some own ∧ Imports s.zone own dir s''.zone.tripPoints := by
  obtain ⟨own,known,_,shape⟩ := readTripPoints_spec unread zero trips
  have attached := (readCdevLoop_spec srt devs maxCoolDevs cdevs).2
  refine ⟨own,known,?_,?_⟩
  · rw [attached,length_attach,shape]
    split
    · rename_i none
      rw [none]
      rfl
    · rename_i some
      have pos := List.length_pos_iff.mpr some
      rw [numbered,List.length_map,List.length_zipIdx]
      omega
  · intro k place found
    have inside := place_inside found
    have some : imported dir ≠ [] := List.ne_nil_of_length_pos (Nat.zero_lt_of_lt inside)
    rw [if_neg some] at shape
    rw [← List.getElem?_map,attached,attach_bare,shape,List.getElem?_map]
    exact numbered_imports s.zone own found

theorem bindings_kept_iff {sensor : Option Sensor} {dir : ZoneDirectory} {s s' s'' : SysfsZone}
    (unread : s.zone.tripPoints = []) (zero : s.tripPointCnt = 0)
    (trips : readTripPoints sensor dir s = some s') (cdevs : readCdevTripPoints srt devs dir s' = some s'') :
    (∃ own,sensor = some own ∧ Imports s.zone own dir s''.zone.tripPoints) ∧
      BoundByLinks devs dir s'.tripPointCnt s''.zone.tripPoints ∧
      (BindingsKept devs dir s'.tripPointCnt ↔ NumbersAgree devs dir) := by
  obtain ⟨_,_,count,_⟩ := readTripPoints_spec unread zero trips
  refine ⟨read_imports srt devs unread zero trips cdevs,bound_by_links srt devs (read_unbound unread zero trips) cdevs,?_⟩
  rw [count]
  constructor
  · intro kept i bound k c link
    exact (bound_iff dir k).mp (kept i bound k c link)
  · intro agree i bound k c link
    cases k with
    | ofNat k => exact (bound_iff dir k).mpr (agree i bound k c link)
    | negSucc k =>
      have negative : Int.negSucc k < 0 := Int.negSucc_lt_zero k
      rw [importedAt_negative negative,boundTo,if_neg (fun both => by omega)]

def acpiSensor : Sensor := ⟨0,"acpitz",false,false⟩

def newZone : SysfsZone := ⟨⟨0,"acpitz",[],false,false,[0],.independent⟩,0,[],false⟩

def sysfsFans : List (Cdev Int) := [⟨0,"Fan","",⟨0,10,0,0,0,1,false,0,0,false,false,Pid.new,false,0,0,0⟩,[]⟩]

def noTrip : TripAttributes := ⟨none,none,none⟩

-- Two kernel trips and one link to the second; the first may be writable.
def fanDirectory (firstWritable : Bool) : ZoneDirectory where
  trips i :=
    if i = 0 then ⟨some "passive",some (firstWritable,.value 60000),none⟩
    else if i = 1 then ⟨some "active",some (false,.value 70000),some (.value 2000)⟩
    else if i = 2 then ⟨some "critical",some (false,.value 100000),none⟩
    else noTrip
  cdevs i := if i = 0 then ⟨some (.value 1),some "../../cooling_device0"⟩ else ⟨none,none⟩

theorem fan_reads (firstWritable : Bool) : ∃ s' s'',readTripPoints (some acpiSensor) (fanDirectory firstWritable) newZone = some s' ∧
    readCdevTripPoints .insertion sysfsFans (fanDirectory firstWritable) s' = some s'' := by
  have both : ((readTripPoints (some acpiSensor) (fanDirectory firstWritable) newZone).bind
      (readCdevTripPoints .insertion sysfsFans (fanDirectory firstWritable))).isSome = true := by
    cases firstWritable <;> decide +kernel
  obtain ⟨s'',all⟩ := Option.isSome_iff_exists.mp both
  obtain ⟨s',first,second⟩ := Option.bind_eq_some_iff.mp all
  exact ⟨s',s'',first,second⟩

theorem bindings_kept_iff_unskipped : ∃ s',readTripPoints (some acpiSensor) (fanDirectory false) newZone = some s' ∧
    BindingsKept sysfsFans (fanDirectory false) s'.tripPointCnt := by
  obtain ⟨s',s'',first,second⟩ := fan_reads false
  refine ⟨s',first,(bindings_kept_iff .insertion sysfsFans rfl rfl first second).2.2.mpr ?_⟩
  intro i bound k c link
  have only : i = 0 := by
    by_contra other
    simp [fanDirectory,linked,other] at link
  rw [only] at link
  have target : linked sysfsFans ((fanDirectory false).cdevs 0) = some (1,0) := by decide +kernel
  rw [target] at link
  have one : 1 = k := by
    have first := congrArg Prod.fst (Option.some.inj link)
    exact Int.ofNat_inj.mp first
  subst one
  decide +kernel

-- With the first kernel trip skipped the fan goes to the critical trip.
theorem skipped_trip_shifts : ∃ s' s'',readTripPoints (some acpiSensor) (fanDirectory true) newZone = some s' ∧
    readCdevTripPoints .insertion sysfsFans (fanDirectory true) s' = some s'' ∧
    ¬ BindingsKept sysfsFans (fanDirectory true) s'.tripPointCnt := by
  obtain ⟨s',s'',first,second⟩ := fan_reads true
  refine ⟨s',s'',first,second,?_⟩
  intro kept
  obtain ⟨_,_,count,_⟩ := readTripPoints_spec rfl rfl first
  have shifted := kept 0 (by decide) 1 0 (by decide +kernel)
  rw [count] at shifted
  revert shifted
  decide +kernel

end ChuwiMinibook.KernelTrips
