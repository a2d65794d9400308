import ChuwiMinibook.Engine
import ChuwiMinibook.ZoneChecks

namespace ChuwiMinibook.SteadyCycle
open Cdev CdevArbitration CdevBank ZoneChecks Machine
variable {σ : Type} (m : Methods σ) (srt : StdSort)

-- The fields behind the debounce test, as every control branch leaves them.
theorem actuate_stamp (d : Dev σ) (now : Int) (q : Request) (o : Order) (pid : Pid) :
    (actuate m d now q o pid).1.lastState = q.state ∧ (actuate m d now q o pid).1.lastActionTime = now ∧
      (actuate m d now q o pid).1.debounceInterval = d.debounceInterval := by
  have begun : (beginAction m d now q).lastState = q.state ∧ (beginAction m d now q).lastActionTime = now ∧
      (beginAction m d now q).debounceInterval = d.debounceInterval := by
    unfold beginAction
    dsimp only
    split <;> exact ⟨rfl,rfl,rfl⟩
  have increased (d : Dev σ) (current : Int) : (increase d current).1.lastState = d.lastState ∧
      (increase d current).1.lastActionTime = d.lastActionTime ∧
      (increase d current).1.debounceInterval = d.debounceInterval := by
    unfold increase
    dsimp only
    split
    · split <;> split <;> exact ⟨rfl,rfl,rfl⟩
    · exact ⟨rfl,rfl,rfl⟩
  have exponential (d : Dev σ) (state : Bool) (low high : Int) :
      (thdCdevExponentialController m d state low high).lastState = d.lastState ∧
      (thdCdevExponentialController m d state low high).lastActionTime = d.lastActionTime ∧
      (thdCdevExponentialController m d state low high).debounceInterval = d.debounceInterval := by
    unfold thdCdevExponentialController
    split
    · exact increased d _
    · exact ⟨rfl,rfl,rfl⟩
  unfold actuate
  dsimp only
  split
  · exact begun
  split
  · exact begun
  split
  · exact begun
  split
  · exact begun
  split
  · obtain ⟨state,time,interval⟩ := exponential (beginAction m d now q) q.state o.minState o.maxState
    exact ⟨state.trans begun.1,time.trans begun.2.1,interval.trans begun.2.2⟩
  · obtain ⟨state,time,interval⟩ := exponential (beginAction m d now q) q.state 0 0
    exact ⟨state.trans begun.1,time.trans begun.2.1,interval.trans begun.2.2⟩

-- A release of a pair that is not listed changes nothing on a device that has
-- requesters or nothing to give back.
theorem release_ignored {c : Cdev σ} {call : Call} (off : call.request.state = false)
    (unlisted : call.request.pair ∉ pairs c) (busy : c.zoneTripLimits ≠ [] ∨ inMinState m c.dev = true) :
    step m srt c call = c := by
  have ignored : arbitrate m srt c call.now call.request = (c.zoneTripLimits,none) := by
    unfold arbitrate
    rw [if_neg (by simp [off])]
    split
    · rename_i empty
      have empty := List.getLast?_eq_none_iff.mp empty
      have idle := busy.resolve_left (fun some => some empty)
      rw [if_pos idle,empty]
    · rename_i last found
      rw [if_neg]
      intro same
      exact unlisted (same ▸ List.mem_map_of_mem (List.mem_of_getLast? found))
  unfold step thdCdevSetState
  rw [ignored]

-- An activation enters the list; it acts or leaves the device as it is.
theorem activation_cases (c : Cdev σ) {call : Call} (on : call.request.state = true) :
    (step m srt c call).zoneTripLimits = enlist srt c.dev c.zoneTripLimits call.request ∧
      ((step m srt c call).dev = c.dev ∨
        (step m srt c call).dev.lastState = true ∧ (step m srt c call).dev.lastActionTime = call.now ∧
          (step m srt c call).dev.debounceInterval = c.dev.debounceInterval) := by
  refine ⟨(setState_limits m srt c _ _ _).trans (arbitrate_activation m srt c _ on),?_⟩
  unfold step thdCdevSetState
  split
  · exact .inl rfl
  · obtain ⟨state,time,interval⟩ := actuate_stamp m c.dev call.now call.request _ call.pid
    exact .inr ⟨state.trans on,time,interval⟩

-- "Ignore: delay < debounce interval"
theorem activation_debounced {c : Cdev σ} {call : Call} (on : call.request.state = true)
    (unforced : call.request.force = false) (last : c.dev.lastState = true)
    (soon : call.now - c.dev.lastActionTime ≤ c.dev.debounceInterval) : (step m srt c call).dev = c.dev := by
  have waiting : (arbitrate m srt c call.now call.request).2 = none := by
    unfold arbitrate
    rw [if_pos on]
    dsimp only
    split
    · rfl
    · rw [if_pos (by simp [unforced,last,on,soon])]
  unfold step thdCdevSetState
  split
  · rfl
  · rename_i decided
    rw [decided] at waiting
    cases waiting

theorem enlist_ne_nil (d : Dev σ) (limits : List ZoneTripLimit) (q : Request) : enlist srt d limits q ≠ [] := by
  intro empty
  have perm := enlist_pairs srt d limits q
  rw [empty,List.map_nil] at perm
  have gone := perm.nil_eq
  split at gone
  · rename_i listed
    rw [← gone] at listed
    cases listed
  · simp at gone

section Cycle
variable (zones : List Zone) (clock : Nat → Int) (temps : Nat → Nat)

-- One reading and one clock value for every zone, by its place in the vector.
def readings : Nat → Nat → Sample := fun place _ => ⟨clock place,temps place⟩

def Checks (place : Nat) (t : TripPoint) : Prop :=
  ∃ z,zones[place]? = some z ∧ z.zoneActive = true ∧ t ∈ z.tripPoints ∧ t.type ≠ .polling

def Asks (op : Op) : Prop := ∃ place t,Checks zones place t ∧ Made (frame t) ⟨clock place,temps place⟩ op

def Reached (call : Call) : Prop := ∃ place t,Checks zones place t ∧ t.temp ≤ temps place ∧
  Made (frame t) ⟨clock place,temps place⟩ (.set call)

-- A cycle that takes nothing back from the device: no polling trip switches
-- off, and the trips below their temperature hold nothing that a release could
-- return.
structure Rising (c : Cdev σ) : Prop where
  busy : c.zoneTripLimits ≠ [] ∨ inMinState m c.dev = true
  silent : ∀ place z,zones[place]? = some z → z.zoneActive = true → ∀ t ∈ z.tripPoints,Silent (temps place) t
  unlisted : ∀ place t,Checks zones place t → temps place < t.temp → (t.zoneId,t.index) ∉ pairs c
  apart : ∀ place t other u,Checks zones place t → Checks zones other u → temps place < t.temp →
    u.temp ≤ temps other → (t.zoneId,t.index) ≠ (u.zoneId,u.index)

-- The device with earlier requesters entered into its list.
def joined (c : Cdev σ) (earlier : List Call) : Cdev σ :=
  {c with zoneTripLimits := earlier.foldl (fun limits call => enlist srt c.dev limits call.request) c.zoneTripLimits}

-- An action of this cycle stands in the debounce fields.
structure Acted (start c : Cdev σ) : Prop where
  lastState : c.dev.lastState = true
  lastActionTime : ∃ place,c.dev.lastActionTime = clock place
  interval : c.dev.debounceInterval = start.dev.debounceInterval

structure Steady (start c : Cdev σ) : Prop where
  listed : ∀ p ∈ pairs c,p ∈ pairs start ∨
    ∃ place t,Checks zones place t ∧ t.temp ≤ temps place ∧ p = (t.zoneId,t.index)
  busy : c.zoneTripLimits ≠ [] ∨ inMinState m c.dev = true
  stage : (∃ earlier,(∀ q ∈ earlier,Reached zones clock temps q) ∧ c = joined srt start earlier) ∨
    Acted clock start c

variable {zones clock temps} {start c : Cdev σ}

theorem steady_start (rising : Rising m zones temps start) : Steady m srt zones clock temps start start :=
  ⟨fun _ listed => .inl listed,rising.busy,.inl ⟨[],by simp,rfl⟩⟩

-- A call below its temperature is a release that nothing answers to.
theorem release_step (rising : Rising m zones temps start) (steady : Steady m srt zones clock temps start c)
    {place : Nat} {t : TripPoint} (checks : Checks zones place t) (below : temps place < t.temp) {call : Call}
    (made : Made (frame t) ⟨clock place,temps place⟩ (.set call)) : step m srt c call = c := by
  obtain ⟨_,same,_,pair,_,_,_,state,_⟩ := made
  cases same
  have off : call.request.state = false := state.trans (decide_eq_false (Nat.not_le.mpr below))
  refine release_ignored m srt off ?_ steady.busy
  intro listed
  rw [pair] at listed
  rcases steady.listed _ listed with old | ⟨other,u,also,reached,equal⟩
  · exact rising.unlisted place t checks below old
  · exact rising.apart place t other u checks also below reached equal

theorem activation_step {call : Call} (reached : Reached zones clock temps call) :
    call.request.state = true ∧ call.request.force = false ∧ (∃ place,call.now = clock place) ∧
      ∃ place t,Checks zones place t ∧ t.temp ≤ temps place ∧ call.request.pair = (t.zoneId,t.index) := by
  obtain ⟨place,t,checks,above,_,same,time,pair,_,_,_,state,force,_⟩ := reached
  cases same
  exact ⟨state.trans (decide_eq_true above),force,⟨place,time⟩,place,t,checks,above,pair⟩

-- After an action of this cycle every further activation only enters the list.
theorem acted_step (brief : ∀ first second,clock second - clock first ≤ start.dev.debounceInterval)
    (acted : Acted clock start c) {call : Call} (reached : Reached zones clock temps call) :
    (step m srt c call).dev = c.dev := by
  obtain ⟨on,unforced,⟨place,time⟩,_⟩ := activation_step reached
  obtain ⟨before,last⟩ := acted.lastActionTime
  refine activation_debounced m srt on unforced acted.lastState ?_
  rw [time,last,acted.interval]
  exact brief before place

theorem asks_cases {op : Op} (asks : Asks zones clock temps op) : ∃ call,op = .set call ∧
    (Reached zones clock temps call ∨ ∃ place t,Checks zones place t ∧ temps place < t.temp ∧
      Made (frame t) ⟨clock place,temps place⟩ (.set call)) := by
  obtain ⟨place,t,checks,made⟩ := asks
  have shown := made
  obtain ⟨call,rfl,_⟩ := shown
  refine ⟨call,rfl,?_⟩
  by_cases above : t.temp ≤ temps place
  · exact .inl ⟨place,t,checks,above,made⟩
  · exact .inr ⟨place,t,checks,Nat.not_le.mp above,made⟩

theorem steady_activation (brief : ∀ first second,clock second - clock first ≤ start.dev.debounceInterval)
    (steady : Steady m srt zones clock temps start c) {call : Call} (reached : Reached zones clock temps call) :
    Steady m srt zones clock temps start (step m srt c call) := by
  obtain ⟨on,_,⟨now,time⟩,place,t,checks,above,pair⟩ := activation_step reached
  obtain ⟨limits,moved⟩ := activation_cases m srt c on
  refine ⟨?_,.inl (limits ▸ enlist_ne_nil srt _ _ _),?_⟩
  · intro p listed
    have listed := (step_activation m srt c on).mem_iff.mp listed
    split at listed
    · exact steady.listed p listed
    · rcases List.mem_append.mp listed with old | new
      · exact steady.listed p old
      · exact .inr ⟨place,t,checks,above,(List.mem_singleton.mp new).trans pair⟩
  · rcases steady.stage with ⟨earlier,before,rfl⟩ | acted
    · rcases moved with still | ⟨state,last,interval⟩
      · refine .inl ⟨earlier++[call],?_,?_⟩
        · intro q inside
          rcases List.mem_append.mp inside with old | new
          · exact before q old
          · exact List.mem_singleton.mp new ▸ reached
        · have named : (step m srt (joined srt start earlier) call) =
              {start with dev := (step m srt (joined srt start earlier) call).dev,zoneTripLimits := (step m srt (joined srt start earlier) call).zoneTripLimits} := by
            unfold step thdCdevSetState
            split <;> rfl
          rw [named,still,limits]
          simp [joined]
      · exact .inr ⟨state,⟨now,last.trans time⟩,interval⟩
    · have same := acted_step m srt brief acted reached
      exact .inr ⟨same ▸ acted.lastState,same ▸ acted.lastActionTime,same ▸ acted.interval⟩

theorem steady_step (brief : ∀ first second,clock second - clock first ≤ start.dev.debounceInterval)
    (rising : Rising m zones temps start) (steady : Steady m srt zones clock temps start c) {op : Op}
    (asks : Asks zones clock temps op) : Steady m srt zones clock temps start (apply m srt c op) ∧
      (Acted clock start c → (apply m srt c op).dev = c.dev) := by
  obtain ⟨call,rfl,reached | ⟨place,t,checks,below,made⟩⟩ := asks_cases asks
  · exact ⟨steady_activation m srt brief steady reached,fun acted => acted_step m srt brief acted reached⟩
  · have still : apply m srt c (.set call) = c := release_step m srt rising steady checks below made
    rw [still]
    exact ⟨steady,fun _ => rfl⟩

theorem steady_run (brief : ∀ first second,clock second - clock first ≤ start.dev.debounceInterval)
    (rising : Rising m zones temps start) (steady : Steady m srt zones clock temps start c) {ops : List Op}
    (asks : ∀ op ∈ ops,Asks zones clock temps op) :
    Steady m srt zones clock temps start (run (apply m srt) c ops) ∧
      (c.dev ≠ start.dev → (run (apply m srt) c ops).dev = c.dev) := by
  induction ops generalizing c with
  | nil => exact ⟨steady,fun _ => rfl⟩
  | cons op rest ih =>
    obtain ⟨next,kept⟩ := steady_step m srt brief rising steady (asks op List.mem_cons_self)
    obtain ⟨final,later⟩ := ih next (fun op inside => asks op (List.mem_cons_of_mem _ inside))
    refine ⟨final,?_⟩
    intro changed
    rcases steady.stage with ⟨earlier,_,rfl⟩ | acted
    · exact absurd rfl changed
    · rw [run_cons,later (kept acted ▸ changed),kept acted]

end Cycle

theorem walkZones_append (visit : Zone → List (Cdev σ) → (Nat → Sample) → Zone.Polled σ)
    (samples : Nat → Nat → Sample) (front rest : List Zone) (place : Nat) (devs : List (Cdev σ)) :
    (Engine.walkZones visit samples (front++rest) place devs).2.1 =
      (Engine.walkZones visit samples rest (place+front.length)
        (Engine.walkZones visit samples front place devs).2.1).2.1 := by
  induction front generalizing place devs with
  | nil => rfl
  | cons z front ih =>
    have moved : place+1+front.length = place+(z::front).length := by
      simp only [List.length_cons]
      omega
    simp only [List.cons_append,Engine.walkZones,ih,moved]

theorem walkZones_driven {P : Op → Prop} {visit : Zone → List (Cdev σ) → (Nat → Sample) → Zone.Polled σ}
    {samples : Nat → Nat → Sample} (zones : List Zone) (place : Nat)
    (each : ∀ i z,zones[i]? = some z → ∀ devs,Driven m srt P devs (visit z devs (samples (place+i))).cdevs)
    (devs : List (Cdev σ)) : Driven m srt P devs (Engine.walkZones visit samples zones place devs).2.1 := by
  induction zones generalizing place devs with
  | nil => exact driven_refl m srt
  | cons z rest ih =>
    have first := each 0 z rfl devs
    have later := ih (place+1) (fun i w present devs => by
      have one := each (i+1) w present devs
      rwa [← Nat.add_assoc,Nat.add_right_comm] at one) (visit z devs (samples place)).cdevs
    exact driven_trans m srt first later

theorem hottest_uniform (now : Int) (temp : Nat) {count : Nat} (some : 0 < count) :
    Zone.hottest (fun _ => ⟨now,temp⟩) count = temp := by
  unfold Zone.hottest
  induction count with
  | zero => cases some
  | succ count ih =>
    rw [List.range_succ,List.foldl_append]
    cases count with
    | zero => simp
    | succ rest => simp [ih (Nat.succ_pos rest)]

-- What a zone asks for during the cycle.
theorem zone_asks {zones : List Zone} (clock : Nat → Int) {temps : Nat → Nat} {start : Cdev σ}
    (rising : Rising m zones temps start) (ignoreCritical : Bool) (sensors : List Sensor) (pref : Int) {place : Nat}
    {z : Zone} (present : zones[place]? = some z) (devs : List (Cdev σ)) :
    Driven m srt (Asks zones clock temps) devs
      (Zone.readZoneTemp m srt ignoreCritical sensors pref z devs (readings clock temps place)).cdevs := by
  have covers : z.zoneActive = true →
      Covers (Asks zones clock temps) (· = ⟨clock place,temps place⟩) z.tripPoints := by
    intro active
    refine ⟨?_,.inr ⟨temps place,fun s same => same ▸ rfl,rising.silent place z present active⟩⟩
    intro s given f inside cooling op made
    subst given
    obtain ⟨t,trip,rfl⟩ := List.mem_map.mp inside
    exact ⟨place,t,⟨z,present,active,trip,cooling⟩,made⟩
  have peak : z.sensors ≠ [] →
      (⟨clock place,Zone.hottest (readings clock temps place) z.sensors.length⟩ : Sample) =
        ⟨clock place,temps place⟩ := by
    intro bound
    exact congrArg _ (hottest_uniform (clock place) (temps place) (List.length_pos_iff.mpr bound))
  have admitted (sensor : Nat) : readings clock temps place sensor = ⟨clock place,temps place⟩ := rfl
  exact (readZoneTemp_spec m srt ignoreCritical sensors pref z devs admitted peak covers rfl).2

-- A stretch of the cycle takes a device from one steady state to the next.
theorem stretch_steady {zones : List Zone} {clock : Nat → Int} {temps : Nat → Nat} {start c : Cdev σ}
    (brief : ∀ first second,clock second - clock first ≤ start.dev.debounceInterval)
    (rising : Rising m zones temps start) (steady : Steady m srt zones clock temps start c)
    {devs devs' : List (Cdev σ)} {k : Nat} (present : devs[k]? = some c)
    (driven : Driven m srt (Asks zones clock temps) devs devs') : ∃ c',devs'[k]? = some c' ∧
      Steady m srt zones clock temps start c' ∧ (c.dev ≠ start.dev → c'.dev = c.dev) := by
  obtain ⟨trace,rfl,ok⟩ := driven
  have asks : ∀ op ∈ opsOf k trace,Asks zones clock temps op := by
    intro op inside
    obtain ⟨x,sent,rfl⟩ := List.mem_map.mp inside
    exact ok x (List.mem_filter.mp sent).1
  exact ⟨_,by rw [run_send,present]; rfl,steady_run m srt brief rising steady asks⟩

end ChuwiMinibook.SteadyCycle
