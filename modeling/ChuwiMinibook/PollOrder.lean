import ChuwiMinibook.CycleChecks
import ChuwiMinibook.SteadyCycle
import ChuwiMinibook.RaplCdev

namespace ChuwiMinibook.PollOrder
open Cdev CdevArbitration CdevBank ZoneChecks CycleChecks SteadyCycle Machine
variable {σ : Type} (m : Methods σ) (srt : StdSort)

-- A check of a stored trip with the reading of its zone.
def Stored (zones : List Zone) (clock : Nat → Int) (temps : Nat → Nat) (r : Check σ) : Prop :=
  ∃ place z,zones[place]? = some z ∧ z.zoneActive = true ∧ r.sample = ⟨clock place,temps place⟩ ∧
    frame r.trip ∈ z.tripPoints.map frame

theorem stored_checks {zones : List Zone} {clock : Nat → Int} {temps : Nat → Nat} {r : Check σ}
    (stored : Stored zones clock temps r) (cooling : r.trip.type ≠ .polling) :
    ∃ place t,Checks zones place t ∧ frame r.trip = frame t ∧ r.sample = ⟨clock place,temps place⟩ := by
  obtain ⟨place,z,present,active,sample,inside⟩ := stored
  obtain ⟨t,trip,same⟩ := List.mem_map.mp inside
  have type : t.type = r.trip.type := congrArg Frame.type same
  exact ⟨place,t,⟨z,present,active,trip,type ▸ cooling⟩,same.symm,sample⟩

theorem check_asks (e : Engine σ) {zones : List Zone} {clock : Nat → Int} {temps : Nat → Nat} {r : Check σ}
    (stored : Stored zones clock temps r) : Driven m srt (Asks zones clock temps) r.cdevs (r.after m srt e) := by
  obtain ⟨_,driven,_⟩ := check_spec m srt e.ignoreCritical e.sensors r.trip r.cdevs r.sample.now r.id r.sample.temp
    e.preference rfl
  refine driven_mono m srt ?_ driven
  intro op asked
  obtain ⟨made,cooling⟩ := asked
  obtain ⟨place,t,checks,same,sample⟩ := stored_checks stored cooling
  rw [sample] at made
  exact ⟨place,t,checks,same ▸ made⟩

-- The poll cycle is its checks, one after the other.
theorem cycle_linked {e : Engine σ} (clock : Nat → Int) {temps : Nat → Nat} {start : Cdev σ}
    (rising : Rising m e.zones temps start) :
    Linked m srt e.ignoreCritical e.sensors e.preference e.cdevs (cycleChecks m srt e (readings clock temps))
        (Engine.pollZones m srt e (readings clock temps)).1.cdevs ∧
      ∀ r ∈ cycleChecks m srt e (readings clock temps),Stored e.zones clock temps r := by
  refine walkChecks_spec m srt e.ignoreCritical e.sensors e.preference e.zones 0 ?_ e.cdevs
  intro i z present devs
  rw [Nat.zero_add]
  have peak : z.sensors ≠ [] →
      (⟨clock i,Zone.hottest (readings clock temps i) z.sensors.length⟩ : Sample) = ⟨clock i,temps i⟩ := by
    intro bound
    exact congrArg _ (hottest_uniform (clock i) (temps i) (List.length_pos_iff.mpr bound))
  obtain ⟨linked,ofAll⟩ := zoneChecks_spec m srt e.ignoreCritical e.sensors e.preference (S := (· = ⟨clock i,temps i⟩))
    (r := temps i) (fun s same => same ▸ rfl) z devs (fun _ => rfl) peak
    (rising.silent i z present)
  refine ⟨linked,?_⟩
  intro q inside
  obtain ⟨active,sample,framed⟩ := ofAll q inside
  exact ⟨i,z,present,active,sample,framed⟩

section Order
variable {e : Engine σ} {zones : List Zone} {clock : Nat → Int} {temps : Nat → Nat} {start : Cdev σ} {k : Nat}

theorem checks_steady (brief : ∀ first second,clock second - clock first ≤ start.dev.debounceInterval)
    (rising : Rising m zones temps start) {checks : List (Check σ)} (stored : ∀ r ∈ checks,Stored zones clock temps r)
    {devs devs' : List (Cdev σ)} (linked : Linked m srt e.ignoreCritical e.sensors e.preference devs checks devs')
    {c : Cdev σ} (steady : Steady m srt zones clock temps start c) (present : devs[k]? = some c) :
    ∃ c',devs'[k]? = some c' ∧ Steady m srt zones clock temps start c' ∧ (c.dev ≠ start.dev → c'.dev = c.dev) :=
  stretch_steady m srt brief rising steady present
    (linked_driven m srt e.ignoreCritical e.sensors e.preference linked (fun r inside => check_asks m srt e (stored r inside)))

-- The check left device k as the cycle had found it.
def TurnedAway (e : Engine σ) (start : Cdev σ) (k : Nat) (r : Check σ) : Prop :=
  ∃ c,(r.after m srt e)[k]? = some c ∧ c.dev = start.dev

-- Either every check is turned away, or there is a first one that is not, and
-- what it makes of the device stays.
theorem first_change (brief : ∀ first second,clock second - clock first ≤ start.dev.debounceInterval)
    (rising : Rising m zones temps start) {checks : List (Check σ)} (stored : ∀ r ∈ checks,Stored zones clock temps r)
    {devs devs' : List (Cdev σ)} (linked : Linked m srt e.ignoreCritical e.sensors e.preference devs checks devs')
    {c whole : Cdev σ} (steady : Steady m srt zones clock temps start c) (present : devs[k]? = some c)
    (still : c.dev = start.dev) (final : devs'[k]? = some whole) :
    whole.dev = start.dev ∨ ∃ early r late before after,checks = early++r::late ∧
      (∀ q ∈ early,TurnedAway m srt e start k q) ∧ r.cdevs[k]? = some before ∧
      Steady m srt zones clock temps start before ∧ before.dev = start.dev ∧
      (r.after m srt e)[k]? = some after ∧ after.dev ≠ start.dev ∧ whole.dev = after.dev := by
  induction checks generalizing devs c with
  | nil =>
    cases linked
    rw [present] at final
    cases final
    exact .inl still
  | cons r rest ih =>
    obtain ⟨begun,later⟩ := linked
    have driven := check_asks m srt e (stored r List.mem_cons_self)
    rw [begun] at driven
    obtain ⟨after,reached,steady',_⟩ := stretch_steady m srt brief rising steady present driven
    have storedRest : ∀ q ∈ rest,Stored zones clock temps q := fun q inside => stored q (List.mem_cons_of_mem _ inside)
    by_cases changed : after.dev = start.dev
    · rcases ih storedRest later steady' reached changed with none | ⟨early,q,late,before,after',split,away,found⟩
      · exact .inl none
      · refine .inr ⟨r::early,q,late,before,after',congrArg (r :: ·) split,?_,found⟩
        intro p inside
        rcases List.mem_cons.mp inside with rfl | earlier
        · exact ⟨after,reached,changed⟩
        · exact away p earlier
    · obtain ⟨last,ended,_,kept⟩ := checks_steady m srt brief rising storedRest later steady' reached
      rw [ended] at final
      cases final
      exact .inr ⟨[],r,rest,c,after,rfl,List.forall_mem_nil _,begun ▸ present,steady,still,reached,changed,kept changed⟩

-- Whatever comes after a check that changed the device has no say.
theorem change_stays (brief : ∀ first second,clock second - clock first ≤ start.dev.debounceInterval)
    (rising : Rising m zones temps start) {early late : List (Check σ)} {r : Check σ}
    (stored : ∀ q ∈ early++r::late,Stored zones clock temps q) {devs devs' : List (Cdev σ)}
    (linked : Linked m srt e.ignoreCritical e.sensors e.preference devs (early++r::late) devs')
    (present : devs[k]? = some start) {after whole : Cdev σ} (reached : (r.after m srt e)[k]? = some after)
    (changed : after.dev ≠ start.dev) (final : devs'[k]? = some whole) : whole.dev = after.dev := by
  obtain ⟨mid,first,begun,later⟩ := linked_split m srt e.ignoreCritical e.sensors e.preference linked
  obtain ⟨c,here,steady,_⟩ := checks_steady m srt brief rising (fun q inside => stored q (List.mem_append_left _ inside))
    first (steady_start m srt rising) present
  have driven := check_asks m srt e (stored r (List.mem_append_right _ List.mem_cons_self))
  rw [begun] at driven
  obtain ⟨after',found,steady',_⟩ := stretch_steady m srt brief rising steady here driven
  have same : some after' = some after := found.symm.trans reached
  cases same
  obtain ⟨last,ended,_,kept⟩ := checks_steady m srt brief rising
    (fun q inside => stored q (List.mem_append_right _ (List.mem_cons_of_mem _ inside))) later steady' reached
  rw [ended] at final
  cases final
  exact kept changed

end Order

-- What a call works with: the binding's target and controller, not its clock.
theorem drive_stamp (t : TripPoint) (b : TripPtCdev) (c : Cdev σ) (now time : Int) (readTemp : Nat) (state : Bool) :
    (TripPoint.drive m srt t {b with lastOpTime := time} c now readTemp state).2 =
      (TripPoint.drive m srt t b c now readTemp state).2 := by
  unfold TripPoint.drive
  dsimp only
  split <;> rfl

theorem drive_call {t : TripPoint} {b : TripPtCdev} {c : Cdev σ} {now : Int} {readTemp : Nat}
    (reached : t.temp ≤ readTemp) (own : brand b ∈ (frame t).bound) : ∃ call,
      (TripPoint.drive m srt t b c now readTemp true).2 = step m srt c call ∧
      Made (frame t) ⟨now,readTemp⟩ (.set call) := by
  have kept : brand (if b.targetState = tripPtInvalidTargetState then {b with targetState := c.dev.minState} else b) =
      brand b := by
    split <;> rfl
  unfold TripPoint.drive
  generalize (if b.targetState = tripPtInvalidTargetState then {b with targetState := c.dev.minState} else b) = b' at kept ⊢
  refine ⟨⟨now,TripPoint.request m t b' c.dev readTemp true,b'.pid⟩,rfl,?_⟩
  exact ⟨_,rfl,rfl,rfl,rfl,rfl,rfl,(decide_eq_true reached).symm,rfl,brand b',kept ▸ own,rfl,rfl⟩

theorem switchOn_flags (t : TripPoint) (on : Bool) (count : Nat) (now : Int) (readTemp : Nat)
    (bindings : List TripPtCdev) (devs : List (Cdev σ)) :
    TripPoint.switchOn m srt {t with tripOn := on,critTripCount := count} now readTemp bindings devs =
      TripPoint.switchOn m srt t now readTemp bindings devs := by
  induction bindings generalizing devs with
  | nil => rfl
  | cons b rest ih =>
    simp only [TripPoint.switchOn,ih]
    rfl

-- What one binding does to the devices: the walk ends without a call, passes on,
-- or calls and then ends or passes on.
theorem switchOn_cases (t : TripPoint) (now : Int) (readTemp : Nat) (b : TripPtCdev) (devs : List (Cdev σ)) :
    (∀ rest,(TripPoint.switchOn m srt t now readTemp (b::rest) devs).2 = devs) ∨
    (∀ rest,(TripPoint.switchOn m srt t now readTemp (b::rest) devs).2 =
      (TripPoint.switchOn m srt t now readTemp rest devs).2) ∨
    ∃ c,devs[b.cdev]? = some c ∧
      ((∀ rest,(TripPoint.switchOn m srt t now readTemp (b::rest) devs).2 =
        devs.set b.cdev (TripPoint.drive m srt t b c now readTemp true).2) ∨
      ∀ rest,(TripPoint.switchOn m srt t now readTemp (b::rest) devs).2 = (TripPoint.switchOn m srt t now readTemp rest
        (devs.set b.cdev (TripPoint.drive m srt t b c now readTemp true).2)).2) := by
  simp only [TripPoint.switchOn]
  by_cases early : b.samplingPriod ≠ 0 ∧ now - b.lastOpTime < b.samplingPriod
  · exact .inl (fun rest => by rw [if_pos early])
  simp only [if_neg early]
  have device : (if b.samplingPriod ≠ 0 then {b with lastOpTime := now} else b).cdev = b.cdev := by
    split <;> rfl
  have driven (c : Cdev σ) : (TripPoint.drive m srt t (if b.samplingPriod ≠ 0 then {b with lastOpTime := now} else b) c
      now readTemp true).2 = (TripPoint.drive m srt t b c now readTemp true).2 := by
    split
    · exact drive_stamp m srt t b c now now readTemp true
    · rfl
  have kept (c : Cdev σ) : (TripPoint.drive m srt t (if b.samplingPriod ≠ 0 then {b with lastOpTime := now} else b) c
      now readTemp true).1.cdev = b.cdev := (drive_keeps m srt t _ c now readTemp true).1.trans device
  simp only [device]
  cases present : devs[b.cdev]? with
  | none => exact .inl (fun rest => rfl)
  | some c =>
    by_cases full : Cdev.inMaxState m c.dev = true
    · exact .inr (.inl (fun rest => by simp only [full,if_true]))
    · refine .inr (.inr ⟨c,rfl,?_⟩)
      simp only [full,Bool.false_eq_true,if_false,driven,kept]
      by_cases single : t.controlType = .sequential
      · exact .inl (fun rest => by simp only [if_pos single])
      · exact .inr (fun rest => by simp only [if_neg single])

-- The call that is not turned away: that of binding b, with the device as the
-- bindings before b left it.
structure Acts (zones : List Zone) (clock : Nat → Int) (temps : Nat → Nat) (start : Cdev σ) (k : Nat) (r : Check σ)
    (b : TripPtCdev) (before : Cdev σ) : Prop where
  stored : Stored zones clock temps r
  cooling : r.trip.type ≠ .polling
  reached : r.trip.temp ≤ r.sample.temp
  bound : b.cdev = k
  first : ∃ front rest,r.trip.cdevs = front++b::rest ∧
    (TripPoint.switchOn m srt r.trip r.sample.now r.sample.temp front r.cdevs).2[k]? = some before
  entered : ∃ earlier,(∀ q ∈ earlier,Reached zones clock temps q) ∧ before = joined srt start earlier

section Act
variable {zones : List Zone} {clock : Nat → Int} {temps : Nat → Nat} {start : Cdev σ} {k : Nat}

-- The device before a call that changes it has only had requesters entered.
theorem acting_entered (brief : ∀ first second,clock second - clock first ≤ start.dev.debounceInterval)
    {c : Cdev σ} (steady : Steady m srt zones clock temps start c) (still : c.dev = start.dev) {call : Call}
    (reached : Reached zones clock temps call) (changed : (step m srt c call).dev ≠ start.dev) :
    ∃ earlier,(∀ q ∈ earlier,Reached zones clock temps q) ∧ c = joined srt start earlier := by
  rcases steady.stage with fresh | acted
  · exact fresh
  · exact absurd ((acted_step m srt brief acted reached).trans still) changed

-- Of these bindings one makes the call that leaves the device as it is after them.
def Switched (zones : List Zone) (clock : Nat → Int) (temps : Nat → Nat) (start : Cdev σ) (k place : Nat) (t : TripPoint)
    (bindings : List TripPtCdev) (devs : List (Cdev σ)) (after : Cdev σ) : Prop :=
  ∃ front b rest before,bindings = front++b::rest ∧ b.cdev = k ∧
    (TripPoint.switchOn m srt t (clock place) (temps place) front devs).2[k]? = some before ∧
    (∃ earlier,(∀ q ∈ earlier,Reached zones clock temps q) ∧ before = joined srt start earlier) ∧
    after.dev = (TripPoint.drive m srt t b before (clock place) (temps place) true).2.dev

theorem switched_behind {t : TripPoint} {place : Nat} {b : TripPtCdev} {bindings : List TripPtCdev}
    {devs passed : List (Cdev σ)} {after : Cdev σ}
    (walked : ∀ rest,(TripPoint.switchOn m srt t (clock place) (temps place) (b::rest) devs).2 =
      (TripPoint.switchOn m srt t (clock place) (temps place) rest passed).2)
    (switched : Switched m srt zones clock temps start k place t bindings passed after) :
    Switched m srt zones clock temps start k place t (b::bindings) devs after := by
  obtain ⟨front,b',rest,before,split,bound,stood,acted⟩ := switched
  exact ⟨b::front,b',rest,before,congrArg (b :: ·) split,bound,walked front ▸ stood,acted⟩

theorem switched_here (brief : ∀ first second,clock second - clock first ≤ start.dev.debounceInterval)
    {t : TripPoint} {place : Nat} {stored : TripPoint} (checks : Checks zones place stored) (same : frame t = frame stored)
    (reached : t.temp ≤ temps place) {b : TripPtCdev} (own : brand b ∈ (frame t).bound) (bound : b.cdev = k)
    {devs : List (Cdev σ)} {c after : Cdev σ} (present : devs[k]? = some c) (steady : Steady m srt zones clock temps start c)
    (still : c.dev = start.dev)
    (made : after.dev = (TripPoint.drive m srt t b c (clock place) (temps place) true).2.dev)
    (changed : after.dev ≠ start.dev) (bindings : List TripPtCdev) :
    Switched m srt zones clock temps start k place t (b::bindings) devs after := by
  refine ⟨[],b,bindings,c,rfl,bound,present,?_,made⟩
  obtain ⟨call,driven,asked⟩ : ∃ call,(TripPoint.drive m srt t b c (clock place) (temps place) true).2 = step m srt c call ∧
      Made (frame t) ⟨clock place,temps place⟩ (.set call) := drive_call m srt reached own
  have temp : t.temp = stored.temp := congrArg Frame.temp same
  have call : Reached zones clock temps call := ⟨place,stored,checks,temp ▸ reached,same ▸ asked⟩
  exact acting_entered m srt brief steady still call (driven ▸ made ▸ changed)

theorem switchOn_acts (brief : ∀ first second,clock second - clock first ≤ start.dev.debounceInterval)
    (rising : Rising m zones temps start) {t : TripPoint} {place : Nat} {stored : TripPoint}
    (checks : Checks zones place stored) (same : frame t = frame stored) (reached : t.temp ≤ temps place)
    (bindings : List TripPtCdev) (own : ∀ b ∈ bindings,brand b ∈ (frame t).bound) {devs : List (Cdev σ)} {c after : Cdev σ}
    (present : devs[k]? = some c) (steady : Steady m srt zones clock temps start c) (still : c.dev = start.dev)
    (left : (TripPoint.switchOn m srt t (clock place) (temps place) bindings devs).2[k]? = some after)
    (changed : after.dev ≠ start.dev) : Switched m srt zones clock temps start k place t bindings devs after := by
  have asks : ∀ op,Made (frame t) ⟨clock place,temps place⟩ op → Asks zones clock temps op :=
    fun op made => ⟨place,stored,checks,same ▸ made⟩
  have asking (rest : List TripPtCdev) (own : ∀ b ∈ rest,brand b ∈ (frame t).bound) (devs : List (Cdev σ)) :
      Driven m srt (Asks zones clock temps) devs
        (TripPoint.switchOn m srt t (clock place) (temps place) rest devs).2 :=
    driven_mono m srt asks (switchOn_spec m srt t (clock place) reached rest own devs).2
  induction bindings generalizing devs c with
  | nil =>
    rw [TripPoint.switchOn,present] at left
    cases left
    exact absurd still changed
  | cons b rest ih =>
    have ownRest : ∀ b ∈ rest,brand b ∈ (frame t).bound := fun b inside => own b (List.mem_cons_of_mem _ inside)
    rcases switchOn_cases m srt t (clock place) (temps place) b devs with ended | passed | ⟨d,found,called⟩
    · rw [ended,present] at left
      cases left
      exact absurd still changed
    · rw [passed] at left
      exact switched_behind m srt passed (ih ownRest present steady still left)
    · have one := driven_mono m srt asks (driven_drive m srt t (b := b) found (clock place) (temps place)
        (decide_eq_true reached).symm (own b List.mem_cons_self))
      obtain ⟨c',now,steady',_⟩ := stretch_steady m srt brief rising steady present one
      by_cases acted : c'.dev = start.dev
      · rcases called with ended | passed
        · rw [ended,now] at left
          cases left
          exact absurd acted changed
        · rw [passed] at left
          exact switched_behind m srt passed (ih ownRest now steady' acted left)
      · have bound : b.cdev = k := by
          by_contra other
          rw [List.getElem?_set_ne other,present] at now
          cases now
          exact acted still
        have here : d = c := by
          rw [bound,present] at found
          exact (Option.some.inj found).symm
        subst here
        have result : c' = (TripPoint.drive m srt t b d (clock place) (temps place) true).2 := by
          rw [bound,List.getElem?_set_self (List.getElem?_eq_some_iff.mp present).1] at now
          exact (Option.some.inj now).symm
        -- What comes behind the call changes the device no more.
        have whole : after.dev = c'.dev := by
          rcases called with ended | passed
          · rw [ended,now] at left
            cases left
            rfl
          · rw [passed] at left
            obtain ⟨last,final,_,kept⟩ := stretch_steady m srt brief rising steady' now (asking rest ownRest _)
            rw [final] at left
            cases left
            exact kept acted
        exact switched_here m srt brief checks same reached (own b List.mem_cons_self) bound present steady still
          (whole.trans (congrArg (·.dev) result)) changed rest

theorem check_below {e : Engine σ} (rising : Rising m zones temps start) {r : Check σ}
    (stored : Stored zones clock temps r) (below : r.sample.temp < r.trip.temp) {c : Cdev σ}
    (steady : Steady m srt zones clock temps start c) (present : r.cdevs[k]? = some c) :
    (r.after m srt e)[k]? = some c := by
  obtain ⟨_,⟨trace,after,ok⟩,_⟩ := check_spec m srt e.ignoreCritical e.sensors r.trip r.cdevs r.sample.now r.id
    r.sample.temp e.preference rfl
  have ignored : ∀ op ∈ opsOf k trace,apply m srt c op = c := by
    intro op inside
    obtain ⟨x,sent,rfl⟩ := List.mem_map.mp inside
    obtain ⟨made,cooling⟩ := ok x (List.mem_filter.mp sent).1
    obtain ⟨place,t,checks,same,sample⟩ := stored_checks stored cooling
    have temp : r.trip.temp = t.temp := congrArg Frame.temp same
    rw [sample] at made below
    rw [same] at made
    generalize x.2 = op at made ⊢
    obtain ⟨call,rfl,rest⟩ := made
    exact release_step m srt rising steady checks (temp ▸ below) ⟨call,rfl,rest⟩
  have stays : run (apply m srt) c (opsOf k trace) = c := by
    generalize opsOf k trace = ops at ignored
    induction ops with
    | nil => rfl
    | cons op rest ih =>
      rw [run_cons,ignored op List.mem_cons_self]
      exact ih (fun op inside => ignored op (List.mem_cons_of_mem _ inside))
  have sent := run_send m srt trace r.cdevs k
  rw [present,Option.map_some,stays,← after] at sent
  exact sent

-- A check changes a device only by switching its trip's bindings on.
theorem check_reached (e : Engine σ) {r : Check σ} (reached : r.trip.temp ≤ r.sample.temp) :
    r.after m srt e = r.cdevs ∨ r.trip.type ≠ .polling ∧ r.after m srt e =
      (TripPoint.switchOn m srt r.trip r.sample.now r.sample.temp r.trip.cdevs r.cdevs).2 := by
  unfold Check.after result TripPoint.thdTripPointCheck
  split
  · exact .inl rfl
  split
  · exact .inl rfl
  split
  · exact .inl rfl
  split
  · exact .inl (checkCritical_spec r.trip r.cdevs .powerOff).2.1
  split
  · exact .inl (checkCritical_spec r.trip r.cdevs .suspend).2.1
  have counted : ∃ count,(if r.trip.type = .critical ∨ r.trip.type = .hot then {r.trip with critTripCount := 0}
      else r.trip) = {r.trip with critTripCount := count} := by
    split
    · exact ⟨0,rfl⟩
    · exact ⟨r.trip.critTripCount,rfl⟩
  obtain ⟨count,counted⟩ := counted
  simp only [counted]
  split
  · exact .inl (checkPolling_spec _ e.sensors r.cdevs r.sample.temp).2.1
  split
  · rename_i applied
    refine .inr ⟨applies_not_polling applied,?_⟩
    unfold TripPoint.checkCdevs
    rw [if_pos reached]
    exact congrArg Prod.snd (switchOn_flags m srt r.trip true count _ _ _ _)
  · exact .inl rfl

theorem check_acts {e : Engine σ} (brief : ∀ first second,clock second - clock first ≤ start.dev.debounceInterval)
    (rising : Rising m zones temps start) {r : Check σ} (stored : Stored zones clock temps r) {c after : Cdev σ}
    (present : r.cdevs[k]? = some c) (steady : Steady m srt zones clock temps start c) (still : c.dev = start.dev)
    (left : (r.after m srt e)[k]? = some after) (changed : after.dev ≠ start.dev) :
    ∃ b before,Acts m srt zones clock temps start k r b before ∧
      after.dev = (TripPoint.drive m srt r.trip b before r.sample.now r.sample.temp true).2.dev := by
  have reached : r.trip.temp ≤ r.sample.temp := by
    by_contra below
    rw [check_below m srt rising stored (Nat.not_le.mp below) steady present] at left
    cases left
    exact changed still
  rcases check_reached m srt e reached with same | ⟨cooling,acted⟩
  · rw [same,present] at left
    cases left
    exact absurd still changed
  · obtain ⟨place,t,checks,same,sample⟩ := stored_checks stored cooling
    rw [acted,sample] at left
    rw [sample] at reached
    obtain ⟨front,b,rest,before,split,bound,stood,entered,made⟩ := switchOn_acts m srt brief rising checks same reached
      r.trip.cdevs (fun b inside => List.mem_map_of_mem inside) present steady still left changed
    refine ⟨b,before,⟨stored,cooling,sample ▸ reached,bound,⟨front,rest,split,sample ▸ stood⟩,entered⟩,?_⟩
    rw [sample]
    exact made

end Act

theorem first_acting_zone {e : Engine σ} {k : Nat} {c : Cdev σ} (present : e.cdevs[k]? = some c)
    {clock : Nat → Int} {temps : Nat → Nat}
    (brief : ∀ first second,clock second - clock first ≤ c.dev.debounceInterval)
    (rising : Rising m e.zones temps c) {front rest : List Zone} (split : e.zones = front++rest) :
    ∃ half whole,(Engine.pollZones m srt {e with zones := front} (readings clock temps)).1.cdevs[k]? = some half ∧
      (Engine.pollZones m srt e (readings clock temps)).1.cdevs[k]? = some whole ∧
      (half.dev ≠ c.dev → whole.dev = half.dev) ∧ Steady m srt e.zones clock temps c whole := by
  have visit {place : Nat} {z : Zone} (stored : e.zones[place]? = some z) (devs : List (Cdev σ)) :=
    zone_asks m srt clock rising e.ignoreCritical e.sensors e.preference stored devs
  have early : Driven m srt (Asks e.zones clock temps) e.cdevs
      (Engine.pollZones m srt {e with zones := front} (readings clock temps)).1.cdevs := by
    refine walkZones_driven m srt front 0 ?_ e.cdevs
    intro i z stored devs
    rw [Nat.zero_add]
    refine visit ?_ devs
    rw [split,List.getElem?_append_left (List.getElem?_eq_some_iff.mp stored).1]
    exact stored
  obtain ⟨half,reached,steady,_⟩ := stretch_steady m srt brief rising (steady_start m srt rising) present early
  have late : Driven m srt (Asks e.zones clock temps)
      (Engine.pollZones m srt {e with zones := front} (readings clock temps)).1.cdevs
      (Engine.pollZones m srt e (readings clock temps)).1.cdevs := by
    have whole : (Engine.pollZones m srt e (readings clock temps)).1.cdevs = (Engine.walkZones
        (Zone.readZoneTemp m srt e.ignoreCritical e.sensors e.preference) (readings clock temps) rest front.length
        (Engine.pollZones m srt {e with zones := front} (readings clock temps)).1.cdevs).2.1 := by
      have joined := walkZones_append (Zone.readZoneTemp m srt e.ignoreCritical e.sensors e.preference)
        (readings clock temps) front rest 0 e.cdevs
      rw [← split,Nat.zero_add] at joined
      exact joined
    rw [whole]
    refine walkZones_driven m srt rest front.length ?_ _
    intro i z stored devs
    refine visit ?_ devs
    rw [split,List.getElem?_append_right (Nat.le_add_right _ _),Nat.add_sub_cancel_left]
    exact stored
  obtain ⟨whole,final,ended,kept⟩ := stretch_steady m srt brief rising steady reached late
  exact ⟨half,whole,reached,final,kept,ended⟩

-- Neither the list nor a binding carries a target value.
structure Plain (zones : List Zone) (c : Cdev σ) : Prop where
  limits : ∀ l ∈ c.zoneTripLimits,l.targetStateValid = false
  bindings : ∀ place t,Checks zones place t → ∀ b ∈ t.cdevs,b.targetStateValid = false

theorem enlist_plain {d : Dev σ} {limits : List ZoneTripLimit} {q : Request} (untargeted : q.targetStateValid = false)
    (plain : ∀ l ∈ limits,l.targetStateValid = false) : ∀ l ∈ enlist srt d limits q,l.targetStateValid = false := by
  intro l inside
  unfold enlist at inside
  split at inside
  · exact plain l inside
  · have pushed : l ∈ limits++[newLimit d q] := by
      simp only [untargeted,Bool.false_eq_true,if_false] at inside
      split at inside
      · exact (StdSort.mem_sort srt _ _ l).mp inside
      · exact inside
    rcases List.mem_append.mp pushed with old | new
    · exact plain l old
    · rw [List.mem_singleton.mp new]
      exact untargeted

theorem joined_plain {c : Cdev σ} (plain : ∀ l ∈ c.zoneTripLimits,l.targetStateValid = false) {earlier : List Call}
    (untargeted : ∀ q ∈ earlier,q.request.targetStateValid = false) :
    ∀ l ∈ (joined srt c earlier).zoneTripLimits,l.targetStateValid = false := by
  unfold joined
  dsimp only
  generalize c.zoneTripLimits = limits at plain ⊢
  induction earlier generalizing limits with
  | nil => exact plain
  | cons q rest ih =>
    exact ih (fun q inside => untargeted q (List.mem_cons_of_mem _ inside)) _
      (enlist_plain srt (untargeted q List.mem_cons_self) plain)

-- The controller of a PID device does not look at the limits of the list.
theorem actuate_plain {d : Dev σ} (pidOn : d.pidEnable = true) (now : Int) (q : Request) {o other : Order}
    (plain : o.targetStateValid = false) (otherPlain : other.targetStateValid = false) (pid : Pid) :
    actuate m d now q o pid = actuate m d now q other pid := by
  have begun : (beginAction m d now q).pidEnable = true := by
    unfold beginAction
    dsimp only
    split <;> exact pidOn
  unfold actuate
  simp only [plain,otherPlain,begun,if_true,Bool.false_eq_true,if_false]

-- So a first activation without targets works as if it came alone.
theorem plain_alone {c : Cdev σ} {call : Call} (pidOn : c.dev.pidEnable = true) (on : call.request.state = true)
    (untargeted : call.request.targetStateValid = false) {limits : List ZoneTripLimit}
    (plain : ∀ l ∈ c.zoneTripLimits,l.targetStateValid = false) (others : ∀ l ∈ limits,l.targetStateValid = false) :
    (step m srt {c with zoneTripLimits := limits} call).dev = (step m srt c call).dev := by
  have last {limits : List ZoneTripLimit} (plain : ∀ l ∈ limits,l.targetStateValid = false) :
      ((enlist srt c.dev limits call.request).getLastD ⟨0,0,false,0,0,0,false⟩).targetStateValid = false := by
    rw [List.getLastD_eq_getLast?]
    cases found : (enlist srt c.dev limits call.request).getLast? with
    | none => rfl
    | some l => exact enlist_plain srt untargeted plain l (List.mem_of_getLast? found)
  have here := last plain
  have there := last others
  have orders (l : ZoneTripLimit) : (ZoneTripLimit.order l).targetStateValid = l.targetStateValid := rfl
  unfold step thdCdevSetState arbitrate
  simp only [on,if_true,here,there,Bool.and_false,Bool.false_and,Bool.false_eq_true,if_false]
  by_cases soon : (!call.request.force && c.dev.lastState == true &&
      decide (call.now - c.dev.lastActionTime ≤ c.dev.debounceInterval)) = true
  · simp only [soon,if_true]
  · simp only [soon,Bool.false_eq_true,if_false]
    exact congrArg Prod.fst (actuate_plain m pidOn call.now call.request ((orders _).trans there)
      ((orders _).trans here) call.pid)

theorem reached_untargeted {zones : List Zone} {clock : Nat → Int} {temps : Nat → Nat} {c : Cdev σ}
    (plain : Plain zones c) {call : Call} (reached : Reached zones clock temps call) :
    call.request.targetStateValid = false := by
  obtain ⟨place,t,checks,_,_,same,_,_,_,_,_,_,_,b,bound,valid,_⟩ := reached
  cases same
  obtain ⟨binding,inside,rfl⟩ := List.mem_map.mp bound
  exact valid.trans (plain.bindings place t checks binding inside)

theorem drive_alone {c : Cdev σ} (pidOn : c.dev.pidEnable = true) {t : TripPoint} {b : TripPtCdev}
    (untargeted : b.targetStateValid = false) (now : Int) (readTemp : Nat) {limits : List ZoneTripLimit}
    (plain : ∀ l ∈ c.zoneTripLimits,l.targetStateValid = false) (others : ∀ l ∈ limits,l.targetStateValid = false) :
    (TripPoint.drive m srt t b {c with zoneTripLimits := limits} now readTemp true).2.dev =
      (TripPoint.drive m srt t b c now readTemp true).2.dev := by
  have kept : (if b.targetState = tripPtInvalidTargetState then {b with targetState := c.dev.minState}
      else b).targetStateValid = false := by
    split <;> exact untargeted
  unfold TripPoint.drive
  dsimp only
  generalize (if b.targetState = tripPtInvalidTargetState then {b with targetState := c.dev.minState} else b) = b' at kept ⊢
  exact @plain_alone σ m srt c ⟨now,TripPoint.request m t b' c.dev readTemp true,b'.pid⟩ pidOn rfl kept limits plain others

theorem acts_alone {zones : List Zone} {clock : Nat → Int} {temps : Nat → Nat} {start : Cdev σ} {k : Nat} {r : Check σ}
    {b : TripPtCdev} {before : Cdev σ} (plain : Plain zones start) (pidOn : start.dev.pidEnable = true)
    (acts : Acts m srt zones clock temps start k r b before) :
    (TripPoint.drive m srt r.trip b before r.sample.now r.sample.temp true).2.dev =
      (TripPoint.drive m srt r.trip b start r.sample.now r.sample.temp true).2.dev := by
  obtain ⟨place,t,checks,same,_⟩ := stored_checks acts.stored acts.cooling
  obtain ⟨front,rest,split,_⟩ := acts.first
  have inside : brand b ∈ (frame r.trip).bound := List.mem_map_of_mem (split ▸ List.mem_append_right _ List.mem_cons_self)
  rw [same] at inside
  obtain ⟨binding,bound,equal⟩ := List.mem_map.mp inside
  have untargeted : b.targetStateValid = false :=
    (congrArg Prod.fst equal).symm.trans (plain.bindings place t checks binding bound)
  obtain ⟨earlier,before,rfl⟩ := acts.entered
  exact drive_alone m srt pidOn untargeted _ _ plain.limits
    (joined_plain srt plain.limits (fun q inside => reached_untargeted plain (before q inside)))

theorem walkZones_congr (visit : Zone → List (Cdev σ) → (Nat → Sample) → Zone.Polled σ)
    (samples others : Nat → Nat → Sample) (zones : List Zone) (place : Nat)
    (agree : ∀ i < zones.length,samples (place+i) = others (place+i)) (devs : List (Cdev σ)) :
    Engine.walkZones visit samples zones place devs = Engine.walkZones visit others zones place devs := by
  induction zones generalizing place devs with
  | nil => rfl
  | cons z rest ih =>
    have first : samples place = others place := agree 0 (Nat.succ_pos _)
    have later := fun devs => ih (place+1) (fun i bound => by
      have one := agree (i+1) (Nat.succ_lt_succ bound)
      rwa [← Nat.add_assoc,Nat.add_right_comm] at one) devs
    simp only [Engine.walkZones,first,later]

-- The device a cycle leaves at position k, and the limit in its PL1.
def deviceLeft (srt : StdSort) (e : Engine Rapl) (k : Nat) (clock : Nat → Int) (temps : Nat → Nat) : Option (Dev Rapl) :=
  (Engine.pollZones RaplCdev.rapl srt e (readings clock temps)).1.cdevs[k]?.map (·.dev)

def pl1Left (srt : StdSort) (e : Engine Rapl) (k : Nat) (clock : Nat → Int) (temps : Nat → Nat) : Option Int :=
  (deviceLeft srt e k clock temps).map (·.ext.pl1)

-- Not the most severe trip but the first one in the cycle's order whose call
-- gets through sets PL1, from the controller state the cycle found. Whatever is
-- checked after it has no say, in any order.
theorem first_acting_trip_sets_pl1 (e : Engine Rapl) {k : Nat} {c : Cdev Rapl} (present : e.cdevs[k]? = some c)
    {clock : Nat → Int} {temps : Nat → Nat}
    (brief : ∀ first second,clock second - clock first ≤ c.dev.debounceInterval)
    (rising : Rising RaplCdev.rapl e.zones temps c) :
    (∃ d,deviceLeft srt e k clock temps = some d ∧
      (d = c.dev ∨ d ≠ c.dev ∧ ∃ early r late b before,
        cycleChecks RaplCdev.rapl srt e (readings clock temps) = early++r::late ∧
        (∀ q ∈ early,TurnedAway RaplCdev.rapl srt e c k q) ∧
        Acts RaplCdev.rapl srt e.zones clock temps c k r b before ∧
        d = (TripPoint.drive RaplCdev.rapl srt r.trip b before r.sample.now r.sample.temp true).2.dev ∧
        (Plain e.zones c → c.dev.pidEnable = true →
          d = (TripPoint.drive RaplCdev.rapl srt r.trip b c r.sample.now r.sample.temp true).2.dev)) ∧
      ∀ early r late after,cycleChecks RaplCdev.rapl srt e (readings clock temps) = early++r::late →
        (r.after RaplCdev.rapl srt e)[k]? = some after → after.dev ≠ c.dev → d = after.dev) ∧
    ∀ front rest,e.zones = front++rest → ∃ half,deviceLeft srt {e with zones := front} k clock temps = some half ∧
      (half ≠ c.dev → ∀ rest' clock' temps',(∀ i < front.length,clock' i = clock i ∧ temps' i = temps i) →
        (∀ first second,clock' second - clock' first ≤ c.dev.debounceInterval) →
        Rising RaplCdev.rapl (front++rest') temps' c →
        deviceLeft srt {e with zones := front++rest'} k clock' temps' = some half) := by
  constructor
  · obtain ⟨linked,stored⟩ := cycle_linked RaplCdev.rapl srt clock rising
    have steady : Steady RaplCdev.rapl srt e.zones clock temps c c := steady_start RaplCdev.rapl srt rising
    obtain ⟨whole,final,_⟩ := checks_steady RaplCdev.rapl srt brief rising stored linked steady present
    refine ⟨whole.dev,by rw [deviceLeft,final]; rfl,?_,?_⟩
    · rcases first_change RaplCdev.rapl srt brief rising stored linked steady present rfl final with
        same | ⟨early,r,late,found,after,split,away,here,steady',still,reached,changed,kept⟩
      · exact .inl same
      · have own := stored r (split ▸ List.mem_append_right _ List.mem_cons_self)
        obtain ⟨b,before,acts,made⟩ := check_acts RaplCdev.rapl srt brief rising own here steady' still reached changed
        refine .inr ⟨kept ▸ changed,early,r,late,b,before,split,away,acts,kept.trans made,?_⟩
        intro plain pidOn
        exact (kept.trans made).trans (acts_alone RaplCdev.rapl srt plain pidOn acts)
    · intro early r late after split reached changed
      rw [split] at linked stored
      exact change_stays RaplCdev.rapl srt brief rising stored linked present reached changed final
  · intro front rest split
    obtain ⟨half,_,reached,_⟩ := first_acting_zone RaplCdev.rapl srt present brief rising split
    refine ⟨half.dev,by rw [deviceLeft,reached]; rfl,?_⟩
    intro changed rest' clock' temps' agree brief' rising'
    obtain ⟨half',whole,reached',final,kept,_⟩ := first_acting_zone RaplCdev.rapl srt
      (e := {e with zones := front++rest'}) present brief' rising' rfl
    have same : Engine.pollZones RaplCdev.rapl srt {e with zones := front} (readings clock' temps') =
        Engine.pollZones RaplCdev.rapl srt {e with zones := front} (readings clock temps) := by
      unfold Engine.pollZones Engine.walk
      dsimp only
      rw [walkZones_congr _ (readings clock' temps') (readings clock temps)]
      intro i bound
      rw [Nat.zero_add]
      funext sensor
      simp only [readings,(agree i bound).1,(agree i bound).2]
    rw [same,reached] at reached'
    cases reached'
    rw [deviceLeft,final,Option.map_some,kept changed]

-- The RAPL device under its PID gains, and the two EC zones as
-- install_minibook_ec_zones leaves their passive trips.
def pidRapl : Cdev Rapl :=
  ⟨0,"rapl_controller_mmio","B0D4",⟨17000000,8000000,17000000,0,0,1,false,2,0,false,true,
    ⟨-1000,-100,-10,0,0,96,0⟩,false,-1000000,-500000,
    ⟨17000000,true,25000000,28000000,1,10,6000000,true,true,17000000,8000000,0,500000,false,false,0,28000000,1⟩⟩,[]⟩

def ecTrip (index : Int) (temp : Nat) (zone : Int) : TripPoint :=
  {TripPoint.new index .passive temp 0 zone zone .sequential with
    cdevs := [⟨0,100,5,0,false,0,TripPoint.invalidPid,Pid.new,false,0,0⟩]}

def socZone : Zone := ⟨0,"minibook_soc",[ecTrip 0 80000 0,ecTrip 1 81000 0],true,true,[0],.independent⟩

def chargerZone : Zone := ⟨1,"minibook_charger",[ecTrip 0 60000 1,ecTrip 1 61000 1],true,true,[1],.independent⟩

def ecCycle (zones : List Zone) : Engine Rapl :=
  ⟨zones,[pidRapl],[⟨0,"minibook_soc",false,false⟩,⟨1,"minibook_charger",false,false⟩],0,false⟩

-- minibook_soc one degree over its trip, minibook_charger five.
def socFirst : Nat → Nat := fun place => if place = 0 then 81000 else 65000

def chargerFirst : Nat → Nat := fun place => if place = 0 then 65000 else 81000

-- The same device on its way back to 17 W, with nothing listed, and a cool charger.
def throttledRapl : Cdev Rapl :=
  {pidRapl with dev := {pidRapl.dev with
    currState := 12000000,ext := {pidRapl.dev.ext with pl1 := 12000000}}}

theorem stored_order_changes_pl1 :
    pl1Left StdSort.insertion (ecCycle [socZone,chargerZone]) 0 (fun _ => 100) socFirst = some 15597500 ∧
    pl1Left StdSort.insertion (ecCycle [chargerZone,socZone]) 0 (fun _ => 100) chargerFirst = some 9987500 ∧
    pl1Left StdSort.insertion (ecCycle [{chargerZone with tripPoints := [ecTrip 0 60000 1]}]) 0 (fun _ => 100)
      chargerFirst = some 9987500 ∧
    pl1Left StdSort.insertion {ecCycle [socZone,chargerZone] with cdevs := [throttledRapl]} 0 (fun _ => 100)
      (fun place => if place = 0 then 81000 else 55000) = some 15597500 ∧
    pl1Left StdSort.insertion {ecCycle [chargerZone,socZone] with cdevs := [throttledRapl]} 0 (fun _ => 100)
      (fun place => if place = 0 then 55000 else 81000) = some 17000000 := by
  refine ⟨?_,?_,?_,?_,?_⟩ <;> decide +kernel

theorem ec_cycle_hot {place : Nat} {z : Zone} (stored : [socZone,chargerZone][place]? = some z) :
    ∀ t ∈ z.tripPoints,t.type = .passive ∧ t.temp ≤ socFirst place ∧ ∀ b ∈ t.cdevs,b.targetStateValid = false := by
  match place,stored with
  | 0,stored =>
    cases stored
    decide
  | 1,stored =>
    cases stored
    decide

theorem first_acting_trip_sets_pl1_ec_zones : ∃ d,
    deviceLeft StdSort.insertion (ecCycle [socZone,chargerZone]) 0 (fun _ => 100) socFirst = some d ∧
      d.ext.pl1 = 15597500 ∧ ∃ early r late b before,
        cycleChecks RaplCdev.rapl StdSort.insertion (ecCycle [socZone,chargerZone]) (readings (fun _ => 100) socFirst) =
          early++r::late ∧
        Acts RaplCdev.rapl StdSort.insertion [socZone,chargerZone] (fun _ => 100) socFirst pidRapl 0 r b before ∧
        d = (TripPoint.drive RaplCdev.rapl StdSort.insertion r.trip b pidRapl r.sample.now r.sample.temp true).2.dev := by
  have hot : ∀ place t,Checks [socZone,chargerZone] place t → t.temp ≤ socFirst place := by
    intro place t given
    obtain ⟨z,stored,_,trip,_⟩ := given
    exact (ec_cycle_hot stored t trip).2.1
  have rising : Rising RaplCdev.rapl [socZone,chargerZone] socFirst pidRapl := by
    refine ⟨.inr (by decide),?_,?_,?_⟩
    · intro place z stored _ t trip polling
      rw [(ec_cycle_hot stored t trip).1] at polling
      cases polling
    · intro place t checks below
      exact absurd below (Nat.not_lt.mpr (hot place t checks))
    · intro place t _ _ checks _ below
      exact absurd below (Nat.not_lt.mpr (hot place t checks))
  have plain : Plain [socZone,chargerZone] pidRapl := by
    refine ⟨List.forall_mem_nil _,?_⟩
    intro place t given b binding
    obtain ⟨z,stored,_,trip,_⟩ := given
    exact (ec_cycle_hot stored t trip).2.2 b binding
  have present : (ecCycle [socZone,chargerZone]).cdevs[0]? = some pidRapl := rfl
  have once : (100 : Int) - 100 ≤ pidRapl.dev.debounceInterval := by decide
  have brief : ∀ first second : Nat,(fun _ => 100 : Nat → Int) second - (fun _ => 100 : Nat → Int) first ≤
      pidRapl.dev.debounceInterval := fun _ _ => once
  obtain ⟨⟨d,left,outcome,_⟩,_⟩ := first_acting_trip_sets_pl1 StdSort.insertion (ecCycle [socZone,chargerZone])
    present brief rising
  have limit : (deviceLeft StdSort.insertion (ecCycle [socZone,chargerZone]) 0 (fun _ => 100) socFirst).map (·.ext.pl1) =
      some 15597500 := by decide +kernel
  rw [left] at limit
  have limit : d.ext.pl1 = 15597500 := Option.some.inj limit
  rcases outcome with same | ⟨_,early,r,late,b,before,split,_,acts,_,alone⟩
  · rw [same] at limit
    exact absurd limit (by decide)
  · exact ⟨d,left,limit,early,r,late,b,before,split,acts,alone plain rfl⟩

end ChuwiMinibook.PollOrder
