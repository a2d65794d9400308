import ChuwiMinibook.Mxc6655
import ChuwiMinibook.Machine
import ChuwiMinibook.Streak
import Mathlib.Data.List.Chain
import Mathlib.Data.List.Induction

namespace ChuwiMinibook.TabletMode
open Mxc6655 Machine Streak

inductive Zone where
  | ignored | tablet | laptop | neutral
deriving DecidableEq

section
variable {K Filter Hinge : Type} [LinearOrder K]

def zone (d : Device K Filter Hinge) (angle : K) : Zone :=
  if angle ≤ d.minAngle then .ignored
  else if d.tabletThresh < angle then .tablet
  else if angle < d.laptopThresh then .laptop
  else .neutral

def counted (d : Device K Filter Hinge) (angles : List K) : List Zone :=
  (angles.map (zone d)).filter (· ≠ .ignored)

-- The angle is the last of more than GMTR_DEBOUNCE samples of one zone.
def CompletesRun (d : Device K Filter Hinge) (z : Zone) (angles : List K) (angle : K) : Prop :=
  zone d angle = z ∧ List.replicate (gmtrDebounce+1) z <:+ counted d (angles++[angle])

def Alternating (events : List Int) : Prop := (∀ m ∈ events,m = 0 ∨ m = 1) ∧ events.IsChain (· ≠ ·)

def hinge (d : Device K Filter Hinge) (angle : K) : Device K Filter Hinge := updateTabletMode angle d

structure Ordered (d : Device K Filter Hinge) : Prop where
  low : d.minAngle < d.laptopThresh
  high : d.laptopThresh ≤ d.tabletThresh

-- The same machine over zones, with only the fields that decide the mode.
structure View where
  mode : Int
  tCount : Nat
  lCount : Nat
  events : List Int

def View.count (m : Int) (v : View) (n : Nat) : View :=
  if v.mode ≠ m ∧ n > gmtrDebounce then { v with mode := m,events := v.events++[m] } else v

def advance (v : View) : Zone → View
  | .ignored => v
  | .neutral => { v with tCount := 0,lCount := 0 }
  | .tablet => View.count 1 { v with tCount := v.tCount+1,lCount := 0 } (v.tCount+1)
  | .laptop => View.count 0 { v with lCount := v.lCount+1,tCount := 0 } (v.lCount+1)

def view (d : Device K Filter Hinge) : View := ⟨d.mode,d.tCount,d.lCount,d.ltsm⟩

omit [LinearOrder K] in
theorem view_setTabletMode (m : Int) (d : Device K Filter Hinge) :
    view (setTabletMode m d) = { view d with mode := m,events := d.ltsm++[m] } := by
  unfold setTabletMode forceLandscape emitOrientation
  by_cases held : 0 ≤ d.uinputFd <;> by_cases laptop : m = 0 <;> simp [held,laptop,view]

omit [LinearOrder K] in
theorem view_counted (m : Int) (n : Nat) (d : Device K Filter Hinge) :
    view (if d.mode ≠ m ∧ n > gmtrDebounce then setTabletMode m d else d) = View.count m (view d) n := by
  by_cases due : d.mode ≠ m ∧ n > gmtrDebounce
  · have same : (view d).mode ≠ m ∧ n > gmtrDebounce := due
    rw [if_pos due,view_setTabletMode,View.count,if_pos same]
    rfl
  · have same : ¬ ((view d).mode ≠ m ∧ n > gmtrDebounce) := due
    rw [if_neg due,View.count,if_neg same]

theorem view_updateTabletMode {d : Device K Filter Hinge} (ordered : Ordered d) (angle : K) :
    view (updateTabletMode angle d) = advance (view d) (zone d angle) := by
  have low := ordered.low
  have high := ordered.high
  unfold updateTabletMode zone
  by_cases tablet : d.tabletThresh < angle
  · have above : ¬ angle ≤ d.minAngle := not_le.mpr (lt_trans (lt_of_lt_of_le low high) tablet)
    rw [if_pos tablet,if_neg above,if_pos tablet]
    exact view_counted 1 (d.tCount+1) { d with tCount := d.tCount+1,lCount := 0,nCount := 0 }
  rw [if_neg tablet,if_neg tablet]
  by_cases neutral : d.laptopThresh ≤ angle
  · rw [if_pos neutral,if_neg (not_le.mpr (lt_of_lt_of_le low neutral)),if_neg (not_lt.mpr neutral)]
    rfl
  rw [if_neg neutral,if_pos (not_le.mp neutral)]
  by_cases laptop : d.minAngle < angle
  · rw [if_pos laptop,if_neg (not_le.mpr laptop)]
    exact view_counted 0 (d.lCount+1) { d with lCount := d.lCount+1,tCount := 0,nCount := 0 }
  · rw [if_neg laptop,if_pos (not_lt.mp laptop)]
    rfl

-- Beside the view: the thresholds stay, and the switch events repeat the LTSM calls
-- when there is a uinput device.
structure Beside (d d' : Device K Filter Hinge) : Prop where
  low : d'.minAngle = d.minAngle
  middle : d'.laptopThresh = d.laptopThresh
  high : d'.tabletThresh = d.tabletThresh
  uinput : d'.uinputFd = d.uinputFd
  mirrored : d.tabletEvents = (if 0 ≤ d.uinputFd then d.ltsm else []) →
    d'.tabletEvents = if 0 ≤ d'.uinputFd then d'.ltsm else []

omit [LinearOrder K] in
theorem beside_setTabletMode (m : Int) (d : Device K Filter Hinge) : Beside d (setTabletMode m d) := by
  unfold setTabletMode forceLandscape emitOrientation
  by_cases held : 0 ≤ d.uinputFd <;> by_cases laptop : m = 0 <;> constructor <;> simp [held,laptop]

theorem beside_updateTabletMode (angle : K) (d : Device K Filter Hinge) : Beside d (updateTabletMode angle d) := by
  have counters : ∀ t l n : Nat,Beside d { d with tCount := t,lCount := l,nCount := n } :=
    fun t l n => ⟨rfl,rfl,rfl,rfl,fun mirrored => mirrored⟩
  have switch : ∀ (t l n : Nat) (m : Int),Beside d (setTabletMode m { d with tCount := t,lCount := l,nCount := n }) := by
    intro t l n m
    obtain ⟨low,middle,high,uinput,mirrored⟩ := beside_setTabletMode m { d with tCount := t,lCount := l,nCount := n }
    exact ⟨low,middle,high,uinput,mirrored⟩
  unfold updateTabletMode
  split
  · simp only
    split
    · exact switch _ _ _ _
    · exact counters _ _ _
  · split
    · exact counters _ _ _
    · split
      · simp only
        split
        · exact switch _ _ _ _
        · exact counters _ _ _
      · exact ⟨rfl,rfl,rfl,rfl,fun mirrored => mirrored⟩

theorem Beside.zone {d d' : Device K Filter Hinge} (beside : Beside d d') : zone d' = zone d := by
  funext angle
  rw [TabletMode.zone,TabletMode.zone,beside.low,beside.middle,beside.high]

theorem Beside.ordered {d d' : Device K Filter Hinge} (beside : Beside d d') (ordered : Ordered d) : Ordered d' := by
  constructor
  · rw [beside.low,beside.middle]
    exact ordered.low
  · rw [beside.middle,beside.high]
    exact ordered.high

end

-- The counters are the lengths of the current runs, the events alternate, and the last
-- of them is the mode.
structure Tracks (zones : List Zone) (v : View) : Prop where
  tablet : v.tCount = streak .tablet zones
  laptop : v.lCount = streak .laptop zones
  alternating : Alternating v.events
  last : v.events.getLast? = if v.mode = -1 then none else some v.mode

theorem alternating_snoc {events : List Int} {m : Int} (alternating : Alternating events) (binary : m = 0 ∨ m = 1)
    (changed : events.getLast? ≠ some m) : Alternating (events++[m]) := by
  refine ⟨?_,?_⟩
  · intro other inside
    rcases List.mem_append.mp inside with prior | added
    · exact alternating.1 other prior
    · rw [List.mem_singleton.mp added]
      exact binary
  · refine List.isChain_append.mpr ⟨alternating.2,List.isChain_singleton m,?_⟩
    intro previous isLast next isFirst equal
    rw [List.head?_singleton,Option.mem_some_iff] at isFirst
    rw [equal,← isFirst] at isLast
    exact changed isLast

theorem count_tracks {zones : List Zone} {v : View} {m : Int} {n : Nat} (tracks : Tracks zones v) (binary : m = 0 ∨ m = 1) :
    Tracks zones (View.count m v n) := by
  by_cases due : v.mode ≠ m ∧ n > gmtrDebounce
  · rw [View.count,if_pos due]
    refine ⟨tracks.tablet,tracks.laptop,alternating_snoc tracks.alternating binary ?_,?_⟩
    · rw [tracks.last]
      split
      · exact nofun
      · exact fun equal => due.1 (Option.some.inj equal)
    · rw [List.getLast?_concat,if_neg (show ¬ m = -1 by omega)]
  · rw [View.count,if_neg due]
    exact tracks

theorem advance_tracks {zones : List Zone} {v : View} (tracks : Tracks zones v) (z : Zone) :
    Tracks (if z = .ignored then zones else zones++[z]) (advance v z) := by
  cases z with
  | ignored => exact tracks
  | neutral =>
    exact ⟨(streak_snoc_other (by decide) _).symm,(streak_snoc_other (by decide) _).symm,tracks.alternating,tracks.last⟩
  | tablet =>
    refine count_tracks ⟨?_,?_,tracks.alternating,tracks.last⟩ (.inr rfl)
    · exact (congrArg (·+1) tracks.tablet).trans (streak_snoc_same _ _).symm
    · exact (streak_snoc_other (by decide) _).symm
  | laptop =>
    refine count_tracks ⟨?_,?_,tracks.alternating,tracks.last⟩ (.inl rfl)
    · exact (streak_snoc_other (by decide) _).symm
    · exact (congrArg (·+1) tracks.laptop).trans (streak_snoc_same _ _).symm

theorem count_mode (m : Int) (v : View) (n : Nat) :
    (View.count m v n).mode = if v.mode ≠ m ∧ n > gmtrDebounce then m else v.mode := by
  unfold View.count
  split <;> rfl

theorem count_switches {m : Int} {v : View} (other : v.mode ≠ m) (n : Nat) :
    (View.count m v n).mode = m ↔ gmtrDebounce+1 ≤ n := by
  rw [count_mode]
  by_cases due : n > gmtrDebounce
  · rw [if_pos ⟨other,due⟩]
    exact ⟨fun _ => due,fun _ => rfl⟩
  · rw [if_neg (fun both => due both.2)]
    exact ⟨fun same => absurd same other,fun enough => absurd enough due⟩

theorem count_elsewhere {m k : Int} {v : View} (distinct : m ≠ k) (other : v.mode ≠ k) (n : Nat) : (View.count m v n).mode ≠ k := by
  rw [count_mode]
  split
  · exact distinct
  · exact other

-- The sample at which the mode changes.
theorem advance_to_tablet (v : View) (z : Zone) : (v.mode ≠ 1 ∧ (advance v z).mode = 1) ↔
    v.mode ≠ 1 ∧ z = .tablet ∧ gmtrDebounce+1 ≤ v.tCount+1 := by
  refine and_congr_right (fun other => ?_)
  cases z with
  | ignored => exact ⟨fun same => absurd same other,fun given => absurd given.1 (by decide)⟩
  | neutral => exact ⟨fun same => absurd same other,fun given => absurd given.1 (by decide)⟩
  | tablet =>
    rw [advance,count_switches]
    · exact ⟨fun due => ⟨rfl,due⟩,And.right⟩
    · exact other
  | laptop =>
    refine ⟨fun same => absurd same ?_,fun given => absurd given.1 (by decide)⟩
    apply count_elsewhere
    · decide
    · exact other

theorem advance_to_laptop (v : View) (z : Zone) : (v.mode ≠ 0 ∧ (advance v z).mode = 0) ↔
    v.mode ≠ 0 ∧ z = .laptop ∧ gmtrDebounce+1 ≤ v.lCount+1 := by
  refine and_congr_right (fun other => ?_)
  cases z with
  | ignored => exact ⟨fun same => absurd same other,fun given => absurd given.1 (by decide)⟩
  | neutral => exact ⟨fun same => absurd same other,fun given => absurd given.1 (by decide)⟩
  | tablet =>
    refine ⟨fun same => absurd same ?_,fun given => absurd given.1 (by decide)⟩
    apply count_elsewhere
    · decide
    · exact other
  | laptop =>
    rw [advance,count_switches]
    · exact ⟨fun due => ⟨rfl,due⟩,And.right⟩
    · exact other

theorem advance_mode (v : View) (z : Zone) : (advance v z).mode = v.mode ∨ (advance v z).mode = 1 ∨ (advance v z).mode = 0 := by
  cases z with
  | ignored => exact .inl rfl
  | neutral => exact .inl rfl
  | tablet =>
    rw [advance,count_mode]
    split
    · exact .inr (.inl rfl)
    · exact .inl rfl
  | laptop =>
    rw [advance,count_mode]
    split
    · exact .inr (.inr rfl)
    · exact .inl rfl

section
variable {K Filter Hinge : Type} [LinearOrder K]

theorem counted_snoc (d : Device K Filter Hinge) (angles : List K) (angle : K) : counted d (angles++[angle]) =
    if zone d angle = .ignored then counted d angles else counted d angles++[zone d angle] := by
  rw [counted,List.map_append,List.filter_append,counted,List.map_singleton,List.filter_singleton]
  by_cases ignored : zone d angle = .ignored
  · simp [ignored]
  · simp [ignored]

-- A whole run of angles, from a device that has just been opened.
structure Followed (start : Device K Filter Hinge) (angles : List K) (d : Device K Filter Hinge) : Prop where
  ordered : Ordered d
  zones : zone d = zone start
  uinput : d.uinputFd = start.uinputFd
  mirrored : d.tabletEvents = if 0 ≤ d.uinputFd then d.ltsm else []
  tracks : Tracks (counted start angles) (view d)

theorem followed_snoc {start d : Device K Filter Hinge} {angles : List K} (followed : Followed start angles d) (angle : K) :
    Followed start (angles++[angle]) (updateTabletMode angle d) := by
  have beside := beside_updateTabletMode angle d
  refine ⟨beside.ordered followed.ordered,beside.zone.trans followed.zones,beside.uinput.trans followed.uinput,
    beside.mirrored followed.mirrored,?_⟩
  rw [view_updateTabletMode followed.ordered,counted_snoc,followed.zones]
  exact advance_tracks followed.tracks _

theorem opened_followed {setup : Setup K Filter Hinge} {d : Device K Filter Hinge} (opened : mxc6655Open setup = .ok d)
    (low : setup.minAngle < setup.laptopThresh) (high : setup.laptopThresh ≤ setup.tabletThresh) : Followed d [] d := by
  have quiet : ([] : List Int) = if 0 ≤ setup.uinputFd then [] else [] := by split <;> rfl
  obtain ⟨t,found,rfl⟩ := open_ok opened
  cases setup.lid with
  | none => exact ⟨⟨low,high⟩,rfl,rfl,quiet,⟨rfl,rfl,⟨nofun,List.isChain_nil⟩,rfl⟩⟩
  | some lid => exact ⟨⟨low,high⟩,rfl,rfl,quiet,⟨rfl,rfl,⟨nofun,List.isChain_nil⟩,rfl⟩⟩

theorem run_followed {start : Device K Filter Hinge} (followed : Followed start [] start) (angles : List K) :
    Followed start angles (run hinge start angles) := by
  induction angles using List.reverseRecOn with
  | nil => exact followed
  | append_singleton angles angle ih =>
    rw [run_snoc]
    exact followed_snoc ih angle

theorem completes_iff {start d : Device K Filter Hinge} {angles : List K} (followed : Followed start angles d) (angle : K) :
    (CompletesRun start .tablet angles angle ↔ zone d angle = .tablet ∧ gmtrDebounce+1 ≤ d.tCount+1) ∧
    (CompletesRun start .laptop angles angle ↔ zone d angle = .laptop ∧ gmtrDebounce+1 ≤ d.lCount+1) := by
  have tablet : d.tCount = streak .tablet (counted start angles) := followed.tracks.tablet
  have laptop : d.lCount = streak .laptop (counted start angles) := followed.tracks.laptop
  rw [followed.zones,tablet,laptop]
  constructor
  · refine and_congr_right (fun inZone => ?_)
    rw [counted_snoc,inZone,if_neg (by decide),replicate_suffix_iff,streak_snoc_same]
  · refine and_congr_right (fun inZone => ?_)
    rw [counted_snoc,inZone,if_neg (by decide),replicate_suffix_iff,streak_snoc_same]

theorem tablet_mode_follows_runs {setup : Setup K Filter Hinge} {d : Device K Filter Hinge} (opened : mxc6655Open setup = .ok d)
    (low : setup.minAngle < setup.laptopThresh) (high : setup.laptopThresh ≤ setup.tabletThresh) (angles : List K) :
    (∀ angle,
      (((run hinge d angles).mode ≠ 1 ∧ (run hinge d (angles++[angle])).mode = 1) ↔
        (run hinge d angles).mode ≠ 1 ∧ CompletesRun d .tablet angles angle) ∧
      (((run hinge d angles).mode ≠ 0 ∧ (run hinge d (angles++[angle])).mode = 0) ↔
        (run hinge d angles).mode ≠ 0 ∧ CompletesRun d .laptop angles angle) ∧
      ((run hinge d (angles++[angle])).mode = (run hinge d angles).mode ∨
        (run hinge d (angles++[angle])).mode = 1 ∨ (run hinge d (angles++[angle])).mode = 0)) ∧
    Alternating (run hinge d angles).ltsm ∧
    (run hinge d angles).tabletEvents = (if 0 ≤ d.uinputFd then (run hinge d angles).ltsm else []) ∧
    (run hinge d angles).ltsm.getLast? =
      (if (run hinge d angles).mode = -1 then none else some (run hinge d angles).mode) := by
  have followed := run_followed (opened_followed opened low high) angles
  refine ⟨?_,followed.tracks.alternating,?_,followed.tracks.last⟩
  · intro angle
    obtain ⟨tablet,laptop⟩ := completes_iff followed angle
    have next : (run hinge d (angles++[angle])).mode =
        (advance (view (run hinge d angles)) (zone (run hinge d angles) angle)).mode := by
      rw [run_snoc,← view_updateTabletMode followed.ordered]
      rfl
    rw [tablet,laptop,next]
    exact ⟨advance_to_tablet (view (run hinge d angles)) _,advance_to_laptop (view (run hinge d angles)) _,
      advance_mode (view (run hinge d angles)) _⟩
  · have mirrored := followed.mirrored
    rw [followed.uinput] at mirrored
    exact mirrored

end

theorem minibook_unfolded : minibook.minAngle < minibook.laptopThresh ∧ minibook.laptopThresh ≤ minibook.tabletThresh ∧
    mxc6655Open minibook = .ok minibookDevice ∧
    (run hinge minibookDevice [200,200,10,200,200,200,200]).mode = 1 ∧
    (run hinge minibookDevice [200,200,10,200,200,200,200]).ltsm.getLast? = some 1 := by
  have last := (tablet_mode_follows_runs minibook_opens (by decide) (by decide) [200,200,10,200,200,200,200]).2.2.2
  exact ⟨by decide,by decide,minibook_opens,by decide,last⟩

end ChuwiMinibook.TabletMode
