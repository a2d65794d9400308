import ChuwiMinibook.Engine
import ChuwiMinibook.CdevBank

namespace ChuwiMinibook.ForcedReset
open Cdev CdevArbitration CdevBank Machine ReleaseStack
variable {σ : Type} (m : Methods σ) (srt : StdSort)

-- zone_reset(1) on every zone, in the stored order.
def resetZones (now : Int) (zones : List Zone) (devs : List (Cdev σ)) : List (Cdev σ) :=
  zones.foldl (fun devs z => Zone.zoneReset m srt true now z devs) devs

-- The releases a forced reset sends: trips from the last to the first, the
-- bindings of each likewise.
def tripReleases (now : Int) (t : TripPoint) : List (Nat × Op) :=
  t.cdevs.reverse.map (fun b => (b.cdev,.setMin now t.zoneId t.index))

def zoneReleases (now : Int) (z : Zone) : List (Nat × Op) :=
  if z.zoneActive then z.tripPoints.reverse.flatMap (tripReleases now) else []

def releases (now : Int) (zones : List Zone) : List (Nat × Op) := zones.flatMap (zoneReleases now)

theorem stateReset_run (now : Int) (t : TripPoint) (devs : List (Cdev σ)) :
    TripPoint.thdTripCdevStateReset m srt true t now devs = run (send m srt) devs (tripReleases now t) := by
  unfold TripPoint.thdTripCdevStateReset tripReleases
  rw [run,List.foldl_map]
  rfl

theorem zoneReset_run (now : Int) (z : Zone) (devs : List (Cdev σ)) :
    Zone.zoneReset m srt true now z devs = run (send m srt) devs (zoneReleases now z) := by
  unfold Zone.zoneReset zoneReleases
  split
  · exact foldl_run (fun devs t => stateReset_run m srt now t devs) _ devs
  · rfl

theorem resetZones_run (now : Int) (zones : List Zone) (devs : List (Cdev σ)) :
    resetZones m srt now zones devs = run (send m srt) devs (releases now zones) :=
  foldl_run (fun devs z => zoneReset_run m srt now z devs) zones devs

theorem mem_releases {now : Int} {zones : List Zone} {x : Nat × Op} :
    x ∈ releases now zones ↔ ∃ z ∈ zones,z.zoneActive = true ∧ ∃ t ∈ z.tripPoints,∃ b ∈ t.cdevs,
      x = (b.cdev,.setMin now t.zoneId t.index) := by
  unfold releases
  rw [List.mem_flatMap]
  constructor
  · intro given
    obtain ⟨z,inside,sent⟩ := given
    unfold zoneReleases at sent
    split at sent
    · rename_i active
      obtain ⟨t,trip,sent⟩ := List.mem_flatMap.mp sent
      obtain ⟨b,binding,rfl⟩ := List.mem_map.mp sent
      exact ⟨z,inside,active,t,List.mem_reverse.mp trip,b,List.mem_reverse.mp binding,rfl⟩
    · cases sent
  · intro given
    obtain ⟨z,inside,active,t,trip,b,binding,rfl⟩ := given
    refine ⟨z,inside,?_⟩
    rw [zoneReleases,if_pos active]
    exact List.mem_flatMap.mpr ⟨t,List.mem_reverse.mpr trip,
      List.mem_map.mpr ⟨b,List.mem_reverse.mpr binding,rfl⟩⟩

def SetMin (op : Op) : Prop := ∃ now zone trip,op = .setMin now zone trip

theorem releases_setMin {now : Int} {zones : List Zone} {k : Nat} {op : Op}
    (inside : op ∈ opsOf k (releases now zones)) : SetMin op := by
  unfold opsOf at inside
  obtain ⟨x,sent,rfl⟩ := List.mem_map.mp inside
  obtain ⟨z,_,_,t,_,b,_,rfl⟩ := mem_releases.mp (List.mem_filter.mp sent).1
  exact ⟨now,t.zoneId,t.index,rfl⟩

-- The pairs the reset names to one device, in the order of its calls.
def resetPairs (zones : List Zone) (k : Nat) : List (Int × Int) := (opsOf k (releases 0 zones)).map (·.pair)

theorem releases_pairs (now : Int) (zones : List Zone) (k : Nat) :
    (opsOf k (releases now zones)).map (·.pair) = resetPairs zones k := by
  have renamed : releases now zones = (releases 0 zones).map (fun x => (x.1,.setMin now x.2.pair.1 x.2.pair.2)) := by
    unfold releases
    rw [List.map_flatMap]
    congr 1
    funext z
    unfold zoneReleases
    split
    · rw [List.map_flatMap]
      congr 1
      funext t
      simp [tripReleases,Op.pair,Function.comp_def]
    · rfl
  unfold resetPairs opsOf
  rw [renamed,List.filter_map]
  simp [Function.comp_def,Op.pair]

def Released (c : Cdev σ) : Prop := c.zoneTripLimits = [] ∧ AtMin m c.dev

-- What a nonempty sequence of forced releases leaves of one device.
theorem released_iff {ops : List Op} (some : ops ≠ []) (each : ∀ op ∈ ops,SetMin op) (c : Cdev σ) :
    Released m (run (apply m srt) c ops) ↔ (pairs c).reverse.Sublist (ops.map (·.pair)) := by
  have off : ∀ op ∈ ops,op.state = false := by
    intro op inside
    obtain ⟨now,zone,trip,rfl⟩ := each op inside
    rfl
  have emptied : (run (apply m srt) c ops).zoneTripLimits = [] ↔
      (pairs c).reverse.Sublist (ops.map (·.pair)) := by
    rw [← releaseAll_eq_nil_iff,← run_releases m srt off,pairs,List.map_eq_nil_iff]
  refine ⟨fun released => emptied.mp released.1,?_⟩
  intro listed
  refine ⟨emptied.mpr listed,?_⟩
  obtain ⟨front,last,rfl⟩ := (List.eq_nil_or_concat ops).resolve_left some
  obtain ⟨now,zone,trip,rfl⟩ := each last (by simp)
  have empty := emptied.mpr listed
  rw [List.concat_eq_append,run_snoc] at empty ⊢
  exact setMin_settled m srt _ now zone trip empty

def Bound (zones : List Zone) (k : Nat) : Prop :=
  ∃ z ∈ zones,z.zoneActive = true ∧ ∃ t ∈ z.tripPoints,∃ b ∈ t.cdevs,b.cdev = k

theorem bound_called {zones : List Zone} {k : Nat} (bound : Bound zones k) (now : Int) :
    opsOf k (releases now zones) ≠ [] := by
  obtain ⟨z,inside,active,t,trip,b,binding,rfl⟩ := bound
  have sent : (b.cdev,Op.setMin now t.zoneId t.index) ∈ releases now zones :=
    mem_releases.mpr ⟨z,inside,active,t,trip,b,binding,rfl⟩
  intro empty
  unfold opsOf at empty
  have gone := List.filter_eq_nil_iff.mp (List.map_eq_nil_iff.mp empty) _ sent
  simp at gone

-- The devices bound to active zones are all released exactly when each one's
-- requesters, from the last entry down, occur in this order among the pairs it
-- is reset with.
theorem forced_reset_releases (now : Int) (zones : List Zone) (devs : List (Cdev σ)) :
    (∀ k c,Bound zones k → (resetZones m srt now zones devs)[k]? = some c → Released m c) ↔
      ∀ k c,Bound zones k → devs[k]? = some c → (pairs c).reverse.Sublist (resetPairs zones k) := by
  have after (k : Nat) : (resetZones m srt now zones devs)[k]? =
      devs[k]?.map (run (apply m srt) · (opsOf k (releases now zones))) := by
    rw [resetZones_run,run_send]
  have exactly {k : Nat} (bound : Bound zones k) (c : Cdev σ) :
      Released m (run (apply m srt) c (opsOf k (releases now zones))) ↔
        (pairs c).reverse.Sublist (resetPairs zones k) := by
    rw [released_iff m srt (bound_called bound now) (fun op inside => releases_setMin inside),releases_pairs]
  constructor
  · intro all k c bound present
    refine (exactly bound c).mp (all k _ bound ?_)
    rw [after,present]
    rfl
  · intro all k c bound present
    rw [after] at present
    obtain ⟨old,before,rfl⟩ := Option.map_eq_some_iff.mp present
    exact (exactly bound old).mpr (all k old bound before)

-- Two zones over one fan as the engine holds them after start-up.
def heated (index : Int) (name : String) : Zone :=
  Zone.addTrip StdSort.insertion [⟨0,name,false,false⟩] ⟨index,name,[],true,true,[0],.independent⟩
    (TripPoint.thdTripPointAddCdev StdSort.insertion (fun _ => "Fan")
      (TripPoint.new 0 .passive 50000 0 index 0 .sequential) 0 0 5 false 0 false 0 0)

def twoZones : Engine Int :=
  ⟨[heated 0 "minibook_soc",heated 1 "minibook_charger"],[fan],[⟨0,"minibook_soc",false,false⟩],0,false⟩

def hotPoll : Engine Int := (Engine.pollZones genSysfs StdSort.insertion twoZones (fun _ _ => ⟨100,60000⟩)).1

-- One poll with both zones hot, then the reset: the entry pushed first stays.
theorem reset_after_poll_leaves_entry :
    twoZones.cdevs.map (·.zoneTripLimits) = [[]] ∧ Bound hotPoll.zones 0 ∧
      ∃ c,(resetZones genSysfs StdSort.insertion 200 hotPoll.zones hotPoll.cdevs)[0]? = some c ∧
        pairs c = [(0,0)] ∧ ¬ Released genSysfs c := by
  refine ⟨by decide,?_,?_⟩
  · unfold Bound
    decide
  · have left : ((resetZones genSysfs StdSort.insertion 200 hotPoll.zones hotPoll.cdevs)[0]?).map pairs =
        some [(0,0)] := by decide
    obtain ⟨c,present,listed⟩ := Option.map_eq_some_iff.mp left
    refine ⟨c,present,listed,?_⟩
    intro given
    obtain ⟨empty,_⟩ := given
    rw [pairs,empty] at listed
    cases listed

end ChuwiMinibook.ForcedReset
