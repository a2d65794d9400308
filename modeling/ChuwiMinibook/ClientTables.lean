import ChuwiMinibook.ProxyParts
import ChuwiMinibook.Machine

namespace ChuwiMinibook.ClientTables
open SensorProxy ProxyParts Machine

-- Who has claimed a sensor type, from the events alone: a claim lasts until its client
-- releases it or disappears, or until the device of the type is removed.
def claimName : DriverType → String
  | .accel => "ClaimAccelerometer"
  | .light => "ClaimLight"
  | .compass => "ClaimCompass"
  | .proximity => "ClaimProximity"

def releaseName : DriverType → String
  | .accel => "ReleaseAccelerometer"
  | .light => "ReleaseLight"
  | .compass => "ReleaseCompass"
  | .proximity => "ReleaseProximity"

-- An authorized call of a method, on the object that has it.
def Calls (name : DriverType → String) (client : String) (t : DriverType) (call : MethodCall) : Prop :=
  call.sender = client ∧ call.refusal = none ∧ call.compass = decide (t = .compass) ∧ call.methodName = name t

section
variable {R : Type}

def Claims (client : String) (t : DriverType) : Event R → Prop
  | .call call _ => Calls claimName client t call
  | _ => False

def Ends (client : String) (t : DriverType) (d : SensorData R) : Event R → Prop
  | .call call _ => Calls releaseName client t call
  | .vanished name => name = client
  | .remove sysfsPath => servedFrom sysfsPath d t = true
  | _ => False

variable [DecidableEq R]

-- Nothing is dispatched once the main loop has ended.
def HasClaimed (cfg : Config) (start : SensorData R) (events : List (Event R)) (t : DriverType) (client : String) : Prop :=
  ∃ before event after,events = before++event::after ∧ Claims client t event ∧ (run (step cfg) start before).quit = false ∧
    ∀ middle next rest,after = middle++next::rest → (run (step cfg) start (before++event::middle)).quit = false →
      ¬Ends client t (run (step cfg) start (before++event::middle)) next

end

theorem methodType_iff {compass : Bool} {name : String} {t : DriverType} : methodType compass name = some t ↔
    compass = decide (t = .compass) ∧ (name = claimName t ∨ name = releaseName t) := by
  unfold methodType
  cases compass with
  | true =>
    rw [if_pos rfl]
    by_cases known : name ∈ ["ClaimCompass","ReleaseCompass"]
    · rw [if_pos known]
      cases t <;> simp_all [claimName,releaseName]
    · rw [if_neg known]
      cases t <;> simp_all [claimName,releaseName]
  | false =>
    rw [if_neg (by decide)]
    by_cases accel : name ∈ ["ClaimAccelerometer","ReleaseAccelerometer"]
    · rw [if_pos accel]
      rcases List.mem_pair.mp accel with rfl | rfl <;> cases t <;> simp [claimName,releaseName]
    by_cases light : name ∈ ["ClaimLight","ReleaseLight"]
    · rw [if_neg accel,if_pos light]
      rcases List.mem_pair.mp light with rfl | rfl <;> cases t <;> simp [claimName,releaseName]
    by_cases proximity : name ∈ ["ClaimProximity","ReleaseProximity"]
    · rw [if_neg accel,if_neg light,if_pos proximity]
      rcases List.mem_pair.mp proximity with rfl | rfl <;> cases t <;> simp [claimName,releaseName]
    · rw [if_neg accel,if_neg light,if_neg proximity]
      cases t <;> simp_all [claimName,releaseName]

section
variable {R : Type}

theorem lookupWatch_zero {ht : ClientTable} {sender : String} : lookupWatch ht sender = 0 ↔ sender ∉ ht.keys := by
  rw [← AList.mem_keys,← AList.lookup_eq_none,lookupWatch]
  cases ht.lookup sender with
  | none => exact ⟨fun _ => rfl,fun _ => rfl⟩
  | some watch => exact ⟨fun zero => absurd zero (Nat.pos_iff_ne_zero.mp watch.2),nofun⟩

def table (t : DriverType) (d : SensorData R) : List String := (d.clients t).keys

theorem table_signalFree (t : DriverType) : SignalFree (table t : SensorData R → List String) :=
  fun _ _ _ _ _ _ _ _ => rfl

variable [DecidableEq R]

theorem table_during (cfg : Config) (u t : DriverType) (during : List (Readings R)) (d : SensorData R) :
    table t (during.foldl (fun d readings => changedFunc cfg u readings d) d) = table t d :=
  during_keeps (P := fun d' => table t d' = table t d) (fun _ _ _ _ _ _ _ _ => rfl) (fun _ kept => kept) cfg during rfl

theorem table_setPolling (cfg : Config) (u t : DriverType) (state : Bool) (during : List (Readings R)) (d : SensorData R) :
    table t (driverSetPolling cfg u state during d) = table t d :=
  table_during cfg u t during (markPolled u state d)

theorem mem_release (cfg : Config) (sender : String) (u t : DriverType) (client : String) (d : SensorData R) :
    client ∈ table t (clientRelease cfg sender u d) ↔ client ∈ table t d ∧ ¬(client = sender ∧ t = u) := by
  unfold clientRelease
  by_cases gone : lookupWatch (d.clients u) sender = 0
  · rw [if_pos gone]
    refine (and_iff_left_of_imp ?_).symm
    rintro listed ⟨rfl,rfl⟩
    exact lookupWatch_zero.mp gone listed
  rw [if_neg gone]
  have erased : client ∈ table t { d with clients := Function.update d.clients u ((d.clients u).erase sender) } ↔
      client ∈ table t d ∧ ¬(client = sender ∧ t = u) := by
    unfold table
    dsimp only
    by_cases same : t = u
    · subst same
      rw [Function.update_self,AList.keys_erase,(d.clients t).keys_nodup.mem_erase_iff]
      simp [and_comm]
    · rw [Function.update_of_ne same]
      simp [same]
  simp only
  split
  · rw [table_setPolling]
    exact erased
  · exact erased

-- What erases a client from one table at a time, gone through all of them.
theorem mem_vanished (cfg : Config) (name : String) (t : DriverType) (client : String) (d : SensorData R) :
    client ∈ table t (clientVanishedCb cfg name d) ↔ client ∈ table t d ∧ client ≠ name := by
  have each (types : List DriverType) (d : SensorData R) : client ∈ table t (types.foldl (fun data t =>
      if lookupWatch (data.clients t) name > 0 then clientRelease cfg name t data else data) d) ↔
      client ∈ table t d ∧ ¬(client = name ∧ t ∈ types) := by
    induction types generalizing d with
    | nil => simp
    | cons u rest ih =>
      rw [List.foldl_cons,ih]
      have one : client ∈ table t (if lookupWatch (d.clients u) name > 0 then clientRelease cfg name u d else d) ↔
          client ∈ table t d ∧ ¬(client = name ∧ t = u) := by
        by_cases watched : lookupWatch (d.clients u) name > 0
        · rw [if_pos watched,mem_release]
        · rw [if_neg watched]
          refine (and_iff_left_of_imp ?_).symm
          rintro listed ⟨rfl,rfl⟩
          exact lookupWatch_zero.mp (Nat.eq_zero_of_not_pos watched) listed
      rw [one,List.mem_cons]
      tauto
  have all : t ∈ sensorTypes := by cases t <;> decide
  unfold clientVanishedCb
  rw [each]
  simp [all]

theorem mem_claim (cfg : Config) (sender : String) (invocation : Nat) (u t : DriverType) (during : List (Readings R))
    (client : String) (d : SensorData R) :
    client ∈ table t (claimSensor cfg sender invocation u during d) ↔ client ∈ table t d ∨ client = sender ∧ t = u := by
  unfold claimSensor
  by_cases watched : lookupWatch (d.clients u) sender > 0
  · rw [if_pos watched]
    refine (or_iff_left_of_imp ?_).symm
    rintro ⟨rfl,rfl⟩
    by_contra absent
    exact Nat.ne_of_gt watched (lookupWatch_zero.mpr absent)
  rw [if_neg watched]
  have added : client ∈ table t (addClient sender u d) ↔ client ∈ table t d ∨ client = sender ∧ t = u := by
    unfold table addClient
    dsimp only
    by_cases same : t = u
    · subst same
      rw [Function.update_self,← AList.mem_keys,AList.mem_insert,AList.mem_keys]
      simp [or_comm]
    · rw [Function.update_of_ne same]
      simp [same]
  simp only
  split
  · split
    · rw [table_setPolling]
      exact added
    · split
      · exact added
      · exact added
  · exact added

theorem mem_call (cfg : Config) (call : MethodCall) (during : List (Readings R)) (t : DriverType) (client : String)
    (d : SensorData R) : client ∈ table t (handleMethodCall cfg call during d) ↔
      Calls claimName client t call ∨ client ∈ table t d ∧ ¬Calls releaseName client t call := by
  unfold handleMethodCall Calls
  simp only
  cases type : methodType call.compass call.methodName with
  | none =>
    have unnamed : ¬(call.compass = decide (t = .compass) ∧ (call.methodName = claimName t ∨ call.methodName = releaseName t)) := by
      rw [← methodType_iff,type]
      exact nofun
    change client ∈ table t d ↔ _
    tauto
  | some u =>
    obtain ⟨object,names⟩ := methodType_iff.mp type
    dsimp only
    cases allowed : call.refusal with
    | some text =>
      change client ∈ table t d ↔ _
      simp
    | none =>
      dsimp only
      have apart : ∀ a b,claimName a ≠ releaseName b := by
        intro a b
        cases a <;> cases b <;> decide
      unfold handleGenericMethodCall
      rcases names with claim | release
      · have front : StdString.startsWith call.methodName "Claim" = true := by
          rw [claim]
          cases u <;> decide
        have own : call.compass = decide (t = .compass) ∧ call.methodName = claimName t ↔ t = u := by
          rw [object,claim]
          cases t <;> cases u <;> decide
        have other : call.methodName ≠ releaseName t := by
          rw [claim]
          exact apart u t
        rw [if_pos front,mem_claim]
        simp only [own,other,and_false,not_false_eq_true,and_true,true_and]
        rw [or_comm,eq_comm]
        rfl
      · have front : ¬StdString.startsWith call.methodName "Claim" = true := by
          rw [release]
          cases u <;> decide
        have back : StdString.startsWith call.methodName "Release" = true := by
          rw [release]
          cases u <;> decide
        have own : call.compass = decide (t = .compass) ∧ call.methodName = releaseName t ↔ t = u := by
          rw [object,release]
          cases t <;> cases u <;> decide
        have other : call.methodName ≠ claimName t := by
          rw [release]
          exact (apart t u).symm
        rw [if_neg front,if_pos back]
        refine (mem_release cfg call.sender u t client _).trans ?_
        simp only [own,other,and_false,false_or,true_and]
        rw [eq_comm (a := client)]
        rfl

theorem removeSensor_parts (cfg : Config) (u : DriverType) (d : SensorData R) (t : DriverType) :
    table t (removeSensor cfg u d) = (if t = u then [] else table t d) ∧
      (t ≠ u → (removeSensor cfg u d).sensors t = d.sensors t) := by
  have free : SignalFree (fun d : SensorData R => (table t d,d.sensors t)) := fun _ _ _ _ _ _ _ _ => rfl
  unfold removeSensor
  simp only
  obtain ⟨tables,sensors⟩ := Prod.mk.inj (free.sendDriverChanged u (answerDelayed u
    (.error .failed "Sensor removed while waiting for it to start up") { driverSetPolling cfg u false [] d with
      sensors := Function.update (driverSetPolling cfg u false [] d).sensors u none
      clients := Function.update (driverSetPolling cfg u false [] d).clients u ∅
      eventDelayed := Function.update (driverSetPolling cfg u false [] d).eventDelayed u false }))
  rw [tables,sensors]
  by_cases same : t = u
  · subst same
    refine ⟨?_,fun other => absurd rfl other⟩
    rw [if_pos rfl]
    simp only [table,answerDelayed,Function.update_self]
    rfl
  · rw [if_neg same]
    refine ⟨?_,fun _ => ?_⟩
    · simp only [table,answerDelayed,Function.update_of_ne same]
      rfl
    · simp only [answerDelayed,driverSetPolling,markPolled,List.foldl_nil,Function.update_of_ne same]

-- A removed device takes the claims of its types with it.
theorem mem_removed (cfg : Config) (sysfsPath : String) (t : DriverType) (client : String) (d : SensorData R) :
    client ∈ table t (sensorRemoved cfg sysfsPath d) ↔ client ∈ table t d ∧ ¬servedFrom sysfsPath d t = true := by
  have each (types : List DriverType) (once : types.Nodup) (d : SensorData R) : client ∈ table t (types.foldl
      (fun data t => if servedFrom sysfsPath data t then removeSensor cfg t data else data) d) ↔
      client ∈ table t d ∧ ¬(t ∈ types ∧ servedFrom sysfsPath d t = true) := by
    induction types generalizing d with
    | nil => simp
    | cons u rest ih =>
      obtain ⟨fresh,once⟩ := List.nodup_cons.mp once
      rw [List.foldl_cons,ih once]
      by_cases served : servedFrom sysfsPath d u = true
      swap
      · rw [if_neg served]
        by_cases same : t = u
        · subst same
          simp [served]
        · simp [same]
      rw [if_pos served]
      obtain ⟨tables,sensors⟩ := removeSensor_parts cfg u d t
      rw [tables]
      by_cases same : t = u
      · subst same
        simp [served]
      · have kept : servedFrom sysfsPath (removeSensor cfg u d) t = servedFrom sysfsPath d t := by
          unfold servedFrom
          rw [sensors same]
        rw [if_neg same,kept]
        simp [same]
  have all : t ∈ sensorTypes := by cases t <;> decide
  have once : sensorTypes.Nodup := by decide
  have closed := each sensorTypes once d
  rw [and_iff_right all] at closed
  unfold sensorRemoved
  simp only
  split
  · exact closed
  · exact closed

theorem table_added (cfg : Config) (device : UdevDevice) (during : List (Readings R)) (t : DriverType) (d : SensorData R) :
    table t (sensorAdded cfg device during d) = table t d := by
  unfold sensorAdded
  split
  · rfl
  · rename_i driver _
    split
    · simp only
      split
      · rw [table_setPolling]
        rfl
      · split
        · exact (table_signalFree t).sendDriverChanged _ _
        · rw [table_setPolling]
          exact (table_signalFree t).sendDriverChanged _ _
    · rfl

-- What one event does to the claims.
theorem mem_step (cfg : Config) (event : Event R) (t : DriverType) (client : String) (d : SensorData R) :
    client ∈ table t (step cfg d event) ↔
      Claims client t event ∧ d.quit = false ∨ client ∈ table t d ∧ ¬(d.quit = false ∧ Ends client t d event) := by
  unfold step
  by_cases ended : d.quit = true
  · rw [if_pos ended,ended]
    simp
  have running : d.quit = false := Bool.eq_false_iff.mpr ended
  rw [if_neg ended,running]
  cases event with
  | call call during => simpa [Claims,Ends] using mem_call cfg call during t client d
  | vanished name => simpa [Claims,Ends,eq_comm] using mem_vanished cfg name t client d
  | remove sysfsPath => simpa [Claims,Ends] using mem_removed cfg sysfsPath t client d
  | add device during => simp [Claims,Ends,table_added]
  | reading u readings =>
    have same : table t (changedFunc cfg u readings d) = table t d := table_during cfg u t [readings] d
    dsimp only
    split <;> simp [Claims,Ends,same]

-- One event later.
theorem hasClaimed_snoc (cfg : Config) (start : SensorData R) (events : List (Event R)) (event : Event R)
    (t : DriverType) (client : String) : HasClaimed cfg start (events++[event]) t client ↔
      Claims client t event ∧ (run (step cfg) start events).quit = false ∨
        HasClaimed cfg start events t client ∧
          ¬((run (step cfg) start events).quit = false ∧ Ends client t (run (step cfg) start events) event) := by
  constructor
  · rintro ⟨before,claim,after,split,claims,running,lasts⟩
    rcases after.eq_nil_or_concat' with rfl | ⟨after,last,rfl⟩
    · obtain ⟨rfl,rfl⟩ := List.append_singleton_inj.mp split
      exact .inl ⟨claims,running⟩
    · rw [← List.cons_append,← List.append_assoc] at split
      obtain ⟨rfl,rfl⟩ := List.append_singleton_inj.mp split
      refine .inr ⟨⟨before,claim,after,rfl,claims,running,?_⟩,fun given => lasts after event [] rfl given.1 given.2⟩
      rintro middle next rest rfl
      exact lasts middle next (rest++[event]) (by simp)
  · rintro (⟨claims,running⟩ | ⟨⟨before,claim,after,rfl,claims,running,lasts⟩,kept⟩)
    · refine ⟨events,event,[],rfl,claims,running,?_⟩
      intro middle next rest split
      exact absurd split.symm (List.append_ne_nil_of_right_ne_nil _ (List.cons_ne_nil _ _))
    · refine ⟨before,claim,after++[event],by simp,claims,running,?_⟩
      intro middle next rest split alive ends
      rcases rest.eq_nil_or_concat' with rfl | ⟨rest,last,rfl⟩
      · obtain ⟨rfl,rfl⟩ := List.append_singleton_inj.mp split
        exact kept ⟨alive,ends⟩
      · rw [← List.cons_append,← List.append_assoc] at split
        obtain ⟨rfl,rfl⟩ := List.append_singleton_inj.mp split
        exact lasts middle next rest rfl alive ends

-- The tables hold the clients that have claimed a sensor.
theorem mem_table_iff (cfg : Config) {start : SensorData R} (empty : ∀ t,table t start = []) (events : List (Event R))
    (t : DriverType) (client : String) :
    client ∈ table t (run (step cfg) start events) ↔ HasClaimed cfg start events t client := by
  induction events using List.reverseRecOn with
  | nil =>
    rw [run_nil,empty]
    refine iff_of_false List.not_mem_nil ?_
    rintro ⟨before,event,after,split,-⟩
    exact absurd split.symm (List.append_ne_nil_of_right_ne_nil _ (List.cons_ne_nil _ _))
  | append_singleton events event ih => rw [run_snoc,mem_step,hasClaimed_snoc,ih]

end

end ChuwiMinibook.ClientTables
