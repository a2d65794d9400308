import ChuwiMinibook.ProxyPolling

namespace ChuwiMinibook.ClaimReplies
open SensorProxy ProxyParts ProxyPolling Machine
open ClientTables (lookupWatch_zero)

section
variable {R : Type}

def answers (d : SensorData R) (i : Nat) : Nat := (d.replies.map Prod.fst).count i

def waiting (delayed : DriverType → List Nat) (i : Nat) : Nat := (sensorTypes.map (fun t => (delayed t).count i)).sum

def callType (calls : List MethodCall) (i : Nat) : Option DriverType :=
  (calls[i]?).bind (fun call => methodType call.compass call.methodName)

-- Each of the first n invocations is answered once or waits in one list, that of its type.
structure Ledger (n : Nat) (calls : List MethodCall) (d : SensorData R) : Prop where
  received : d.calls = calls
  once : ∀ i,waiting d.delayed i+answers d i = if i < n then 1 else 0
  typed : ∀ t,∀ i ∈ d.delayed t,callType calls i = some t

def ledgerPart (d : SensorData R) : (DriverType → List Nat)×List (Nat×Reply)×List MethodCall :=
    (d.delayed,d.replies,d.calls)

theorem ledger_of_same {d d' : SensorData R} {n : Nat} {calls : List MethodCall} (ledger : Ledger n calls d)
    (same : ledgerPart d' = ledgerPart d) : Ledger n calls d' := by
  obtain ⟨delayed,replies,received⟩ : d'.delayed = d.delayed ∧ d'.replies = d.replies ∧ d'.calls = d.calls := by
    simpa only [ledgerPart,Prod.mk.injEq] using same
  refine ⟨received.trans ledger.received,?_,?_⟩
  · intro i
    rw [delayed,answers,replies]
    exact ledger.once i
  · intro t i inside
    rw [delayed] at inside
    exact ledger.typed t i inside

theorem ledger_signalFree (n : Nat) (calls : List MethodCall) : SignalFree (Ledger n calls : SensorData R → Prop) := by
  intro d _ _ _ _ _ _ _
  exact propext ⟨fun ledger => ledger_of_same ledger rfl,fun ledger => ledger_of_same ledger rfl⟩

theorem waiting_update (delayed : DriverType → List Nat) (t : DriverType) (xs : List Nat) (i : Nat) :
    waiting (Function.update delayed t xs) i+(delayed t).count i = waiting delayed i+xs.count i := by
  cases t <;> simp [waiting,sensorTypes,Function.update] <;> omega

theorem ledger_reply {n : Nat} {calls : List MethodCall} {d : SensorData R} (ledger : Ledger n calls d) (answer : Reply) :
    Ledger (n+1) calls (reply n answer d) := by
  refine ⟨ledger.received,fun i => ?_,ledger.typed⟩
  have before := ledger.once i
  change waiting d.delayed i+((d.replies++[(n,answer)]).map Prod.fst).count i = _
  rw [List.map_append,List.count_append,List.map_singleton,List.count_singleton]
  rw [answers] at before
  by_cases last : n = i
  · subst last
    simp only [Nat.lt_irrefl,if_false] at before
    simp only [Nat.lt_succ_self,if_true,beq_self_eq_true]
    omega
  · have bounds : i < n+1 ↔ i < n := by omega
    simp only [bounds,beq_iff_eq,last,if_false]
    omega

theorem ledger_delay {n : Nat} {calls : List MethodCall} {t : DriverType} {d : SensorData R} (ledger : Ledger n calls d)
    (type : callType calls n = some t) : Ledger (n+1) calls (delay t n d) := by
  refine ⟨ledger.received,?_,?_⟩
  · intro i
    have before := ledger.once i
    have moved := waiting_update d.delayed t (d.delayed t++[n]) i
    change waiting (Function.update d.delayed t (d.delayed t++[n])) i+answers d i = _
    rw [List.count_append,List.count_singleton] at moved
    by_cases last : n = i
    · subst last
      simp only [Nat.lt_irrefl,if_false] at before
      simp only [beq_self_eq_true,if_true] at moved
      simp only [Nat.lt_succ_self,if_true]
      omega
    · have bounds : i < n+1 ↔ i < n := by omega
      simp only [beq_iff_eq,last,if_false] at moved
      simp only [bounds]
      omega
  · intro u i inside
    change i ∈ Function.update d.delayed t (d.delayed t++[n]) u at inside
    by_cases same : u = t
    · subst same
      rw [Function.update_self] at inside
      rcases List.mem_append.mp inside with prior | added
      · exact ledger.typed u i prior
      · rw [List.mem_singleton.mp added]
        exact type
    · rw [Function.update_of_ne same] at inside
      exact ledger.typed u i inside

theorem ledger_answerDelayed {n : Nat} {calls : List MethodCall} {d : SensorData R} (ledger : Ledger n calls d)
    (t : DriverType) (answer : Reply) : Ledger n calls (answerDelayed t answer d) := by
  refine ⟨ledger.received,?_,?_⟩
  · intro i
    have before := ledger.once i
    have moved := waiting_update d.delayed t [] i
    have copied : ((d.delayed t).map (fun invocation => (invocation,answer))).map Prod.fst = d.delayed t := by
      rw [List.map_map]
      exact List.map_id _
    change waiting (Function.update d.delayed t []) i+
      ((d.replies++(d.delayed t).map (fun invocation => (invocation,answer))).map Prod.fst).count i = _
    rw [List.map_append,List.count_append,copied]
    rw [List.count_nil] at moved
    rw [answers] at before
    omega
  · intro u i inside
    change i ∈ Function.update d.delayed t [] u at inside
    by_cases same : u = t
    · subst same
      rw [Function.update_self] at inside
      exact absurd inside List.not_mem_nil
    · rw [Function.update_of_ne same] at inside
      exact ledger.typed u i inside

theorem ledger_finished {n : Nat} {calls : List MethodCall} (t : DriverType) (d : SensorData R)
    (ledger : Ledger n calls d) : Ledger n calls (finished t d) :=
  ledger_of_same (ledger_answerDelayed ledger t .value) rfl

def Accounted (d : SensorData R) : Prop := Ledger d.calls.length d.calls d

theorem accounted_of_ledger {calls : List MethodCall} {d : SensorData R} (ledger : Ledger calls.length calls d) :
    Accounted d := by
  rw [Accounted,ledger.received]
  exact ledger

theorem callType_append {calls : List MethodCall} {i : Nat} {t : DriverType} (type : callType calls i = some t)
    (call : MethodCall) : callType (calls++[call]) i = some t := by
  obtain ⟨known,inside,_⟩ := Option.bind_eq_some_iff.mp type
  have bound : i < calls.length := (List.getElem?_eq_some_iff.mp inside).1
  rw [callType,List.getElem?_append_left bound]
  exact type

theorem Accounted.answered_once {d : SensorData R} (accounted : Accounted d) : (d.replies.map Prod.fst).Nodup := by
  rw [List.nodup_iff_count_le_one]
  intro i
  have balance := accounted.once i
  rw [answers] at balance
  split at balance <;> omega

theorem Accounted.unanswered_waits {d : SensorData R} (accounted : Accounted d) {i : Nat} (called : i < d.calls.length)
    (unanswered : i ∉ d.replies.map Prod.fst) : ∃ t,callType d.calls i = some t ∧ i ∈ d.delayed t := by
  have balance := accounted.once i
  have silent : answers d i = 0 := List.count_eq_zero.mpr unanswered
  rw [silent,if_pos called] at balance
  have counted : ∃ t ∈ sensorTypes,(d.delayed t).count i ≠ 0 := by
    by_contra none
    push Not at none
    have zero : waiting d.delayed i = 0 := by
      rw [waiting,List.sum_eq_zero_iff_forall_eq_nat]
      intro count counted
      obtain ⟨t,listed,rfl⟩ := List.mem_map.mp counted
      exact none t listed
    omega
  obtain ⟨t,_,positive⟩ := counted
  have inside : i ∈ d.delayed t := List.count_pos_iff.mp (Nat.pos_of_ne_zero positive)
  exact ⟨t,accounted.typed t i inside,inside⟩

end

section
variable {R : Type} [DecidableEq R]

theorem ledger_setPolling {n : Nat} {calls : List MethodCall} {d : SensorData R} (cfg : Config) (t : DriverType)
    (state : Bool) (during : List (Readings R)) (ledger : Ledger n calls d) :
    Ledger n calls (driverSetPolling cfg t state during d) :=
  during_keeps (ledger_signalFree n calls) (ledger_finished t) cfg during (ledger_of_same ledger rfl)

theorem ledger_release {n : Nat} {calls : List MethodCall} {d : SensorData R} (cfg : Config) (sender : String)
    (t : DriverType) (ledger : Ledger n calls d) : Ledger n calls (clientRelease cfg sender t d) := by
  refine ledger_of_same ledger ?_
  unfold clientRelease
  split
  · rfl
  · simp only
    split <;> rfl

theorem ledger_claim {n : Nat} {calls : List MethodCall} {d : SensorData R} (cfg : Config) (sender : String)
    {t : DriverType} (during : List (Readings R)) (ledger : Ledger n calls d) (type : callType calls n = some t) :
    Ledger (n+1) calls (claimSensor cfg sender n t during d) := by
  have added : Ledger n calls (addClient sender t d) := ledger_of_same ledger rfl
  unfold claimSensor
  split
  · exact ledger_reply ledger .value
  · simp only
    split
    · split
      · exact ledger_setPolling cfg t true during (ledger_delay added type)
      · split
        · exact ledger_delay added type
        · exact ledger_reply added .value
    · exact ledger_reply added .value

-- A method with a type of its own is a Claim or a Release.
theorem typed_method {compass : Bool} {name : String} {t : DriverType} (type : methodType compass name = some t) :
    StdString.startsWith name "Claim" = true ∨ StdString.startsWith name "Release" = true := by
  have pair : ∀ {claim release : String},name ∈ [claim,release] → StdString.startsWith claim "Claim" = true →
      StdString.startsWith release "Release" = true →
      StdString.startsWith name "Claim" = true ∨ StdString.startsWith name "Release" = true := by
    intro claim release known claims releases
    rcases List.mem_pair.mp known with rfl | rfl
    · exact .inl claims
    · exact .inr releases
  unfold methodType at type
  split at type
  · split at type
    · rename_i known
      exact pair known (by decide) (by decide)
    · exact absurd type nofun
  · split at type
    · rename_i known
      exact pair known (by decide) (by decide)
    · split at type
      · rename_i known
        exact pair known (by decide) (by decide)
      · split at type
        · rename_i known
          exact pair known (by decide) (by decide)
        · exact absurd type nofun

theorem ledger_call (cfg : Config) (call : MethodCall) (during : List (Readings R)) {d : SensorData R}
    (accounted : Accounted d) : Ledger (d.calls.length+1) (d.calls++[call]) (handleMethodCall cfg call during d) := by
  have opened : Ledger d.calls.length (d.calls++[call]) { d with calls := d.calls++[call] } :=
    ⟨rfl,accounted.once,fun t i inside => callType_append (accounted.typed t i inside) call⟩
  unfold handleMethodCall
  simp only
  split
  · exact ledger_reply opened _
  · rename_i t typed
    have type : callType (d.calls++[call]) d.calls.length = some t := by
      rw [callType,List.getElem?_concat_length]
      exact typed
    split
    · exact ledger_reply opened _
    · unfold handleGenericMethodCall
      split
      · exact ledger_claim cfg call.sender during opened type
      · rename_i noClaim
        split
        · exact ledger_reply (ledger_release cfg call.sender t opened) .value
        · rename_i noRelease
          rcases typed_method typed with claims | releases
          · exact absurd claims noClaim
          · exact absurd releases noRelease

theorem call_accounted (cfg : Config) (call : MethodCall) (during : List (Readings R)) {d : SensorData R}
    (accounted : Accounted d) : Accounted (handleMethodCall cfg call during d) := by
  have ledger := ledger_call cfg call during accounted
  have counted : (d.calls++[call]).length = d.calls.length+1 := List.length_append
  rw [← counted] at ledger
  exact accounted_of_ledger ledger

theorem ledger_vanished {n : Nat} {calls : List MethodCall} {d : SensorData R} (cfg : Config) (name : String)
    (ledger : Ledger n calls d) : Ledger n calls (clientVanishedCb cfg name d) :=
  vanished_keeps (fun _ t => ledger_release cfg name t) ledger

theorem ledger_removeSensor {n : Nat} {calls : List MethodCall} (cfg : Config) (t : DriverType) {d : SensorData R}
    (ledger : Ledger n calls d) : Ledger n calls (removeSensor cfg t d) := by
  unfold removeSensor
  simp only
  rw [(ledger_signalFree n calls).sendDriverChanged]
  refine ledger_answerDelayed ?_ t _
  exact ledger_of_same ledger rfl

theorem ledger_removed {n : Nat} {calls : List MethodCall} {d : SensorData R} (cfg : Config) (sysfsPath : String)
    (ledger : Ledger n calls d) : Ledger n calls (sensorRemoved cfg sysfsPath d) :=
  removed_keeps (fun _ t => ledger_removeSensor cfg t) (fun _ ledger => ledger_of_same ledger rfl) ledger

theorem ledger_added {n : Nat} {calls : List MethodCall} {d : SensorData R} (cfg : Config) (device : UdevDevice)
    (during : List (Readings R)) (ledger : Ledger n calls d) : Ledger n calls (sensorAdded cfg device during d) := by
  unfold sensorAdded
  split
  · exact ledger
  · rename_i driver _
    have opened : Ledger n calls (openSensor driver device.sysfsPath d) := ledger_of_same ledger rfl
    split
    · simp only
      split
      · exact ledger_setPolling cfg driver.type true during (ledger_of_same opened rfl)
      · have told : Ledger n calls (sendDriverChangedDbusEvent driver.type (openSensor driver device.sysfsPath d)) := by
          rw [(ledger_signalFree n calls).sendDriverChanged]
          exact opened
        split
        · exact told
        · exact ledger_setPolling cfg driver.type true during told
    · exact ledger

theorem step_accounted (cfg : Config) (d : SensorData R) (event : Event R) (accounted : Accounted d) :
    Accounted (step cfg d event) := by
  unfold step
  split
  · exact accounted
  · cases event with
    | call call during => exact call_accounted cfg call during accounted
    | vanished name => exact accounted_of_ledger (ledger_vanished cfg name accounted)
    | remove sysfsPath => exact accounted_of_ledger (ledger_removed cfg sysfsPath accounted)
    | add device during => exact accounted_of_ledger (ledger_added cfg device during accounted)
    | reading t readings =>
      simp only
      split
      · exact accounted_of_ledger (changed_keeps (ledger_signalFree _ _) (ledger_finished t) cfg readings accounted)
      · exact accounted

theorem startSensor_ledger (cfg : Config) (devices : List UdevDevice) (during : DriverType → List (Readings R))
    (d : SensorData R) (t : DriverType) (ledger : Ledger 0 [] d) : Ledger 0 [] (startSensor cfg devices during d t) := by
  unfold startSensor
  split
  · exact ledger
  · rename_i driver device _
    have opened : Ledger 0 [] (openSensor driver device.sysfsPath d) := ledger_of_same ledger rfl
    split
    · simp only
      split
      · exact opened
      · exact ledger_setPolling cfg t true (during t) opened
    · exact ledger

theorem nameAcquired_ledger [Zero R] (cfg : Config) (devices : List UdevDevice)
    (during : DriverType → List (Readings R)) :
    Ledger ([] : List MethodCall).length [] (nameAcquiredHandler cfg devices during : SensorData R) := by
  have initial : Ledger 0 [] (initialData : SensorData R) :=
    ⟨rfl,fun _ => rfl,fun _ _ inside => absurd inside List.not_mem_nil⟩
  exact nameAcquired_keeps (startSensor_ledger cfg devices during) (ledger_signalFree _ _).told
    (fun _ ledger => ledger_of_same ledger rfl) initial

theorem run_accounted [Zero R] (cfg : Config) (devices : List UdevDevice) (during : DriverType → List (Readings R))
    (events : List (Event R)) : Accounted (run (step cfg) (nameAcquiredHandler cfg devices during) events) :=
  foldl_keeps (step_accounted cfg) events (accounted_of_ledger (nameAcquired_ledger cfg devices during))

end

section
variable {R : Type}

-- A reading that gives the waiting replies of a type can still come.
def Answerable (cfg : Config) (d : SensorData R) (t : DriverType) : Prop :=
  d.delayed t ≠ [] → driverTypeExists d t = true ∧ (cfg.lazy = false ∨ Claimed d t)

-- When the only client of a type leaves and the device is stopped for it, no reply waits.
def LeavesSettled (cfg : Config) (name : String) (d : SensorData R) (t : DriverType) : Prop :=
  (d.clients t).keys = [name] → cfg.lazy = true → driverTypeExists d t = true → d.delayed t = []

def Settled (cfg : Config) (d : SensorData R) : Event R → Prop
  | .vanished name => ∀ t,LeavesSettled cfg name d t
  | .call call _ => ∀ t,methodType call.compass call.methodName = some t → call.refusal = none →
      StdString.startsWith call.methodName "Release" = true → LeavesSettled cfg call.sender d t
  | _ => True

def waitPart (d : SensorData R) (t : DriverType) : List Nat×Bool×List String :=
    (d.delayed t,driverTypeExists d t,(d.clients t).keys)

theorem answerable_of_same {cfg : Config} {d d' : SensorData R} {t : DriverType} (answerable : Answerable cfg d t)
    (same : waitPart d' t = waitPart d t) : Answerable cfg d' t := by
  obtain ⟨delayed,present,clients⟩ : d'.delayed t = d.delayed t ∧ driverTypeExists d' t = driverTypeExists d t ∧
      (d'.clients t).keys = (d.clients t).keys := by
    simpa only [waitPart,Prod.mk.injEq] using same
  rw [Answerable,delayed,present,Claimed,clients]
  exact answerable

theorem answerable_signalFree (cfg : Config) (t : DriverType) : SignalFree (fun d : SensorData R => Answerable cfg d t) :=
  fun _ _ _ _ _ _ _ _ => rfl

theorem answerable_answerDelayed {cfg : Config} {d : SensorData R} {t u : DriverType}
    (others : t ≠ u → Answerable cfg d t) (answer : Reply) : Answerable cfg (answerDelayed u answer d) t := by
  intro waits
  change Function.update d.delayed u [] t ≠ [] at waits
  by_cases same : t = u
  · subst same
    rw [Function.update_self] at waits
    exact absurd rfl waits
  · rw [Function.update_of_ne same] at waits
    exact others same waits

theorem answerable_finished (cfg : Config) (t u : DriverType) (d : SensorData R) (answerable : Answerable cfg d t) :
    Answerable cfg (finished u d) t :=
  answerable_answerDelayed (fun _ => answerable) .value

theorem driverFor_absent {cfg : Config} {device : UdevDevice} {d : SensorData R} {driver : Driver}
    (found : driverFor cfg device d = some driver) : driverTypeExists d driver.type = false := by
  have fits := List.find?_some found
  rw [Bool.and_eq_true,Bool.not_eq_true'] at fits
  exact fits.1

end

section
variable {R : Type} [DecidableEq R]

theorem setPolling_answerable (cfg : Config) (u : DriverType) (state : Bool) (during : List (Readings R))
    {d : SensorData R} {t : DriverType} (answerable : Answerable cfg d t) :
    Answerable cfg (driverSetPolling cfg u state during d) t := by
  refine during_keeps (answerable_signalFree cfg t) (answerable_finished cfg t u) cfg during ?_
  refine answerable_of_same answerable ?_
  rw [waitPart,markPolled_exists]
  rfl

theorem release_others (cfg : Config) (name : String) (d : SensorData R) {t u : DriverType} (other : t ≠ u) :
    waitPart (clientRelease cfg name u d) t = waitPart d t := by
  unfold clientRelease
  split
  · rfl
  · simp only
    split
    · simp only [waitPart,driverSetPolling,List.foldl_nil,markPolled_exists]
      simp only [markPolled,driverTypeExists,Function.update_of_ne other]
    · simp only [waitPart,driverTypeExists,Function.update_of_ne other]

theorem release_own (cfg : Config) (name : String) (d : SensorData R) (t : DriverType) :
    waitPart (clientRelease cfg name t d) t = (d.delayed t,driverTypeExists d t,(d.clients t).keys.erase name) := by
  unfold clientRelease
  split
  · rename_i gone
    rw [List.erase_of_not_mem (lookupWatch_zero.mp gone)]
    rfl
  · simp only
    split
    · simp only [waitPart,driverSetPolling,List.foldl_nil,markPolled_exists]
      simp only [markPolled,driverTypeExists,Function.update_self,AList.keys_erase]
    · simp only [waitPart,driverTypeExists,Function.update_self,AList.keys_erase]

-- A client that leaves a table leaves it settled, and is not in it afterwards.
theorem release_answerable (cfg : Config) (name : String) (u : DriverType) {d : SensorData R} {t : DriverType}
    (answerable : Answerable cfg d t) (settled : LeavesSettled cfg name d t) :
    Answerable cfg (clientRelease cfg name u d) t ∧ LeavesSettled cfg name (clientRelease cfg name u d) t := by
  by_cases same : t = u
  · subst same
    obtain ⟨delayed,present,keys⟩ : (clientRelease cfg name t d).delayed t = d.delayed t ∧
        driverTypeExists (clientRelease cfg name t d) t = driverTypeExists d t ∧
        ((clientRelease cfg name t d).clients t).keys = (d.clients t).keys.erase name := by
      simpa only [waitPart,Prod.mk.injEq] using release_own cfg name d t
    have unique : (d.clients t).keys.Nodup := (d.clients t).keys_nodup
    constructor
    · rw [Answerable,delayed,present,Claimed,keys]
      intro waits
      obtain ⟨exists_,wanted⟩ := answerable waits
      refine ⟨exists_,?_⟩
      cases mode : cfg.lazy with
      | false => exact .inl rfl
      | true =>
        refine .inr (fun empty => ?_)
        rcases List.erase_eq_nil_iff.mp empty with none | only
        · rcases wanted with eager | claimed
          · exact absurd (eager.symm.trans mode) (by decide)
          · exact claimed none
        · exact waits (settled only mode exists_)
    · rw [LeavesSettled,keys]
      intro only
      have inside : name ∈ (d.clients t).keys.erase name := by rw [only]; exact List.mem_singleton_self name
      exact absurd inside unique.not_mem_erase
  · have part := release_others cfg name d same
    refine ⟨answerable_of_same answerable part,?_⟩
    obtain ⟨delayed,present,keys⟩ : (clientRelease cfg name u d).delayed t = d.delayed t ∧
        driverTypeExists (clientRelease cfg name u d) t = driverTypeExists d t ∧
        ((clientRelease cfg name u d).clients t).keys = (d.clients t).keys := by
      simpa only [waitPart,Prod.mk.injEq] using part
    rw [LeavesSettled,delayed,present,keys]
    exact settled

theorem vanished_answerable (cfg : Config) (name : String) {d : SensorData R} {t : DriverType}
    (answerable : Answerable cfg d t) (settled : LeavesSettled cfg name d t) :
    Answerable cfg (clientVanishedCb cfg name d) t := by
  refine And.left (vanished_keeps (P := fun d : SensorData R => Answerable cfg d t ∧ LeavesSettled cfg name d t) ?_
    ⟨answerable,settled⟩)
  exact fun d u given => release_answerable cfg name u given.1 given.2

theorem claim_answerable (cfg : Config) (sender : String) (invocation : Nat) (u : DriverType) (during : List (Readings R))
    {d : SensorData R} {t : DriverType} (answerable : Answerable cfg d t) :
    Answerable cfg (claimSensor cfg sender invocation u during d) t := by
  unfold claimSensor
  split
  · exact answerable
  · rename_i unwatched
    have keys := addClient_keys unwatched
    have claimed : Claimed (addClient sender u d) u := by
      rw [Claimed,keys]
      exact List.cons_ne_nil _ _
    have added : Answerable cfg (addClient sender u d) t := by
      intro waits
      obtain ⟨present,wanted⟩ := answerable waits
      refine ⟨present,wanted.imp_right (fun before => ?_)⟩
      by_cases same : t = u
      · subst same
        exact claimed
      · change (Function.update d.clients u _ t).keys ≠ []
        rw [Function.update_of_ne same]
        exact before
    simp only
    split
    · rename_i present
      have delayed : Answerable cfg (delay u invocation (addClient sender u d)) t := by
        intro waits
        by_cases same : t = u
        · subst same
          exact ⟨present,.inr claimed⟩
        · change Function.update d.delayed u _ t ≠ [] at waits
          rw [Function.update_of_ne same] at waits
          exact added waits
      split
      · exact setPolling_answerable cfg u true during delayed
      · split
        · exact delayed
        · exact added
    · exact added

theorem call_answerable (cfg : Config) (call : MethodCall) (during : List (Readings R)) {d : SensorData R}
    {t : DriverType} (answerable : ∀ t,Answerable cfg d t) (settled : Settled cfg d (.call call during)) :
    Answerable cfg (handleMethodCall cfg call during d) t := by
  unfold handleMethodCall
  simp only
  split
  · exact answerable t
  · rename_i u typed
    split
    · exact answerable t
    · rename_i allowed
      unfold handleGenericMethodCall
      split
      · exact claim_answerable cfg call.sender _ u during (answerable t)
      · split
        · rename_i releases
          have counted : Answerable cfg { d with calls := d.calls++[call] } t := answerable t
          by_cases same : t = u
          · subst same
            have leaves : LeavesSettled cfg call.sender { d with calls := d.calls++[call] } t :=
              settled t typed allowed releases
            exact (release_answerable cfg call.sender t counted leaves).1
          · exact answerable_of_same counted (release_others cfg call.sender { d with calls := d.calls++[call] } same)
        · exact answerable t

theorem removeSensor_answerable (cfg : Config) (u : DriverType) {d : SensorData R} {t : DriverType}
    (answerable : Answerable cfg d t) : Answerable cfg (removeSensor cfg u d) t := by
  unfold removeSensor
  simp only
  rw [(answerable_signalFree cfg t).sendDriverChanged]
  refine answerable_answerDelayed (fun other => ?_) _
  refine answerable_of_same answerable ?_
  simp only [waitPart,driverTypeExists,driverSetPolling,markPolled,List.foldl_nil,Function.update_of_ne other]

theorem removed_answerable (cfg : Config) (sysfsPath : String) {d : SensorData R} {t : DriverType}
    (answerable : Answerable cfg d t) : Answerable cfg (sensorRemoved cfg sysfsPath d) t :=
  removed_keeps (P := fun d : SensorData R => Answerable cfg d t) (fun _ u => removeSensor_answerable cfg u)
    (fun _ answerable => answerable) answerable

theorem added_answerable (cfg : Config) (device : UdevDevice) (during : List (Readings R)) {d : SensorData R}
    {t : DriverType} (answerable : Answerable cfg d t) : Answerable cfg (sensorAdded cfg device during d) t := by
  unfold sensorAdded
  split
  · exact answerable
  · rename_i driver found
    have opened : Answerable cfg (openSensor driver device.sysfsPath d) t := by
      by_cases same : t = driver.type
      · subst same
        intro waits
        exact absurd (answerable waits).1 (Bool.eq_false_iff.mp (driverFor_absent found))
      · refine answerable_of_same answerable ?_
        simp only [waitPart,driverTypeExists,openSensor,Function.update_of_ne same]
    split
    · simp only
      split
      · exact setPolling_answerable cfg driver.type true during opened
      · have told : Answerable cfg (sendDriverChangedDbusEvent driver.type (openSensor driver device.sysfsPath d)) t := by
          rw [(answerable_signalFree cfg t).sendDriverChanged]
          exact opened
        split
        · exact told
        · exact setPolling_answerable cfg driver.type true during told
    · exact answerable

theorem step_answerable (cfg : Config) (d : SensorData R) (event : Event R) (answerable : ∀ t,Answerable cfg d t)
    (settled : Settled cfg d event) : ∀ t,Answerable cfg (step cfg d event) t := by
  unfold step
  split
  · exact answerable
  · intro t
    cases event with
    | call call during => exact call_answerable cfg call during answerable settled
    | vanished name => exact vanished_answerable cfg name (answerable t) (settled t)
    | remove sysfsPath => exact removed_answerable cfg sysfsPath (answerable t)
    | add device during => exact added_answerable cfg device during (answerable t)
    | reading u readings =>
      simp only
      split
      · exact changed_keeps (answerable_signalFree cfg t) (answerable_finished cfg t u) cfg readings (answerable t)
      · exact answerable t

theorem nameAcquired_answerable [Zero R] (cfg : Config) (devices : List UdevDevice)
    (during : DriverType → List (Readings R)) :
    ∀ t,Answerable cfg (nameAcquiredHandler cfg devices during : SensorData R) t := by
  intro t waits
  obtain ⟨i,inside⟩ := List.exists_mem_of_ne_nil _ waits
  have called := (nameAcquired_ledger cfg devices during).typed t i inside
  exact absurd called nofun

theorem claim_replies_not_lost [Zero R] (cfg : Config) (devices : List UdevDevice)
    (during : DriverType → List (Readings R))
    (events : List (Event R)) (d : SensorData R)
    (reached : run (step cfg) (nameAcquiredHandler cfg devices during) events = d) :
    (d.replies.map Prod.fst).Nodup ∧
      (∀ i,i < d.calls.length → i ∉ d.replies.map Prod.fst → ∃ t,callType d.calls i = some t ∧ i ∈ d.delayed t) ∧
      (Meets (step cfg) (Settled cfg) (nameAcquiredHandler cfg devices during) events →
        ∀ t,d.delayed t ≠ [] → driverTypeExists d t = true ∧ lastPolling d t = some true) := by
  subst reached
  have accounted := run_accounted cfg devices during events
  refine ⟨accounted.answered_once,fun i called unanswered => accounted.unanswered_waits called unanswered,?_⟩
  intro settled t waits
  have answerable := run_invariant (step_answerable cfg) (nameAcquired_answerable cfg devices during) settled t waits
  exact ⟨answerable.1,(run_follows cfg devices during events t).mpr answerable⟩

end

-- Two clients of an accelerometer whose buffer is still empty when it is started.
def bufferAccel : Driver := ⟨"IIO Buffer accelerometer",.accel⟩

def lazyConfig : Config := ⟨true,[bufferAccel],fun _ _ => .normal,fun _ _ => .vertical⟩

def accelDevice : UdevDevice := ⟨"/sys/bus/iio/devices/iio:device0",fun _ => true,fun _ => true⟩

def claimAccel (sender : String) : Event Int := .call ⟨false,sender,"ClaimAccelerometer",none⟩ []

def releaseAccel (sender : String) : Event Int := .call ⟨false,sender,"ReleaseAccelerometer",none⟩ []

def lazyStart : SensorData Int := nameAcquiredHandler lazyConfig [accelDevice] (fun _ => [])

def twoClaims : List (Event Int) := [claimAccel ":1.1",claimAccel ":1.2",releaseAccel ":1.1"]

theorem claim_replies_not_lost_two_clients :
    (run (step lazyConfig) lazyStart twoClaims).delayed .accel = [0,1] ∧
      driverTypeExists (run (step lazyConfig) lazyStart twoClaims) .accel = true ∧
      lastPolling (run (step lazyConfig) lazyStart twoClaims) .accel = some true := by
  have waits : (run (step lazyConfig) lazyStart twoClaims).delayed .accel = [0,1] := by decide +kernel
  have claims : ∀ (d : SensorData Int) (sender : String),Settled lazyConfig d (claimAccel sender) := by
    intro d sender t _ _ release
    change StdString.startsWith "ClaimAccelerometer" "Release" = true at release
    exact absurd release (by decide)
  have settled : Meets (step lazyConfig) (Settled lazyConfig) lazyStart twoClaims := by
    refine ⟨claims _ _,claims _ _,?_,trivial⟩
    intro t type _ _ only
    cases t with
    | accel => exact absurd only (by decide +kernel)
    | light => exact absurd type (by decide)
    | compass => exact absurd type (by decide)
    | proximity => exact absurd type (by decide)
  have nonempty : (run (step lazyConfig) lazyStart twoClaims).delayed .accel ≠ [] := by
    rw [waits]
    exact List.cons_ne_nil _ _
  have holds := claim_replies_not_lost lazyConfig [accelDevice] (fun _ => []) twoClaims _ rfl
  exact ⟨waits,holds.2.2 settled .accel nonempty⟩

theorem release_before_reading_strands_claim :
    (run (step lazyConfig) lazyStart [claimAccel ":1.1",releaseAccel ":1.1"]).delayed .accel = [0] ∧
      0 ∉ (run (step lazyConfig) lazyStart [claimAccel ":1.1",releaseAccel ":1.1"]).replies.map Prod.fst ∧
      lastPolling (run (step lazyConfig) lazyStart [claimAccel ":1.1",releaseAccel ":1.1"]) .accel = some false := by
  decide +kernel

end ChuwiMinibook.ClaimReplies
