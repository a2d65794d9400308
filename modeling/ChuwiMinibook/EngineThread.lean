import ChuwiMinibook.AdaptiveEngine
import ChuwiMinibook.Machine

namespace ChuwiMinibook.EngineThread
open Machine

inductive MessageName where
  | wakeup | terminate | prefChanged | thermalZoneNotify | reloadZones
  | pollEnable | pollDisable | fastPollEnable | fastPollDisable
deriving DecidableEq

-- message_capsul_t; the payload read by the engine is a sensor number.
structure Message where
  msgId : MessageName
  sensorId : Nat
deriving DecidableEq

-- The engine behind the thread: η its state, ι what one pass over it reads.
structure Hooks (η ι : Type) where
  notifyZones : η → Int → ι → η × List Message
  updateZonePreference : η → Int → ι → η × List Message
  reloadZones : η → ι → η
  updateEngine : η → ι → η
  workarounds : η → η

-- The members of cthd_engine that the loop uses and its local poll_timeout_sec.
-- The last two fields are no part of the program: they count the iterations that
-- had a message to read, and record the messages applied.
structure Thread (η : Type) where
  engine : η
  terminate : Bool
  status : Bool
  preference : Int
  pollTimeoutSec : Int
  pollTimeoutMsec : Int
  pollIntervalSec : Int
  thzLastTempIndTime : Int
  thzLastUeventTime : Int
  thzLastUpdateEventTime : Int
  pollSensorMask : Nat
  fastPollSensorMask : Nat
  savedPollInterval : Int
  queue : List Message
  reported : Nat
  processed : List Message
deriving DecidableEq

-- What the system calls of one iteration return, and the messages other threads
-- have written to the pipe since the last one.
structure Poll (ι : Type) where
  n : Int
  wakeupIn : Bool
  readFails : Bool
  ueventIn : Bool
  kobjEvent : Bool
  now : Int
  ueventNow : Int
  pref : Int
  arrived : List Message
  polled : ι
  notified : ι
  applied : ι
  updated : ι

def thzNotifyDebounceInterval : Int := 3
def defPollInterval : Int := 4000

variable {η ι : Type} (hooks : Hooks η ι) (thdPollInterval : Int)

def bit (sensorId : Nat) : Nat := 2^(sensorId % 32)

def pollEnableDisable (t : Thread η) (status : Bool) (sensorId : Nat) : Thread η :=
  if status then {t with pollSensorMask := t.pollSensorMask ||| bit sensorId,pollTimeoutMsec := defPollInterval}
  else
    let mask := t.pollSensorMask &&& (4294967295 - bit sensorId)
    {t with pollSensorMask := mask,pollTimeoutMsec := if mask = 0 then -1 else t.pollTimeoutMsec}

def fastPollEnableDisable (t : Thread η) (status : Bool) (sensorId : Nat) : Thread η :=
  if status then
    let saved := if t.savedPollInterval = 0 then t.pollTimeoutMsec else t.savedPollInterval
    {t with fastPollSensorMask := t.fastPollSensorMask ||| bit sensorId,savedPollInterval := saved,
            pollTimeoutMsec := 1000}
  else
    let mask := t.fastPollSensorMask &&& (4294967295 - bit sensorId)
    let restore := mask = 0 ∧ t.savedPollInterval ≠ 0
    {t with fastPollSensorMask := mask,pollTimeoutMsec := if restore then t.savedPollInterval else t.pollTimeoutMsec}

-- A pass over the zones; what the trips send goes to the end of the pipe.
def visitZones (t : Thread η) (visit : η → Int → ι → η × List Message) (input : ι) : Thread η :=
  let (engine,sent) := visit t.engine t.preference input
  {t with engine := engine,queue := t.queue ++ sent}

def processPrefChange (t : Thread η) (pref : Int) (input : ι) : Thread η :=
  if pref = prefDisabled then {t with status := false}
  else visitZones {t with status := true,preference := pref} hooks.updateZonePreference input

def procMessage (t : Thread η) (msg : Message) (pref : Int) (input : ι) : Thread η :=
  match msg.msgId with
  | .wakeup => t
  | .terminate => {t with terminate := true}
  | .prefChanged => processPrefChange hooks t pref input
  | .thermalZoneNotify => if t.status then visitZones t hooks.notifyZones input else t
  | .reloadZones => {t with engine := hooks.reloadZones t.engine input}
  | .pollEnable => if t.pollIntervalSec = 0 then pollEnableDisable t true msg.sensorId else t
  | .pollDisable => if t.pollIntervalSec = 0 then pollEnableDisable t false msg.sensorId else t
  | .fastPollEnable => fastPollEnableDisable t true msg.sensorId
  | .fastPollDisable => fastPollEnableDisable t false msg.sensorId

-- The time for a pass over the zones has come.
def due (t : Thread η) (p : Poll ι) : Bool :=
  p.n == 0 || decide (p.now - t.thzLastTempIndTime ≥ t.pollTimeoutSec)

def pollStage (t : Thread η) (p : Poll ι) : Thread η :=
  if due t p then {visitZones t hooks.notifyZones p.polled with thzLastTempIndTime := p.now} else t

def ueventStage (t : Thread η) (p : Poll ι) : Thread η :=
  if p.ueventIn && p.kobjEvent then
    let t' := if p.ueventNow - t.thzLastUeventTime ≥ thzNotifyDebounceInterval then
        visitZones t hooks.notifyZones p.notified
      else t
    {t' with thzLastUeventTime := p.ueventNow}
  else t

-- The read of one message and proc_message on it.
def messageStage (t : Thread η) (p : Poll ι) : Thread η :=
  match t.queue with
  | [] => t
  | msg::rest => procMessage hooks {t with queue := rest,processed := t.processed ++ [msg]} msg p.pref p.applied

def updateStage (t : Thread η) (p : Poll ι) : Thread η :=
  let t := if p.now - t.thzLastUpdateEventTime ≥ thdPollInterval then
      {t with engine := hooks.updateEngine t.engine p.updated,thzLastUpdateEventTime := p.now}
    else t
  {t with engine := hooks.workarounds t.engine}

-- The adaptive engine behind the thread; none once the process has left.
structure Pass where
  samples : Nat → Nat → Sample
  fresh : List Zone
  env : Surroundings

def messageOf : Action → List Message
  | .pollTrip sensor on => [⟨if on then .pollEnable else .pollDisable,sensor.toNat⟩]
  | .fastPoll sensor on => [⟨if on then .fastPollEnable else .fastPollDisable,sensor.toNat⟩]
  | _ => []

def onEngine {σ : Type} (visit : Engine σ → (Nat → Nat → Sample) → Engine σ × List Action)
    (a : Option (Adaptive σ)) (pref : Int) (pass : Pass) : Option (Adaptive σ) × List Message :=
  match a with
  | none => (none,[])
  | some a =>
    let (e,actions) := visit {a.engine with preference := pref} pass.samples
    (some {a with engine := e},actions.flatMap messageOf)

def adaptiveHooks {σ : Type} (host : Host σ) : Hooks (Option (Adaptive σ)) Pass where
  notifyZones := onEngine (Engine.pollZones host.methods host.sort)
  updateZonePreference := onEngine (Engine.updateZonePreferences host.methods host.sort)
  reloadZones a pass := a.map (fun a => {a with engine := a.engine.thdEngineReloadZones pass.fresh})
  updateEngine a pass := (a.bind (AdaptiveEngine.updateEngineState host pass.env)).bind
    (AdaptiveEngine.updatePowerPolicies host pass.env)
  workarounds a := a

-- poll reports POLLIN on the wakeup pipe and the read behind it succeeds.
def Reports (p : Poll ι) : Prop := p.n > 0 ∧ p.wakeupIn = true ∧ p.readFails = false

instance (p : Poll ι) : Decidable (Reports p) := inferInstanceAs (Decidable (_ ∧ _ ∧ _))

-- The messages that have come in by the time poll returns.
def arrive (t : Thread η) (p : Poll ι) : Thread η :=
  {t with queue := t.queue ++ p.arrived,reported := if Reports p then t.reported+1 else t.reported}

def front (t : Thread η) (p : Poll ι) : Thread η := ueventStage hooks (pollStage hooks (arrive t p) p) p

-- One turn of the loop of thd_engine_thread.
def iteration (t : Thread η) (p : Poll ι) : Thread η :=
  if t.terminate then t
  else if p.n < 0 then arrive t p
  -- "Thermal Daemon is disabled"
  else if due t p && !t.status then arrive t p
  else if p.n > 0 ∧ p.wakeupIn then
    if p.readFails then front hooks t p
    else updateStage hooks thdPollInterval (messageStage hooks (front hooks t p) p) p
  else updateStage hooks thdPollInterval (front hooks t p) p

end ChuwiMinibook.EngineThread
