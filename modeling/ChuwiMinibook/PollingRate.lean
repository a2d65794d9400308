import ChuwiMinibook.EngineThread
import Mathlib.Data.List.Induction
import Mathlib.Data.Nat.Bitwise

namespace ChuwiMinibook.PollingRate
open Machine EngineThread

-- What a trip point asks of the engine: normal or fast polling, on or off, for a sensor.
structure Request where
  fast : Bool
  enable : Bool
  sensor : Nat
deriving DecidableEq

def Request.name (r : Request) : MessageName :=
  match r.fast,r.enable with
  | false,true => .pollEnable
  | false,false => .pollDisable
  | true,true => .fastPollEnable
  | true,false => .fastPollDisable

def Request.message (r : Request) : Message := ⟨r.name,r.sensor⟩

-- The last request of one kind made for a sensor was an enable.
def AskedBy (fast : Bool) (sensor : Nat) (history : List Request) : Prop :=
  (history.reverse.find? (fun r => r.fast == fast && r.sensor == sensor)).any Request.enable = true

def Asking (fast : Bool) (history : List Request) : Prop := ∃ sensor,AskedBy fast sensor history

def Others (fast : Bool) (sensor : Nat) (history : List Request) : Prop :=
  ∃ other,other ≠ sensor ∧ AskedBy fast other history

instance (fast : Bool) (sensor : Nat) (history : List Request) : Decidable (AskedBy fast sensor history) :=
  inferInstanceAs (Decidable (_ = _))

theorem askedBy_mem {fast : Bool} {sensor : Nat} {history : List Request} (asked : AskedBy fast sensor history) :
    ∃ r ∈ history,r.sensor = sensor := by
  obtain ⟨r,found,-⟩ := (Option.any_eq_true _ _).mp asked
  have both := List.find?_some found
  rw [Bool.and_eq_true,beq_iff_eq,beq_iff_eq] at both
  exact ⟨r,List.mem_reverse.mp (List.mem_of_find?_eq_some found),both.2⟩

instance (fast : Bool) (history : List Request) : Decidable (Asking fast history) :=
  decidable_of_iff (∃ r ∈ history,AskedBy fast r.sensor history) (by
    constructor
    · intro given
      obtain ⟨r,-,asked⟩ := given
      exact ⟨r.sensor,asked⟩
    · intro given
      obtain ⟨sensor,asked⟩ := given
      obtain ⟨r,present,rfl⟩ := askedBy_mem asked
      exact ⟨r,present,asked⟩)

-- The interval called for when no sensor asks for fast polling.
def slowRate (b interval : Int) (history : List Request) : Int :=
  if interval = 0 ∧ Asking false history then defPollInterval else b

def rate (b interval : Int) (history : List Request) : Int :=
  if Asking true history then 1000 else slowRate b interval history

def cleared (mask sensor : Nat) : Nat := mask &&& (4294967295 - bit sensor)

variable {η ι : Type}

-- When the answer to a request leaves the interval that the sensors now call for.
def Keeps (b : Int) (t : Thread η) (history : List Request) (r : Request) : Prop :=
  match r.fast,r.enable with
  | false,true => t.pollIntervalSec = 0 → ¬Asking true history
  | false,false => t.pollIntervalSec = 0 → cleared t.pollSensorMask r.sensor = 0 →
      b = -1 ∧ ¬Asking true history ∧ ¬Others false r.sensor history
  | true,true => True
  | true,false => cleared t.fastPollSensorMask r.sensor = 0 →
      (Others true r.sensor history ∧ (t.savedPollInterval = 0 ∨ t.savedPollInterval = 1000)) ∨
      (¬Others true r.sensor history ∧
        if t.savedPollInterval = 0 then Asking true history → slowRate b t.pollIntervalSec history = 1000
        else t.savedPollInterval = slowRate b t.pollIntervalSec history)

theorem askedBy_snoc {fast : Bool} {sensor : Nat} {history : List Request} {r : Request} :
    AskedBy fast sensor (history++[r]) ↔
      if r.fast = fast ∧ r.sensor = sensor then r.enable = true else AskedBy fast sensor history := by
  unfold AskedBy
  rw [List.reverse_append,List.reverse_singleton,List.singleton_append,List.find?_cons]
  by_cases same : r.fast = fast ∧ r.sensor = sensor
  · simp [same]
  · have differs : (r.fast == fast && r.sensor == sensor) = false := by
      simpa [Bool.and_eq_true] using same
    simp [differs,same]

theorem askedBy_enable (fast : Bool) (sensor : Nat) (history : List Request) :
    AskedBy fast sensor (history++[⟨fast,true,sensor⟩]) := by
  rw [askedBy_snoc,if_pos ⟨rfl,rfl⟩]

theorem asking_enable (fast : Bool) (sensor : Nat) (history : List Request) :
    Asking fast (history++[⟨fast,true,sensor⟩]) :=
  ⟨sensor,askedBy_enable fast sensor history⟩

theorem asking_disable {fast : Bool} {sensor : Nat} {history : List Request} :
    Asking fast (history++[⟨fast,false,sensor⟩]) ↔ Others fast sensor history := by
  constructor
  · intro given
    obtain ⟨other,asked⟩ := given
    rw [askedBy_snoc] at asked
    by_cases same : sensor = other
    · rw [if_pos ⟨rfl,same⟩] at asked
      exact absurd asked Bool.false_ne_true
    · rw [if_neg (fun both => same both.2)] at asked
      exact ⟨other,fun equal => same equal.symm,asked⟩
  · intro given
    obtain ⟨other,differs,asked⟩ := given
    refine ⟨other,askedBy_snoc.mpr ?_⟩
    rwa [if_neg (fun both => differs both.2.symm)]

theorem asking_elsewhere {fast : Bool} {history : List Request} {r : Request} (elsewhere : r.fast ≠ fast) :
    Asking fast (history++[r]) ↔ Asking fast history := by
  apply exists_congr
  intro sensor
  rw [askedBy_snoc,if_neg (fun both => elsewhere both.1)]

theorem others_asking {fast : Bool} {sensor : Nat} {history : List Request} (others : Others fast sensor history) :
    Asking fast history :=
  others.imp (fun _ other => other.2)

-- Every bit of a mask stands for a sensor that asks; sensors 32 apart share a bit,
-- so the other way round need not hold.
def Tracks (fast : Bool) (history : List Request) (mask : Nat) : Prop :=
  ∀ k,mask.testBit k = true → ∃ sensor,AskedBy fast sensor history ∧ sensor % 32 = k

theorem testBit_cleared (mask sensor k : Nat) :
    (cleared mask sensor).testBit k = true → mask.testBit k = true ∧ sensor % 32 ≠ k := by
  have small : bit sensor < 2^32 := Nat.pow_lt_pow_right (by decide) (Nat.mod_lt _ (by decide))
  have shape : 4294967295 - bit sensor = 2^32 - (bit sensor + 1) := by omega
  rw [cleared,shape,Nat.testBit_and,Nat.testBit_two_pow_sub_succ small,bit,Nat.testBit_two_pow]
  intro both
  rw [Bool.and_eq_true,Bool.and_eq_true] at both
  refine ⟨both.1,?_⟩
  intro same
  rw [same] at both
  simp at both

theorem tracks_enable {fast : Bool} {sensor mask : Nat} {history : List Request} (tracks : Tracks fast history mask) :
    Tracks fast (history++[⟨fast,true,sensor⟩]) (mask ||| bit sensor) := by
  intro k set
  rw [Nat.testBit_or,Bool.or_eq_true] at set
  have fresh := askedBy_enable fast sensor history
  rcases set with old | new
  · obtain ⟨other,asked,place⟩ := tracks k old
    by_cases same : sensor = other
    · exact ⟨other,same ▸ fresh,place⟩
    · exact ⟨other,askedBy_snoc.mpr (by rwa [if_neg (fun both => same both.2)]),place⟩
  · rw [bit,Nat.testBit_two_pow,decide_eq_true_eq] at new
    exact ⟨sensor,fresh,new⟩

theorem tracks_others {history : List Request} {fast : Bool} {sensor mask k : Nat}
    (tracks : Tracks fast history mask) (set : (cleared mask sensor).testBit k = true) :
    ∃ other,other ≠ sensor ∧ AskedBy fast other history ∧ other % 32 = k := by
  obtain ⟨old,differs⟩ := testBit_cleared mask sensor k set
  obtain ⟨other,asked,place⟩ := tracks k old
  refine ⟨other,?_,asked,place⟩
  intro given
  subst given
  exact differs place

theorem tracks_disable {fast : Bool} {sensor mask : Nat} {history : List Request} (tracks : Tracks fast history mask) :
    Tracks fast (history++[⟨fast,false,sensor⟩]) (cleared mask sensor) := by
  intro k set
  obtain ⟨other,differs,asked,place⟩ := tracks_others tracks set
  exact ⟨other,askedBy_snoc.mpr (by rwa [if_neg (fun both => differs both.2.symm)]),place⟩

theorem tracks_elsewhere {fast : Bool} {history : List Request} {r : Request} {mask : Nat} (elsewhere : r.fast ≠ fast)
    (tracks : Tracks fast history mask) : Tracks fast (history++[r]) mask := by
  intro k set
  obtain ⟨sensor,asked,place⟩ := tracks k set
  exact ⟨sensor,askedBy_snoc.mpr (by rwa [if_neg (fun both => elsewhere both.1)]),place⟩

theorem cleared_others {fast : Bool} {history : List Request} {sensor mask : Nat} (tracks : Tracks fast history mask)
    (left : cleared mask sensor ≠ 0) : Others fast sensor history := by
  obtain ⟨k,set⟩ := Nat.exists_testBit_of_ne_zero left
  obtain ⟨other,differs,asked,-⟩ := tracks_others tracks set
  exact ⟨other,differs,asked⟩

theorem slowRate_fast {b interval : Int} {history : List Request} {r : Request} (fast : r.fast = true) :
    slowRate b interval (history++[r]) = slowRate b interval history := by
  have elsewhere : r.fast ≠ false := by rw [fast]; decide
  simp only [slowRate,asking_elsewhere elsewhere]

theorem slowRate_idle {b interval : Int} {history : List Request} (busy : interval ≠ 0) :
    slowRate b interval history = b :=
  if_neg (fun both => busy both.1)

theorem rate_fast {b interval : Int} {history : List Request} (asking : Asking true history) :
    rate b interval history = 1000 :=
  if_pos asking

theorem rate_slow {b interval : Int} {history : List Request} (quiet : ¬Asking true history) :
    rate b interval history = slowRate b interval history :=
  if_neg quiet

-- The masks as the requests have left them.
structure Sound (history : List Request) (t : Thread η) : Prop where
  slow : t.pollIntervalSec = 0 → Tracks false history t.pollSensorMask
  quick : Tracks true history t.fastPollSensorMask

variable (hooks : Hooks η ι) (pref : Int) (input : ι)

def answer (t : Thread η) (r : Request) : Thread η := procMessage hooks t r.message pref input

theorem answer_interval (t : Thread η) (r : Request) :
    (answer hooks pref input t r).pollIntervalSec = t.pollIntervalSec := by
  obtain ⟨fast,enable,sensor⟩ := r
  cases fast <;> cases enable <;>
    simp only [answer,procMessage,Request.message,Request.name,pollEnableDisable,fastPollEnableDisable] <;>
    split <;> rfl

theorem sound_answer {history : List Request} {t : Thread η} (r : Request) (sound : Sound history t) :
    Sound (history++[r]) (answer hooks pref input t r) := by
  refine ⟨?_,?_⟩
  · intro idle
    rw [answer_interval] at idle
    have tracks := sound.slow idle
    obtain ⟨fast,enable,sensor⟩ := r
    cases fast with
    | false =>
      cases enable with
      | true =>
        simpa [answer,procMessage,Request.message,Request.name,pollEnableDisable,idle] using tracks_enable tracks
      | false =>
        simpa [answer,procMessage,Request.message,Request.name,pollEnableDisable,idle,cleared] using tracks_disable tracks
    | true =>
      have kept := tracks_elsewhere (r := ⟨true,enable,sensor⟩) (by simp) tracks
      cases enable <;> exact kept
  · have tracks := sound.quick
    obtain ⟨fast,enable,sensor⟩ := r
    cases fast with
    | false =>
      have kept := tracks_elsewhere (r := ⟨false,enable,sensor⟩) (by simp) tracks
      cases enable <;>
        simp only [answer,procMessage,Request.message,Request.name,pollEnableDisable] <;>
        split <;> exact kept
    | true =>
      cases enable with
      | true => exact tracks_enable tracks
      | false => exact tracks_disable tracks

section Steps
variable {hooks pref input} {b : Int} {history : List Request} {t : Thread η} {sensor : Nat}

theorem pollEnable_exact (current : t.pollTimeoutMsec = rate b t.pollIntervalSec history) :
    (answer hooks pref input t ⟨false,true,sensor⟩).pollTimeoutMsec =
      rate b t.pollIntervalSec (history++[⟨false,true,sensor⟩]) ↔ Keeps b t history ⟨false,true,sensor⟩ := by
  have elsewhere : Asking true (history++[⟨false,true,sensor⟩]) ↔ Asking true history := asking_elsewhere (by simp)
  change _ ↔ (t.pollIntervalSec = 0 → ¬Asking true history)
  by_cases idle : t.pollIntervalSec = 0
  · have reached : answer hooks pref input t ⟨false,true,sensor⟩ = pollEnableDisable t true sensor := if_pos idle
    have now : (pollEnableDisable t true sensor).pollTimeoutMsec = defPollInterval := rfl
    rw [reached,now]
    by_cases asking : Asking true history
    · rw [rate_fast (elsewhere.mpr asking)]
      exact ⟨fun equal => absurd equal (by decide),fun quiet => absurd asking (quiet idle)⟩
    · rw [rate_slow (fun quick => asking (elsewhere.mp quick)),slowRate,
        if_pos ⟨idle,asking_enable false sensor history⟩]
      exact ⟨fun _ _ => asking,fun _ => rfl⟩
  · have ignored : answer hooks pref input t ⟨false,true,sensor⟩ = t := if_neg idle
    rw [ignored,current]
    refine ⟨fun _ zero => absurd zero idle,fun _ => ?_⟩
    simp only [rate,elsewhere,slowRate_idle idle]

theorem pollDisable_exact (sound : Sound history t) (current : t.pollTimeoutMsec = rate b t.pollIntervalSec history) :
    (answer hooks pref input t ⟨false,false,sensor⟩).pollTimeoutMsec =
      rate b t.pollIntervalSec (history++[⟨false,false,sensor⟩]) ↔ Keeps b t history ⟨false,false,sensor⟩ := by
  have elsewhere : Asking true (history++[⟨false,false,sensor⟩]) ↔ Asking true history := asking_elsewhere (by simp)
  have rest : Asking false (history++[⟨false,false,sensor⟩]) ↔ Others false sensor history := asking_disable
  change _ ↔ (t.pollIntervalSec = 0 → cleared t.pollSensorMask sensor = 0 →
    b = -1 ∧ ¬Asking true history ∧ ¬Others false sensor history)
  by_cases idle : t.pollIntervalSec = 0
  · have reached : answer hooks pref input t ⟨false,false,sensor⟩ = pollEnableDisable t false sensor := if_pos idle
    have now : (pollEnableDisable t false sensor).pollTimeoutMsec =
      if cleared t.pollSensorMask sensor = 0 then -1 else t.pollTimeoutMsec := rfl
    rw [reached,now]
    by_cases empty : cleared t.pollSensorMask sensor = 0
    · -- The interval is now -1, which only the base interval can be.
      rw [if_pos empty]
      by_cases asking : Asking true history
      · simp [rate,elsewhere,asking,idle,empty]
      · by_cases others : Others false sensor history
        · simp [rate,slowRate,elsewhere,rest,asking,others,idle,empty,defPollInterval]
        · simp [rate,slowRate,elsewhere,rest,asking,others,idle,empty,eq_comm]
    · have others := cleared_others (sound.slow idle) empty
      rw [if_neg empty,current]
      simp [rate,slowRate,elsewhere,rest,idle,empty,others,others_asking others]
  · have ignored : answer hooks pref input t ⟨false,false,sensor⟩ = t := if_neg idle
    rw [ignored,current]
    refine ⟨fun _ zero => absurd zero idle,fun _ => ?_⟩
    simp only [rate,elsewhere,slowRate_idle idle]

theorem fastEnable_exact : (answer hooks pref input t ⟨true,true,sensor⟩).pollTimeoutMsec =
    rate b t.pollIntervalSec (history++[⟨true,true,sensor⟩]) :=
  (rate_fast (asking_enable true sensor history)).symm

theorem fastDisable_exact (sound : Sound history t) (current : t.pollTimeoutMsec = rate b t.pollIntervalSec history) :
    (answer hooks pref input t ⟨true,false,sensor⟩).pollTimeoutMsec =
      rate b t.pollIntervalSec (history++[⟨true,false,sensor⟩]) ↔ Keeps b t history ⟨true,false,sensor⟩ := by
  have rest : Asking true (history++[⟨true,false,sensor⟩]) ↔ Others true sensor history := asking_disable
  have slow : slowRate b t.pollIntervalSec (history++[⟨true,false,sensor⟩]) = slowRate b t.pollIntervalSec history :=
    slowRate_fast rfl
  have now : (answer hooks pref input t ⟨true,false,sensor⟩).pollTimeoutMsec =
      if cleared t.fastPollSensorMask sensor = 0 ∧ t.savedPollInterval ≠ 0 then t.savedPollInterval
      else t.pollTimeoutMsec := rfl
  rw [now]
  by_cases others : Others true sensor history
  · have before := current.trans (rate_fast (others_asking others))
    rw [rate_fast (rest.mpr others)]
    by_cases saved : t.savedPollInterval = 0
    · simp [Keeps,others,saved,before]
    · by_cases empty : cleared t.fastPollSensorMask sensor = 0
      · simp [Keeps,empty,others,saved]
      · simp [Keeps,empty,before]
  · have empty : cleared t.fastPollSensorMask sensor = 0 := by
      by_contra left
      exact others (cleared_others sound.quick left)
    rw [rate_slow (fun asking => others (rest.mp asking)),slow]
    by_cases saved : t.savedPollInterval = 0
    · by_cases asking : Asking true history
      · simp [Keeps,empty,others,saved,asking,current.trans (rate_fast asking),eq_comm]
      · simp [Keeps,empty,others,saved,asking,current.trans (rate_slow asking)]
    · simp [Keeps,empty,others,saved]

theorem answer_exact (r : Request) (sound : Sound history t)
    (current : t.pollTimeoutMsec = rate b t.pollIntervalSec history) :
    (answer hooks pref input t r).pollTimeoutMsec = rate b t.pollIntervalSec (history++[r]) ↔ Keeps b t history r := by
  obtain ⟨fast,enable,sensor⟩ := r
  cases fast with
  | false =>
    cases enable with
    | true => exact pollEnable_exact current
    | false => exact pollDisable_exact sound current
  | true =>
    cases enable with
    | true => exact ⟨fun _ => trivial,fun _ => fastEnable_exact⟩
    | false => exact fastDisable_exact sound current

end Steps

-- The engine before the first request.
structure Fresh (b : Int) (t : Thread η) : Prop where
  slow : t.pollSensorMask = 0
  quick : t.fastPollSensorMask = 0
  saved : t.savedPollInterval = 0
  timeout : t.pollTimeoutMsec = b

theorem tracks_zero (fast : Bool) (history : List Request) : Tracks fast history 0 := by
  intro k set
  rw [Nat.zero_testBit] at set
  exact absurd set (by decide)

theorem sound_run {b : Int} {t : Thread η} (fresh : Fresh b t) (history : List Request) :
    Sound history (run (answer hooks pref input) t history) := by
  induction history using List.reverseRecOn with
  | nil => exact ⟨fun _ => fresh.slow ▸ tracks_zero _ _,fresh.quick ▸ tracks_zero _ _⟩
  | append_singleton history r ih =>
    rw [run_snoc]
    exact sound_answer hooks pref input r ih

theorem run_interval (t : Thread η) (history : List Request) :
    (run (answer hooks pref input) t history).pollIntervalSec = t.pollIntervalSec := by
  induction history using List.reverseRecOn with
  | nil => rfl
  | append_singleton history r ih => rw [run_snoc,answer_interval,ih]

-- After every request of a run the interval is the one the sensors call for.
def Follows (b : Int) (t : Thread η) (requests : List Request) : Prop :=
  Stepwise (fun before r => (run (answer hooks pref input) t (before++[r])).pollTimeoutMsec =
    rate b t.pollIntervalSec (before++[r])) requests

theorem follows_current {b : Int} {t : Thread η} (fresh : Fresh b t) {requests : List Request}
    (follows : Follows hooks pref input b t requests) :
    (run (answer hooks pref input) t requests).pollTimeoutMsec = rate b t.pollIntervalSec requests := by
  rcases requests.eq_nil_or_concat' with rfl | ⟨before,r,rfl⟩
  · have none_asks : ∀ fast,¬Asking fast ([] : List Request) := by
      intro fast given
      obtain ⟨sensor,asked⟩ := given
      exact absurd asked (by simp [AskedBy])
    rw [rate_slow (none_asks true),slowRate,if_neg (fun both => none_asks false both.2)]
    exact fresh.timeout
  · exact (stepwise_snoc.mp follows).2

theorem timeout_follows_requests_iff {b : Int} {t : Thread η} (fresh : Fresh b t) (requests : List Request) :
    Follows hooks pref input b t requests ↔
      Stepwise (fun before r => Keeps b (run (answer hooks pref input) t before) before r) requests := by
  induction requests using List.reverseRecOn with
  | nil => exact ⟨fun _ => stepwise_nil _,fun _ => stepwise_nil _⟩
  | append_singleton before r ih =>
    rw [Follows,stepwise_snoc,stepwise_snoc,← ih]
    apply and_congr_right
    intro follows
    have current := follows_current hooks pref input fresh follows
    rw [run_snoc,← run_interval hooks pref input t before]
    rw [← run_interval hooks pref input t before] at current
    exact answer_exact r (sound_run hooks pref input fresh before) current

def bareHooks : Hooks Unit Unit where
  notifyZones _ _ _ := ((),[])
  updateZonePreference _ _ _ := ((),[])
  reloadZones _ _ := ()
  updateEngine _ _ := ()
  workarounds _ := ()

-- The engine as thd_engine_start leaves it without a polling interval: it waits for events.
def waiting : Thread Unit :=
  ⟨(),false,true,0,-1,-1,0,0,0,0,0,0,0,[],0,[]⟩

-- Sensor 1 crosses its limit while sensor 0 holds fast polling, and ends it.
theorem timeout_lags_after_poll_enable : ∃ requests : List Request,
    ¬Follows bareHooks 0 () (-1) waiting requests := by
  refine ⟨[⟨true,true,0⟩,⟨false,true,1⟩],?_⟩
  intro follows
  have last := follows [⟨true,true,0⟩] ⟨false,true,1⟩ [] rfl
  exact absurd last (by decide)

-- A fast-polling trip on its own: on, off and on again.
theorem timeout_follows_one_sensor :
    Fresh (-1) waiting ∧ Follows bareHooks 0 () (-1) waiting [⟨true,true,0⟩,⟨true,false,0⟩,⟨true,true,0⟩] := by
  have fresh : Fresh (-1) waiting := ⟨rfl,rfl,rfl,rfl⟩
  refine ⟨fresh,(timeout_follows_requests_iff bareHooks 0 () fresh _).mpr ?_⟩
  intro before r after split
  rcases before with _ | ⟨first,_ | ⟨second,_ | ⟨third,rest⟩⟩⟩
  · cases split
    exact trivial
  · cases split
    intro empty
    refine .inr ⟨?_,by decide⟩
    intro given
    obtain ⟨other,differs,asked⟩ := given
    obtain ⟨r,present,rfl⟩ := askedBy_mem asked
    cases List.mem_singleton.mp present
    exact differs rfl
  · cases split
    exact trivial
  · simp at split

end ChuwiMinibook.PollingRate
