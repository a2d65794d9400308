import ChuwiMinibook.EngineThread

namespace ChuwiMinibook.EngineMessages
open EngineThread Machine
variable {η ι : Type} (hooks : Hooks η ι) (thdPollInterval : Int)

-- What a stage that reads no message may do to the pipe and the records.
structure Quiet (t t' : Thread η) : Prop where
  processed : t'.processed = t.processed
  reported : t'.reported = t.reported
  queue : ∃ sent,t'.queue = t.queue ++ sent

theorem Quiet.refl (t : Thread η) : Quiet t t := ⟨rfl,rfl,[],by simp⟩

theorem Quiet.trans {a b c : Thread η} (one : Quiet a b) (two : Quiet b c) : Quiet a c := by
  obtain ⟨first,firstQueue⟩ := one.queue
  obtain ⟨second,secondQueue⟩ := two.queue
  exact ⟨two.processed.trans one.processed,two.reported.trans one.reported,first++second,
    by rw [secondQueue,firstQueue,List.append_assoc]⟩

-- The flags that only messages write.
def Flags (t t' : Thread η) : Prop := t'.status = t.status ∧ t'.terminate = t.terminate

theorem quiet_pollStage (t : Thread η) (p : Poll ι) : Quiet t (pollStage hooks t p) ∧ Flags t (pollStage hooks t p) := by
  unfold pollStage
  split
  · exact ⟨⟨rfl,rfl,_,rfl⟩,rfl,rfl⟩
  · exact ⟨Quiet.refl t,rfl,rfl⟩

theorem quiet_ueventStage (t : Thread η) (p : Poll ι) :
    Quiet t (ueventStage hooks t p) ∧ Flags t (ueventStage hooks t p) := by
  unfold ueventStage
  split
  · dsimp only
    split
    · exact ⟨⟨rfl,rfl,_,rfl⟩,rfl,rfl⟩
    · exact ⟨⟨rfl,rfl,[],by simp⟩,rfl,rfl⟩
  · exact ⟨Quiet.refl t,rfl,rfl⟩

theorem quiet_updateStage (t : Thread η) (p : Poll ι) :
    Quiet t (updateStage hooks thdPollInterval t p) ∧ Flags t (updateStage hooks thdPollInterval t p) := by
  unfold updateStage
  dsimp only
  split <;> exact ⟨⟨rfl,rfl,[],by simp⟩,rfl,rfl⟩

theorem quiet_procMessage (t : Thread η) (msg : Message) (pref : Int) (input : ι) :
    Quiet t (procMessage hooks t msg pref input) := by
  have poll (status : Bool) : Quiet t (pollEnableDisable t status msg.sensorId) := by
    cases status <;> exact ⟨rfl,rfl,[],by simp [pollEnableDisable]⟩
  have fast (status : Bool) : Quiet t (fastPollEnableDisable t status msg.sensorId) := by
    cases status <;> exact ⟨rfl,rfl,[],by simp [fastPollEnableDisable]⟩
  unfold procMessage
  cases msg.msgId with
  | wakeup => exact Quiet.refl t
  | terminate => exact ⟨rfl,rfl,[],by simp⟩
  | prefChanged =>
    unfold processPrefChange
    dsimp only
    split
    · exact ⟨rfl,rfl,[],by simp⟩
    · exact ⟨rfl,rfl,_,rfl⟩
  | thermalZoneNotify =>
    dsimp only
    split
    · exact ⟨rfl,rfl,_,rfl⟩
    · exact Quiet.refl t
  | reloadZones => exact ⟨rfl,rfl,[],by simp⟩
  | pollEnable =>
    dsimp only
    split
    · exact poll true
    · exact Quiet.refl t
  | pollDisable =>
    dsimp only
    split
    · exact poll false
    · exact Quiet.refl t
  | fastPollEnable => exact fast true
  | fastPollDisable => exact fast false

theorem quiet_front (t : Thread η) (p : Poll ι) :
    Quiet (arrive t p) (front hooks t p) ∧ Flags (arrive t p) (front hooks t p) := by
  obtain ⟨one,oneFlags⟩ := quiet_pollStage hooks (arrive t p) p
  obtain ⟨two,twoFlags⟩ := quiet_ueventStage hooks (pollStage hooks (arrive t p) p) p
  exact ⟨one.trans two,twoFlags.1.trans oneFlags.1,twoFlags.2.trans oneFlags.2⟩

-- A message waits where poll reports one.
def Fed (t : Thread η) (p : Poll ι) : Prop := Reports p → t.queue ++ p.arrived ≠ []

-- The engine is enabled, or has been through its last pass a short time ago.
def Attentive (t : Thread η) (p : Poll ι) : Prop :=
  t.terminate = false → Reports p → t.status = true ∨ p.now - t.thzLastTempIndTime < t.pollTimeoutSec

theorem iteration_reads {t : Thread η} {p : Poll ι} (running : t.terminate = false) (reports : Reports p)
    (awake : t.status = true ∨ p.now - t.thzLastTempIndTime < t.pollTimeoutSec) :
    iteration hooks thdPollInterval t p =
      updateStage hooks thdPollInterval (messageStage hooks (front hooks t p) p) p := by
  obtain ⟨positive,wakeup,ok⟩ := reports
  have passes : (due t p && !t.status) = false := by
    rcases awake with on | recent
    · simp [on]
    · have early : due t p = false := by
        simp only [due,Bool.or_eq_false_iff,beq_eq_false_iff_ne,decide_eq_false_iff_not]
        exact ⟨by omega,by omega⟩
      rw [early]
      rfl
  unfold iteration
  rw [if_neg (by simp [running]),if_neg (by omega),if_neg (by simp [passes]),if_pos ⟨positive,wakeup⟩,
    if_neg (by simp [ok])]

theorem iteration_skips {t : Thread η} {p : Poll ι} (running : t.terminate = false) (reports : Reports p)
    (asleep : ¬ (t.status = true ∨ p.now - t.thzLastTempIndTime < t.pollTimeoutSec)) :
    iteration hooks thdPollInterval t p = arrive t p := by
  rw [not_or] at asleep
  obtain ⟨off,old⟩ := asleep
  have late : due t p = true := by
    simp only [due,Bool.or_eq_true,decide_eq_true_eq]
    exact .inr (by omega)
  have stops : (due t p && !t.status) = true := by simp [late,off]
  unfold iteration
  rw [if_neg (by simp [running]),if_neg (by have := reports.1; omega),if_pos stops]

-- Every message that was ever in the pipe, in the order of the writes.
def sent (t : Thread η) : List Message := t.processed ++ t.queue

theorem sent_quiet {t t' : Thread η} (quiet : Quiet t t') : sent t <+: sent t' := by
  obtain ⟨new,queue⟩ := quiet.queue
  exact ⟨new,by rw [sent,sent,quiet.processed,queue,List.append_assoc]⟩

theorem sent_arrive (t : Thread η) (p : Poll ι) : sent t <+: sent (arrive t p) :=
  ⟨p.arrived,by simp [sent,arrive]⟩

theorem sent_messageStage (t : Thread η) (p : Poll ι) : sent t <+: sent (messageStage hooks t p) := by
  unfold messageStage
  split
  · exact List.prefix_rfl
  · rename_i msg rest head
    have same : sent t = sent {t with queue := rest,processed := t.processed ++ [msg]} := by
      simp [sent,head]
    rw [same]
    exact sent_quiet (quiet_procMessage hooks _ msg p.pref p.applied)

-- No message is lost, doubled or overtaken, whatever an iteration does.
theorem sent_grows (t : Thread η) (p : Poll ι) : sent t <+: sent (iteration hooks thdPollInterval t p) := by
  have start := (sent_arrive t p).trans (sent_quiet (quiet_front hooks t p).1)
  unfold iteration
  split
  · exact List.prefix_rfl
  split
  · exact sent_arrive t p
  split
  · exact sent_arrive t p
  split
  · split
    · exact start
    · exact (start.trans (sent_messageStage hooks _ p)).trans
        (sent_quiet (quiet_updateStage hooks thdPollInterval _ p).1)
  · exact start.trans (sent_quiet (quiet_updateStage hooks thdPollInterval _ p).1)

theorem sent_run (t : Thread η) (polls : List (Poll ι)) :
    sent t <+: sent (run (iteration hooks thdPollInterval) t polls) := by
  induction polls generalizing t with
  | nil => exact List.prefix_rfl
  | cons p rest ih => exact (sent_grows hooks thdPollInterval t p).trans (ih _)

-- As many messages have been applied as iterations had one to read.
def Served (t : Thread η) : Prop := t.processed.length = t.reported

theorem iteration_silent {t : Thread η} {p : Poll ι} (silent : ¬ (t.terminate = false ∧ Reports p)) :
    (iteration hooks thdPollInterval t p).processed = t.processed ∧
      (iteration hooks thdPollInterval t p).reported = t.reported := by
  unfold iteration
  split
  · exact ⟨rfl,rfl⟩
  rename_i running
  have unreported : ¬ Reports p := fun reports => silent ⟨by simpa using running,reports⟩
  have arrived : (arrive t p).processed = t.processed ∧ (arrive t p).reported = t.reported :=
    ⟨rfl,if_neg unreported⟩
  have fronted := (quiet_front hooks t p).1
  split
  · exact arrived
  split
  · exact arrived
  split
  · rename_i wakeup
    split
    · exact ⟨fronted.processed.trans arrived.1,fronted.reported.trans arrived.2⟩
    · rename_i ok
      exact absurd ⟨wakeup.1,wakeup.2,by simpa using ok⟩ unreported
  · have updated := (quiet_updateStage hooks thdPollInterval (front hooks t p) p).1
    exact ⟨updated.processed.trans (fronted.processed.trans arrived.1),
      updated.reported.trans (fronted.reported.trans arrived.2)⟩

theorem front_queue {t : Thread η} {p : Poll ι} {msg : Message} {rest : List Message}
    (head : t.queue ++ p.arrived = msg::rest) : ∃ more,(front hooks t p).queue = msg::(rest++more) := by
  obtain ⟨more,queue⟩ := (quiet_front hooks t p).1.queue
  refine ⟨more,?_⟩
  rw [queue]
  show (t.queue ++ p.arrived) ++ more = _
  rw [head]
  rfl

-- An iteration with a message to read applies exactly the oldest one, precisely
-- when the engine is attentive.
theorem iteration_applies {t : Thread η} {p : Poll ι} (running : t.terminate = false) (reports : Reports p)
    {msg : Message} {rest : List Message} (head : t.queue ++ p.arrived = msg::rest)
    (awake : t.status = true ∨ p.now - t.thzLastTempIndTime < t.pollTimeoutSec) :
    (iteration hooks thdPollInterval t p).processed = t.processed ++ [msg] ∧
      (iteration hooks thdPollInterval t p).reported = t.reported+1 := by
  obtain ⟨more,queue⟩ := front_queue hooks head
  have fronted := (quiet_front hooks t p).1
  have updated := (quiet_updateStage hooks thdPollInterval (messageStage hooks (front hooks t p) p) p).1
  have applied := quiet_procMessage hooks
    {front hooks t p with queue := rest++more,processed := (front hooks t p).processed ++ [msg]} msg p.pref p.applied
  have stage : messageStage hooks (front hooks t p) p = procMessage hooks
      {front hooks t p with queue := rest++more,processed := (front hooks t p).processed ++ [msg]}
      msg p.pref p.applied := by
    unfold messageStage
    rw [queue]
  rw [iteration_reads hooks thdPollInterval running reports awake]
  refine ⟨?_,?_⟩
  · rw [updated.processed,stage,applied.processed]
    show (front hooks t p).processed ++ [msg] = _
    rw [fronted.processed]
    rfl
  · rw [updated.reported,stage,applied.reported]
    show (front hooks t p).reported = _
    rw [fronted.reported]
    exact if_pos reports

theorem served_step {t : Thread η} {p : Poll ι} (served : Served t) (fed : Fed t p) :
    Served (iteration hooks thdPollInterval t p) ↔ Attentive t p := by
  by_cases active : t.terminate = false ∧ Reports p
  · obtain ⟨running,reports⟩ := active
    by_cases awake : t.status = true ∨ p.now - t.thzLastTempIndTime < t.pollTimeoutSec
    · refine ⟨fun _ _ _ => awake,fun _ => ?_⟩
      obtain ⟨msg,rest,head⟩ := List.exists_cons_of_ne_nil (fed reports)
      obtain ⟨processed,reported⟩ := iteration_applies hooks thdPollInterval running reports head awake
      rw [Served,processed,reported,List.length_append,List.length_singleton,served]
    · refine ⟨?_,fun attentive => absurd (attentive running reports) awake⟩
      intro after
      rw [iteration_skips hooks thdPollInterval running reports awake] at after
      have counted : (arrive t p).reported = t.reported+1 := if_pos reports
      have kept : (arrive t p).processed.length = t.processed.length := rfl
      rw [Served,counted,kept,served] at after
      omega
  · obtain ⟨processed,reported⟩ := iteration_silent hooks thdPollInterval active
    refine ⟨fun _ running reports => absurd ⟨running,reports⟩ active,fun _ => ?_⟩
    rw [Served,processed,reported]
    exact served

theorem served_run {t : Thread η} (served : Served t) {polls : List (Poll ι)}
    (fed : Meets (iteration hooks thdPollInterval) Fed t polls) :
    (∀ first second,polls = first++second → Served (run (iteration hooks thdPollInterval) t first)) ↔
      Meets (iteration hooks thdPollInterval) Attentive t polls := by
  induction polls generalizing t with
  | nil =>
    simp only [Meets,iff_true]
    intro first second split
    obtain ⟨rfl,rfl⟩ := List.append_eq_nil_iff.mp split.symm
    exact served
  | cons p rest ih =>
    have exactly := served_step hooks thdPollInterval served fed.1
    constructor
    · intro always
      have one : Served (iteration hooks thdPollInterval t p) := always [p] rest rfl
      refine ⟨exactly.mp one,(ih one fed.2).mp ?_⟩
      intro first second split
      exact always (p::first) second (by rw [split]; rfl)
    · intro given first second split
      obtain ⟨attentive,later⟩ := given
      cases first with
      | nil => exact served
      | cons head tail =>
        rw [List.cons_append,List.cons.injEq] at split
        obtain ⟨rfl,rest⟩ := split
        exact (ih (exactly.mpr attentive) fed.2).mpr later tail second rest

-- TERMINATE and PREF_CHANGED take effect in the iteration that reads them.
theorem iteration_obeys {t : Thread η} {p : Poll ι} (running : t.terminate = false) (reports : Reports p)
    (awake : t.status = true ∨ p.now - t.thzLastTempIndTime < t.pollTimeoutSec)
    {msg : Message} {rest : List Message} (head : t.queue ++ p.arrived = msg::rest) :
    (msg.msgId = .terminate → (iteration hooks thdPollInterval t p).terminate = true) ∧
      (msg.msgId = .prefChanged → (iteration hooks thdPollInterval t p).status = decide (p.pref ≠ prefDisabled)) := by
  obtain ⟨more,queue⟩ := front_queue hooks head
  have flags := (quiet_updateStage hooks thdPollInterval (messageStage hooks (front hooks t p) p) p).2
  rw [iteration_reads hooks thdPollInterval running reports awake,flags.1,flags.2]
  unfold messageStage
  rw [queue]
  refine ⟨?_,?_⟩
  · intro name
    simp only [procMessage,name]
  · intro name
    simp only [procMessage,name,processPrefChange]
    split
    · rename_i disabled
      simp [disabled]
    · rename_i enabled
      simp [visitZones,enabled]

-- Over any run: the pipe keeps its order, and every iteration that has a message
-- to read has applied the next one, in every state reached, precisely when each
-- of these iterations finds the engine enabled or its last pass recent; such an
-- iteration ends or re-enables the engine when its message says so.
theorem messages_applied_in_order (t : Thread η) (fresh : t.processed = [] ∧ t.reported = 0) (polls : List (Poll ι))
    (fed : Meets (iteration hooks thdPollInterval) Fed t polls) :
    ((∀ first second,polls = first++second →
        (run (iteration hooks thdPollInterval) t first).processed =
          (sent (run (iteration hooks thdPollInterval) t polls)).take
            (run (iteration hooks thdPollInterval) t first).reported ∧
        (run (iteration hooks thdPollInterval) t first).processed.length =
          (run (iteration hooks thdPollInterval) t first).reported) ↔
      Meets (iteration hooks thdPollInterval) Attentive t polls) ∧
    ∀ s : Thread η,∀ p : Poll ι,s.terminate = false → Reports p → Attentive s p →
      ∀ msg rest,s.queue ++ p.arrived = msg::rest →
        (msg.msgId = .terminate → (iteration hooks thdPollInterval s p).terminate = true) ∧
        (msg.msgId = .prefChanged → (iteration hooks thdPollInterval s p).status = decide (p.pref ≠ prefDisabled)) := by
  have served : Served t := by rw [Served,fresh.1,fresh.2]; rfl
  have exactly := served_run hooks thdPollInterval served fed
  refine ⟨⟨fun always => exactly.mp (fun first second split => (always first second split).2),?_⟩,
    fun s p running reports attentive msg rest head =>
      iteration_obeys hooks thdPollInterval running reports (attentive running reports) head⟩
  intro attentive first second split
  have counted := exactly.mpr attentive first second split
  refine ⟨?_,counted⟩
  have order : (run (iteration hooks thdPollInterval) t first).processed <+:
      sent (run (iteration hooks thdPollInterval) t polls) := by
    rw [split,run_append]
    exact (List.prefix_append _ _).trans (sent_run hooks thdPollInterval _ second)
  rw [← counted]
  exact List.prefix_iff_eq_take.mp order

-- A disabled engine whose last pass over the zones was ten seconds ago.
def idleHost : Host Int := ⟨Cdev.genSysfs,StdSort.insertion,fun d _ => some d,fun _ => none,false⟩

def idlePass : Pass := ⟨fun _ _ => ⟨0,0⟩,[],⟨0,fun _ => none,fun _ => none,none,none,none,none,75⟩⟩

def polling (now pref : Int) (arrived : List Message) : Poll Pass :=
  ⟨1,true,false,false,false,now,now,pref,arrived,idlePass,idlePass,idlePass,idlePass⟩

def started : Thread (Option (Adaptive Int)) :=
  ⟨some ⟨⟨[],[],[],0,false⟩,⟨[],[],[],[],[],[],[],-1⟩,false,-1,"",false,false,-1,[],false⟩,
    false,true,0,4,4000,4,1000,0,1000,0,0,0,[],0,[]⟩

-- The preference is set to disabled; a TERMINATE that follows is never read.
def disabledRun : List (Poll Pass) :=
  [polling 1001 2 [⟨.prefChanged,0⟩],polling 1011 0 [⟨.terminate,0⟩],polling 1012 0 []]

theorem disabled_engine_ignores_terminate :
    Meets (iteration (adaptiveHooks idleHost) 4) Fed started disabledRun ∧
      (run (iteration (adaptiveHooks idleHost) 4) started disabledRun).reported = 3 ∧
      (run (iteration (adaptiveHooks idleHost) 4) started disabledRun).processed = [⟨.prefChanged,0⟩] ∧
      (run (iteration (adaptiveHooks idleHost) 4) started disabledRun).queue = [⟨.terminate,0⟩] ∧
      (run (iteration (adaptiveHooks idleHost) 4) started disabledRun).terminate = false := by
  refine ⟨?_,by decide,by decide,by decide,by decide⟩
  refine ⟨fun _ => by decide,fun _ => by decide,fun _ => by decide,trivial⟩

-- Disabled and enabled again by the preference, then ended.
def severalRun : List (Poll Pass) :=
  [polling 1001 2 [⟨.prefChanged,0⟩,⟨.prefChanged,0⟩],polling 1002 0 [⟨.terminate,0⟩],polling 1003 0 []]

theorem messages_applied_in_order_several :
    (∀ first second,severalRun = first++second →
      (run (iteration (adaptiveHooks idleHost) 4) started first).processed =
        (sent (run (iteration (adaptiveHooks idleHost) 4) started severalRun)).take
          (run (iteration (adaptiveHooks idleHost) 4) started first).reported ∧
      (run (iteration (adaptiveHooks idleHost) 4) started first).processed.length =
        (run (iteration (adaptiveHooks idleHost) 4) started first).reported) ∧
      (run (iteration (adaptiveHooks idleHost) 4) started (severalRun.take 1)).status = false ∧
      (run (iteration (adaptiveHooks idleHost) 4) started (severalRun.take 2)).status = true ∧
      (run (iteration (adaptiveHooks idleHost) 4) started severalRun).terminate = true := by
  have fed : Meets (iteration (adaptiveHooks idleHost) 4) Fed started severalRun :=
    ⟨fun _ => by decide,fun _ => by decide,fun _ => by decide,trivial⟩
  have attentive : Meets (iteration (adaptiveHooks idleHost) 4) Attentive started severalRun :=
    ⟨fun _ _ => .inl rfl,fun _ _ => .inr (by decide),fun _ _ => .inl (by decide),trivial⟩
  obtain ⟨order,applied⟩ := messages_applied_in_order (adaptiveHooks idleHost) 4 started ⟨rfl,rfl⟩ _ fed
  refine ⟨order.mpr attentive,by decide,?_,?_⟩
  · exact ((applied (run (iteration (adaptiveHooks idleHost) 4) started (severalRun.take 1)) (polling 1002 0 [⟨.terminate,0⟩])
      (by decide) (by decide) attentive.2.1 _ _ rfl).2 rfl).trans (by decide)
  · exact (applied (run (iteration (adaptiveHooks idleHost) 4) started (severalRun.take 2)) (polling 1003 0 [])
      (by decide) (by decide) attentive.2.2.1 _ _ rfl).1 rfl

end ChuwiMinibook.EngineMessages
