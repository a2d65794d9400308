import ChuwiMinibook.Machine
import ChuwiMinibook.ReleaseStack
import ChuwiMinibook.Cdev

namespace ChuwiMinibook.CdevArbitration
open Cdev Machine ReleaseStack
variable {σ : Type} (m : Methods σ) (srt : StdSort)

structure Call where
  now : Int
  request : Request
  pid : Pid

def step (c : Cdev σ) (call : Call) : Cdev σ :=
  (thdCdevSetState m srt c call.now call.request call.pid).1

def pairs (c : Cdev σ) : List (Int × Int) := c.zoneTripLimits.map (·.pair)

theorem enlist_pairs (d : Dev σ) (limits : List ZoneTripLimit) (q : Request) :
    ((enlist srt d limits q).map (·.pair)).Perm
      (if q.pair ∈ limits.map (·.pair) then limits.map (·.pair)
        else limits.map (·.pair) ++ [q.pair]) := by
  unfold enlist
  by_cases present : q.pair ∈ limits.map (·.pair)
  · have found : limits.any (fun l => l.pair = q.pair) = true := by
      obtain ⟨l,inside,same⟩ := List.mem_map.mp present
      exact List.any_eq_true.mpr ⟨l,inside,by simpa using same⟩
    rw [if_pos present,if_pos found]
  · have missing : ¬ limits.any (fun l => l.pair = q.pair) = true := by
      intro found
      obtain ⟨l,inside,same⟩ := List.any_eq_true.mp found
      exact present (List.mem_map.mpr ⟨l,inside,by simpa using same⟩)
    rw [if_neg present,if_neg missing]
    have pushed : (limits ++ [newLimit d q]).map (·.pair) = limits.map (·.pair) ++ [q.pair] := by
      simp [ZoneTripLimit.pair,newLimit,Request.pair]
    rw [← pushed]
    apply List.Perm.map
    have byTarget : (if q.targetStateValid then srt.sort (if d.minState < d.maxState then
        sortClampValuesAsc else sortClampValuesDec) (limits ++ [newLimit d q])
        else limits ++ [newLimit d q]).Perm (limits ++ [newLimit d q]) := by
      cases q.targetStateValid with
      | true => exact srt.perm _ _
      | false => exact List.Perm.refl _
    cases q.minMaxValid with
    | true => exact (srt.perm _ _).trans byTarget
    | false => exact byTarget

theorem enlist_mem {d : Dev σ} {limits : List ZoneTripLimit} {q : Request} {l : ZoneTripLimit}
    (inside : l ∈ enlist srt d limits q) : l ∈ limits ∨ l = newLimit d q := by
  unfold enlist at inside
  split at inside
  · exact .inl inside
  · dsimp only at inside
    have pushed : l ∈ limits++[newLimit d q] := by
      split at inside
      · rw [srt.mem_sort] at inside
        split at inside
        · exact (srt.mem_sort _ _ _).mp inside
        · exact inside
      · split at inside
        · exact (srt.mem_sort _ _ _).mp inside
        · exact inside
    simpa using pushed

theorem arbitrate_activation (c : Cdev σ) (now : Int) {q : Request} (on : q.state = true) :
    (arbitrate m srt c now q).1 = enlist srt c.dev c.zoneTripLimits q := by
  unfold arbitrate
  rw [if_pos on]
  dsimp only
  split
  · rfl
  · split <;> rfl

theorem arbitrate_deactivation (c : Cdev σ) (now : Int) {q : Request} (off : q.state = false) :
    (arbitrate m srt c now q).1.map (·.pair) = release (pairs c) q.pair := by
  unfold arbitrate
  rw [if_neg (by simp [off])]
  rcases c with ⟨index,typeStr,aliasStr,dev,limits⟩
  induction limits using List.reverseRecOn with
  | nil =>
    simp only [List.getLast?_nil,pairs,List.map_nil,release_nil]
    split
    · rfl
    · split <;> rfl
  | append_singleton rest last _ =>
    simp only [List.getLast?_append,List.getLast?_singleton,Option.some_or,pairs,List.map_append,
      List.map_cons,List.map_nil,release_snoc,List.dropLast_concat]
    by_cases same : last.pair = q.pair
    · simp only [same,if_true]
      split
      · rfl
      · split
        · rfl
        · split <;> rfl
    · simp [same]

theorem setState_limits (c : Cdev σ) (now : Int) (q : Request) (pid : Pid) :
    (thdCdevSetState m srt c now q pid).1.zoneTripLimits = (arbitrate m srt c now q).1 := by
  unfold thdCdevSetState
  split
  · rename_i limits decided; rw [decided]
  · rename_i limits order decided; rw [decided]

theorem step_activation (c : Cdev σ) {call : Call} (on : call.request.state = true) :
    (pairs (step m srt c call)).Perm (if call.request.pair ∈ pairs c then pairs c
      else pairs c ++ [call.request.pair]) := by
  unfold pairs step
  rw [setState_limits,arbitrate_activation m srt c _ on]
  exact enlist_pairs srt c.dev c.zoneTripLimits call.request

theorem step_deactivation (c : Cdev σ) {call : Call} (off : call.request.state = false) :
    pairs (step m srt c call) = release (pairs c) call.request.pair := by
  unfold step
  rw [pairs,setState_limits,arbitrate_deactivation m srt c _ off]

-- The state argument of the last call made for a pair.
def lastState (calls : List Call) (p : Int × Int) : Option Bool :=
  (calls.filter (fun call => call.request.pair = p)).getLast?.map (·.request.state)

theorem lastState_snoc (calls : List Call) (call : Call) (p : Int × Int) :
    lastState (calls++[call]) p =
      if call.request.pair = p then some call.request.state else lastState calls p := by
  unfold lastState
  rw [List.filter_append]
  by_cases same : call.request.pair = p <;> simp [same]

-- The law of the block comment over set_state: the list holds each requester
-- once and holds exactly those whose last call was an activation.
def Follows (calls : List Call) (c : Cdev σ) : Prop :=
  (pairs c).Nodup ∧ ∀ p, p ∈ pairs c ↔ lastState calls p = some true

-- A deactivation comes from a requester that is not listed or is listed last.
def Orderly (c : Cdev σ) (call : Call) : Prop :=
  call.request.state = false → call.request.pair ∈ pairs c →
    (pairs c).getLast? = some call.request.pair

theorem follows_start {c : Cdev σ} (fresh : c.zoneTripLimits = []) : Follows [] c := by
  simp [Follows,pairs,fresh,lastState]

theorem follows_activation {calls : List Call} {c : Cdev σ} (follows : Follows calls c) {call : Call}
    (on : call.request.state = true) : Follows (calls++[call]) (step m srt c call) := by
  obtain ⟨nodup,members⟩ := follows
  have perm := step_activation m srt c on
  refine ⟨?_,?_⟩
  · rw [perm.nodup_iff]
    split
    · exact nodup
    · rename_i absent
      exact List.nodup_append.mpr ⟨nodup,by simp,by
        intro a inside b same
        rw [List.mem_singleton] at same
        subst b
        exact fun equal => absent (equal ▸ inside)⟩
  · intro p
    rw [perm.mem_iff,lastState_snoc,on]
    by_cases same : call.request.pair = p
    · subst p
      split <;> simp_all
    · have other : ¬ p = call.request.pair := fun equal => same equal.symm
      split
      · simp [members]
      · simp [other,members]

theorem follows_deactivation {calls : List Call} {c : Cdev σ} (follows : Follows calls c) {call : Call}
    (off : call.request.state = false) :
    Follows (calls++[call]) (step m srt c call) ↔ Orderly c call := by
  obtain ⟨nodup,members⟩ := follows
  rw [Follows,step_deactivation m srt c off]
  constructor
  · intro given _
    obtain ⟨-,after⟩ := given
    have gone : call.request.pair ∉ release (pairs c) call.request.pair := by
      rw [after,lastState_snoc]; simp [off]
    exact (mem_release_self nodup).mp gone
  · intro orderly
    refine ⟨release_nodup nodup _,?_⟩
    intro p
    rw [lastState_snoc]
    by_cases same : call.request.pair = p
    · subst p
      have gone := (mem_release_self nodup).mpr (orderly off)
      simp [gone,off]
    · rw [mem_release_other (Ne.symm same),members]
      simp [same]

theorem follows_step {calls : List Call} {c : Cdev σ} (follows : Follows calls c) (call : Call) :
    Follows (calls++[call]) (step m srt c call) ↔ Orderly c call := by
  cases state : call.request.state with
  | true =>
    refine ⟨?_,fun _ => follows_activation m srt follows state⟩
    intro _ off
    rw [state] at off
    cases off
  | false => exact follows_deactivation m srt follows state

-- Exactly the orderly runs keep the law in every state they reach.
theorem follows_run {past : List Call} {c : Cdev σ} (follows : Follows past c) (calls : List Call) :
    (∀ first second, calls = first++second →
      Follows (past++first) (run (step m srt) c first)) ↔ Meets (step m srt) Orderly c calls := by
  induction calls generalizing past c with
  | nil =>
    simp only [Meets,iff_true]
    intro first second split
    obtain ⟨rfl,rfl⟩ := List.append_eq_nil_iff.mp split.symm
    simpa using follows
  | cons call rest ih =>
    constructor
    · intro always
      have one := always [call] rest rfl
      simp only [run_cons,run_nil] at one
      refine ⟨(follows_step m srt follows call).mp one,(ih one).mp ?_⟩
      intro first second split
      have next := always (call::first) second (by rw [split]; rfl)
      simpa [List.append_assoc] using next
    · intro given first second split
      obtain ⟨orderly,meets⟩ := given
      have one := (follows_step m srt follows call).mpr orderly
      cases first with
      | nil => simpa using follows
      | cons head tail =>
        rw [List.cons_append,List.cons.injEq] at split
        obtain ⟨rfl,rest⟩ := split
        have next := (ih one).mpr meets tail second rest
        simpa [List.append_assoc] using next

def AtMin (d : Dev σ) : Prop := d.currState = d.minState ∨ inMinState m d = true

-- A deactivation that leaves the list empty sets min_state at once when it is
-- forced or carries a target; otherwise the controller steps towards it.
def Direct (c : Cdev σ) (call : Call) : Prop :=
  call.request.state = false →
    (c.zoneTripLimits = [] → inMinState m c.dev = true ∨ call.request.force = true) ∧
    ∀ last, c.zoneTripLimits = [last] → last.pair = call.request.pair →
      (last.targetStateValid = true ∧ call.request.targetStateValid = true) ∨
      (last.targetStateValid = false ∧ (call.request.force = true ∨
        call.request.targetStateValid = true ∧ call.request.targetValue = c.dev.minState))

theorem actuate_target (d : Dev σ) (now : Int) (q : Request) (o : Order) (pid : Pid)
    (valid : o.targetStateValid = true) :
    (actuate m d now q o pid).1.currState = o.targetValue ∧
      (actuate m d now q o pid).1.minState = d.minState := by
  unfold actuate
  rw [if_pos valid]
  refine ⟨rfl,?_⟩
  dsimp only [put,beginAction]
  split <;> rfl

theorem setState_target {c : Cdev σ} {now : Int} {q : Request} {pid : Pid}
    {limits : List ZoneTripLimit} {low high : Int}
    (decided : arbitrate m srt c now q = (limits,some ⟨true,c.dev.minState,low,high⟩)) :
    AtMin m (thdCdevSetState m srt c now q pid).1.dev := by
  unfold thdCdevSetState
  rw [decided]
  have set := actuate_target m c.dev now q ⟨true,c.dev.minState,low,high⟩ pid rfl
  exact .inl (set.1.trans set.2.symm)

theorem setState_ignored {c : Cdev σ} {now : Int} {q : Request} (pid : Pid)
    {limits : List ZoneTripLimit} (decided : arbitrate m srt c now q = (limits,none)) :
    (thdCdevSetState m srt c now q pid).1.dev = c.dev := by
  unfold thdCdevSetState
  rw [decided]

theorem arbitrate_empty {c : Cdev σ} (now : Int) {q : Request} (off : q.state = false)
    (empty : c.zoneTripLimits = []) :
    arbitrate m srt c now q =
      if inMinState m c.dev then ([],none)
      else if q.force then ([],some ⟨true,c.dev.minState,q.minState,q.maxState⟩)
      else ([],some ⟨false,q.targetValue,q.minState,q.maxState⟩) := by
  simp [arbitrate,off,empty]

theorem arbitrate_single {c : Cdev σ} (now : Int) {q : Request} {last : ZoneTripLimit}
    (off : q.state = false) (single : c.zoneTripLimits = [last]) (same : last.pair = q.pair) :
    arbitrate m srt c now q =
      if last.targetStateValid then
        ([],some ⟨q.targetStateValid,c.dev.minState,q.minState,q.maxState⟩)
      else if q.force then ([],some ⟨true,c.dev.minState,q.minState,q.maxState⟩)
      else ([],some ⟨q.targetStateValid,q.targetValue,q.minState,q.maxState⟩) := by
  simp [arbitrate,off,single,same]

theorem direct_step {c : Cdev σ} {call : Call} (off : call.request.state = false)
    (direct : Direct m c call) (cleared : (step m srt c call).zoneTripLimits = []) :
    AtMin m (step m srt c call).dev := by
  obtain ⟨whenEmpty,whenLast⟩ := direct off
  have after : release (pairs c) call.request.pair = [] := by
    rw [← step_deactivation m srt c off,pairs,cleared,List.map_nil]
  rcases shape : c.zoneTripLimits with _ | ⟨last,rest⟩
  · have decided := arbitrate_empty m srt call.now off shape
    cases low : inMinState m c.dev with
    | true =>
      rw [if_pos low] at decided
      have kept := setState_ignored m srt call.pid decided
      rw [step,kept]
      exact .inr low
    | false =>
      have forced : call.request.force = true := by simpa [low] using whenEmpty shape
      rw [if_neg (by simp [low]),if_pos forced] at decided
      exact setState_target m srt decided
  · have alone : rest = [] ∧ last.pair = call.request.pair := by
      induction rest using List.reverseRecOn with
      | nil =>
        simp only [pairs,shape,List.map_cons,List.map_nil,release,List.getLast?_singleton] at after
        split at after
        · rename_i same; exact ⟨rfl,Option.some.inj same⟩
        · cases after
      | append_singleton front top _ =>
        have bound := congrArg List.length after
        unfold release at bound
        split at bound <;> simp [pairs,shape] at bound
    obtain ⟨rfl,same⟩ := alone
    have decided := arbitrate_single m srt call.now off shape same
    rcases whenLast last shape same with ⟨targeted,carried⟩ | ⟨plain,forced | ⟨carried,value⟩⟩
    · rw [if_pos targeted,carried] at decided
      exact setState_target m srt decided
    · rw [if_neg (by simp [plain]),if_pos forced] at decided
      exact setState_target m srt decided
    · cases force : call.request.force with
      | true =>
        rw [if_neg (by simp [plain]),if_pos force] at decided
        exact setState_target m srt decided
      | false =>
        rw [if_neg (by simp [plain]),if_neg (by simp [force]),carried,value] at decided
        exact setState_target m srt decided

theorem activation_listed {c : Cdev σ} {call : Call} (on : call.request.state = true) :
    (step m srt c call).zoneTripLimits ≠ [] := by
  intro empty
  have perm := step_activation m srt c on
  rw [pairs,empty,List.map_nil] at perm
  have inside : call.request.pair ∈ (if call.request.pair ∈ pairs c then pairs c
      else pairs c ++ [call.request.pair]) := by
    split
    · assumption
    · simp
  rw [← perm.nil_eq] at inside
  cases inside

def Settled (c : Cdev σ) : Prop := c.zoneTripLimits = [] → AtMin m c.dev

theorem settled_step {c : Cdev σ} {call : Call} (direct : Direct m c call) :
    Settled m (step m srt c call) := by
  intro empty
  cases state : call.request.state with
  | true => exact absurd empty (activation_listed m srt state)
  | false => exact direct_step m srt state direct empty

theorem settled_run {c : Cdev σ} {calls : List Call} (start : AtMin m c.dev ∨ calls ≠ [])
    (meets : Meets (step m srt) (Direct m) c calls) : Settled m (run (step m srt) c calls) := by
  cases calls with
  | nil =>
    intro _
    exact start.resolve_right (fun some => some rfl)
  | cons call rest =>
    obtain ⟨direct,later⟩ := meets
    rw [run_cons]
    exact run_invariant (fun _ _ _ direct => settled_step m srt direct) (settled_step m srt direct) later

-- From a device without requesters: the list follows the calls in every state
-- reached precisely when each deactivation is orderly, and then the device is
-- back at min_state once every requester has been deactivated directly.
theorem requests_arbitrated (c : Cdev σ) (fresh : c.zoneTripLimits = []) (calls : List Call) :
    ((∀ first second, calls = first++second → Follows first (run (step m srt) c first)) ↔
      Meets (step m srt) Orderly c calls) ∧
    (AtMin m c.dev ∨ calls ≠ [] → Meets (step m srt) (fun c call => Orderly c call ∧ Direct m c call) c calls →
      (∀ p, lastState calls p ≠ some true) → AtMin m (run (step m srt) c calls).dev) := by
  have exactly := follows_run m srt (follows_start fresh) calls
  simp only [List.nil_append] at exactly
  refine ⟨exactly,?_⟩
  intro start meets released
  have orderly := meets_mono (fun _ _ both => And.left both) meets
  have direct := meets_mono (fun _ _ both => And.right both) meets
  have follows := exactly.mpr orderly calls [] (by simp)
  have empty : (run (step m srt) c calls).zoneTripLimits = [] := by
    cases shape : (run (step m srt) c calls).zoneTripLimits with
    | nil => rfl
    | cons last rest =>
      have inside : last.pair ∈ pairs (run (step m srt) c calls) := by simp [pairs,shape]
      exact absurd ((follows.2 last.pair).mp inside) (released last.pair)
  exact settled_run m srt start direct empty

-- Two trips of one zone on a fan, the first of them released first.
def fan : Cdev Int :=
  ⟨0,"Fan","",⟨0,10,0,0,0,1,false,2,0,false,false,Pid.new,false,0,0,0⟩,[]⟩

def fanCall (now : Int) (state : Bool) (trip : Int) : Call :=
  ⟨now,⟨50000,60000,false,state,1,trip,false,0,none,false,false,0,0⟩,Pid.new⟩

def crossed : List Call := [fanCall 10 true 1,fanCall 20 true 2,fanCall 30 false 1,fanCall 40 false 2]

theorem crossed_requester_stays :
    lastState crossed (1,1) = some false ∧ lastState crossed (1,2) = some false ∧
      ¬ Follows crossed (run (step genSysfs StdSort.insertion) fan crossed) ∧
      ¬ AtMin genSysfs (run (step genSysfs StdSort.insertion) fan crossed).dev := by
  refine ⟨by decide,by decide,?_,?_⟩
  · intro follows
    have listed : (1,1) ∈ pairs (run (step genSysfs StdSort.insertion) fan crossed) := by decide
    have last := (follows.2 (1,1)).mp listed
    exact absurd last (by decide)
  · unfold AtMin
    decide

-- The same trips released in the opposite order, the last one by force.
def nested : List Call := [fanCall 10 true 1,fanCall 20 true 2,fanCall 30 false 2,
  {fanCall 40 false 1 with request := {(fanCall 40 false 1).request with force := true}}]

theorem requests_arbitrated_nested : fan.zoneTripLimits = [] ∧
    (∀ first second,nested = first++second → Follows first (run (step genSysfs StdSort.insertion) fan first)) ∧
    AtMin genSysfs (run (step genSysfs StdSort.insertion) fan nested).dev := by
  have orderly : Meets (step genSysfs StdSort.insertion) Orderly fan nested := by
    unfold Orderly
    decide
  have both : Meets (step genSysfs StdSort.insertion) (fun c call => Orderly c call ∧ Direct genSysfs c call) fan nested := by
    obtain ⟨one,two,three,four,_⟩ := orderly
    refine ⟨⟨one,?_⟩,⟨two,?_⟩,⟨three,?_⟩,⟨four,?_⟩,trivial⟩
    · intro off
      cases off
    · intro off
      cases off
    · intro _
      refine ⟨fun empty => absurd empty (by decide),?_⟩
      intro last single
      have two := congrArg List.length single
      rw [List.length_singleton] at two
      exact absurd two (by decide)
    · intro _
      refine ⟨fun _ => .inr rfl,?_⟩
      intro last single _
      have plain : last.targetStateValid = false := by
        have only := List.cons.inj single
        rw [← only.1]
        decide
      exact .inr ⟨plain,.inl rfl⟩
  have released : ∀ p,lastState nested p ≠ some true := by
    intro p
    by_cases first : p = (1,1)
    · subst first
      decide
    by_cases second : p = (1,2)
    · subst second
      decide
    · have none : nested.filter (fun call => call.request.pair = p) = [] := by
        have first : ¬ (1,1) = p := fun same => first same.symm
        have second : ¬ (1,2) = p := fun same => second same.symm
        simp [nested,fanCall,Request.pair,first,second]
      simp [lastState,none]
  have law := requests_arbitrated genSysfs StdSort.insertion fan rfl nested
  exact ⟨rfl,law.1.mpr orderly,law.2 (.inl (.inl rfl)) both released⟩

end ChuwiMinibook.CdevArbitration
