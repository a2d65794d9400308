import ChuwiMinibook.I2ec
import ChuwiMinibook.LockedSections

namespace ChuwiMinibook.I2ecThreads
open FlatMemory I2ec LockedSections Machine

-- What a thread of the driver has still to do: its accesses through I2EC, one after
-- another, each with what follows on the value that is read.
inductive Accesses (α : Type) where
  | done (a : α)
  | read (addr : BitVec 16) (next : BitVec 8 → Accesses α)
  | write (addr : BitVec 16) (val : BitVec 8) (next : Accesses α)

namespace Accesses
variable {α β : Type}

def bind : Accesses α → (α → Accesses β) → Accesses β
  | .done a,f => f a
  | .read addr next,f => .read addr fun val => (next val).bind f
  | .write addr val next,f => .write addr val (next.bind f)

instance : Monad Accesses where
  pure := .done
  bind := bind

def i2ecRead (addr : BitVec 16) : Accesses (BitVec 8) := .read addr .done
def i2ecWrite (addr : BitVec 16) (val : BitVec 8) : Accesses Unit := .write addr val (.done ())

-- A thread that nobody disturbs.
def alone : Accesses α → Pnpcfg → Pnpcfg×α
  | .done a,p => (p,a)
  | .read addr next,p => (next (minibookEcI2ecRead p addr).2).alone (minibookEcI2ecRead p addr).1
  | .write addr val next,p => next.alone (minibookEcI2ecWrite p addr val)

-- The addresses that are written.
def Writes (allowed : BitVec 16 → Prop) : Accesses α → Prop
  | .done _ => True
  | .read _ next => ∀ val,(next val).Writes allowed
  | .write addr _ next => allowed addr ∧ next.Writes allowed

end Accesses

variable {T α : Type} [DecidableEq T]

def out (value : BitVec 8) (port : BitVec 16) : Act Pnpcfg (Accesses α) := fun x => (outb value port x.1,x.2)

def select (index subIndex : BitVec 8) : List (Act Pnpcfg (Accesses α)) := [out index pnpcfgIndex,out subIndex pnpcfgData]

-- The port accesses of minibook_ec_i2ec_read and minibook_ec_i2ec_write under i2ec_lock.
def setAddrActs (addr : BitVec 16) : List (Act Pnpcfg (Accesses α)) :=
  select pnpcfgD2adr i2ecSubAddrH ++ select pnpcfgD2dat (((addr >>> 8) &&& 0xFF).setWidth 8) ++
    select pnpcfgD2adr i2ecSubAddrL ++ select pnpcfgD2dat ((addr &&& 0xFF).setWidth 8) ++ select pnpcfgD2adr i2ecSubData

def ports : Accesses α → Option (List (Act Pnpcfg (Accesses α)))
  | .done _ => none
  | .read addr next => some (setAddrActs addr ++ [out pnpcfgD2dat pnpcfgIndex,fun x => (x.1,next (inb pnpcfgData x.1))])
  | .write addr val next =>
    some (setAddrActs addr ++ [out pnpcfgD2dat pnpcfgIndex,fun x => (outb val pnpcfgData x.1,next)])

-- The abstract EC: a flat memory, in which every access is one step.
def flatStep (x : (BitVec 16 → BitVec 8)×(T → Accesses α)) (t : T) : (BitVec 16 → BitVec 8)×(T → Accesses α) :=
  match x.2 t with
  | .done _ => x
  | .read addr next => (x.1,Function.update x.2 t (next (x.1 addr)))
  | .write addr val next => (Function.update x.1 addr val,Function.update x.2 t next)

def flat (x : Pnpcfg×(T → Accesses α)) : (BitVec 16 → BitVec 8)×(T → Accesses α) := (x.1.ram,x.2)

theorem advance_out (t : T) (value : BitVec 8) (port : BitVec 16) (x : Pnpcfg×(T → Accesses α)) :
    advance t x (out value port) = (outb value port x.1,x.2) := by
  rw [advance,out]
  exact congrArg (Prod.mk _) (Function.update_eq_self t x.2)

theorem advance_select (t : T) (index subIndex : BitVec 8) (x : Pnpcfg×(T → Accesses α)) :
    (select index subIndex).foldl (advance t) x = (pnpcfgSelect index subIndex x.1,x.2) := by
  simp only [select,List.foldl_cons,List.foldl_nil,advance_out,pnpcfgSelect]

theorem advance_setAddr (t : T) (addr : BitVec 16) (x : Pnpcfg×(T → Accesses α)) :
    (setAddrActs addr).foldl (advance t) x = (pnpcfgSelect pnpcfgD2adr i2ecSubData (setAddr addr x.1),x.2) := by
  simp only [setAddrActs,List.foldl_append,advance_select,setAddr]

theorem whole_read {x : Pnpcfg×(T → Accesses α)} {t : T} {addr : BitVec 16} {next : BitVec 8 → Accesses α}
    (reads : x.2 t = .read addr next) :
    whole ports x t = ((minibookEcI2ecRead x.1 addr).1,Function.update x.2 t (next (minibookEcI2ecRead x.1 addr).2)) := by
  rw [whole,reads]
  simp only [ports,List.foldl_append,advance_setAddr,List.foldl_cons,List.foldl_nil,advance_out]
  rfl

theorem whole_write {x : Pnpcfg×(T → Accesses α)} {t : T} {addr : BitVec 16} {val : BitVec 8} {next : Accesses α}
    (writes : x.2 t = .write addr val next) :
    whole ports x t = (minibookEcI2ecWrite x.1 addr val,Function.update x.2 t next) := by
  rw [whole,writes]
  simp only [ports,List.foldl_append,advance_setAddr,List.foldl_cons,List.foldl_nil,advance_out]
  rfl

theorem whole_flat (x : Pnpcfg×(T → Accesses α)) (t : T) : flat (whole ports x t) = flatStep (flat x) t := by
  cases doing : x.2 t with
  | done a => simp only [whole,flatStep,flat,doing,ports]
  | read addr next =>
    rw [whole_read doing]
    simp only [flat,flatStep,doing,read_spec]
  | write addr val next =>
    rw [whole_write doing]
    simp only [flat,flatStep,doing,write_spec]

theorem whole_run (x : Pnpcfg×(T → Accesses α)) (order : List T) :
    flat (run (whole ports) x order) = run flatStep (flat x) order := by
  induction order generalizing x with
  | nil => rfl
  | cons t rest ih => rw [run_cons,run_cons,ih,whole_flat]

theorem whole_others (x : Pnpcfg×(T → Accesses α)) (t : T) :
    (whole ports x t).1.config = x.1.config ∧ (whole ports x t).1.depth2 = x.1.depth2 := by
  cases doing : x.2 t with
  | done a =>
    have stays : whole ports x t = x := by simp only [whole,doing,ports]
    rw [stays]
    exact ⟨rfl,rfl⟩
  | read addr next =>
    rw [whole_read doing]
    exact step_others x.1 (.read addr)
  | write addr val next =>
    rw [whole_write doing]
    exact step_others x.1 (.write addr val)

theorem whole_run_others (x : Pnpcfg×(T → Accesses α)) (order : List T) :
    (run (whole ports) x order).1.config = x.1.config ∧ (run (whole ports) x order).1.depth2 = x.1.depth2 := by
  induction order generalizing x with
  | nil => exact ⟨rfl,rfl⟩
  | cons t rest ih =>
    obtain ⟨config,depth2⟩ := ih (whole ports x t)
    exact ⟨config.trans (whole_others x t).1,depth2.trans (whole_others x t).2⟩

section Schedules
variable (p : Pnpcfg) (threads : T → Accesses α) (schedule : List T)

-- The threads at the ports, one port access or one call of the mutex at a time.
def atPorts : System T Pnpcfg (Accesses α) := run (LockedSections.step ports) ⟨p,threads,none⟩ schedule

-- The threads by the order in which they took i2ec_lock.
def lockOrder : List T := observed (LockedSections.step ports) (entry ports) ⟨p,threads,none⟩ schedule

def onFlatMemory : (BitVec 16 → BitVec 8)×(T → Accesses α) := run flatStep (p.ram,threads) (lockOrder p threads schedule)

theorem settled_atPorts : settled (atPorts p threads schedule) = run (whole ports) (p,threads) (lockOrder p threads schedule) :=
  settled_run _ schedule

theorem settled_flat : flat (settled (atPorts p threads schedule)) = onFlatMemory p threads schedule := by
  rw [settled_atPorts,whole_run]
  rfl

-- A thread that is not inside has read what the flat memory gives it.
theorem outside_flat {t : T} (outside : ∀ acts,(atPorts p threads schedule).holder ≠ some (t,acts)) :
    (atPorts p threads schedule).locals t = (onFlatMemory p threads schedule).2 t := by
  rw [← settled_flat,← settled_outside outside]
  rfl

-- Any threads, in any order of their port accesses: what they read, and what the EC holds, is what
-- single accesses in the order of the lock give, the registers of other devices stay, and whoever
-- has the lock can always give it back.
theorem i2ec_threads_linearized :
    (∀ t,(∀ acts,(atPorts p threads schedule).holder ≠ some (t,acts)) →
      (atPorts p threads schedule).locals t = (onFlatMemory p threads schedule).2 t) ∧
    ((atPorts p threads schedule).holder = none →
      (atPorts p threads schedule).shared.ram = (onFlatMemory p threads schedule).1 ∧
      (atPorts p threads schedule).shared.config = p.config ∧ (atPorts p threads schedule).shared.depth2 = p.depth2) ∧
    ∀ owner acts,(atPorts p threads schedule).holder = some (owner,acts) →
      (atPorts p threads (schedule++List.replicate (acts.length+1) owner)).holder = none := by
  refine ⟨fun t => outside_flat p threads schedule,fun free => ?_,fun owner acts held => ?_⟩
  · have stands : settled (atPorts p threads schedule) =
        ((atPorts p threads schedule).shared,(atPorts p threads schedule).locals) := by rw [settled,free]
    have memory := settled_flat p threads schedule
    have others := whole_run_others (p,threads) (lockOrder p threads schedule)
    rw [← settled_atPorts,stands] at others
    rw [stands] at memory
    exact ⟨congrArg Prod.fst memory,others⟩
  · have free : (run (LockedSections.step ports) (atPorts p threads schedule) (List.replicate (acts.length+1) owner)).holder = none :=
      congrArg System.holder (released _ held)
    rw [atPorts,run_append]
    exact free

end Schedules

section Undisturbed
variable {own : BitVec 16 → Prop} {a : Accesses α} {m m' : BitVec 16 → BitVec 8}

def Accesses.aloneFlat : Accesses α → (BitVec 16 → BitVec 8) → (BitVec 16 → BitVec 8)×α
  | .done a,m => (m,a)
  | .read addr next,m => (next (m addr)).aloneFlat m
  | .write addr val next,m => next.aloneFlat (Function.update m addr val)

-- The addresses that are read or written.
def Accesses.Within (own : BitVec 16 → Prop) : Accesses α → Prop
  | .done _ => True
  | .read addr next => own addr ∧ ∀ val,(next val).Within own
  | .write addr _ next => own addr ∧ next.Within own

def Agree (own : BitVec 16 → Prop) (m m' : BitVec 16 → BitVec 8) : Prop := ∀ addr,own addr → m addr = m' addr

theorem alone_flat (a : Accesses α) (p : Pnpcfg) : ((a.alone p).1.ram,(a.alone p).2) = a.aloneFlat p.ram := by
  induction a generalizing p with
  | done a => rfl
  | read addr next ih =>
    rw [Accesses.alone,ih,(read_spec p addr).1,(read_spec p addr).2]
    rfl
  | write addr val next ih =>
    rw [Accesses.alone,ih,write_spec]
    rfl

theorem aloneFlat_agree (within : a.Within own) (agree : Agree own m m') :
    (a.aloneFlat m).2 = (a.aloneFlat m').2 ∧ Agree own (a.aloneFlat m).1 (a.aloneFlat m').1 := by
  induction a generalizing m m' with
  | done a => exact ⟨rfl,agree⟩
  | read addr next ih =>
    rw [Accesses.aloneFlat,Accesses.aloneFlat,agree addr within.1]
    exact ih _ (within.2 _) agree
  | write addr val next ih =>
    refine ih within.2 fun other mine => ?_
    by_cases same : other = addr
    case pos => rw [same,Function.update_self,Function.update_self]
    case neg => rw [Function.update_of_ne same,Function.update_of_ne same,agree other mine]

-- One program after another.
theorem aloneFlat_bind {β : Type} (first : Accesses β) (next : β → Accesses α) (m : BitVec 16 → BitVec 8) :
    (first.bind next).aloneFlat m = (next (first.aloneFlat m).2).aloneFlat (first.aloneFlat m).1 := by
  induction first generalizing m with
  | done b => rfl
  | read addr rest ih => exact ih (m addr) m
  | write addr val rest ih => exact ih (Function.update m addr val)

-- A program that only reads.
def Accesses.Reads (own : BitVec 16 → Prop) : Accesses α → Prop
  | .done _ => True
  | .read addr next => own addr ∧ ∀ val,(next val).Reads own
  | .write _ _ _ => False

theorem reads_within (reads : a.Reads own) : a.Within own := by
  induction a with
  | done a => trivial
  | read addr next ih => exact ⟨reads.1,fun val => ih val (reads.2 val)⟩
  | write addr val next ih => exact reads.elim

theorem reads_writes (reads : a.Reads own) (allowed : BitVec 16 → Prop) : a.Writes allowed := by
  induction a with
  | done a => trivial
  | read addr next ih => exact fun val => ih val (reads.2 val)
  | write addr val next ih => exact reads.elim

theorem bind_reads {β : Type} {first : Accesses β} {next : β → Accesses α} (reads : first.Reads own)
    (each : ∀ b,(next b).Reads own) : (first.bind next).Reads own := by
  induction first with
  | done b => exact each b
  | read addr rest ih => exact ⟨reads.1,fun val => ih val (reads.2 val)⟩
  | write addr val rest ih => exact reads.elim

theorem bind_writes {β : Type} {first : Accesses β} {next : β → Accesses α} (writes : first.Writes own)
    (each : ∀ b,(next b).Writes own) : (first.bind next).Writes own := by
  induction first with
  | done b => exact each b
  | read addr rest ih => exact fun val => ih val (writes val)
  | write addr val rest ih => exact ⟨writes.1,ih writes.2⟩

-- Thread w still comes to what it comes to alone.
structure Course (own : BitVec 16 → Prop) (w : T) (goal : (BitVec 16 → BitVec 8)×α) (m : BitVec 16 → BitVec 8)
    (threads : T → Accesses α) : Prop where
  within : (threads w).Within own
  result : ((threads w).aloneFlat m).2 = goal.2
  memory : Agree own ((threads w).aloneFlat m).1 goal.1
  others : ∀ t,t ≠ w → (threads t).Writes fun addr => ¬own addr

variable {w : T} {goal : (BitVec 16 → BitVec 8)×α} {threads : T → Accesses α}

theorem course_own (course : Course own w goal m threads) {next : Accesses α} (within : next.Within own)
    (same : (threads w).aloneFlat m = next.aloneFlat m') : Course own w goal m' (Function.update threads w next) := by
  have here : Function.update threads w next w = next := Function.update_self _ _ _
  refine ⟨?_,?_,?_,fun t other => ?_⟩
  · rwa [here]
  · rw [here,← same]
    exact course.result
  · rw [here,← same]
    exact course.memory
  · rw [Function.update_of_ne other]
    exact course.others t other

theorem course_other (course : Course own w goal m threads) {t : T} (other : t ≠ w) {next : Accesses α} (agree : Agree own m' m)
    (spares : next.Writes fun addr => ¬own addr) : Course own w goal m' (Function.update threads t next) := by
  have there : Function.update threads t next w = threads w := Function.update_of_ne (Ne.symm other) _ _
  obtain ⟨result,memory⟩ := aloneFlat_agree course.within agree
  refine ⟨?_,?_,fun addr mine => ?_,fun u apart => ?_⟩
  · rw [there]
    exact course.within
  · rw [there]
    exact result.trans course.result
  · rw [there]
    exact (memory addr mine).trans (course.memory addr mine)
  · by_cases here : u = t
    case pos => rwa [here,Function.update_self]
    case neg =>
      rw [Function.update_of_ne here]
      exact course.others u apart

theorem course_step (x : (BitVec 16 → BitVec 8)×(T → Accesses α)) (t : T) (course : Course own w goal x.1 x.2) :
    Course own w goal (flatStep x t).1 (flatStep x t).2 := by
  have within := course.within
  have spared := course.others t
  cases doing : x.2 t with
  | done a =>
    have stays : flatStep x t = x := by simp only [flatStep,doing]
    rw [stays]
    exact course
  | read addr next =>
    have moves : flatStep x t = (x.1,Function.update x.2 t (next (x.1 addr))) := by simp only [flatStep,doing]
    rw [moves]
    by_cases mine : t = w
    case pos =>
      subst mine
      rw [doing] at within
      exact course_own course (within.2 _) (by rw [doing]; rfl)
    case neg =>
      rw [doing] at spared
      exact course_other course mine (fun _ _ => rfl) (spared mine _)
  | write addr val next =>
    have moves : flatStep x t = (Function.update x.1 addr val,Function.update x.2 t next) := by simp only [flatStep,doing]
    rw [moves]
    by_cases mine : t = w
    case pos =>
      subst mine
      rw [doing] at within
      exact course_own course within.2 (by rw [doing]; rfl)
    case neg =>
      rw [doing] at spared
      obtain ⟨foreign,later⟩ := spared mine
      refine course_other course mine (fun cell owned => Function.update_of_ne ?_ _ _) later
      intro same
      exact foreign (same ▸ owned)

-- A thread whose addresses nobody else writes ends as if it were alone.
theorem undisturbed {p : Pnpcfg} {threads : T → Accesses α} (schedule : List T) (within : (threads w).Within own)
    (others : ∀ t,t ≠ w → (threads t).Writes fun addr => ¬own addr)
    (outside : ∀ acts,(atPorts p threads schedule).holder ≠ some (w,acts)) {b : α}
    (returned : (atPorts p threads schedule).locals w = .done b) :
    b = ((threads w).alone p).2 ∧
      ∀ addr,own addr → (settled (atPorts p threads schedule)).1.ram addr = ((threads w).alone p).1.ram addr := by
  have goal := alone_flat (threads w) p
  have start : Course own w ((threads w).aloneFlat p.ram) p.ram threads := ⟨within,rfl,fun _ _ => rfl,others⟩
  have course : Course own w ((threads w).aloneFlat p.ram) (onFlatMemory p threads schedule).1 (onFlatMemory p threads schedule).2 :=
    foldl_keeps (P := fun x : (BitVec 16 → BitVec 8)×(T → Accesses α) => Course own w _ x.1 x.2) course_step _ start
  have result := course.result
  have memory := course.memory
  rw [← outside_flat p threads schedule outside,returned,← goal] at result memory
  refine ⟨result,fun addr mine => ?_⟩
  have here := memory addr mine
  rw [← settled_flat] at here
  exact here

end Undisturbed

end ChuwiMinibook.I2ecThreads
