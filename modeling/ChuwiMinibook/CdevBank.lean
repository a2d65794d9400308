import ChuwiMinibook.CdevArbitration
import ChuwiMinibook.Zone

namespace ChuwiMinibook.CdevBank
open Cdev CdevArbitration Machine ReleaseStack

-- The engine's devices as a bank of machines: whatever a check or a reset does
-- to them is a run of operations, each sent to one device.
inductive Op where
  | set (call : Call)
  | setMin (now zone trip : Int)

def Op.pair : Op → Int × Int
  | .set call => call.request.pair
  | .setMin _ zone trip => (zone,trip)

def Op.state : Op → Bool
  | .set call => call.request.state
  | .setMin _ _ _ => false

variable {σ : Type} (m : Methods σ) (srt : StdSort)

def apply (c : Cdev σ) : Op → Cdev σ
  | .set call => CdevArbitration.step m srt c call
  | .setMin now zone trip => thdCdevSetMinState m srt c now zone trip

def send (devs : List (Cdev σ)) (x : Nat × Op) : List (Cdev σ) := devs.modify x.1 (apply m srt · x.2)

def opsOf (k : Nat) (trace : List (Nat × Op)) : List Op := (trace.filter (fun x => x.1 = k)).map (·.2)

theorem opsOf_cons (k : Nat) (x : Nat × Op) (trace : List (Nat × Op)) :
    opsOf k (x::trace) = if x.1 = k then x.2::opsOf k trace else opsOf k trace := by
  unfold opsOf
  rw [List.filter_cons]
  by_cases same : x.1 = k <;> simp [same]

-- A bank runs as its devices do, each on its own operations.
theorem run_send (trace : List (Nat × Op)) (devs : List (Cdev σ)) (k : Nat) :
    (run (send m srt) devs trace)[k]? = devs[k]?.map (run (apply m srt) · (opsOf k trace)) := by
  induction trace generalizing devs with
  | nil => simp [opsOf]
  | cons x rest ih =>
    rw [run_cons,ih,send,List.getElem?_modify,opsOf_cons]
    by_cases same : x.1 = k
    · simp [same,Function.comp_def]
    · simp [same]

-- thd_cdev_set_min_state is a forced deactivation of the device once its trend
-- flag has been dropped.
def calm (c : Cdev σ) : Cdev σ := {c with dev := {c.dev with trendIncrease := false}}

def minCall (c : Cdev σ) (now zone trip : Int) : Call := ⟨now,minStateRequest c.dev zone trip,Pid.new⟩

theorem apply_setMin (c : Cdev σ) (now zone trip : Int) :
    apply m srt c (.setMin now zone trip) =
      CdevArbitration.step m srt (calm c) (minCall (calm c) now zone trip) := rfl

theorem apply_off {c : Cdev σ} {op : Op} (off : op.state = false) :
    pairs (apply m srt c op) = release (pairs c) op.pair := by
  cases op with
  | set call => exact step_deactivation m srt c off
  | setMin now zone trip =>
    have off : (minCall (calm c) now zone trip).request.state = false := rfl
    exact step_deactivation m srt (calm c) off

theorem apply_mem {c : Cdev σ} {op : Op} {p : Int × Int} (held : p ∈ pairs (apply m srt c op)) :
    p ∈ pairs c ∨ op.state = true ∧ p = op.pair := by
  cases state : op.state with
  | false =>
    rw [apply_off m srt state] at held
    exact .inl ((release_within _ _).subset held)
  | true =>
    cases op with
    | setMin now zone trip => cases state
    | set call =>
      have inside := (step_activation m srt c state).mem_iff.mp held
      split at inside
      · exact .inl inside
      · rcases List.mem_append.mp inside with old | new
        · exact .inl old
        · exact .inr ⟨rfl,List.mem_singleton.mp new⟩

-- A forced release is direct whatever the list held.
theorem setMin_settled (c : Cdev σ) (now zone trip : Int) :
    Settled m (apply m srt c (.setMin now zone trip)) := by
  have direct : Direct m (calm c) (minCall (calm c) now zone trip) := by
    intro _
    refine ⟨fun _ => .inr rfl,?_⟩
    intro last _ _
    cases valid : last.targetStateValid with
    | true => exact .inl ⟨rfl,rfl⟩
    | false => exact .inr ⟨rfl,.inl rfl⟩
  rw [apply_setMin]
  exact settled_step m srt direct

def Held (devs : List (Cdev σ)) (p : Int × Int) : Prop := ∃ c ∈ devs,p ∈ pairs c

theorem held_send {devs : List (Cdev σ)} {x : Nat × Op} {p : Int × Int} (held : Held (send m srt devs x) p) :
    Held devs p ∨ x.2.state = true ∧ p = x.2.pair := by
  obtain ⟨c,inside,listed⟩ := held
  obtain ⟨k,found⟩ := List.mem_iff_getElem?.mp inside
  rw [send,List.getElem?_modify] at found
  obtain ⟨old,present,rfl⟩ := Option.map_eq_some_iff.mp found
  have member := List.mem_of_getElem? present
  split at listed
  · rcases apply_mem m srt listed with before | new
    · exact .inl ⟨old,member,before⟩
    · exact .inr new
  · exact .inl ⟨old,member,listed⟩

theorem held_run {devs : List (Cdev σ)} {trace : List (Nat × Op)} {p : Int × Int}
    (held : Held (run (send m srt) devs trace) p) :
    Held devs p ∨ ∃ x ∈ trace,x.2.state = true ∧ p = x.2.pair := by
  induction trace generalizing devs with
  | nil => exact .inl held
  | cons x rest ih =>
    rcases ih held with before | ⟨y,later,new⟩
    · rcases held_send m srt before with old | new
      · exact .inl old
      · exact .inr ⟨x,List.mem_cons_self,new⟩
    · exact .inr ⟨y,List.mem_cons_of_mem _ later,new⟩

-- A sequence of releases empties a device's list from its last entry on.
theorem run_releases {ops : List Op} (off : ∀ op ∈ ops,op.state = false) (c : Cdev σ) :
    pairs (run (apply m srt) c ops) = releaseAll (pairs c) (ops.map (·.pair)) := by
  induction ops generalizing c with
  | nil => rfl
  | cons op rest ih =>
    rw [run_cons,ih (fun op inside => off op (List.mem_cons_of_mem _ inside)),
      apply_off m srt (off op List.mem_cons_self)]
    rfl

-- The second bank is the first one after operations that all satisfy P.
def Driven (P : Op → Prop) (devs devs' : List (Cdev σ)) : Prop :=
  ∃ trace,devs' = run (send m srt) devs trace ∧ ∀ x ∈ trace,P x.2

variable {P Q : Op → Prop} {devs devs' devs'' : List (Cdev σ)}

theorem driven_refl : Driven m srt P devs devs := ⟨[],rfl,by simp⟩

theorem driven_trans (one : Driven m srt P devs devs') (two : Driven m srt P devs' devs'') :
    Driven m srt P devs devs'' := by
  obtain ⟨first,rfl,firstOk⟩ := one
  obtain ⟨second,rfl,secondOk⟩ := two
  refine ⟨first++second,(run_append _ _ _ _).symm,?_⟩
  intro x inside
  rcases List.mem_append.mp inside with early | late
  · exact firstOk x early
  · exact secondOk x late

theorem driven_mono (weaker : ∀ op,P op → Q op) (driven : Driven m srt P devs devs') :
    Driven m srt Q devs devs' := by
  obtain ⟨trace,rfl,ok⟩ := driven
  exact ⟨trace,rfl,fun x inside => weaker _ (ok x inside)⟩

theorem driven_foldl {α : Type} {act : List (Cdev σ) → α → List (Cdev σ)} {items : List α}
    (each : ∀ a ∈ items,∀ devs,Driven m srt P devs (act devs a)) (devs : List (Cdev σ)) :
    Driven m srt P devs (items.foldl act devs) := by
  induction items generalizing devs with
  | nil => exact driven_refl m srt
  | cons a rest ih =>
    exact driven_trans m srt (each a List.mem_cons_self devs)
      (ih (fun b inside => each b (List.mem_cons_of_mem _ inside)) _)

theorem driven_set {k : Nat} {c : Cdev σ} (present : devs[k]? = some c) (op : Op) (ok : P op) :
    Driven m srt P devs (devs.set k (apply m srt c op)) := by
  refine ⟨[(k,op)],?_,by simpa using ok⟩
  rw [run_cons,run_nil,send]
  apply List.ext_getElem?
  intro i
  rw [List.getElem?_set,List.getElem?_modify]
  by_cases same : k = i
  · subst i
    obtain ⟨bound,rfl⟩ := List.getElem?_eq_some_iff.mp present
    simp [bound]
  · simp [same]

theorem driven_held {p : Int × Int} (driven : Driven m srt P devs devs') (held : Held devs' p) :
    Held devs p ∨ ∃ op,P op ∧ op.state = true ∧ p = op.pair := by
  obtain ⟨trace,rfl,ok⟩ := driven
  rcases held_run m srt held with old | ⟨x,inside,new⟩
  · exact .inl old
  · exact .inr ⟨x.2,ok x inside,new⟩

end ChuwiMinibook.CdevBank
