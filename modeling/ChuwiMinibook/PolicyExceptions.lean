import ChuwiMinibook.AdaptiveEngine
import ChuwiMinibook.Machine
import ChuwiMinibook.RaplCdev

namespace ChuwiMinibook.PolicyExceptions
open StdString Gddv AdaptiveEngine

-- How an update can end other than by returning: an exception that nobody catches,
-- exit(EXIT_FAILURE), or a fallback outside the table of targets.
inductive Leave where
  | exception | exit | fault
deriving DecidableEq

section Updates
variable {σ : Type} (host : Host σ)

-- A conversion of the library that is not inside a try block.
def unguarded {α : Type} : Option α → Except Leave α
  | none => .error .exception
  | some a => .ok a

def finishInt3400 (a : Adaptive σ) (t : AdaptiveTarget) : Except Leave (Adaptive σ) :=
  let e := installMinibookEcZones host (psvtConsolidate host a.engine)
  if e.zones.any (·.zoneActive) then
    (if t.code = "PSV" then unguarded (setTrip host e t) else .ok e).map (fun e => {a with engine := e,ecInstalled := true})
  else .error .exit

def setInt3400Target (now : Int) (a : Adaptive σ) (t : AdaptiveTarget) : Except Leave (Adaptive σ) :=
  let a := if t.code = "ITMT" ∨ t.code = "ITMT3" then
      match setItmtTarget host now a.gddv a.int3400Installed a.engine t with
      | none => a
      | some e => {a with engine := e,int3400Installed := true}
    else a
  if t.code = "PSVT" then
    match findPsvt a.gddv t.argument with
    | none => .ok a
    | some psvt =>
      let e := if a.int3400Installed then a.engine else clearZones host plotsPower now a.engine
      finishInt3400 host {a with engine := psvt.psvs.foldl (installPassive host) e,int3400Installed := true} t
  else finishInt3400 host a t

-- "try { argument = std::stoi(..) } catch (...)": only this conversion is guarded.
def executeTarget (now : Int) (a : Adaptive σ) (t : AdaptiveTarget) : Except Leave (Adaptive σ) :=
  let a := {a with executed := a.executed ++ [t]}
  match cdevFor a.engine (afterLast '.' t.participant) with
  | none =>
    if t.participant = a.int3400Path ∨ t.code = "PSVT" then setInt3400Target host now a t else .ok a
  | some k =>
    if t.code = "PSVT" then setInt3400Target host now a t
    else
      match stoi t.argument,a.engine.cdevs[k]? with
      | some _,some c => (unguarded (host.setAdaptiveTarget c.dev t)).map (fun dev =>
          {a with engine := {a.engine with cdevs := a.engine.cdevs.set k {c with dev := dev}}})
      | _,_ => .ok a

def executeTargets (now : Int) (a : Adaptive σ) (targets : List AdaptiveTarget) : Except Leave (Adaptive σ) :=
  targets.foldlM (executeTarget host now) a

def execFallbackTarget (now : Int) (a : Adaptive σ) (target : Int) : Except Leave (Adaptive σ) :=
  executeTargets host now {a with int3400Installed := false} (targetsOf a.gddv target)

def switchTarget (env : Surroundings) (a : Adaptive σ) (target : Int) : Except Leave (Adaptive σ) :=
  let a := {a with int3400Installed := false}
  (if target > 0 then (executeTargets host env.now a (targetsOf a.gddv target)).map (fun a => {a with policyActive := true})
    else .ok a).map (fun a => if a.int3400Installed then a else installPassiveDefault host env.now a)

def updateEngineState (env : Surroundings) (a : Adaptive σ) : Except Leave (Adaptive σ) :=
  if a.passiveDefOnly then .ok a
  else
    let target := (computedTarget env a).2
    let a := {a with gddv := (computedTarget env a).1}
    if a.currentMatchedTarget = target then .ok a
    else
      let a := {a with currentMatchedTarget := target}
      if target = -1 ∧ a.fallbackId ≥ 0 ∧ a.policyActive = false then
        match a.gddv.targets[a.fallbackId.toNat]? with
        | none => .error .fault
        | some t => (execFallbackTarget host env.now a (toInt t.targetId)).map (fun a => {a with policyActive := true})
      else switchTarget host env a target

def applyPbat (e : Engine σ) (p : PbatEntry) : Except Leave (Engine σ) :=
  match e.searchCdev (if contains p.participant "TCPU" then "rapl_controller_mmio" else p.participant) with
  | none => .ok e
  | some k =>
    match e.cdevs[k]? with
    | none => .ok e
    | some c => (unguarded (host.setAdaptiveTarget c.dev ⟨0,"","",0,p.code,p.argument⟩)).map (fun dev =>
        {e with cdevs := e.cdevs.set k {c with dev := dev}})

def updatePowerPolicies (env : Surroundings) (a : Adaptive σ) : Except Leave (Adaptive σ) :=
  match evaluatePbctConditions env a.gddv with
  | (g,none) => .ok {a with gddv := g}
  | (g,some target) =>
    ((g.pbats.filter (fun p => p.targetId = target)).foldlM (applyPbat host) a.engine).map
      (fun e => {a with gddv := g,engine := e})

end Updates

-- Forgetting the reason gives the engine's model back.
section Forget
variable {σ : Type} (host : Host σ)

theorem toOption_map {α β : Type} (r : Except Leave α) (f : α → β) : (r.map f).toOption = r.toOption.map f := by
  cases r <;> rfl

theorem toOption_unguarded {α : Type} (r : Option α) : (unguarded r).toOption = r := by
  cases r <;> rfl

theorem toOption_foldlM {α β : Type} {step : β → α → Except Leave β} {forgetful : β → α → Option β}
    (same : ∀ b a,(step b a).toOption = forgetful b a) (items : List α) (b : β) :
    (items.foldlM step b).toOption = items.foldlM forgetful b := by
  induction items generalizing b with
  | nil => rfl
  | cons a rest ih =>
    rw [List.foldlM_cons,List.foldlM_cons,← same]
    cases step b a with
    | error leave => rfl
    | ok next => exact ih next

theorem toOption_finishInt3400 (a : Adaptive σ) (t : AdaptiveTarget) :
    (finishInt3400 host a t).toOption = AdaptiveEngine.finishInt3400 host a t := by
  unfold finishInt3400 AdaptiveEngine.finishInt3400
  dsimp only
  split
  · rw [toOption_map]
    split
    · rw [toOption_unguarded]
    · rfl
  · rfl

theorem toOption_setInt3400Target (now : Int) (a : Adaptive σ) (t : AdaptiveTarget) :
    (setInt3400Target host now a t).toOption = AdaptiveEngine.setInt3400Target host now a t := by
  unfold setInt3400Target AdaptiveEngine.setInt3400Target
  dsimp only
  generalize (ite (t.code = "ITMT" ∨ t.code = "ITMT3") _ a : Adaptive σ) = b
  by_cases table : t.code = "PSVT"
  · rw [if_pos table,if_pos table]
    cases findPsvt b.gddv t.argument with
    | none => rfl
    | some psvt => exact toOption_finishInt3400 host _ t
  · rw [if_neg table,if_neg table]
    exact toOption_finishInt3400 host b t

theorem toOption_executeTarget (now : Int) (a : Adaptive σ) (t : AdaptiveTarget) :
    (executeTarget host now a t).toOption = AdaptiveEngine.executeTarget host now a t := by
  unfold executeTarget AdaptiveEngine.executeTarget
  dsimp only
  cases cdevFor a.engine (afterLast '.' t.participant) with
  | none =>
    by_cases int3400 : t.participant = a.int3400Path ∨ t.code = "PSVT"
    · rw [if_pos int3400,if_pos int3400]
      exact toOption_setInt3400Target host now _ t
    · rw [if_neg int3400,if_neg int3400]
      rfl
  | some k =>
    dsimp only
    by_cases table : t.code = "PSVT"
    · rw [if_pos table,if_pos table]
      exact toOption_setInt3400Target host now _ t
    · rw [if_neg table,if_neg table]
      cases stoi t.argument with
      | none => rfl
      | some argument =>
        cases a.engine.cdevs[k]? with
        | none => rfl
        | some c =>
          dsimp only
          rw [toOption_map,toOption_unguarded]

theorem toOption_executeTargets (now : Int) (a : Adaptive σ) (targets : List AdaptiveTarget) :
    (executeTargets host now a targets).toOption = AdaptiveEngine.executeTargets host now a targets :=
  toOption_foldlM (toOption_executeTarget host now) targets a

theorem toOption_switchTarget (env : Surroundings) (a : Adaptive σ) (target : Int) :
    (switchTarget host env a target).toOption = AdaptiveEngine.switchTarget host env a target := by
  unfold switchTarget AdaptiveEngine.switchTarget
  dsimp only
  rw [toOption_map]
  split
  · rw [toOption_map,toOption_executeTargets]
  · rfl

theorem toOption_updateEngineState (env : Surroundings) (a : Adaptive σ) :
    (updateEngineState host env a).toOption = AdaptiveEngine.updateEngineState host env a := by
  unfold updateEngineState AdaptiveEngine.updateEngineState
  dsimp only
  split
  · rfl
  · split
    · rfl
    · split
      · cases (computedTarget env a).1.targets[a.fallbackId.toNat]? with
        | none => rfl
        | some t =>
          dsimp only
          rw [toOption_map,execFallbackTarget,toOption_executeTargets]
          rfl
      · exact toOption_switchTarget host env _ _

theorem toOption_applyPbat (e : Engine σ) (p : PbatEntry) :
    (applyPbat host e p).toOption = AdaptiveEngine.applyPbat host e p := by
  unfold applyPbat AdaptiveEngine.applyPbat
  cases e.searchCdev (if contains p.participant "TCPU" then "rapl_controller_mmio" else p.participant) with
  | none => rfl
  | some k =>
    dsimp only
    cases e.cdevs[k]? with
    | none => rfl
    | some c =>
      dsimp only
      rw [toOption_map,toOption_unguarded]

theorem toOption_updatePowerPolicies (env : Surroundings) (a : Adaptive σ) :
    (updatePowerPolicies host env a).toOption = AdaptiveEngine.updatePowerPolicies host env a := by
  unfold updatePowerPolicies AdaptiveEngine.updatePowerPolicies
  obtain ⟨g,matched⟩ := evaluatePbctConditions env a.gddv
  cases matched with
  | none => rfl
  | some target =>
    dsimp only
    rw [toOption_map,toOption_foldlM (toOption_applyPbat host)]

end Forget

-- A loop leaves where its body does, in a state that the part before it reaches.
theorem foldlM_error {α β : Type} {step : β → α → Except Leave β} {items : List α} {b : β} {leave : Leave} :
    items.foldlM step b = .error leave ↔ ∃ before a after middle,items = before++a::after ∧
      before.foldlM step b = .ok middle ∧ step middle a = .error leave := by
  induction items generalizing b with
  | nil =>
    constructor
    · intro ended
      cases ended
    · intro given
      obtain ⟨before,a,after,middle,split,-⟩ := given
      exact absurd split.symm (List.append_ne_nil_of_right_ne_nil _ (List.cons_ne_nil _ _))
  | cons first rest ih =>
    rw [List.foldlM_cons]
    cases stepped : step b first with
    | error other =>
      constructor
      · intro ended
        cases ended
        exact ⟨[],first,rest,b,rfl,rfl,stepped⟩
      · intro given
        obtain ⟨before,a,after,middle,split,reached,ended⟩ := given
        cases before with
        | nil =>
          cases split
          cases reached
          exact stepped.symm.trans ended
        | cons head before =>
          cases split
          rw [List.foldlM_cons,stepped] at reached
          cases reached
    | ok next =>
      refine Iff.trans ih ?_
      constructor
      · intro given
        obtain ⟨before,a,after,middle,rfl,reached,ended⟩ := given
        exact ⟨first::before,a,after,middle,rfl,by rw [List.foldlM_cons,stepped]; exact reached,ended⟩
      · intro given
        obtain ⟨before,a,after,middle,split,reached,ended⟩ := given
        cases before with
        | nil =>
          cases split
          cases reached
          rw [stepped] at ended
          cases ended
        | cons head before =>
          cases split
          rw [List.foldlM_cons,stepped] at reached
          exact ⟨before,a,after,middle,rfl,reached,ended⟩

theorem map_error {α β : Type} {r : Except Leave α} {f : α → β} {leave : Leave} :
    r.map f = .error leave ↔ r = .error leave := by
  cases r with
  | error other => exact ⟨fun same => by cases same; rfl,fun same => by cases same; rfl⟩
  | ok a => exact ⟨fun same => (by cases same),fun same => (by cases same)⟩

theorem unguarded_error {α : Type} {r : Option α} : unguarded r = .error .exception ↔ r = none := by
  cases r with
  | none => exact ⟨fun _ => rfl,fun _ => rfl⟩
  | some a => exact ⟨fun same => (by cases same),fun same => (by cases same)⟩

section Throws
variable {σ : Type} (host : Host σ)

-- The zones that the end of set_int3400_target counts.
def Active (e : Engine σ) : Prop :=
  (installMinibookEcZones host (psvtConsolidate host e)).zones.any (·.zoneActive) = true

-- stoi is the only conversion of the device classes.
def Guarded : Prop := ∀ d t,host.setAdaptiveTarget d t = none → stoi t.argument = none

-- The targets that an update executes, and the state it starts them in.
def executions (env : Surroundings) (a : Adaptive σ) : List AdaptiveTarget :=
  let (g,target) := computedTarget env a
  if a.passiveDefOnly ∨ a.currentMatchedTarget = target then []
  else if target = -1 ∧ a.fallbackId ≥ 0 ∧ a.policyActive = false then
    match g.targets[a.fallbackId.toNat]? with
    | none => []
    | some t => targetsOf g (toInt t.targetId)
  else if target > 0 then targetsOf g target
  else []

def entered (env : Surroundings) (a : Adaptive σ) : Adaptive σ :=
  {a with gddv := (computedTarget env a).1,currentMatchedTarget := (computedTarget env a).2,int3400Installed := false}

end Throws

section Devices
variable {κ : Type} (host : Host (Rapl ⊕ κ))

-- set_adaptive_target of the device classes: RAPL devices override it.
def dispatch (d : Dev (Rapl ⊕ κ)) (t : AdaptiveTarget) : Option (Dev (Rapl ⊕ κ)) :=
  match d.ext with
  | .inr _ => some d
  | .inl r => (RaplCdev.setAdaptiveTarget {d with ext := r} t).map (fun d => {d with ext := .inl d.ext})

def linked : Host (Rapl ⊕ κ) := {host with setAdaptiveTarget := dispatch}

theorem dispatch_none (d : Dev (Rapl ⊕ κ)) (t : AdaptiveTarget) :
    dispatch d t = none ↔ d.ext.isLeft = true ∧ stoi t.argument = none := by
  unfold dispatch
  cases d.ext with
  | inl r => simp [RaplCdev.setAdaptiveTarget]
  | inr k => simp

theorem dispatch_class {d next : Dev (Rapl ⊕ κ)} {t : AdaptiveTarget} (done : dispatch d t = some next) :
    next.ext.isLeft = d.ext.isLeft := by
  unfold dispatch at done
  cases ext : d.ext with
  | inl r =>
    rw [ext] at done
    obtain ⟨changed,-,rfl⟩ := Option.map_eq_some_iff.mp done
    rfl
  | inr k =>
    rw [ext] at done
    cases done
    rw [ext]

theorem linked_guarded : Guarded (linked host) := fun d t thrown => ((dispatch_none d t).mp thrown).2

-- The entry names a RAPL device.
def Drives (e : Engine (Rapl ⊕ κ)) (p : PbatEntry) : Prop :=
  ∃ k c,e.searchCdev (if contains p.participant "TCPU" then "rapl_controller_mmio" else p.participant) = some k ∧
    e.cdevs[k]? = some c ∧ c.dev.ext.isLeft = true

theorem applyPbat_throws (e : Engine (Rapl ⊕ κ)) (p : PbatEntry) :
    applyPbat (linked host) e p = .error .exception ↔ Drives e p ∧ stoi p.argument = none := by
  unfold applyPbat Drives
  cases e.searchCdev (if contains p.participant "TCPU" then "rapl_controller_mmio" else p.participant) with
  | none => simp
  | some k =>
    dsimp only
    cases found : e.cdevs[k]? with
    | none => simp [found]
    | some c =>
      dsimp only
      rw [map_error,unguarded_error]
      simp [found,linked,dispatch_none]

-- What search_cdev and the virtual call look at.
def signature (e : Engine (Rapl ⊕ κ)) : List (String × String × Bool) :=
  e.cdevs.map (fun c => (c.typeStr,c.aliasStr,c.dev.ext.isLeft))

theorem drives_signature (e : Engine (Rapl ⊕ κ)) (p : PbatEntry) : Drives e p ↔
    ∃ k s,(signature e).findIdx? (fun s => s.1 == (if contains p.participant "TCPU" then "rapl_controller_mmio" else
      p.participant) || s.2.1 == (if contains p.participant "TCPU" then "rapl_controller_mmio" else p.participant)) =
      some k ∧ (signature e)[k]? = some s ∧ s.2.2 = true := by
  unfold Drives signature Engine.searchCdev
  simp only [List.findIdx?_map,List.getElem?_map,Option.map_eq_some_iff,Function.comp_def]
  constructor
  · intro given
    obtain ⟨k,c,found,present,rapl⟩ := given
    exact ⟨k,_,found,⟨c,present,rfl⟩,rapl⟩
  · intro given
    obtain ⟨k,_,found,⟨c,present,rfl⟩,rapl⟩ := given
    exact ⟨k,c,found,present,rapl⟩

theorem applyPbat_signature {e next : Engine (Rapl ⊕ κ)} {p : PbatEntry}
    (done : applyPbat (linked host) e p = .ok next) : signature next = signature e := by
  unfold applyPbat at done
  split at done
  · cases done
    rfl
  · rename_i k _
    split at done
    · cases done
      rfl
    · rename_i c present
      cases changed : dispatch c.dev ⟨0,"","",0,p.code,p.argument⟩ with
      | none =>
        simp only [linked,changed,unguarded] at done
        cases done
      | some dev =>
        simp only [linked,changed,unguarded] at done
        cases done
        apply List.ext_getElem?
        intro i
        simp only [signature,List.getElem?_map,List.getElem?_set]
        by_cases here : k = i
        · subst here
          obtain ⟨inside,value⟩ := List.getElem?_eq_some_iff.mp present
          simp [inside,value,dispatch_class changed]
        · simp [here]

theorem applyPbat_leaves {e : Engine (Rapl ⊕ κ)} {p : PbatEntry} {leave : Leave}
    (left : applyPbat (linked host) e p = .error leave) : leave = .exception := by
  unfold applyPbat at left
  split at left
  · cases left
  · split at left
    · cases left
    · rename_i c _
      rw [map_error] at left
      cases changed : (linked host).setAdaptiveTarget c.dev ⟨0,"","",0,p.code,p.argument⟩ with
      | none =>
        rw [changed] at left
        cases left
        rfl
      | some dev =>
        rw [changed] at left
        cases left

theorem applyPbats_throw (e : Engine (Rapl ⊕ κ)) (pbats : List PbatEntry) :
    pbats.foldlM (applyPbat (linked host)) e = .error .exception ↔
      ∃ p ∈ pbats,Drives e p ∧ stoi p.argument = none := by
  induction pbats generalizing e with
  | nil =>
    refine ⟨fun thrown => (by cases thrown),?_⟩
    intro given
    obtain ⟨p,listed,-⟩ := given
    cases listed
  | cons first rest ih =>
    have here := applyPbat_throws host e first
    rw [List.foldlM_cons]
    cases stepped : applyPbat (linked host) e first with
    | error leave =>
      obtain rfl := applyPbat_leaves host stepped
      exact ⟨fun _ => ⟨first,List.mem_cons_self,here.mp stepped⟩,fun _ => rfl⟩
    | ok next =>
      rw [stepped] at here
      have kept : ∀ p,Drives next p ↔ Drives e p := by
        intro p
        rw [drives_signature,drives_signature,applyPbat_signature host stepped]
      refine Iff.trans (ih next) ?_
      constructor
      · intro given
        obtain ⟨p,listed,drives,rejected⟩ := given
        exact ⟨p,List.mem_cons_of_mem _ listed,(kept p).mp drives,rejected⟩
      · intro given
        obtain ⟨p,listed,drives,rejected⟩ := given
        rcases List.mem_cons.mp listed with rfl | later
        · exact absurd (here.mpr ⟨drives,rejected⟩) (by simp)
        · exact ⟨p,later,(kept p).mpr drives,rejected⟩

theorem updatePowerPolicies_throws (env : Surroundings) (a : Adaptive (Rapl ⊕ κ)) :
    updatePowerPolicies (linked host) env a = .error .exception ↔
      ∃ p ∈ a.gddv.pbats,(evaluatePbctConditions env a.gddv).2 = some p.targetId ∧ Drives a.engine p ∧
        stoi p.argument = none := by
  have pbats : (evaluatePbctConditions env a.gddv).1.pbats = a.gddv.pbats := rfl
  unfold updatePowerPolicies
  generalize evaluatePbctConditions env a.gddv = found at pbats
  obtain ⟨g,matched⟩ := found
  cases matched with
  | none =>
    refine ⟨fun thrown => (by cases thrown),?_⟩
    intro given
    obtain ⟨p,-,same,-⟩ := given
    cases same
  | some target =>
    dsimp only at pbats ⊢
    rw [map_error,applyPbats_throw,pbats]
    simp only [List.mem_filter,decide_eq_true_eq,Option.some.injEq]
    constructor
    · intro given
      obtain ⟨p,⟨listed,same⟩,rest⟩ := given
      exact ⟨p,listed,same.symm,rest⟩
    · intro given
      obtain ⟨p,listed,same,rest⟩ := given
      exact ⟨p,⟨listed,same.symm⟩,rest⟩

end Devices

end ChuwiMinibook.PolicyExceptions
