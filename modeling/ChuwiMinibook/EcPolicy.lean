import ChuwiMinibook.EcZones

namespace ChuwiMinibook.EcPolicy
open AdaptiveEngine Gddv Machine PolicyZones EcZones
variable {σ : Type} (host : Host σ)

-- A switch that starts from cleared zones, or finds the EC zones without trips,
-- and whose rows and set point name other zones.
def SwitchClean (a : Adaptive σ) (t : AdaptiveTarget) : Prop :=
  (t.code = "PSVT" → ∀ psvt,findPsvt a.gddv t.argument = some psvt →
    (a.int3400Installed = false ∨ Unarmed a.engine) ∧ ∀ psv ∈ psvt.psvs,Foreign a.engine psv.target) ∧
  (t.code = "ITMT" ∨ t.code = "ITMT3" → ∀ itmt,findItmt a.gddv t.argument = some itmt →
    (a.int3400Installed = false ∨ Unarmed a.engine) ∧ ∀ entry ∈ itmt.itmtEntries,Foreign a.engine entry.target) ∧
  (t.code = "ITMT" ∨ t.code = "ITMT3" → findItmt a.gddv t.argument = none → Unarmed a.engine) ∧
  (t.code ≠ "PSVT" → t.code ≠ "ITMT" → t.code ≠ "ITMT3" → Unarmed a.engine ∧ TripForeign a.engine t)

-- The part of a switch in front of finishInt3400: clear if needed, then rows.
theorem rows_ready {α : Type} (target : α → String) (keep : Zone → Bool) (installed : Bool) (now : Int)
    {act : Engine σ → α → Engine σ} {rows : List α} {e : Engine σ}
    (each : ∀ {e a},Foreign e (target a) → Aside e (act e a))
    (spared : ∀ ec ∈ ecZones,∀ z : Zone,z.typeStr = ec.1 → keep z = false) (present : Present e)
    (cleared : installed = false ∨ Unarmed e) (foreign : ∀ a ∈ rows,Foreign e (target a)) :
    Present (rows.foldl act (if installed then e else clearZones host keep now e)) ∧
      Unarmed (rows.foldl act (if installed then e else clearZones host keep now e)) := by
  have start : Static e (if installed then e else clearZones host keep now e) ∧
      Unarmed (if installed then e else clearZones host keep now e) := by
    cases installed with
    | true => exact ⟨Static.refl e,cleared.resolve_left (by simp)⟩
    | false => exact ⟨static_clear host keep now e,unarmed_clear host spared now e⟩
  have aside := aside_rows each (fun a inside => foreign_static start.1 (foreign a inside))
  exact ⟨present_static (start.1.trans aside.static) present,unarmed_aside aside start.2⟩

theorem psvt_only {t : AdaptiveTarget} (code : t.code = "PSVT") : ¬ (t.code = "ITMT" ∨ t.code = "ITMT3") := by
  rw [code]
  decide

theorem itmt_only {t : AdaptiveTarget} (itmt : t.code = "ITMT" ∨ t.code = "ITMT3") :
    t.code ≠ "PSVT" ∧ t.code ≠ "PSV" := by
  rcases itmt with code | code <;> rw [code] <;> decide

theorem inv_int3400 {a a' : Adaptive σ} {t : AdaptiveTarget} {now : Int} (inv : Inv a) (clean : SwitchClean a t)
    (done : setInt3400Target host now a t = some a') : Inv a' := by
  obtain ⟨psvtClean,itmtClean,missing,otherwise⟩ := clean
  unfold setInt3400Target at done
  by_cases code : t.code = "PSVT"
  · rw [if_neg (psvt_only code)] at done
    dsimp only at done
    rw [if_pos code] at done
    split at done
    · cases done
      exact inv
    · rename_i psvt found
      obtain ⟨cleared,foreign⟩ := psvtClean code psvt found
      obtain ⟨present,unarmed⟩ := rows_ready host Psv.target plotsPower a.int3400Installed now
        (aside_installPassive host) plotsPower_spares inv.1 cleared foreign
      refine inv_finish host present unarmed ?_ done
      intro set
      rw [code] at set
      exact absurd set (by decide)
  · by_cases itmt : t.code = "ITMT" ∨ t.code = "ITMT3"
    · rw [if_pos itmt] at done
      dsimp only at done
      rw [if_neg code] at done
      have unset (e : Engine σ) : TripForeign e t := fun set => absurd set (itmt_only itmt).2
      split at done
      · rename_i failed
        have none : findItmt a.gddv t.argument = none := by simpa [setItmtTarget] using failed
        exact inv_finish host inv.1 (missing itmt none) (unset _) done
      · rename_i e set
        unfold setItmtTarget at set
        obtain ⟨table,found,rfl⟩ := Option.map_eq_some_iff.mp set
        obtain ⟨cleared,foreign⟩ := itmtClean itmt table found
        obtain ⟨present,unarmed⟩ := rows_ready host ItmtEntry.target
          (fun z => host.debugMode && plotsPower z) a.int3400Installed now (aside_installItmt host) (fun ec listed z name => by
            rw [plotsPower_spares ec listed z name,Bool.and_false]) inv.1 cleared foreign
        exact inv_finish host present unarmed (unset _) done
    · rw [if_neg itmt] at done
      dsimp only at done
      rw [if_neg code] at done
      obtain ⟨unarmed,foreign⟩ := otherwise code (fun h => itmt (.inl h)) (fun h => itmt (.inr h))
      exact inv_finish host inv.1 unarmed foreign done

-- The default tables are found, and their rows name other zones.
def DefaultClean (a : Adaptive σ) : Prop :=
  ∃ psvt,findDefPsvt a.gddv = some psvt ∧ ∀ psv ∈ psvt.psvs,Foreign a.engine psv.target

theorem inv_default {a : Adaptive σ} (inv : Inv a) (clean : DefaultClean a) (now : Int) :
    Inv (installPassiveDefault host now a) := by
  obtain ⟨psvt,found,foreign⟩ := clean
  obtain ⟨present,unarmed⟩ := rows_ready host Psv.target (fun _ => false) false now
    (aside_installPassive host) (fun _ _ _ _ => rfl) inv.1 (.inl rfl) foreign
  have consolidated := aside_consolidate host unarmed
  have ready := present_static consolidated.static present
  unfold installPassiveDefault
  simp only [found]
  exact ⟨present_static (static_grown (grown_installEc host _)) ready,
    fun _ => shaped_install host ready (unarmed_aside consolidated unarmed)⟩

-- execute_target reaches set_int3400_target.
def Switches (a : Adaptive σ) (t : AdaptiveTarget) : Prop :=
  cdevFor a.engine (StdString.afterLast '.' t.participant) = none ∧ t.participant = a.int3400Path ∨ t.code = "PSVT"

def TargetClean (a : Adaptive σ) (t : AdaptiveTarget) : Prop := Switches a t → SwitchClean a t

theorem inv_cdev {a : Adaptive σ} (inv : Inv a) {k : Nat} {c : Cdev σ} (present : a.engine.cdevs[k]? = some c)
    (dev : Dev σ) : Inv {a with engine := {a.engine with cdevs := a.engine.cdevs.set k {c with dev := dev}}} := by
  have aside : Aside a.engine {a.engine with cdevs := a.engine.cdevs.set k {c with dev := dev}} := by
    refine ⟨⟨rfl,?_,rfl⟩,fun _ _ _ _ => rfl⟩
    show (a.engine.cdevs.set k {c with dev := dev}).map _ = _
    obtain ⟨bound,rfl⟩ := List.getElem?_eq_some_iff.mp present
    have inside : k < (a.engine.cdevs.map (fun c => (c.typeStr,c.aliasStr))).length := by simpa using bound
    have same := List.set_getElem_self inside
    rw [List.map_set]
    simpa using same
  exact ⟨present_static aside.static inv.1,fun installed => shaped_aside aside (inv.2 installed)⟩

theorem inv_execute {a a' : Adaptive σ} {t : AdaptiveTarget} {now : Int} (inv : Inv a) (clean : TargetClean a t)
    (done : executeTarget host now a t = some a') : Inv a' := by
  have logged : Inv {a with executed := a.executed ++ [t]} := inv
  have switch (switches : Switches a t)
      (done : setInt3400Target host now {a with executed := a.executed ++ [t]} t = some a') : Inv a' :=
    inv_int3400 host logged (clean switches) done
  unfold executeTarget at done
  dsimp only at done
  split at done
  · rename_i missing
    split at done
    · rename_i reached
      refine switch ?_ done
      rcases reached with path | code
      · exact .inl ⟨missing,path⟩
      · exact .inr code
    · cases done
      exact logged
  · split at done
    · rename_i code
      exact switch (.inr code) done
    · split at done
      · rename_i c _ present
        obtain ⟨dev,_,rfl⟩ := Option.map_eq_some_iff.mp done
        exact inv_cdev logged present dev
      · cases done
        exact logged

def TargetsClean (now : Int) : Adaptive σ → List AdaptiveTarget → Prop
  | _,[] => True
  | a,t::rest => TargetClean a t ∧ ∀ a',executeTarget host now a t = some a' → TargetsClean now a' rest

theorem inv_targets {a a' : Adaptive σ} {targets : List AdaptiveTarget} {now : Int} (inv : Inv a)
    (clean : TargetsClean host now a targets) (done : executeTargets host now a targets = some a') : Inv a' := by
  induction targets generalizing a with
  | nil =>
    cases done
    exact inv
  | cons t rest ih =>
    unfold executeTargets at done
    rw [List.foldlM_cons] at done
    obtain ⟨next,first,later⟩ := Option.bind_eq_some_iff.mp done
    exact ih (inv_execute host inv clean.1 first) (clean.2 next first) later

theorem marked {a : Adaptive σ} (inv : Inv a) : Inv {a with policyActive := true} := inv

-- A change of target, once the new one is known.
def SwitchTargetClean (env : Surroundings) (a : Adaptive σ) (target : Int) : Prop :=
  (target > 0 → TargetsClean host env.now {a with int3400Installed := false} (targetsOf a.gddv target)) ∧
  ∀ a',(if target > 0 then executeTargets host env.now {a with int3400Installed := false} (targetsOf a.gddv target)
    else some {a with int3400Installed := false}) = some a' → a'.int3400Installed = false → DefaultClean a'

theorem inv_switchTarget {env : Surroundings} {a a' : Adaptive σ} {target : Int} (inv : Inv a)
    (clean : SwitchTargetClean host env a target) (done : switchTarget host env a target = some a') : Inv a' := by
  obtain ⟨targets,default⟩ := clean
  unfold switchTarget at done
  obtain ⟨b,executed,rfl⟩ := Option.map_eq_some_iff.mp done
  have reached : Inv b ∧ (b.int3400Installed = false → DefaultClean b) := by
    split at executed
    · rename_i positive
      obtain ⟨c,ran,rfl⟩ := Option.map_eq_some_iff.mp executed
      rw [if_pos positive] at default
      have fresh : Inv {a with int3400Installed := false} := inv
      exact ⟨marked (inv_targets host fresh (targets positive) ran),default c ran⟩
    · rename_i other
      cases executed
      rw [if_neg other] at default
      exact ⟨inv,default _ rfl⟩
  cases installed : b.int3400Installed with
  | true => exact reached.1
  | false => exact inv_default host reached.1 (reached.2 installed) env.now

-- The engine as an update leaves it when the target it has found is new.
def retargeted (env : Surroundings) (a : Adaptive σ) : Adaptive σ :=
  {a with gddv := (computedTarget env a).1,currentMatchedTarget := (computedTarget env a).2}

def UpdateClean (env : Surroundings) (a : Adaptive σ) : Prop :=
  a.passiveDefOnly = false → a.currentMatchedTarget ≠ (computedTarget env a).2 →
    if (computedTarget env a).2 = -1 ∧ a.fallbackId ≥ 0 ∧ a.policyActive = false then
      ∀ t,(retargeted env a).gddv.targets[a.fallbackId.toNat]? = some t →
        TargetsClean host env.now {retargeted env a with int3400Installed := false}
          (targetsOf (retargeted env a).gddv (toInt t.targetId))
    else SwitchTargetClean host env (retargeted env a) (computedTarget env a).2

theorem inv_update {env : Surroundings} {a a' : Adaptive σ} (inv : Inv a) (clean : UpdateClean host env a)
    (done : updateEngineState host env a = some a') : Inv a' := by
  have kept : Inv (retargeted env a) := inv
  unfold updateEngineState at done
  split at done
  · cases done
    exact inv
  rename_i policies
  dsimp only at done
  split at done
  · cases done
    exact inv
  rename_i changed
  have clean := clean (by simpa using policies) changed
  split at done
  · rename_i fallback
    rw [if_pos fallback] at clean
    split at done
    · cases done
    · rename_i t found
      obtain ⟨b,ran,rfl⟩ := Option.map_eq_some_iff.mp done
      have fresh : Inv {retargeted env a with int3400Installed := false} := kept
      exact marked (inv_targets host fresh (clean t found) ran)
  · rename_i other
    rw [if_neg other] at clean
    exact inv_switchTarget host kept clean done

inductive Event where
  | execute (now : Int) (t : AdaptiveTarget)
  | update (env : Surroundings)
  | passiveDefault (now : Int)

def act (a : Adaptive σ) : Event → Option (Adaptive σ)
  | .execute now t => executeTarget host now a t
  | .update env => updateEngineState host env a
  | .passiveDefault now => some (installPassiveDefault host now a)

def step (a : Option (Adaptive σ)) (event : Event) : Option (Adaptive σ) := a.bind (act host · event)

-- Every installation a step makes follows a clear in the same call or finds the
-- EC zones without trips; rows and set points name other zones; the default
-- tables are there when they are needed.
def Clean (a : Adaptive σ) : Event → Prop
  | .execute _ t => TargetClean a t
  | .update env => UpdateClean host env a
  | .passiveDefault _ => DefaultClean a

def CleanStep (a : Option (Adaptive σ)) (event : Event) : Prop := ∀ s,a = some s → Clean host s event

theorem inv_step {a : Option (Adaptive σ)} {event : Event} (inv : ∀ s,a = some s → Inv s)
    (clean : CleanStep host a event) : ∀ s,step host a event = some s → Inv s := by
  intro s done
  obtain ⟨old,rfl,next⟩ := Option.bind_eq_some_iff.mp done
  have before := inv old rfl
  have ok := clean old rfl
  cases event with
  | execute now t => exact inv_execute host before ok next
  | update env => exact inv_update host before ok next
  | passiveDefault now =>
    cases next
    exact inv_default host before ok now

theorem ec_zones_keep_shape (a : Adaptive σ) (present : Present a.engine) (uninstalled : a.ecInstalled = false)
    (events : List Event) (clean : Meets (step host) (CleanStep host) (some a) events) :
    ∀ first second,events = first++second → ∀ s,run (step host) (some a) first = some s →
      s.ecInstalled = true → Shaped s.engine := by
  intro first second given s reached installed
  subst given
  have start : ∀ s,some a = some s → Inv s := by
    intro s same
    cases same
    refine ⟨present,?_⟩
    intro early
    rw [uninstalled] at early
    cases early
  have always (a : Option (Adaptive σ)) (event : Event) (before : ∀ s,a = some s → Inv s)
      (ok : CleanStep host a event) : ∀ s,step host a event = some s → Inv s := inv_step host before ok
  have inv := run_invariant always start (meets_append.mp clean).1
  exact (inv s reached).2 installed

-- A machine with both EC zones, and a policy that carries an ITMT and a PSVT
-- target.
def ecEngine : Engine Int :=
  ⟨[⟨0,"minibook_soc",[],true,false,[0],.independent⟩,⟨1,"minibook_charger",[],true,false,[1],.independent⟩],
    [⟨0,"rapl_controller_mmio","",⟨17000000,8000000,17000000,0,0,1,false,2,0,false,true,Pid.new,false,0,0,0⟩,[]⟩],
    [⟨0,"minibook_soc",false,false⟩,⟨1,"minibook_charger",false,false⟩],0,false⟩

def ecHost : Host Int := ⟨Cdev.genSysfs,StdSort.insertion,fun d _ => some d,fun _ => none,false⟩

def ecEnv : Surroundings := ⟨1000,fun _ => none,fun _ => none,none,none,none,none,75⟩

def twoTargets : Adaptive Int :=
  ⟨ecEngine,⟨[⟨3,"p","IETM",0,"ITMT","t"⟩,⟨3,"p","IETM",0,"PSVT","t"⟩],[[⟨1,"",0,0,0,0,0,3,0⟩]],
    [⟨"t",[]⟩],[⟨1,"t",[]⟩],["6BD40D2D-98AA-A44B-1A92-D22BDE3117F1"],[],[],-1⟩,
    false,-1,"IETM",false,false,-1,[],false⟩

theorem ec_present {a : Adaptive Int} (same : a.engine = ecEngine) : Present a.engine := by
  rw [same]
  refine ⟨⟨0,by decide⟩,?_⟩
  intro ec listed
  rcases List.mem_cons.mp listed with rfl | rest
  · exact ⟨⟨0,by decide⟩,_,rfl⟩
  · obtain rfl := List.mem_singleton.mp rest
    exact ⟨⟨1,by decide⟩,_,rfl⟩

theorem two_targets_double_the_trips :
    Present twoTargets.engine ∧ twoTargets.ecInstalled = false ∧
      ∃ s,run (step ecHost) (some twoTargets) [.update ecEnv] = some s ∧ s.ecInstalled = true ∧
        ¬ Shaped s.engine := by
  refine ⟨ec_present rfl,rfl,?_⟩
  have counted : (run (step ecHost) (some twoTargets) [.update ecEnv]).map (fun s => (s.ecInstalled,
      s.engine.searchZone minibookSocZone,raplCdev s.engine,s.engine.zones[0]?.map (fun z => (passives z).length))) =
      some (true,some 0,some 0,some 4) := by decide
  obtain ⟨s,reached,facts⟩ := Option.map_eq_some_iff.mp counted
  simp only [Prod.mk.injEq] at facts
  obtain ⟨installed,found,rapl,trips⟩ := facts
  obtain ⟨z,present,four⟩ := Option.map_eq_some_iff.mp trips
  refine ⟨s,reached,installed,?_⟩
  intro shaped
  obtain ⟨low,high,perm,_⟩ := shaped (minibookSocZone,minibookSocTripTemp) List.mem_cons_self 0 0 z found rapl present
  have two := perm.length_eq
  rw [four] at two
  cases two

-- The same machine with the processor's zone, the default table and one more table.
def processorRow (temp : Int) : Psv := ⟨"rapl_controller_mmio","TCPU",1,50,temp,9,0,"MIN",1000,0,0⟩

def tablesEngine : Engine Int :=
  {ecEngine with
    zones := ecEngine.zones++[⟨2,"TCPU",[],true,false,[2],.independent⟩]
    sensors := ecEngine.sensors++[⟨2,"TCPU",false,false⟩]}

def tablesPolicy : Adaptive Int :=
  {twoTargets with
    engine := tablesEngine
    gddv := ⟨[],[],[⟨"IETM.D0",[processorRow 3632]⟩,⟨"quiet",[processorRow 3432]⟩],[],[],[],[],-1⟩}

def quietTarget : AdaptiveTarget := ⟨4,"p","IETM",0,"PSVT","quiet"⟩

theorem tables_foreign (temp : Int) : Foreign tablesEngine (processorRow temp).target := by
  intro i zone found
  have place : zoneFor tablesEngine (participant "TCPU") = some (2,"TCPU") := by decide
  change zoneFor tablesEngine (participant "TCPU") = _ at found
  rw [place] at found
  cases found
  unfold EcPosition
  decide

theorem tables_present : Present tablesEngine := by
  refine ⟨⟨0,by decide⟩,?_⟩
  intro ec listed
  rcases List.mem_cons.mp listed with rfl | rest
  · exact ⟨⟨0,by decide⟩,_,rfl⟩
  · obtain rfl := List.mem_singleton.mp rest
    exact ⟨⟨1,by decide⟩,_,rfl⟩

-- Installed by default, then again by a target that finds them installed.
theorem ec_zones_keep_shape_reinstalled : ∃ first second,
    run (step ecHost) (some tablesPolicy) [.passiveDefault 1000] = some first ∧ first.ecInstalled = true ∧ Shaped first.engine ∧
      run (step ecHost) (some tablesPolicy) [.passiveDefault 1000,.execute 1005 quietTarget] = some second ∧
      second.int3400Installed = true ∧ Shaped second.engine := by
  have clean : Meets (step ecHost) (CleanStep ecHost) (some tablesPolicy) [.passiveDefault 1000,.execute 1005 quietTarget] := by
    refine ⟨?_,?_,trivial⟩
    · intro s same
      cases same
      refine ⟨⟨"IETM.D0",[processorRow 3632]⟩,by decide,?_⟩
      intro psv inside
      rw [List.mem_singleton.mp inside]
      exact tables_foreign 3632
    · intro s same
      cases same
      intro _
      refine ⟨?_,fun itmt => absurd itmt (by decide),fun itmt => absurd itmt (by decide),fun other => absurd rfl other⟩
      intro _ psvt found
      obtain rfl : psvt = ⟨"quiet",[processorRow 3432]⟩ := Option.some.inj (found.symm.trans (by decide))
      refine ⟨.inl (by decide),?_⟩
      intro psv inside
      rw [List.mem_singleton.mp inside]
      exact foreign_static ⟨by decide,by decide,by decide⟩ (tables_foreign 3432)
  have kept := ec_zones_keep_shape ecHost tablesPolicy tables_present rfl _ clean
  exact ⟨_,_,rfl,rfl,kept [.passiveDefault 1000] _ rfl _ rfl rfl,rfl,by decide,kept _ [] (List.append_nil _).symm _ rfl (by decide)⟩

end ChuwiMinibook.EcPolicy
