import ChuwiMinibook.EcPolicy
import ChuwiMinibook.PolicyExceptions

namespace ChuwiMinibook.MatchedTargets
open StdString Gddv PolicyExceptions
open EcPolicy (ecHost ecEnv twoTargets)
open AdaptiveEngine (cdevFor targetsOf computedTarget clearZones plotsPower installPassive installPassiveDefault setItmtTarget
  setTrip psvtConsolidate installMinibookEcZones)

section Entry
variable {σ : Type} (host : Host σ)

-- set_int3400_target is called for the entry.
def ForInt3400 (a : Adaptive σ) (t : AdaptiveTarget) : Prop :=
  t.code = "PSVT" ∨ cdevFor a.engine (afterLast '.' t.participant) = none ∧ t.participant = a.int3400Path

-- A PSVT or ITMT table of the vault is installed for the entry.
def Installs (a : Adaptive σ) (t : AdaptiveTarget) : Prop :=
  ForInt3400 a t ∧ ((t.code = "ITMT" ∨ t.code = "ITMT3") ∧ findItmt a.gddv t.argument ≠ none ∨
    t.code = "PSVT" ∧ findPsvt a.gddv t.argument ≠ none)

def itmtInstalled (now : Int) (a : Adaptive σ) (t : AdaptiveTarget) : Adaptive σ :=
  if t.code = "ITMT" ∨ t.code = "ITMT3" then
    match setItmtTarget host now a.gddv a.int3400Installed a.engine t with
    | none => a
    | some e => {a with engine := e,int3400Installed := true}
  else a

-- What set_int3400_target has installed in front of psvt_consolidate; none where
-- it returns for an unknown table.
def tabled (now : Int) (a : Adaptive σ) (t : AdaptiveTarget) : Option (Adaptive σ) :=
  if t.code = "PSVT" then
    (findPsvt a.gddv t.argument).map (fun psvt =>
      let e := if a.int3400Installed then a.engine else clearZones host plotsPower now a.engine
      {a with engine := psvt.psvs.foldl (installPassive host) e,int3400Installed := true})
  else some (itmtInstalled host now a t)

def logged (a : Adaptive σ) (t : AdaptiveTarget) : Adaptive σ := {a with executed := a.executed++[t]}

-- No zone is active behind the tables and the daemon exits, or stof throws.
def Leaves (now : Int) (a : Adaptive σ) (t : AdaptiveTarget) : Prop :=
  ForInt3400 a t ∧ ∃ b,tabled host now (logged a t) t = some b ∧
    (¬Active host b.engine ∨ t.code = "PSV" ∧ host.stofMilli t.argument = none)

theorem itmt_no_psvt {t : AdaptiveTarget} (code : t.code = "PSVT") : ¬(t.code = "ITMT" ∨ t.code = "ITMT3") := by
  rw [code]
  decide

theorem setInt3400Target_tabled (now : Int) (a : Adaptive σ) (t : AdaptiveTarget) :
    setInt3400Target host now a t = match tabled host now a t with
      | none => .ok a
      | some b => finishInt3400 host b t := by
  unfold setInt3400Target tabled
  by_cases table : t.code = "PSVT"
  · rw [if_neg (itmt_no_psvt table),if_pos table,if_pos table]
    cases findPsvt a.gddv t.argument <;> rfl
  · rw [if_neg table,if_neg table]
    rfl

-- An entry for a cooling device of its own.
def deviceTarget (a : Adaptive σ) (t : AdaptiveTarget) : Except Leave (Adaptive σ) :=
  match cdevFor a.engine (afterLast '.' t.participant) with
  | none => .ok a
  | some k =>
    match stoi t.argument,a.engine.cdevs[k]? with
    | some _,some c => (unguarded (host.setAdaptiveTarget c.dev t)).map (fun dev =>
        {a with engine := {a.engine with cdevs := a.engine.cdevs.set k {c with dev := dev}}})
    | _,_ => .ok a

theorem executeTarget_int3400 (now : Int) {a : Adaptive σ} {t : AdaptiveTarget} (routed : ForInt3400 a t) :
    executeTarget host now a t = setInt3400Target host now (logged a t) t := by
  unfold executeTarget
  dsimp only
  cases found : cdevFor a.engine (afterLast '.' t.participant) with
  | none =>
    rcases routed with table | ⟨-,path⟩
    · exact if_pos (.inr table)
    · exact if_pos (.inl path)
  | some k =>
    rcases routed with table | ⟨absent,-⟩
    · exact if_pos table
    · rw [found] at absent
      cases absent

theorem executeTarget_device (now : Int) {a : Adaptive σ} {t : AdaptiveTarget} (routed : ¬ForInt3400 a t) :
    executeTarget host now a t = deviceTarget host (logged a t) t := by
  unfold executeTarget deviceTarget logged
  dsimp only
  cases found : cdevFor a.engine (afterLast '.' t.participant) with
  | none =>
    have other : ¬(t.participant = a.int3400Path ∨ t.code = "PSVT") := by
      rintro (path | table)
      · exact routed (.inr ⟨found,path⟩)
      · exact routed (.inl table)
    exact if_neg other
  | some k =>
    have other : ¬t.code = "PSVT" := fun table => routed (.inl table)
    exact if_neg other

-- What an entry leaves alone.
def Keeps (a b : Adaptive σ) : Prop := b.executed = a.executed ∧ b.gddv = a.gddv

theorem finishInt3400_returns (a : Adaptive σ) (t : AdaptiveTarget) : (∃ next,finishInt3400 host a t = .ok next) ↔
    Active host a.engine ∧ ¬(t.code = "PSV" ∧ host.stofMilli t.argument = none) := by
  unfold finishInt3400 Active
  dsimp only
  by_cases active : (installMinibookEcZones host (psvtConsolidate host a.engine)).zones.any (·.zoneActive) = true
  · rw [if_pos active]
    by_cases psv : t.code = "PSV"
    · rw [if_pos psv]
      cases converted : host.stofMilli t.argument with
      | none => simp [psv,setTrip,converted,unguarded,Except.map]
      | some temp => simp [active,setTrip,converted,unguarded,Except.map]
    · rw [if_neg psv]
      simp [psv,active,Except.map]
  · rw [if_neg active]
    simp [active]

theorem finishInt3400_keeps {a next : Adaptive σ} {t : AdaptiveTarget} (done : finishInt3400 host a t = .ok next) :
    Keeps a next ∧ next.int3400Installed = a.int3400Installed := by
  unfold finishInt3400 at done
  dsimp only at done
  split at done
  · generalize (ite (t.code = "PSV") _ _ : Except Leave (Engine σ)) = finished at done
    cases finished with
    | error leave => cases done
    | ok e =>
      cases done
      exact ⟨⟨rfl,rfl⟩,rfl⟩
  · cases done

theorem deviceTarget_keeps {a next : Adaptive σ} {t : AdaptiveTarget} (done : deviceTarget host a t = .ok next) :
    Keeps a next ∧ next.int3400Installed = a.int3400Installed := by
  unfold deviceTarget at done
  split at done
  · cases done
    exact ⟨⟨rfl,rfl⟩,rfl⟩
  · split at done
    · rename_i c _ _
      generalize host.setAdaptiveTarget c.dev t = changed at done
      cases changed with
      | none => cases done
      | some dev =>
        cases done
        exact ⟨⟨rfl,rfl⟩,rfl⟩
    · cases done
      exact ⟨⟨rfl,rfl⟩,rfl⟩

theorem deviceTarget_returns (guarded : Guarded host) (a : Adaptive σ) (t : AdaptiveTarget) :
    ∃ next,deviceTarget host a t = .ok next := by
  unfold deviceTarget
  split
  · exact ⟨a,rfl⟩
  · split
    · rename_i argument c converted _
      cases changed : host.setAdaptiveTarget c.dev t with
      | none =>
        rw [guarded _ _ changed] at converted
        cases converted
      | some dev => exact ⟨_,rfl⟩
    · exact ⟨a,rfl⟩

theorem executeTarget_returns (guarded : Guarded host) (now : Int) (a : Adaptive σ) (t : AdaptiveTarget) :
    (∃ next,executeTarget host now a t = .ok next) ↔ ¬Leaves host now a t := by
  by_cases routed : ForInt3400 a t
  · rw [executeTarget_int3400 host now routed,setInt3400Target_tabled]
    unfold Leaves
    cases shape : tabled host now (logged a t) t with
    | none => simp
    | some b =>
      simp only [routed,finishInt3400_returns,Option.some.injEq,exists_eq_left',true_and,not_or,not_not]
  · rw [executeTarget_device host now routed]
    refine iff_of_true (deviceTarget_returns host guarded _ t) ?_
    intro leaves
    exact routed leaves.1

theorem itmtInstalled_keeps (now : Int) (a : Adaptive σ) (t : AdaptiveTarget) :
    Keeps a (itmtInstalled host now a t) ∧ ((itmtInstalled host now a t).int3400Installed = true ↔
      a.int3400Installed = true ∨ (t.code = "ITMT" ∨ t.code = "ITMT3") ∧ findItmt a.gddv t.argument ≠ none) := by
  unfold itmtInstalled setItmtTarget
  by_cases table : t.code = "ITMT" ∨ t.code = "ITMT3"
  · rw [if_pos table]
    cases findItmt a.gddv t.argument with
    | none => exact ⟨⟨rfl,rfl⟩,by simp⟩
    | some itmt => exact ⟨⟨rfl,rfl⟩,by simp [table]⟩
  · rw [if_neg table]
    exact ⟨⟨rfl,rfl⟩,by simp [table]⟩

theorem tabled_keeps {now : Int} {a b : Adaptive σ} {t : AdaptiveTarget} (shape : tabled host now a t = some b) :
    Keeps a b ∧ (b.int3400Installed = true ↔ a.int3400Installed = true ∨
      ((t.code = "ITMT" ∨ t.code = "ITMT3") ∧ findItmt a.gddv t.argument ≠ none ∨
        t.code = "PSVT" ∧ findPsvt a.gddv t.argument ≠ none)) := by
  unfold tabled at shape
  by_cases table : t.code = "PSVT"
  · rw [if_pos table] at shape
    obtain ⟨psvt,found,rfl⟩ := Option.map_eq_some_iff.mp shape
    refine ⟨⟨rfl,rfl⟩,?_⟩
    simp [table,found]
  · rw [if_neg table] at shape
    cases shape
    obtain ⟨kept,installed⟩ := itmtInstalled_keeps host now a t
    refine ⟨kept,?_⟩
    rw [installed]
    simp [table]

-- One entry: it is logged, the vault stays, and the mark of an installed table is
-- set exactly by the entries that install one.
theorem executeTarget_marks {now : Int} {a next : Adaptive σ} {t : AdaptiveTarget}
    (done : executeTarget host now a t = .ok next) : Keeps (logged a t) next ∧
      (next.int3400Installed = true ↔ a.int3400Installed = true ∨ Installs a t) := by
  by_cases routed : ForInt3400 a t
  · rw [executeTarget_int3400 host now routed,setInt3400Target_tabled] at done
    unfold Installs
    cases shape : tabled host now (logged a t) t with
    | none =>
      rw [shape] at done
      cases done
      refine ⟨⟨rfl,rfl⟩,?_⟩
      unfold tabled at shape
      by_cases table : t.code = "PSVT"
      · rw [if_pos table,Option.map_eq_none_iff] at shape
        have absent : findPsvt a.gddv t.argument = none := shape
        simp [itmt_no_psvt table,absent,logged]
      · rw [if_neg table] at shape
        cases shape
    | some b =>
      rw [shape] at done
      obtain ⟨tables,installed⟩ := tabled_keeps host shape
      obtain ⟨kept,same⟩ := finishInt3400_keeps host done
      refine ⟨⟨kept.1.trans tables.1,kept.2.trans tables.2⟩,?_⟩
      rw [same,installed]
      simp only [routed,true_and]
      exact Iff.rfl
  · rw [executeTarget_device host now routed] at done
    obtain ⟨kept,same⟩ := deviceTarget_keeps host done
    refine ⟨kept,?_⟩
    rw [same]
    have none : ¬Installs a t := fun installs => routed installs.1
    exact (or_iff_left none).symm

end Entry

section Table
variable {σ : Type} (host : Host σ)

-- Some entry installs a table, in the state that the entries in front of it leave.
def TableInstalled (now : Int) (a : Adaptive σ) (targets : List AdaptiveTarget) : Prop :=
  ∃ before t after s,targets = before++t::after ∧ executeTargets host now a before = .ok s ∧ Installs s t

theorem executeTargets_cons (now : Int) (a : Adaptive σ) (t : AdaptiveTarget) (rest : List AdaptiveTarget) :
    executeTargets host now a (t::rest) = (executeTarget host now a t).bind (executeTargets host now · rest) := by
  rw [executeTargets,List.foldlM_cons]
  rfl

theorem tableInstalled_cons {now : Int} {a next : Adaptive σ} {t : AdaptiveTarget} {rest : List AdaptiveTarget}
    (done : executeTarget host now a t = .ok next) :
    TableInstalled host now a (t::rest) ↔ Installs a t ∨ TableInstalled host now next rest := by
  constructor
  · rintro ⟨before,u,after,s,split,reached,installs⟩
    cases before with
    | nil =>
      cases split
      cases reached
      exact .inl installs
    | cons first before =>
      cases split
      rw [executeTargets_cons,done] at reached
      exact .inr ⟨before,u,after,s,rfl,reached,installs⟩
  · rintro (installs | ⟨before,u,after,s,rfl,reached,installs⟩)
    · exact ⟨[],t,rest,a,rfl,rfl,installs⟩
    · refine ⟨t::before,u,after,s,rfl,?_,installs⟩
      rw [executeTargets_cons,done]
      exact reached

theorem executeTargets_marks {now : Int} {a last : Adaptive σ} {targets : List AdaptiveTarget}
    (done : executeTargets host now a targets = .ok last) :
    last.executed = a.executed++targets ∧ last.gddv = a.gddv ∧
      (last.int3400Installed = true ↔ a.int3400Installed = true ∨ TableInstalled host now a targets) := by
  induction targets generalizing a with
  | nil =>
    cases done
    refine ⟨(List.append_nil _).symm,rfl,?_⟩
    have none : ¬TableInstalled host now last [] := by
      rintro ⟨before,t,after,-,split,-⟩
      exact List.append_ne_nil_of_right_ne_nil before (List.cons_ne_nil t after) split.symm
    exact (or_iff_left none).symm
  | cons t rest ih =>
    rw [executeTargets_cons] at done
    cases stepped : executeTarget host now a t with
    | error leave =>
      rw [stepped] at done
      cases done
    | ok next =>
      rw [stepped] at done
      obtain ⟨⟨executed,gddv⟩,installed⟩ := executeTarget_marks host stepped
      obtain ⟨later,kept,marked⟩ := ih done
      refine ⟨?_,kept.trans gddv,?_⟩
      · rw [later,executed,logged,List.append_assoc,List.singleton_append]
      · rw [marked,installed,tableInstalled_cons host stepped,or_assoc]

theorem executeTargets_returns (guarded : Guarded host) (now : Int) (a : Adaptive σ) (targets : List AdaptiveTarget) :
    (∃ last,executeTargets host now a targets = .ok last) ↔ ∀ before t after s,targets = before++t::after →
      executeTargets host now a before = .ok s → ¬Leaves host now s t := by
  constructor
  · rintro ⟨last,done⟩ before t after s rfl reached
    rw [executeTargets,List.foldlM_append] at done
    change executeTargets host now a before >>= _ = _ at done
    rw [reached] at done
    have rest : executeTargets host now s (t::after) = .ok last := done
    rw [executeTargets_cons] at rest
    refine (executeTarget_returns host guarded now s t).mp ?_
    cases stepped : executeTarget host now s t with
    | error leave =>
      rw [stepped] at rest
      cases rest
    | ok next => exact ⟨next,rfl⟩
  · intro stays
    cases done : executeTargets host now a targets with
    | ok last => exact ⟨last,rfl⟩
    | error leave =>
      obtain ⟨before,t,after,s,split,reached,left⟩ := foldlM_error.mp done
      obtain ⟨next,stepped⟩ := (executeTarget_returns host guarded now s t).mpr (stays before t after s split reached)
      rw [left] at stepped
      cases stepped

end Table

section Update
variable {σ : Type} (host : Host σ)

-- The entries of the target that evaluate_conditions returns.
def matching (env : Surroundings) (a : Adaptive σ) : List AdaptiveTarget :=
  (computedTarget env a).1.targets.filter (fun t => (t.targetId : Int) = (computedTarget env a).2)

-- The update returns with every entry executed, and the default table is
-- installed exactly when no entry has installed one.
def ExecutedInFull (env : Surroundings) (a : Adaptive σ) : Prop :=
  ∃ last after,executeTargets host env.now (entered env a) (matching env a) = .ok last ∧
    updateEngineState host env a = .ok after ∧ after.executed = a.executed++matching env a ∧
    (TableInstalled host env.now (entered env a) (matching env a) → after.engine = last.engine) ∧
    (¬TableInstalled host env.now (entered env a) (matching env a) →
      after.engine = (installPassiveDefault host env.now last).engine)

theorem targetsOf_nonnegative (g : Gddv) {target : Int} (positive : 0 ≤ target) (int : target < 2147483648) :
    targetsOf g target = g.targets.filter (fun t => (t.targetId : Int) = target) := by
  rw [targetsOf,Int.emod_eq_of_lt positive (by omega)]

theorem default_executed (now : Int) (a : Adaptive σ) : (installPassiveDefault host now a).executed = a.executed := by
  unfold installPassiveDefault
  dsimp only
  split <;> rfl

theorem default_engine (now : Int) (a : Adaptive σ) (active : Bool) :
    (installPassiveDefault host now {a with policyActive := active}).engine =
      (installPassiveDefault host now a).engine := by
  unfold installPassiveDefault
  dsimp only
  split <;> rfl

section Matched
variable {host} {env : Surroundings} {a : Adaptive σ}

theorem update_switches (following : a.fallbackId < 0) (conditional : a.passiveDefOnly = false)
    (changed : a.currentMatchedTarget ≠ (computedTarget env a).2) :
    updateEngineState host env a = switchTarget host env {a with
      gddv := (computedTarget env a).1
      currentMatchedTarget := (computedTarget env a).2} (computedTarget env a).2 := by
  unfold updateEngineState
  dsimp only
  rw [if_neg (by rw [conditional]; decide),if_neg changed,if_neg (by omega)]

theorem switched_positive (matched : 0 ≤ (computedTarget env a).2) (int : (computedTarget env a).2 < 2147483648)
    (named : (computedTarget env a).2 ≠ 0) : switchTarget host env {a with
      gddv := (computedTarget env a).1
      currentMatchedTarget := (computedTarget env a).2} (computedTarget env a).2 =
    (executeTargets host env.now (entered env a) (matching env a)).map (fun last =>
      if last.int3400Installed then {last with policyActive := true}
      else installPassiveDefault host env.now {last with policyActive := true}) := by
  unfold switchTarget
  dsimp only
  rw [if_pos (by omega : (computedTarget env a).2 > 0),targetsOf_nonnegative _ matched int]
  change ((executeTargets host env.now (entered env a) (matching env a)).map _).map _ = _
  cases executeTargets host env.now (entered env a) (matching env a) <;> rfl

theorem switched_zero (zero : (computedTarget env a).2 = 0) : switchTarget host env {a with
      gddv := (computedTarget env a).1
      currentMatchedTarget := (computedTarget env a).2} (computedTarget env a).2 =
    .ok (installPassiveDefault host env.now (entered env a)) := by
  unfold switchTarget
  dsimp only
  rw [if_neg (by omega : ¬(computedTarget env a).2 > 0)]
  rfl

-- For target 0 only the default table is installed.
theorem full_zero_iff (switches : updateEngineState host env a = switchTarget host env {a with
      gddv := (computedTarget env a).1
      currentMatchedTarget := (computedTarget env a).2} (computedTarget env a).2)
    (zero : (computedTarget env a).2 = 0) : ExecutedInFull host env a ↔ matching env a = [] := by
  have updated := switches.trans (switched_zero zero)
  constructor
  · rintro ⟨last,after,-,same,executed,-,-⟩
    rw [updated] at same
    cases same
    rw [default_executed] at executed
    exact List.append_cancel_left (executed.symm.trans (List.append_nil _).symm)
  · intro empty
    have done : executeTargets host env.now (entered env a) (matching env a) = .ok (entered env a) := by
      rw [empty]
      rfl
    refine ⟨entered env a,_,done,updated,?_,?_,fun _ => rfl⟩
    · rw [default_executed]
      exact (executeTargets_marks host done).1
    · intro tables
      obtain ⟨before,t,after,-,split,-⟩ := tables
      rw [empty] at split
      exact absurd split.symm (List.append_ne_nil_of_right_ne_nil before (List.cons_ne_nil t after))

theorem full_positive {last : Adaptive σ} (switches : updateEngineState host env a = switchTarget host env {a with
      gddv := (computedTarget env a).1
      currentMatchedTarget := (computedTarget env a).2} (computedTarget env a).2)
    (matched : 0 ≤ (computedTarget env a).2) (int : (computedTarget env a).2 < 2147483648)
    (named : (computedTarget env a).2 ≠ 0)
    (done : executeTargets host env.now (entered env a) (matching env a) = .ok last) : ExecutedInFull host env a := by
  obtain ⟨executed,-,installed⟩ := executeTargets_marks host done
  have fresh : ¬(entered env a).int3400Installed = true := Bool.false_ne_true
  rw [or_iff_right fresh] at installed
  have updated := switches.trans (switched_positive matched int named)
  rw [done] at updated
  refine ⟨last,_,done,updated,?_,?_,?_⟩
  · dsimp only
    split
    · exact executed
    · rw [default_executed]
      exact executed
  · intro tables
    dsimp only
    rw [if_pos (installed.mpr tables)]
  · intro none
    dsimp only
    rw [if_neg (mt installed.mp none)]
    exact default_engine host env.now last true

end Matched
end Update

-- A matched target with an ITMT and a PSVT entry, and an entry of another target between them.
def itmtEntry : AdaptiveTarget := ⟨3,"p","IETM",0,"ITMT","t"⟩

def psvtEntry : AdaptiveTarget := ⟨3,"p","IETM",0,"PSVT","t"⟩

def threePolicy : Adaptive Int := {twoTargets with gddv :=
  ⟨[itmtEntry,⟨4,"p","IETM",0,"PSVT","u"⟩,psvtEntry],[[⟨1,"",0,0,0,0,0,3,0⟩]],[⟨"t",[]⟩],[⟨1,"t",[]⟩],
    ["6BD40D2D-98AA-A44B-1A92-D22BDE3117F1"],[],[],-1⟩}

-- One PSVT entry, for a target whose only condition holds.
def onePolicy (id : Nat) : Adaptive Int := {twoTargets with gddv :=
  ⟨[⟨id,"p","IETM",0,"PSVT","t"⟩],[[⟨1,"",0,0,0,0,0,id,0⟩]],[⟨"t",[]⟩],[],[],[],[],-1⟩}

end ChuwiMinibook.MatchedTargets
