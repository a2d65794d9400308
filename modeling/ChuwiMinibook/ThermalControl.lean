import Mathlib.Data.List.Infix
import Mathlib.Logic.Function.Basic

namespace ChuwiMinibook.ThermalControl

inductive ControlMode where
  | complementary | exclusive
deriving DecidableEq

-- The files of /sys/class/thermal/thermal_zone<i> that the engine uses; none is an
-- absent file. Writes are taken to succeed.
structure Sysfs where
  policy : Nat → Option String
  type : Nat → Option String
  mode : Nat → String

def Sysfs.writePolicy (fs : Sysfs) (i : Nat) (value : String) : Sysfs :=
  {fs with policy := Function.update fs.policy i (some value)}

def Sysfs.writeMode (fs : Sysfs) (i : Nat) (value : String) : Sysfs :=
  {fs with mode := Function.update fs.mode i value}

-- Which reads of one pass over the zones return no error.
structure Attempt where
  policyRead : Nat → Bool
  typeRead : Nat → Bool

structure Control where
  sysfs : Sysfs
  zonePreferences : List String

-- The second half of both loops: the mode of an INT3400 zone.
def setInt3400Mode (a : Attempt) (value : String) (fs : Sysfs) (i : Nat) : Sysfs :=
  match fs.type i with
  | none => fs
  | some thermalType =>
    if (if a.typeRead i then thermalType else "") = "INT3400" then fs.writeMode i value else fs

def takeoverPolicy (a : Attempt) (c : Control) (i : Nat) : Control :=
  match c.sysfs.policy i with
  | none => c
  | some currPolicy =>
    if a.policyRead i then ⟨c.sysfs.writePolicy i "user_space",c.zonePreferences++[currPolicy]⟩ else c

def takeoverZone (a : Attempt) (c : Control) (i : Nat) : Control :=
  let c := takeoverPolicy a c i
  {c with sysfs := setInt3400Mode a "enabled" c.sysfs i}

-- readdir lists the zones in the given order.
def takeoverThermalControl (listing : List Nat) (c : Control) (a : Attempt) : Control :=
  listing.foldl (takeoverZone a) c

-- none when zone_preferences[cnt] lies outside the vector.
def giveupLoop (a : Attempt) (zonePreferences : List String) : List Nat → Nat → Sysfs → Option Sysfs
  | [],_,fs => some fs
  | i::rest,cnt,fs =>
    match fs.policy i with
    | none => giveupLoop a zonePreferences rest cnt (setInt3400Mode a "disabled" fs i)
    | some _ => (zonePreferences[cnt]?).bind (fun saved =>
        giveupLoop a zonePreferences rest (cnt+1) (setInt3400Mode a "disabled" (fs.writePolicy i saved) i))

def giveupThermalControl (controlMode : ControlMode) (listing : List Nat) (c : Control) (a : Attempt) : Option Sysfs :=
  if controlMode ≠ .exclusive then some c.sysfs
  else if c.zonePreferences.length = 0 then some c.sysfs
  else giveupLoop a c.zonePreferences listing 0 c.sysfs

-- thd_engine_start and every process_pref_change.
def takeControl (controlMode : ControlMode) (listing : List Nat) (c : Control) (a : Attempt) : Control :=
  if controlMode = .exclusive then takeoverThermalControl listing c a else c

def session (controlMode : ControlMode) (listing : List Nat) (fs : Sysfs) (attempts : List Attempt) : Control :=
  attempts.foldl (takeControl controlMode listing) ⟨fs,[]⟩

-- The directory of thermal zones: each zone is listed once.
structure Listing where
  zones : List Nat
  nodup : zones.Nodup

def policyZones (listing : List Nat) (policy : Nat → Option String) : List Nat :=
  listing.filter (fun i => (policy i).isSome)

-- The zones whose policy is read, in the order of the reads.
def reads (listing : List Nat) (policy : Nat → Option String) (attempts : List Attempt) : List Nat :=
  attempts.flatMap (fun a => (policyZones listing policy).filter a.policyRead)

def taken (policy : Nat → Option String) (zones : List Nat) : Nat → Option String :=
  zones.foldl (fun p i => Function.update p i (some "user_space")) policy

-- What successive reads find: a zone that was read before has been given user_space.
def found : (Nat → Option String) → List Nat → List (Option String)
  | _,[] => []
  | policy,i::rest => policy i::found (Function.update policy i (some "user_space")) rest

@[simp] theorem writePolicy_policy (fs : Sysfs) (i : Nat) (value : String) :
    (fs.writePolicy i value).policy = Function.update fs.policy i (some value) := rfl

@[simp] theorem setInt3400Mode_policy (a : Attempt) (value : String) (fs : Sysfs) (i : Nat) :
    (setInt3400Mode a value fs i).policy = fs.policy := by
  unfold setInt3400Mode
  split
  · rfl
  · rename_i thermalType _
    by_cases int3400 : (if a.typeRead i then thermalType else "") = "INT3400"
    · rw [if_pos int3400]; rfl
    · rw [if_neg int3400]

theorem taken_append (policy : Nat → Option String) (first second : List Nat) :
    taken policy (first++second) = taken (taken policy first) second :=
  List.foldl_append

theorem found_append (policy : Nat → Option String) (first second : List Nat) :
    found policy (first++second) = found policy first++found (taken policy first) second := by
  induction first generalizing policy with
  | nil => rfl
  | cons i rest ih => rw [List.cons_append,found,ih,found,List.cons_append]; rfl

theorem length_found (policy : Nat → Option String) (zones : List Nat) : (found policy zones).length = zones.length := by
  induction zones generalizing policy with
  | nil => rfl
  | cons i rest ih => rw [found,List.length_cons,ih,List.length_cons]

-- A policy file stays a file, and no zone outside the listed ones changes.
theorem taken_isSome {policy : Nat → Option String} {zones : List Nat} (files : ∀ i ∈ zones,(policy i).isSome)
    (i : Nat) : (taken policy zones i).isSome = (policy i).isSome := by
  induction zones generalizing policy with
  | nil => rfl
  | cons first rest ih =>
    have kept : ∀ j,(Function.update policy first (some "user_space") j).isSome = (policy j).isSome := by
      intro j
      by_cases same : j = first
      · rw [same,Function.update_self,files first List.mem_cons_self]; rfl
      · rw [Function.update_of_ne same]
    rw [taken,List.foldl_cons,← taken,ih,kept]
    intro j listed
    rw [kept]
    exact files j (List.mem_cons_of_mem _ listed)

theorem taken_of_notMem {policy : Nat → Option String} {zones : List Nat} {i : Nat} (absent : i ∉ zones) :
    taken policy zones i = policy i := by
  induction zones generalizing policy with
  | nil => rfl
  | cons first rest ih =>
    rw [List.mem_cons,not_or] at absent
    rw [taken,List.foldl_cons,← taken,ih absent.2,Function.update_of_ne absent.1]

-- A state of the session in which these zones have been read, in this order.
structure Holds (policy : Nat → Option String) (zones : List Nat) (c : Control) : Prop where
  saved : c.zonePreferences.map some = found policy zones
  policies : c.sysfs.policy = taken policy zones
  files : ∀ i ∈ zones,(policy i).isSome

theorem Holds.file {policy : Nat → Option String} {zones : List Nat} {c : Control} (holds : Holds policy zones c) (i : Nat) :
    (c.sysfs.policy i).isSome = (policy i).isSome := by
  rw [holds.policies,taken_isSome holds.files]

theorem Holds.mode {policy : Nat → Option String} {zones : List Nat} {c : Control} (holds : Holds policy zones c)
    (a : Attempt) (value : String) (i : Nat) : Holds policy zones {c with sysfs := setInt3400Mode a value c.sysfs i} :=
  ⟨holds.saved,by rw [setInt3400Mode_policy,holds.policies],holds.files⟩

theorem holds_takeoverPolicy {policy : Nat → Option String} {zones : List Nat} {c : Control} (a : Attempt) (i : Nat)
    (holds : Holds policy zones c) :
    Holds policy (zones++[i].filter (fun i => (policy i).isSome && a.policyRead i)) (takeoverPolicy a c i) := by
  have file := holds.file i
  cases read : c.sysfs.policy i with
  | none =>
    rw [read] at file
    simpa [takeoverPolicy,read,← file] using holds
  | some currPolicy =>
    rw [read] at file
    by_cases works : a.policyRead i = true
    · have now : taken policy zones i = some currPolicy := by rw [← holds.policies,read]
      simp only [List.filter_cons,List.filter_nil,← file,works,Option.isSome_some,Bool.and_self,if_true,
        takeoverPolicy,read]
      refine ⟨?_,?_,?_⟩
      · rw [List.map_append,holds.saved,found_append]
        simp only [found,now,List.map_cons,List.map_nil]
      · rw [taken_append,← holds.policies]
        rfl
      · intro j listed
        rcases List.mem_append.mp listed with prior | last
        · exact holds.files j prior
        · rw [List.mem_singleton.mp last,← file]; rfl
    · simpa [takeoverPolicy,read,works] using holds

theorem holds_takeover {policy : Nat → Option String} {zones : List Nat} {c : Control} (a : Attempt)
    (listing : List Nat) (holds : Holds policy zones c) :
    Holds policy (zones++(policyZones listing policy).filter a.policyRead) (takeoverThermalControl listing c a) := by
  induction listing generalizing zones c with
  | nil => simpa [policyZones,takeoverThermalControl] using holds
  | cons i rest ih =>
    have next := ih ((holds_takeoverPolicy a i holds).mode a "enabled" i)
    rw [List.append_assoc] at next
    have order : (policyZones (i::rest) policy).filter a.policyRead =
        [i].filter (fun i => (policy i).isSome && a.policyRead i) ++ (policyZones rest policy).filter a.policyRead := by
      simp only [policyZones,List.filter_filter,Bool.and_comm]
      rw [← List.filter_append,List.singleton_append]
    rw [order]
    exact next

theorem holds_session (listing : List Nat) (fs : Sysfs) (attempts : List Attempt) :
    Holds fs.policy (reads listing fs.policy attempts) (session .exclusive listing fs attempts) := by
  have start : Holds fs.policy [] ⟨fs,[]⟩ := ⟨rfl,rfl,fun _ listed => absurd listed (List.not_mem_nil)⟩
  suffices general : ∀ zones c,Holds fs.policy zones c →
      Holds fs.policy (zones++reads listing fs.policy attempts) (attempts.foldl (takeControl .exclusive listing) c) by
    simpa [session] using general [] _ start
  induction attempts with
  | nil => intro zones c holds; simpa [reads] using holds
  | cons a rest ih =>
    intro zones c holds
    rw [reads,List.flatMap_cons,← List.append_assoc]
    exact ih _ _ (holds_takeover a listing holds)

-- The loop restores every policy exactly when the vector goes on with the policies
-- of the zones that are still to come.
theorem giveupLoop_restores (a : Attempt) (zonePreferences : List String) (policy : Nat → Option String)
    {listing : List Nat} (nodup : listing.Nodup) (cnt : Nat) (fs : Sysfs)
    (files : ∀ i,(fs.policy i).isSome = (policy i).isSome) :
    (∃ final,giveupLoop a zonePreferences listing cnt fs = some final ∧ final.policy = policy) ↔
      (policyZones listing policy).map policy <+: (zonePreferences.drop cnt).map some ∧
      ∀ i,i ∉ policyZones listing policy → fs.policy i = policy i := by
  induction listing generalizing cnt fs with
  | nil => simp [giveupLoop,policyZones,funext_iff]
  | cons i rest ih =>
    rw [List.nodup_cons] at nodup
    have file := files i
    cases present : fs.policy i with
    | none =>
      rw [present] at file
      have skipped : policyZones (i::rest) policy = policyZones rest policy :=
        List.filter_cons_of_neg (by rw [← file]; decide)
      simp only [giveupLoop,present]
      rw [ih nodup.2 cnt _ (by simpa using files),skipped,setInt3400Mode_policy]
    | some curr =>
      rw [present] at file
      have kept : policyZones (i::rest) policy = i::policyZones rest policy :=
        List.filter_cons_of_pos (by rw [← file]; rfl)
      simp only [giveupLoop,present,kept,List.map_cons]
      cases inside : zonePreferences[cnt]? with
      | none =>
        have ended : zonePreferences.drop cnt = [] := List.drop_eq_nil_of_le (List.getElem?_eq_none_iff.mp inside)
        simp [ended]
      | some saved =>
        have next : zonePreferences.drop cnt = saved::zonePreferences.drop (cnt+1) := by
          obtain ⟨bound,value⟩ := List.getElem?_eq_some_iff.mp inside
          rw [List.drop_eq_getElem_cons bound,value]
        have unlisted : i ∉ policyZones rest policy := fun listed => nodup.1 (List.mem_filter.mp listed).1
        have written : ∀ j,((fs.writePolicy i saved).policy j).isSome = (policy j).isSome := by
          intro j
          by_cases same : j = i
          · rw [same,← file,writePolicy_policy,Function.update_self]; rfl
          · rw [writePolicy_policy,Function.update_of_ne same,files]
        rw [Option.bind_some,ih nodup.2 (cnt+1) _ (by simpa using written),next,List.map_cons,List.cons_prefix_cons,
          setInt3400Mode_policy]
        constructor
        · intro given
          obtain ⟨rest_saved,same⟩ := given
          have first := same i unlisted
          rw [writePolicy_policy,Function.update_self] at first
          refine ⟨⟨first.symm,rest_saved⟩,?_⟩
          intro j absent
          rw [List.mem_cons,not_or] at absent
          rw [← same j absent.2,writePolicy_policy,Function.update_of_ne absent.1]
        · intro given
          obtain ⟨⟨first,rest_saved⟩,same⟩ := given
          refine ⟨rest_saved,?_⟩
          intro j absent
          by_cases at_i : j = i
          · rw [at_i,writePolicy_policy,Function.update_self,first]
          · rw [writePolicy_policy,Function.update_of_ne at_i]
            exact same j (by rw [List.mem_cons,not_or]; exact ⟨at_i,absent⟩)

-- Taking over and giving up again leaves every policy as it was.
def Restores (controlMode : ControlMode) (listing : Listing) (fs : Sysfs) (attempts : List Attempt) (last : Attempt) : Prop :=
  ∃ final,giveupThermalControl controlMode listing.zones (session controlMode listing.zones fs attempts) last = some final ∧
    final.policy = fs.policy

theorem session_complementary (listing : List Nat) (fs : Sysfs) (attempts : List Attempt) :
    session .complementary listing fs attempts = ⟨fs,[]⟩ := by
  induction attempts with
  | nil => rfl
  | cons a rest ih => exact ih

theorem restores_iff_reads_in_order (controlMode : ControlMode) (listing : Listing) (fs : Sysfs)
    (attempts : List Attempt) (last : Attempt) :
    Restores controlMode listing fs attempts last ↔
      controlMode ≠ .exclusive ∨ reads listing.zones fs.policy attempts = [] ∨
      (policyZones listing.zones fs.policy).map fs.policy <+:
        found fs.policy (reads listing.zones fs.policy attempts) := by
  cases controlMode with
  | complementary =>
    have kept : Restores .complementary listing fs attempts last := by
      refine ⟨fs,?_,rfl⟩
      rw [giveupThermalControl,if_pos (by decide),session_complementary]
    exact ⟨fun _ => .inl (by decide),fun _ => kept⟩
  | exclusive =>
    have holds := holds_session listing.zones fs attempts
    have size : (session .exclusive listing.zones fs attempts).zonePreferences.length =
        (reads listing.zones fs.policy attempts).length := by
      rw [← length_found fs.policy,← holds.saved,List.length_map]
    by_cases none_read : reads listing.zones fs.policy attempts = []
    · refine ⟨fun _ => .inr (.inl none_read),fun _ => ⟨(session .exclusive listing.zones fs attempts).sysfs,?_,?_⟩⟩
      · rw [giveupThermalControl,if_neg (by decide),if_pos (by rw [size,none_read]; rfl)]
      · rw [holds.policies,none_read]; rfl
    · have filled : ¬(session .exclusive listing.zones fs attempts).zonePreferences.length = 0 := by
        rw [size]
        exact fun zero => none_read (List.length_eq_zero_iff.mp zero)
      have loop := giveupLoop_restores last (session .exclusive listing.zones fs attempts).zonePreferences fs.policy
        listing.nodup 0 (session .exclusive listing.zones fs attempts).sysfs holds.file
      rw [List.drop_zero,holds.saved] at loop
      rw [Restores,giveupThermalControl,if_neg (by decide),if_neg filled,loop]
      have outside : ∀ i,i ∉ policyZones listing.zones fs.policy →
          (session .exclusive listing.zones fs attempts).sysfs.policy i = fs.policy i := by
        intro i absent
        rw [holds.policies]
        apply taken_of_notMem
        intro listed
        obtain ⟨a,-,present⟩ := List.mem_flatMap.mp listed
        exact absent (List.mem_filter.mp present).1
      constructor
      · exact fun both => .inr (.inr both.1)
      · intro given
        rcases given with mode | read | saved
        · exact absurd rfl mode
        · exact absurd read none_read
        · exact ⟨saved,outside⟩

-- Two zones; the read of the first fails at the start and works for the second.
def twoZones : Listing := ⟨[0,1],by decide⟩

def twoPolicies : Sysfs where
  policy i := if i = 0 then some "step_wise" else if i = 1 then some "bang_bang" else none
  type _ := none
  mode _ := ""

theorem giveup_misplaces_policies :
    ¬Restores .exclusive twoZones twoPolicies [⟨fun i => i == 1,fun _ => true⟩] ⟨fun _ => true,fun _ => true⟩ := by
  intro given
  obtain ⟨final,done,-⟩ := given
  have outside : giveupThermalControl .exclusive twoZones.zones
      (session .exclusive twoZones.zones twoPolicies [⟨fun i => i == 1,fun _ => true⟩]) ⟨fun _ => true,fun _ => true⟩ =
    none := rfl
  rw [outside] at done
  cases done

end ChuwiMinibook.ThermalControl
