import ChuwiMinibook.DptfGnvs

namespace ChuwiMinibook.DptfGnvs
open ByteImage

structure Flag where
  off : Nat
  name : String

def flags : List Flag := [⟨0x072,"DPTF"⟩,⟨0x1F4,"PWRE"⟩,⟨0x32F,"BATR"⟩,⟨0x969,"PCHE"⟩]
def fanFlags : List Flag := [⟨0x076,"FND1"⟩,⟨0xB54,"FND2"⟩,⟨0xB55,"FND3"⟩]
def sensorFlags : List Flag :=
  [⟨0x327,"CHGE"⟩,⟨0x333,"S1DE"⟩,⟨0x334,"S2DE"⟩,⟨0x335,"S3DE"⟩,⟨0x336,"S4DE"⟩,⟨0x337,"S5DE"⟩,⟨0xB56,"S6DE"⟩]

-- memremap maps as many bytes as it is asked for, or none.
structure Memremap where
  map : Nat → Nat → Option Image
  sized : ∀ addr len gnvs,map addr len = some gnvs → gnvs.length = len

-- The mapped bytes, the flags counted and the messages.
structure Setting where
  gnvs : Image
  n : Nat
  log : List String

-- if (!*p) { *p = 1; n++; pr_info(...); }
def setFlag (s : Setting) (flag : Flag) : Option Setting :=
  (readU8 s.gnvs flag.off).bind fun value =>
    if value = 0 then (store s.gnvs (byte flag.off 1#8)).map fun gnvs => ⟨gnvs,s.n+1,s.log++["set "++flag.name]⟩
    else some s

def setFlags (s : Setting) : List Flag → Option Setting
  | [] => some s
  | flag::rest => (setFlag s flag).bind (setFlags · rest)

-- The capabilities of DPTF_OSC_UUID as acpi_run_osc gets them.
structure Osc where
  uuid : String
  rev : Nat
  caps : List Nat

def dptfOsc : Osc := ⟨"b23ba85d-c8b7-3542-88de-8de2ffcfd698",1,[0,0x0F]⟩

structure Done where
  setting : Setting
  osc : Option Osc
  busScan : Bool

-- ietm is whether acpi_get_handle finds \_SB.IETM.
def finish (ietm : Bool) (s : Setting) : Done :=
  if s.n = 0 then ⟨{ s with log := s.log++["all flags already set"] },none,false⟩
  else ⟨{ s with log := s.log++["enabled "++toString s.n++" DPTF device(s)"] },if ietm then some dptfOsc else none,true⟩

structure Params where
  enableFans : Bool
  enableSensors : Bool

def dptfEnablerInit (acpiGetTable : Option Dsdt) (memremap : Memremap) (params : Params) (ietm : Bool) :
    Option (Except Errno Done) :=
  (findGnvs acpiGetTable).bind fun
    | .error _ => some (.error .ENODEV)
    | .ok region => match memremap.map region.addr region.len with
      | none => some (.error .ENOMEM)
      | some gnvs =>
        (setFlags ⟨gnvs,0,[]⟩ flags).bind fun s =>
        (if params.enableFans then setFlags s fanFlags else some s).bind fun s =>
        (if params.enableSensors then setFlags s sensorFlags else some s).map fun s => .ok (finish ietm s)

-- The flags of a run, in the order they are reached.
def Params.active (params : Params) : List Flag :=
  flags++((if params.enableFans then fanFlags else [])++(if params.enableSensors then sensorFlags else []))

section Accesses
variable {s : Setting} {flag : Flag} {fs : List Flag}

-- What a flag does where it is inside.
def flagged (s : Setting) (flag : Flag) : Setting :=
  if u8 s.gnvs flag.off = 0 then ⟨put s.gnvs (byte flag.off 1#8),s.n+1,s.log++["set "++flag.name]⟩ else s

theorem length_flagged : (flagged s flag).gnvs.length = s.gnvs.length := by
  unfold flagged
  split
  · exact length_put _ _
  · rfl

theorem setFlag_checks : Checks (setFlag s flag) (Inside s.gnvs flag.off 1) (flagged s flag) := by
  have read := readU8_checks s.gnvs flag.off
  refine (read.bind fun _ => Checks.when fun _ => (store_checks s.gnvs (byte flag.off 1#8)).map _).cong ?_ fun _ => rfl
  exact ⟨fun both => both.1,fun inside => ⟨inside,fun _ => inside⟩⟩

theorem setFlags_checks (s : Setting) (fs : List Flag) :
    Checks (setFlags s fs) (∀ flag ∈ fs,Inside s.gnvs flag.off 1) (fs.foldl flagged s) := by
  induction fs generalizing s with
  | nil => exact (Checks.done s).cong (by simp) (fun _ => rfl)
  | cons flag rest ih =>
    refine (setFlag_checks.bind fun _ => ih (flagged s flag)).cong ?_ (fun _ => rfl)
    simp only [Inside,length_flagged,List.forall_mem_cons]

theorem flagged_apart {i : Nat} (apart : flag.off ≠ i) : readU8 (flagged s flag).gnvs i = readU8 s.gnvs i := by
  unfold flagged
  split
  · exact readU8_apart apart
  · rfl

theorem flagged_set (inside : Inside s.gnvs flag.off 1) : u8 (flagged s flag).gnvs flag.off ≠ 0 := by
  unfold flagged
  split
  · rw [u8,readU8_put_byte inside]
    decide
  · assumption

-- A flag that is set stays set.
theorem flagged_keeps {i : Nat} (inside : Inside s.gnvs i 1) (set : u8 s.gnvs i ≠ 0) : u8 (flagged s flag).gnvs i ≠ 0 := by
  by_cases here : flag.off = i
  · subst here
    exact flagged_set inside
  · unfold u8 at set ⊢
    rwa [flagged_apart here]

theorem run_apart {i : Nat} (apart : ∀ flag ∈ fs,flag.off ≠ i) : readU8 (fs.foldl flagged s).gnvs i = readU8 s.gnvs i := by
  induction fs generalizing s with
  | nil => rfl
  | cons flag rest ih =>
    obtain ⟨first,others⟩ := List.forall_mem_cons.mp apart
    exact (ih others).trans (flagged_apart first)

theorem run_keeps {i : Nat} (inside : Inside s.gnvs i 1) (set : u8 s.gnvs i ≠ 0) : u8 (fs.foldl flagged s).gnvs i ≠ 0 := by
  induction fs generalizing s with
  | nil => exact set
  | cons flag rest ih =>
    have kept : Inside (flagged s flag).gnvs i 1 := by
      unfold Inside at inside ⊢
      rwa [length_flagged]
    exact ih kept (flagged_keeps inside set)

theorem run_sets (inside : ∀ flag ∈ fs,Inside s.gnvs flag.off 1) (member : flag ∈ fs) :
    u8 (fs.foldl flagged s).gnvs flag.off ≠ 0 := by
  induction fs generalizing s with
  | nil => cases member
  | cons first rest ih =>
    have kept : ∀ other ∈ first::rest,Inside (flagged s first).gnvs other.off 1 := by
      intro other present
      have before := inside other present
      unfold Inside at before ⊢
      rwa [length_flagged]
    rw [List.foldl_cons]
    cases member with
    | head => exact run_keeps (kept flag List.mem_cons_self) (flagged_set (inside flag List.mem_cons_self))
    | tail _ later => exact ih (fun other present => kept other (List.mem_cons_of_mem _ present)) later

theorem setFlags_append (more : List Flag) : setFlags s (fs++more) = (setFlags s fs).bind (setFlags · more) := by
  induction fs generalizing s with
  | nil => rfl
  | cons flag rest ih =>
    simp only [List.cons_append,setFlags,Option.bind_assoc]
    exact congrArg _ (funext fun _ => ih)

theorem setFlags_optional (c : Bool) : (if c then setFlags s fs else some s) = setFlags s (if c then fs else []) := by
  cases c <;> rfl

end Accesses

section Runs
variable {d : Dsdt} {region : Gnvs} {memremap : Memremap}

theorem init_unmapped (accepted : findGnvs (some d) = some (.ok region))
    (unmapped : memremap.map region.addr region.len = none) (params : Params) (ietm : Bool) :
    dptfEnablerInit (some d) memremap params ietm = some (.error .ENOMEM) := by
  simp [dptfEnablerInit,accepted,unmapped]

theorem init_mapped {gnvs : Image} (accepted : findGnvs (some d) = some (.ok region))
    (mapped : memremap.map region.addr region.len = some gnvs) (params : Params) (ietm : Bool) :
    dptfEnablerInit (some d) memremap params ietm =
      (setFlags ⟨gnvs,0,[]⟩ params.active).map fun s => .ok (finish ietm s) := by
  simp only [dptfEnablerInit,accepted,mapped,Option.bind_some,Params.active,setFlags_append,setFlags_optional,
    Option.map_eq_bind,Option.bind_assoc,Function.comp_def]

-- The offsets reach furthest in the last entries of the tables.
theorem active_inside (params : Params) (n : Nat) : (∀ flag ∈ params.active,flag.off < n) ↔
    0x969 < n ∧ (params.enableFans = true → 0xB55 < n) ∧ (params.enableSensors = true → 0xB56 < n) := by
  obtain ⟨fans,sensors⟩ := params
  cases fans <;> cases sensors <;> simp [Params.active,flags,fanFlags,sensorFlags] <;> omega

-- A run that stays inside leaves every flag of its tables set and all other bytes alone.
theorem init_sets {gnvs : Image} {params : Params} {ietm : Bool} {done : Done}
    (accepted : findGnvs (some d) = some (.ok region)) (mapped : memremap.map region.addr region.len = some gnvs)
    (run : dptfEnablerInit (some d) memremap params ietm = some (.ok done)) :
    (∀ flag ∈ params.active,u8 done.setting.gnvs flag.off ≠ 0) ∧
      ∀ i,(∀ flag ∈ params.active,flag.off ≠ i) → readU8 done.setting.gnvs i = readU8 gnvs i := by
  have checks := setFlags_checks ⟨gnvs,0,[]⟩ params.active
  rw [init_mapped accepted mapped] at run
  obtain ⟨s,set,finished⟩ := Option.map_eq_some_iff.mp run
  have inside := checks.needs (by rw [set]; rfl)
  rw [checks.gives inside] at set
  cases Option.some.inj set
  cases Except.ok.inj finished
  have same (r : Setting) : (finish ietm r).setting.gnvs = r.gnvs := by
    unfold finish
    split <;> rfl
  rw [same]
  exact ⟨fun flag member => run_sets inside member,fun i apart => run_apart apart⟩

end Runs

-- Every access is inside the mapping exactly when there is none or the region that
-- the firmware declares reaches over the last flag of each table in use.
theorem init_inside_iff {d : Dsdt} {region : Gnvs} (accepted : findGnvs (some d) = some (.ok region)) (memremap : Memremap)
    (params : Params) (ietm : Bool) : (dptfEnablerInit (some d) memremap params ietm).isSome = true ↔
      memremap.map region.addr region.len = none ∨ 0x969 < region.len ∧
        (params.enableFans = true → 0xB55 < region.len) ∧ (params.enableSensors = true → 0xB56 < region.len) := by
  cases mapped : memremap.map region.addr region.len with
  | none => simp [init_unmapped accepted mapped]
  | some gnvs =>
    have size : gnvs.length = region.len := memremap.sized _ _ _ mapped
    have checks := setFlags_checks ⟨gnvs,0,[]⟩ params.active
    have inside : (setFlags ⟨gnvs,0,[]⟩ params.active).isSome = true ↔ ∀ flag ∈ params.active,flag.off < region.len := by
      rw [← size]
      exact ⟨checks.needs,fun all => by rw [checks.gives all]; rfl⟩
    rw [init_mapped accepted mapped,Option.isSome_map,inside,active_inside]
    simp

-- Firmware whose region has so many bytes.
def headerBytes (size : BitVec 8) : Image := [0x44#8,0x53#8,0x44#8,0x54#8,size,0#8,0#8,0#8]++List.replicate 28 0#8

def wholeDsdt : Dsdt where
  bytes := headerBytes 51#8++gnvsPattern++[0x0C#8,0x00#8,0x10#8,0x5B#8,0x7A#8,0x0B#8,0x57#8,0x0B#8]
  declared := by decide

def shortDsdt : Dsdt where
  bytes := headerBytes 50#8++gnvsPattern++[0x0C#8,0x00#8,0x10#8,0x5B#8,0x7A#8,0x0A#8,0x80#8]
  declared := by decide

def zeroed : Memremap := ⟨fun _ len => some (List.replicate len 0#8),fun _ len gnvs mapped => by
  cases mapped
  exact List.length_replicate⟩

theorem whole_found : findGnvs (some wholeDsdt) = some (.ok ⟨0x7A5B1000,0x0B57⟩) := by
  rw [findGnvs,wholeDsdt.declared,Option.bind_some,scan_hit (by decide) (by decide)]
  rfl

theorem short_found : findGnvs (some shortDsdt) = some (.ok ⟨0x7A5B1000,0x80⟩) := by
  rw [findGnvs,shortDsdt.declared,Option.bind_some,scan_hit (by decide) (by decide)]
  rfl

theorem init_inside_whole : (dptfEnablerInit (some wholeDsdt) zeroed ⟨true,true⟩ true).isSome = true :=
  (init_inside_iff whole_found zeroed ⟨true,true⟩ true).mpr (Or.inr (by decide))

theorem init_writes_past_region : ¬∀ d region memremap params ietm,findGnvs (some d) = some (.ok region) →
    (dptfEnablerInit (some d) memremap params ietm).isSome = true := by
  intro inside
  have run := inside shortDsdt _ zeroed ⟨false,false⟩ true short_found
  have mapped : zeroed.map 0x7A5B1000 0x80 = some (List.replicate 0x80 0#8) := rfl
  rw [init_mapped short_found mapped,Option.isSome_map] at run
  have reached := (setFlags_checks _ _).needs run ⟨0x1F4,"PWRE"⟩ (by simp [Params.active,flags])
  simp [Inside] at reached

end ChuwiMinibook.DptfGnvs
