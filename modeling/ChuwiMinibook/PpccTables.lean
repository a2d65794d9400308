import ChuwiMinibook.GddvEncoding

namespace ChuwiMinibook.PpccTables
open ByteScan Scan GddvTables GddvReads GddvLoops

def packagePpcc : String := "TCPU.D0"

def getPpccParam (g : Vault) (name : String) : Option Ppcc :=
  if name ≠ packagePpcc then none else g.ppccs.find? (fun p => p.name = name)

def minibookPpccPl1Min : Int := 8000

def minibookPpccPl1Max : Int := 17000

def minibookPpccStepSize : Int := 500

-- What the adaptive engine makes of limits that are locked (min==max).
def overrideLocked (p : Ppcc) : Ppcc :=
  if p.powerLimitMax ≤ p.powerLimitMin then
    {p with powerLimitMin := minibookPpccPl1Min,powerLimitMax := minibookPpccPl1Max,stepSize := minibookPpccStepSize}
  else p

-- cthd_engine_adaptive::get_ppcc_param writes through the pointer it got.
def overrideFirst (name : String) : List Ppcc → List Ppcc
  | [] => []
  | p::rest => if p.name = name then overrideLocked p::rest else p::overrideFirst name rest

def engineGetPpccParam (g : Vault) (name : String) : Vault × Option Ppcc :=
  match getPpccParam g name with
  | none => (g,none)
  | some p => ({g with ppccs := overrideFirst name g.ppccs},some (overrideLocked p))

theorem overrideLocked_range (p : Ppcc) : (overrideLocked p).powerLimitMin < (overrideLocked p).powerLimitMax := by
  unfold overrideLocked
  split
  · exact show minibookPpccPl1Min < minibookPpccPl1Max by decide
  · omega

theorem overrideLocked_open {p : Ppcc} (range : p.powerLimitMin < p.powerLimitMax) : overrideLocked p = p :=
  if_neg (by omega)

-- A second call of the engine finds what the first one returned.
theorem overrideFirst_found (name : String) (ppccs : List Ppcc) :
    (overrideFirst name ppccs).find? (fun p => p.name = name) =
      (ppccs.find? (fun p => p.name = name)).map overrideLocked := by
  induction ppccs with
  | nil => rfl
  | cons p rest ih =>
    have kept : (overrideLocked p).name = p.name := by
      unfold overrideLocked
      split <;> rfl
    by_cases same : p.name = name
    · simp [overrideFirst,same,kept]
    · simp [overrideFirst,same,ih]

theorem engine_get_again (g : Vault) (name : String) :
    (engineGetPpccParam (engineGetPpccParam g name).1 name).2 = (engineGetPpccParam g name).2 := by
  have range : ∀ p,overrideLocked (overrideLocked p) = overrideLocked p :=
    fun p => overrideLocked_open (overrideLocked_range p)
  by_cases same : name = packagePpcc
  · cases found : g.ppccs.find? (fun p => p.name = name) with
    | none => simp [engineGetPpccParam,getPpccParam,same,same ▸ found]
    | some p =>
      have again := overrideFirst_found name g.ppccs
      rw [found] at again
      simp [engineGetPpccParam,getPpccParam,same,same ▸ found,same ▸ again,range]
  · simp [engineGetPpccParam,getPpccParam,same]

-- The numbers a value holds, by their places: the first limit with the fields
-- they are kept in, and the second limit.
def encoded (v : Bytes) (place : Nat) : Nat := little (bytesAt v place 8)

def limit0 : List (Nat × (Ppcc → Int)) :=
  [(28,Ppcc.powerLimitMin),(40,Ppcc.powerLimitMax),(52,Ppcc.timeWindMin),(64,Ppcc.timeWindMax),(76,Ppcc.stepSize)]

def limit1 : List Nat := [100,112,124,136,148]

-- One entry more, found by its name behind the earlier ones, with the numbers of
-- the value; the second limit is valid when it is there and nowhere zero. The
-- engine is given the same each time it asks.
structure Kept (name v : Bytes) (g : Vault) (e : Ppcc) : Prop where
  done : (run v (parsePpcc name (toInt v.length))).result = .ok ()
  added : (run v (parsePpcc name (toInt v.length))).effect g = {g with ppccs := g.ppccs++[e]}
  named : e.name = toText name
  exact : ∀ field ∈ limit0,field.2 e = encoded v field.1
  second : e.limit1Valid = true ↔ 156 ≤ v.length ∧ ∀ place ∈ limit1,encoded v place ≠ 0
  found : getPpccParam {g with ppccs := g.ppccs++[e]} packagePpcc =
    (getPpccParam g packagePpcc).or (if e.name = packagePpcc then some e else none)
  again : ∀ asked : String,
    (engineGetPpccParam (engineGetPpccParam {g with ppccs := g.ppccs++[e]} asked).1 asked).2 =
      (engineGetPpccParam {g with ppccs := g.ppccs++[e]} asked).2

def TableKept (name v : Bytes) : Prop := ∀ g : Vault,∃ e,Kept name v g e

-- The length, as the int parse_ppcc takes, covers both limits, the numbers of the
-- first one fit an int, and none of the second one is lost in an int.
structure Keepable (v : Bytes) : Prop where
  long : 156 ≤ toInt v.length
  first : ∀ field ∈ limit0,encoded v field.1 < 2147483648
  second : (∀ place ∈ limit1,encoded v place ≠ 0) → ∀ place ∈ limit1,encoded v place % 4294967296 ≠ 0

def entry (name v : Bytes) : Ppcc :=
  ⟨toText name,toInt (encoded v 28),toInt (encoded v 40),toInt (encoded v 52),toInt (encoded v 64),toInt (encoded v 76),
    decide (∀ place ∈ limit1,toInt (encoded v place) ≠ 0),toInt (encoded v 100),toInt (encoded v 112),
    toInt (encoded v 124),toInt (encoded v 136),toInt (encoded v 148)⟩

section Runs
variable {v : Bytes} (name : Bytes)

theorem yields_encoded (place : Nat) (inside : place+8 ≤ v.length) (j : Int) :
    Yields v (word place 8 : Parse Nat) j (encoded v place) j id := by
  have room : Inside v place 8 := ⟨by omega,by omega⟩
  refine ⟨?_,?_⟩
  · rw [word,exec,if_pos room]
    rfl
  · rw [word,effect,if_pos room]
    rfl

-- The five numbers of the first limit, read in front of the length check.
theorem passes_limit0 {β : Type} (whole : 84 ≤ v.length) (rest : Nat → Nat → Nat → Nat → Nat → Parse β) :
    Passes v (do
      let powerLimitMin ← word 28 8
      let powerLimitMax ← word 40 8
      let timeWindMin ← word 52 8
      let timeWindMax ← word 64 8
      let stepSize ← word 76 8
      rest powerLimitMin powerLimitMax timeWindMin timeWindMax stepSize) 0
    (rest (encoded v 28) (encoded v 40) (encoded v 52) (encoded v 64) (encoded v 76)) 0 := by
  refine passes_after (yields_encoded 28 (by omega) 0) ?_
  refine passes_after (yields_encoded 40 (by omega) 0) ?_
  refine passes_after (yields_encoded 52 (by omega) 0) ?_
  refine passes_after (yields_encoded 64 (by omega) 0) ?_
  refine passes_after (yields_encoded 76 (by omega) 0) ?_
  exact passes_refl v _ _

theorem parsePpcc_short (whole : 84 ≤ v.length) {len : Int} (short : len < 156) :
    run v (parsePpcc name len) = ⟨id,.ok ()⟩ := by
  have result : Yields v (parsePpcc name len) 0 () 0 id := by
    unfold parsePpcc
    refine (passes_limit0 whole _).yields ?_
    rw [if_pos short]
    exact yields_done v () 0
  exact yields_run result

theorem parsePpcc_long (long : 156 ≤ v.length) {len : Int} (covers : ¬len < 156) :
    run v (parsePpcc name len) = ⟨fun g => {g with ppccs := g.ppccs++[entry name v]},.ok ()⟩ := by
  have valid : decide (toInt (encoded v 112) ≠ 0 ∧ toInt (encoded v 100) ≠ 0 ∧ toInt (encoded v 124) ≠ 0 ∧
      toInt (encoded v 136) ≠ 0 ∧ toInt (encoded v 148) ≠ 0) =
      decide (∀ place ∈ limit1,toInt (encoded v place) ≠ 0) := by
    rw [decide_eq_decide]
    simp only [limit1,List.forall_mem_cons]
    constructor
    · rintro ⟨max,min,rest⟩
      exact ⟨min,max,rest.1,rest.2.1,rest.2.2,by simp⟩
    · rintro ⟨min,max,low,high,step,-⟩
      exact ⟨max,min,low,high,step⟩
  have result : Yields v (parsePpcc name len) 0 () 0 (fun g => {g with ppccs := g.ppccs++[entry name v]}) := by
    unfold parsePpcc
    refine (passes_limit0 (by omega) _).yields ?_
    rw [if_neg covers]
    refine yields_after (yields_encoded 100 (by omega) 0) ?_
    refine yields_after (yields_encoded 112 (by omega) 0) ?_
    refine yields_after (yields_encoded 124 (by omega) 0) ?_
    refine yields_after (yields_encoded 136 (by omega) 0) ?_
    refine yields_after (yields_encoded 148 (by omega) 0) ?_
    dsimp only
    rw [valid]
    exact yields_write v _ 0
  exact yields_run result

end Runs

theorem found_behind (g : Vault) (e : Ppcc) : getPpccParam {g with ppccs := g.ppccs++[e]} packagePpcc =
    (getPpccParam g packagePpcc).or (if e.name = packagePpcc then some e else none) := by
  by_cases same : e.name = packagePpcc <;> simp [getPpccParam,List.find?_append,same]

theorem toInt_zero_iff (n : Nat) : toInt n = 0 ↔ n % 4294967296 = 0 := by
  unfold toInt
  rw [← Int.dvd_iff_bmod_eq_zero]
  omega

-- The entry of a long value, against the numbers that were encoded.
theorem entry_exact_iff (name v : Bytes) : (∀ field ∈ limit0,field.2 (entry name v) = encoded v field.1) ↔
    ∀ field ∈ limit0,encoded v field.1 < 2147483648 := by
  have each : ∀ field ∈ limit0,field.2 (entry name v) = toInt (encoded v field.1) := by simp [limit0,entry]
  constructor
  · intro given field listed
    exact (toInt_kept_iff _).mp ((each field listed).symm.trans (given field listed))
  · intro given field listed
    exact (each field listed).trans ((toInt_kept_iff _).mpr (given field listed))

theorem entry_valid_iff {v : Bytes} (long : 156 ≤ v.length) (name : Bytes) :
    ((entry name v).limit1Valid = true ↔ 156 ≤ v.length ∧ ∀ place ∈ limit1,encoded v place ≠ 0) ↔
      ((∀ place ∈ limit1,encoded v place ≠ 0) → ∀ place ∈ limit1,encoded v place % 4294967296 ≠ 0) := by
  have valid : (entry name v).limit1Valid = true ↔ ∀ place ∈ limit1,encoded v place % 4294967296 ≠ 0 := by
    simp only [entry,decide_eq_true_iff,Ne,toInt_zero_iff]
  have weaker : (∀ place ∈ limit1,encoded v place % 4294967296 ≠ 0) → ∀ place ∈ limit1,encoded v place ≠ 0 := by
    intro given place listed zero
    exact given place listed (by rw [zero])
  rw [valid]
  constructor
  · intro given nonzero
    exact given.mpr ⟨long,nonzero⟩
  · intro given
    exact ⟨fun high => ⟨long,weaker high⟩,fun nonzero => given nonzero.2⟩

-- A value without the second limit is not kept.
theorem short_dropped (name : Bytes) {v : Bytes} (whole : 84 ≤ v.length) (short : toInt v.length < 156) :
    ¬TableKept name v := by
  intro kept
  obtain ⟨e,kept⟩ := kept Vault.new
  have added := kept.added
  rw [parsePpcc_short name whole short] at added
  have lengths := congrArg (fun g : Vault => g.ppccs.length) added
  simp at lengths

-- parse_ppcc keeps exactly the keepable values.
theorem table_kept_iff (name : Bytes) {v : Bytes} (whole : 84 ≤ v.length) : TableKept name v ↔ Keepable v := by
  by_cases covers : toInt v.length < 156
  · exact ⟨fun kept => absurd kept (short_dropped name whole covers),fun keepable => absurd keepable.long (by omega)⟩
  · have long : 156 ≤ v.length := by
      have bound := toInt_le_nat v.length
      omega
    have ran := parsePpcc_long name long covers
    constructor
    · intro kept
      obtain ⟨e,kept⟩ := kept Vault.new
      have added := kept.added
      rw [ran] at added
      have lists := congrArg Vault.ppccs added
      have same : entry name v = e := by simpa using lists
      subst same
      exact ⟨by omega,(entry_exact_iff name v).mp kept.exact,(entry_valid_iff long name).mp kept.second⟩
    · intro keepable g
      refine ⟨entry name v,?_,?_,rfl,(entry_exact_iff name v).mpr keepable.first,
        (entry_valid_iff long name).mpr keepable.second,found_behind g _,engine_get_again _⟩
      · rw [ran]
      · rw [ran]

-- A value as the firmware writes it: a version, and for each limit its index and
-- five numbers.
def limitFields (index : Nat) (numbers : List Nat) : Bytes := (index::numbers).flatMap GddvEncoding.number

def oneLimit : Bytes := GddvEncoding.number 2++limitFields 0 [8000,17000,28000,32000,500]

def twoLimits : Bytes := oneLimit++limitFields 1 [8000,25000,28000,32000,500]

theorem one_limit_dropped : oneLimit.length = 84 ∧ ¬TableKept (GddvParser.ascii "TCPU.D0") oneLimit ∧
    (run oneLimit (parsePpcc (GddvParser.ascii "TCPU.D0") 84)).effect = id := by
  have size : oneLimit.length = 84 := by decide
  refine ⟨size,short_dropped _ (by omega) (by rw [size]; decide),?_⟩
  rw [parsePpcc_short _ (by omega) (by decide)]

theorem two_limits_kept : TableKept (GddvParser.ascii "TCPU.D0") twoLimits := by
  have keepable : Keepable twoLimits :=
    ⟨by decide +kernel,by decide +kernel,fun _ => by decide +kernel⟩
  exact (table_kept_iff _ (by decide +kernel)).mpr keepable

end ChuwiMinibook.PpccTables
