import ChuwiMinibook.ApctSlots
import ChuwiMinibook.RecordLoops

namespace ChuwiMinibook.ApctBoundaries
open ByteScan Scan GddvTables GddvReads GddvLoops GddvEncoding ApctSlots

-- A slot of version 1 is three numbers; one of version 2 names a device.
structure Slot1 where
  condition : UInt64
  comparison : UInt64
  argument : UInt64

def Slot1.bytes (s : Slot1) : Bytes :=
  number s.condition.toNat++(number s.comparison.toNat++number s.argument.toNat)

def kind1 : Kind Slot1 where
  bytes := Slot1.bytes
  made target s := slot target s.condition.toNat "" s.comparison.toNat s.argument.toNat
  comparison s := s.comparison.toNat
  time s := s.argument.toNat

def kind2 : Kind ConditionTables.Slot where
  bytes := ConditionTables.Slot.bytes
  made target s := slot target s.condition.toNat s.named s.comparison.toNat s.argument.toNat
  comparison s := s.comparison.toNat
  time s := s.argument.toNat

theorem content1 (s : Slot1) : kind1.bytes s ≠ [] := by
  apply List.ne_nil_of_length_pos
  simp only [kind1,Slot1.bytes,List.length_append,length_number]
  omega

theorem content2 (s : ConditionTables.Slot) : kind2.bytes s ≠ [] :=
  List.ne_nil_of_length_pos (ConditionTables.length_slot s)

section Parts
variable {v : Bytes} (small : v.length < 2147483648)

-- The operator behind a time slot may lie behind the table.
theorem yields_skip_any (i n : Nat) : Yields v (skip n) i () (toInt (i+n : Nat)) id := ⟨rfl,rfl⟩

include small

theorem yields_head1 (target : Int) (i : Nat) (s : Slot1) (stands : Stands v i s.bytes) :
    Yields v (head1 target) i (kind1.made target s) (i+s.bytes.length : Nat) id := by
  have comparison := after_number stands
  have argument := after_number comparison
  have size : i+s.bytes.length = i+12+12+12 := by
    simp only [Slot1.bytes,List.length_append,length_number]
  rw [size]
  unfold head1
  refine yields_after (yields_getUint64 small stands.left s.condition.toNat_lt) ?_
  refine yields_after (yields_getUint64 small comparison.left s.comparison.toNat_lt) ?_
  refine yields_after (yields_getUint64 small argument s.argument.toNat_lt) ?_
  exact yields_done v _ _

-- The two numbers that are kept of a time slot, and the operator behind it.
theorem yields_timed {i : Nat} {comparison time : UInt64} (first : Stands v i (number comparison.toNat))
    (second : Stands v (i+12) (number time.toNat)) :
    Yields v (do
      let timeComparison ← getUint64
      let time ← getUint64
      skip 12
      return (timeComparison,time)) i (comparison.toNat,time.toNat) (toInt (i+12+12+12 : Nat)) id := by
  refine yields_after (yields_getUint64 small first comparison.toNat_lt) ?_
  refine yields_after (yields_getUint64 small second time.toNat_lt) ?_
  refine yields_after (yields_skip_any _ 12) ?_
  exact yields_done v _ _

theorem yields_timePart1 (i : Nat) (s : Slot1) (stands : Stands v i s.bytes) :
    Yields v timePart1 i (s.comparison.toNat,s.argument.toNat) (toInt (i+s.bytes.length+12 : Nat)) id := by
  have comparison := after_number stands
  have argument := after_number comparison
  have inside := stands.1
  have size : i+s.bytes.length = i+12+12+12 := by
    simp only [Slot1.bytes,List.length_append,length_number]
  rw [size] at inside ⊢
  unfold timePart1
  refine yields_after (yields_skip small (n := 12) (by omega)) ?_
  exact yields_timed small comparison.left argument

theorem yields_head2 (target : Int) (i : Nat) (s : ConditionTables.Slot) (stands : Stands v i s.bytes) :
    Yields v (head2 target apctReserved) i (kind2.made target s) (i+s.bytes.length : Nat) id := by
  have device := after_number stands
  have blank := after_text device
  have comparison := after_field blank
  have argument := after_number comparison
  have size : i+s.bytes.length = i+12+12+s.device.length+12+12+12 := by
    simp only [ConditionTables.Slot.bytes,List.length_append,length_number,length_text,length_field]
    omega
  rw [← List.append_assoc s.reserved.bytes,← List.append_assoc (text s.device)] at device
  rw [size]
  unfold head2
  refine yields_after (yields_getUint64 small stands.left s.condition.toNat_lt) ?_
  refine yields_after (yields_getText small device.left (ConditionTables.named_ends s)) ?_
  refine yields_after (ConditionTables.yields_apctReserved small _ _ blank.left) ?_
  refine yields_after (yields_getUint64 small comparison.left s.comparison.toNat_lt) ?_
  refine yields_after (yields_getUint64 small argument s.argument.toNat_lt) ?_
  exact yields_done v _ _

theorem yields_timePart2 (i : Nat) (s : ConditionTables.Slot) (stands : Stands v i s.bytes) :
    Yields v apctTimePart i (s.comparison.toNat,s.argument.toNat) (toInt (i+s.bytes.length+12 : Nat)) id := by
  have device := after_number stands
  have blank := after_text device
  have comparison := after_field blank
  have argument := after_number comparison
  have inside := stands.1
  have size : i+s.bytes.length = i+12+12+s.device.length+12+12+12 := by
    simp only [ConditionTables.Slot.bytes,List.length_append,length_number,length_text,length_field]
    omega
  rw [size] at inside ⊢
  unfold apctTimePart
  refine yields_after (yields_skip small (n := 12) (by omega)) ?_
  refine yields_after (yields_getString small device.left) ?_
  refine yields_after (yields_skip small (n := 12) (by omega)) ?_
  exact yields_timed small comparison.left argument

end Parts

-- A loop over condition sets, of which one may be read late.
section Loops
variable {ρ : Type} {v : Bytes} {encoded : ρ → Bytes} {made stated : ρ → List Condition} {isLate : ρ → Bool}
  {plain : ρ → Prop} {body : Unit → Parse Unit} {len : Int} {records : List ρ} {p : Parse Unit} {fuel : Nat}

theorem keep_sets (records : List ρ) (g : Vault) :
    records.foldl (fun g x => {g with conditions := g.conditions++[made x]}) g =
      {g with conditions := g.conditions++records.map made} :=
  foldl_keep (fun kept (g : Vault) => {g with conditions := g.conditions++kept}) (by simp) (by simp) made records g

theorem exact_iff
    (each : ∀ x ∈ records,∀ (u : Unit) (i : Nat),Stands v i (encoded x) → Yields v (body u) i ()
      (if isLate x then toInt (i+(encoded x).length+12 : Nat) else (i+(encoded x).length : Nat))
      (fun g => {g with conditions := g.conditions++[made x]}))
    (plains : ∀ x ∈ records,plain x ↔ isLate x = false ∧ made x = stated x)
    (content : ∀ x ∈ records,encoded x ≠ []) (enough : records.length < fuel)
    (stands : Stands v 12 (records.flatMap encoded)) (stop : len = (12+(records.flatMap encoded).length : Nat))
    (starts : Passes v p 0 (whileBelow len body fuel ()) (12 : Nat)) :
    heads v len body fuel () (12 : Nat) = boundaries encoded 12 records ∧
        run v p = ⟨fun g => {g with conditions := g.conditions++records.map stated},.ok ()⟩ ↔
      ∀ x ∈ records,plain x := by
  have prompt : ∀ x ∈ records,¬isLate x = true → ∀ (u : Unit) (i : Nat),Stands v i (encoded x) →
      Yields v (body u) i () (i+(encoded x).length : Nat) (fun g => {g with conditions := g.conditions++[made x]}) := by
    intro x listed onTime u i here
    have yields := each x listed u i here
    rwa [if_neg onTime] at yields
  have past : ∀ x ∈ records,isLate x = true → ∀ (u : Unit) (i : Nat),Stands v i (encoded x) →
      ∀ a j,exec v (body u) i = .ok (a,j) → j ≠ (i+(encoded x).length : Nat) := by
    intro x listed isLate u i here a j ran
    have yields := (each x listed u i here).1
    rw [if_pos isLate,ran,Except.ok.injEq,Prod.mk.injEq] at yields
    rw [yields.2,Int.natCast_add _ 12]
    exact toInt_moved _ (by decide) (by decide)
  have onTime := heads_boundaries_iff prompt past content enough () stands stop
  have result : (∀ x ∈ records,¬isLate x = true) →
      run v p = ⟨fun g => {g with conditions := g.conditions++records.map made},.ok ()⟩ := by
    intro onTime
    have loop := yields_whileBelow (fun x listed => prompt x listed (onTime x listed)) content enough () stands stop
    have whole := starts.yields loop
    rw [yields_run whole]
    congr 1
    funext g
    exact keep_sets records g
  rw [onTime]
  constructor
  · rintro ⟨onTime,returned⟩ x listed
    rw [result onTime] at returned
    have changes := congrFun (Outcome.mk.inj returned).1 Vault.new
    have sets : records.map made = records.map stated := congrArg (fun g : Vault => g.conditions) changes
    exact (plains x listed).mpr ⟨Bool.eq_false_iff.mpr (onTime x listed),List.map_inj_left.mp sets x listed⟩
  · intro plain
    have parts := fun x listed => (plains x listed).mp (plain x listed)
    have onTime : ∀ x ∈ records,¬isLate x = true := fun x listed => Bool.eq_false_iff.mp (parts x listed).1
    refine ⟨onTime,?_⟩
    rw [result onTime,List.map_congr_left (fun x listed => (parts x listed).2)]

end Loops

-- The sets of version 1 have ten slots, those of version 2 declare their number.
structure Set1 where
  target : UInt64
  first : Slot1
  rest : Tail Slot1
  ten : rest.length = 9
  named : toInt target.toNat ≠ -1

structure Set2 where
  target : UInt64
  slots : Option (ConditionTables.Slot × Tail ConditionTables.Slot)
  named : toInt target.toNat ≠ -1

namespace Set1

def bytes (set : Set1) : Bytes := number set.target.toNat++(set.first.bytes++tailBytes kind1 set.rest)

def conditions (set : Set1) : List Condition := ApctSlots.conditions kind1 (toInt set.target.toNat) (some set.first) set.rest

def made (set : Set1) : List Condition := taken kind1 (toInt set.target.toNat) set.first set.rest

end Set1

namespace Set2

def count (set : Set2) : Nat := set.slots.elim 0 (fun slots => slots.2.length+1)

def slotBytes (set : Set2) : Bytes := set.slots.elim [] (fun slots => slots.1.bytes++tailBytes kind2 slots.2)

def bytes (set : Set2) : Bytes := number set.target.toNat++(number set.count++set.slotBytes)

def conditions (set : Set2) : List Condition :=
  set.slots.elim [] (fun slots => ApctSlots.conditions kind2 (toInt set.target.toNat) (some slots.1) slots.2)

def made (set : Set2) : List Condition := set.slots.elim [] (fun slots => taken kind2 (toInt set.target.toNat) slots.1 slots.2)

def isLate (set : Set2) : Bool := set.slots.elim false (fun slots => late slots.2)

def Plain (set : Set2) : Prop := ∀ slots ∈ set.slots,ApctSlots.Plain slots.2

theorem plain_iff (set : Set2) : set.Plain ↔ set.isLate = false ∧ set.made = set.conditions := by
  unfold Plain isLate made conditions
  cases set.slots with
  | none => simp
  | some slots => simpa using ApctSlots.plain_iff kind2 _ slots.1 slots.2

theorem count_le (set : Set2) : set.count ≤ set.slotBytes.length := by
  have each : ∀ rest : Tail ConditionTables.Slot,rest.length ≤ (tailBytes kind2 rest).length := by
    intro rest
    induction rest with
    | nil => exact Nat.le_refl _
    | cons slot rest ih =>
      rw [tailBytes] at ih
      rw [tailBytes,List.flatMap_cons,List.length_cons,List.length_append,List.length_append,length_number]
      omega
  unfold count slotBytes
  cases set.slots with
  | none => exact Nat.le_refl _
  | some slots =>
    have first := ConditionTables.length_slot slots.1
    have rest := each slots.2
    simp only [Option.elim_some,List.length_append]
    omega

end Set2

section Records
variable {v : Bytes} (small : v.length < 2147483648) {len : Int} (room : (v.length : Int) ≤ len)
include small room

theorem yields_set1 (set : Set1) (u : Unit) (i : Nat) (stands : Stands v i set.bytes) :
    Yields v (apctRecord1 len u) i ()
      (if late set.rest then toInt (i+set.bytes.length+12 : Nat) else (i+set.bytes.length : Nat))
      (fun g => {g with conditions := g.conditions++[set.made]}) := by
  have size : i+set.bytes.length = i+12+(kind1.bytes set.first++tailBytes kind1 set.rest).length := by
    rw [Set1.bytes,List.length_append,length_number,Nat.add_assoc]
    rfl
  have row := yields_row (k := kind1) small room (yields_head1 small (toInt set.target.toNat)) (yields_timePart1 small)
    content1 (after_number stands) []
  rw [set.ten,← slots1_by] at row
  unfold apctRecord1
  refine yields_after (yields_getUint64 small stands.left set.target.toNat_lt) ?_
  rw [if_neg set.named,size]
  refine yields_after row ?_
  exact yields_write v _ _

theorem yields_slots (set : Set2) (i : Nat) (stands : Stands v i set.slotBytes) :
    Yields v (slotsBy len (head2 (toInt set.target.toNat) apctReserved) apctTimePart set.count []) i set.made
      (if set.isLate then toInt (i+set.slotBytes.length+12 : Nat) else (i+set.slotBytes.length : Nat)) id := by
  obtain ⟨target,slots,named⟩ := set
  cases slots with
  | none => exact yields_done v _ _
  | some slots =>
    exact yields_row (k := kind2) small room (yields_head2 small (toInt target.toNat)) (yields_timePart2 small)
      content2 stands []

theorem yields_set2 (set : Set2) (u : Unit) (i : Nat) (stands : Stands v i set.bytes) :
    Yields v (apctRecord2 len u) i ()
      (if set.isLate then toInt (i+set.bytes.length+12 : Nat) else (i+set.bytes.length : Nat))
      (fun g => {g with conditions := g.conditions++[set.made]}) := by
  have size : i+set.bytes.length = i+12+12+set.slotBytes.length := by
    simp only [Set2.bytes,List.length_append,length_number]
    omega
  have count := after_number stands
  have slots := after_number count
  have inside := slots.1
  have bound := set.count_le
  have counted : (toInt set.count).toNat = set.count := by
    rw [toInt_small (by omega) (by omega),Int.toNat_natCast]
  unfold apctRecord2
  refine yields_after (yields_getUint64 small stands.left set.target.toNat_lt) ?_
  rw [if_neg set.named,size]
  refine yields_after (yields_getUint64 small count.left (by omega)) ?_
  rw [counted,slots2_by]
  refine yields_after (yields_slots small room set _ slots) ?_
  exact yields_write v _ _

end Records

-- The length of a table is an int.
inductive ApctTable where
  | version1 (sets : List Set1) (small : (number 1++sets.flatMap Set1.bytes).length < 2147483648)
  | version2 (sets : List Set2) (small : (number 2++sets.flatMap Set2.bytes).length < 2147483648)

namespace ApctTable

def bytes : ApctTable → Bytes
  | version1 sets _ => number 1++sets.flatMap Set1.bytes
  | version2 sets _ => number 2++sets.flatMap Set2.bytes

def size : ApctTable → Nat
  | version1 sets _ => sets.length
  | version2 sets _ => sets.length

def conditions : ApctTable → List (List Condition)
  | version1 sets _ => sets.map Set1.conditions
  | version2 sets _ => sets.map Set2.conditions

-- The ends of the sets, behind the version.
def ends : ApctTable → List Int
  | version1 sets _ => boundaries Set1.bytes 12 sets
  | version2 sets _ => boundaries Set2.bytes 12 sets

def Plain : ApctTable → Prop
  | version1 sets _ => ∀ set ∈ sets,ApctSlots.Plain set.rest
  | version2 sets _ => ∀ set ∈ sets,set.Plain

end ApctTable

-- The offsets of parse_apct behind the version and behind each set.
def offsets (v : Bytes) (fuel : Nat) (len : Int) : List Int :=
  match exec v getUint64 0 with
  | .ok (1,i) => heads v len (apctRecord1 len) fuel () i
  | .ok (2,i) => heads v len (apctRecord2 len) fuel () i
  | _ => []

-- parse_apct stops at the ends of the sets and returns them.
def Exact (t : ApctTable) : Prop := ∀ fuel,t.size < fuel →
  offsets t.bytes fuel (toInt t.bytes.length) = t.ends ∧
    run t.bytes (parseApct fuel (toInt t.bytes.length)) =
      ⟨fun g => {g with conditions := g.conditions++t.conditions},.ok ()⟩

theorem set1_content (set : Set1) : set.bytes ≠ [] := by
  apply List.ne_nil_of_length_pos
  simp only [Set1.bytes,List.length_append,length_number]
  omega

theorem set2_content (set : Set2) : set.bytes ≠ [] := by
  apply List.ne_nil_of_length_pos
  simp only [Set2.bytes,List.length_append,length_number]
  omega

-- A table of one version, from what the version selects.
theorem version_iff {ρ : Type} {encoded : ρ → Bytes} {made stated : ρ → List Condition} {isLate : ρ → Bool} {plain : ρ → Prop}
    (record : Int → Unit → Parse Unit) {version fuel : Nat} (sets : List ρ) (named : version < 18446744073709551616)
    (small : (number version++sets.flatMap encoded).length < 2147483648) (enough : sets.length < fuel)
    (content : ∀ set,encoded set ≠ []) (plains : ∀ set,plain set ↔ isLate set = false ∧ made set = stated set)
    (first : ∀ v len i,exec v getUint64 0 = .ok (version,i) → offsets v fuel len = heads v len (record len) fuel () i)
    (loop : ∀ v len i,Yields v getUint64 0 version i id →
      Passes v (parseApct fuel len) 0 (whileBelow len (record len) fuel ()) i)
    (each : ∀ v : Bytes,v.length < 2147483648 → ∀ len : Int,(v.length : Int) ≤ len → ∀ set u (i : Nat),Stands v i (encoded set) →
      Yields v (record len u) i () (if isLate set then toInt (i+(encoded set).length+12 : Nat) else (i+(encoded set).length : Nat))
        (fun g => {g with conditions := g.conditions++[made set]})) :
    offsets (number version++sets.flatMap encoded) fuel (toInt (number version++sets.flatMap encoded).length) =
        boundaries encoded 12 sets ∧
      run (number version++sets.flatMap encoded) (parseApct fuel (toInt (number version++sets.flatMap encoded).length)) =
        ⟨fun g => {g with conditions := g.conditions++sets.map stated},.ok ()⟩ ↔
      ∀ set ∈ sets,plain set := by
  have read := yields_getUint64 small (i := 0) (stands_whole _).left named
  have length : toInt (number version++sets.flatMap encoded).length = (number version++sets.flatMap encoded).length :=
    toInt_small (by omega) (by omega)
  have stands : Stands (number version++sets.flatMap encoded) 12 (sets.flatMap encoded) := by
    have rest := after_number (stands_whole (number version++sets.flatMap encoded))
    rwa [Nat.zero_add] at rest
  rw [first _ _ _ read.1]
  refine exact_iff (fun set _ u i here => each _ small _ (Int.le_of_eq length.symm) set u i here)
    (fun set _ => plains set) (fun set _ => content set) enough stands ?_ (loop _ _ _ read)
  rw [length,List.length_append,length_number]

theorem exact_at_iff (t : ApctTable) {fuel : Nat} (enough : t.size < fuel) :
    offsets t.bytes fuel (toInt t.bytes.length) = t.ends ∧
      run t.bytes (parseApct fuel (toInt t.bytes.length)) =
        ⟨fun g => {g with conditions := g.conditions++t.conditions},.ok ()⟩ ↔ t.Plain := by
  cases t with
  | version1 sets small =>
    refine version_iff apctRecord1 sets (by decide) small enough set1_content
      (fun set => plain_iff kind1 _ set.first set.rest) ?_ ?_ (fun v small len room => yields_set1 small room)
    · intro v len i read
      rw [offsets,read]
      rfl
    · intro v len i read
      unfold parseApct
      refine passes_after read ?_
      rw [if_pos rfl]
      exact passes_refl _ _ _
  | version2 sets small =>
    refine version_iff apctRecord2 sets (by decide) small enough set2_content
      Set2.plain_iff ?_ ?_ (fun v small len room => yields_set2 small room)
    · intro v len i read
      rw [offsets,read]
      rfl
    · intro v len i read
      unfold parseApct
      refine passes_after read ?_
      rw [if_neg (by decide),if_pos rfl]
      exact passes_refl _ _ _

theorem boundaries_exact_iff (t : ApctTable) : Exact t ↔ t.Plain := by
  constructor
  · intro exact
    exact (exact_at_iff t (Nat.lt_succ_self _)).mp (exact _ (Nat.lt_succ_self _))
  · intro plain fuel enough
    exact (exact_at_iff t enough).mpr plain

theorem lasting_target_named : toInt (1 : UInt64).toNat ≠ -1 := by decide

-- One set whose only condition has to last, as its time slot is the last one.
def lastingTable : ApctTable := .version2
  [⟨1,some (⟨2,[0],⟨4,0⟩,1,30⟩,[(2,⟨2,[0],⟨4,0⟩,3,10⟩)]),lasting_target_named⟩] (by decide +kernel)

theorem last_time_slot_late : ¬∀ t,Exact t := by
  intro claim
  have plain := (exact_at_iff lastingTable (by decide : lastingTable.size < 2)).mp (claim lastingTable 2 (by decide))
  have last := (plain _ (List.mem_singleton.mpr rfl) _ rfl).1 _ rfl
  cases last

end ChuwiMinibook.ApctBoundaries
