import ChuwiMinibook.GddvEncoding

namespace ChuwiMinibook.ConditionTables
open ByteScan Scan GddvTables GddvReads GddvLoops GddvEncoding

-- Condition tables of version 2, from which the bytes are written: the slots of a
-- set, an operator behind every slot but the last, and behind FOR a full time
-- slot. A Field is one that parse_apct steps over: it may hold anything.
structure Slot where
  condition : UInt64
  device : Bytes
  reserved : Field
  comparison : UInt64
  argument : UInt64

structure TimeSlot where
  condition : Field
  device : Bytes
  reserved : Field
  comparison : UInt64
  time : UInt64
  operation : Field

inductive Slots where
  | none
  | last (s : Slot)
  | next (s : Slot) (operation : UInt64) (rest : Slots)
  | timed (s : Slot) (operation : UInt64) (t : TimeSlot) (rest : Slots)

def Slot.bytes (s : Slot) : Bytes :=
  number s.condition.toNat++(text s.device++(s.reserved.bytes++(number s.comparison.toNat++number s.argument.toNat)))

def TimeSlot.bytes (t : TimeSlot) : Bytes :=
  t.condition.bytes++(text t.device++(t.reserved.bytes++(number t.comparison.toNat++
    (number t.time.toNat++t.operation.bytes))))

-- A device name without a terminator runs on into the next fields.
def Slot.named (s : Slot) : String :=
  toText ((s.device++(s.reserved.bytes++number s.comparison.toNat)).takeWhile (· ≠ 0))

namespace Slots

def bytes : Slots → Bytes
  | none => []
  | last s => s.bytes
  | next s operation rest => s.bytes++(number operation.toNat++rest.bytes)
  | timed s operation t rest => s.bytes++(number operation.toNat++(t.bytes++rest.bytes))

-- A time slot counts as a slot.
def count : Slots → Nat
  | none => 0
  | last _ => 1
  | next _ _ rest => rest.count+1
  | timed _ _ _ rest => rest.count+2

def Valid : Slots → Prop
  | none => True
  | last _ => True
  | next _ operation rest => operation.toNat % 256 ≠ operationFor ∧ rest.count ≠ 0 ∧ rest.Valid
  | timed _ operation _ rest => operation.toNat % 256 = operationFor ∧ rest.Valid

-- Slots for a parser that takes some reserved fields, and time slots or none.
def readBy (takes : Field → Bool) (times : Bool) : Slots → Bool
  | none => true
  | last s => takes s.reserved
  | next s _ rest => takes s.reserved && rest.readBy takes times
  | timed s _ _ rest => takes s.reserved && (times && rest.readBy takes times)

-- No slot is timed, and the reserved fields are tagged as numbers.
def plain (slots : Slots) : Bool := slots.readBy (fun f => f.tag = 4) false

-- The conditions that the slots of a set stand for.
def conditions (target : Int) : Slots → List Condition
  | none => []
  | last s => [slot target s.condition.toNat s.named s.comparison.toNat s.argument.toNat 0 0 0]
  | next s operation rest =>
    slot target s.condition.toNat s.named s.comparison.toNat s.argument.toNat operation.toNat 0 0::
      rest.conditions target
  | timed s operation t rest =>
    slot target s.condition.toNat s.named s.comparison.toNat s.argument.toNat operation.toNat
      t.comparison.toNat t.time.toNat::rest.conditions target

end Slots

theorem readBy_all (slots : Slots) : slots.readBy (fun _ => true) true = true := by
  induction slots with
  | none => rfl
  | last s => rfl
  | next s operation rest ih => exact ih
  | timed s operation t rest ih => exact ih

theorem toNat_lt (n : UInt64) : n.toNat < 18446744073709551616 := n.toNat_lt

theorem named_ends (s : Slot) : 0 ∈ s.device++(s.reserved.bytes++number s.comparison.toNat) :=
  List.mem_append_right _ (List.mem_append_right _ (List.mem_append_left _ (by decide)))

theorem length_slot (s : Slot) : 0 < s.bytes.length := by
  simp only [Slot.bytes,List.length_append,length_number]
  omega

-- A slot starts before the end of the table.
theorem slot_inside {v : Bytes} {len : Int} (room : (v.length : Int) ≤ len) {i : Nat} {s : Slot}
    (stands : Stands v i s.bytes) : ¬(i : Int) ≥ len := by
  have here := stands.1
  have content := length_slot s
  omega

section Slots
variable {v : Bytes} (small : v.length < 2147483648) {target len : Int} (room : (v.length : Int) ≤ len)
  {reserved : Parse Unit} {timePart : Parse (Nat × Nat)} {takes : Field → Bool} {times : Bool}
include small room

-- The check in front of a slot and its fields up to the reserved one.
theorem passes_named {β : Type} {i : Nat} {s : Slot} (rest : Nat → String → Parse β) (stands : Stands v i s.bytes) :
    Passes v (do
      let offset ← position
      if offset ≥ len then .throw
      else do
        let condition ← getUint64
        let device ← getText
        rest condition device) i
    (rest s.condition.toNat s.named) (i+12+12+s.device.length : Nat) := by
  have device := after_number stands
  rw [← List.append_assoc s.reserved.bytes,← List.append_assoc (text s.device)] at device
  refine passes_after (⟨rfl,rfl⟩ : Yields v position i (i : Int) i id) ?_
  rw [if_neg (slot_inside room stands)]
  refine passes_after (yields_getUint64 small stands.left (toNat_lt _)) ?_
  refine passes_after (yields_getText small device.left (named_ends s)) ?_
  exact passes_refl v _ _

variable (reserves : ∀ (i : Nat) f,takes f = true → Stands v i f.bytes → Yields v reserved i () (i+12 : Nat) id)
include reserves

-- The whole slot in front of its operator.
theorem passes_slot {β : Type} {i : Nat} {s : Slot} (rest : Nat → String → Nat → Nat → Parse β)
    (stands : Stands v i s.bytes) (taken : takes s.reserved = true) :
    Passes v (do
      let offset ← position
      if offset ≥ len then .throw
      else do
        let condition ← getUint64
        let device ← getText
        reserved
        let comparison ← getUint64
        let argument ← getUint64
        rest condition device comparison argument) i
    (rest s.condition.toNat s.named s.comparison.toNat s.argument.toNat) (i+s.bytes.length : Nat) := by
  have blank := after_text (after_number stands)
  have comparison := after_field blank
  have argument := after_number comparison
  have size : i+s.bytes.length = i+12+12+s.device.length+12+12+12 := by
    simp only [Slot.bytes,List.length_append,length_number,length_text,length_field]
    omega
  rw [size]
  refine (passes_named small room _ stands).trans ?_
  refine passes_after (reserves _ _ taken blank.left) ?_
  refine passes_after (yields_getUint64 small comparison.left (toNat_lt _)) ?_
  refine passes_after (yields_getUint64 small argument (toNat_lt _)) ?_
  exact passes_refl v _ _

theorem yields_slots (timed : times = true → ∀ (i : Nat) (t : TimeSlot),Stands v i t.bytes →
      Yields v timePart i (t.comparison.toNat,t.time.toNat) (i+t.bytes.length : Nat) id) {slots : Slots}
    (valid : slots.Valid) (read : slots.readBy takes times = true) {i : Nat} (stands : Stands v i slots.bytes)
    (set : List Condition) :
    Yields v (slots2 len target reserved timePart slots.count set) i (set++slots.conditions target)
      (i+slots.bytes.length : Nat) id := by
  induction slots generalizing i set with
  | none =>
    rw [Slots.conditions,List.append_nil]
    exact yields_done v set i
  | last s =>
    rw [Slots.count,slots2]
    refine (passes_slot small room reserves _ stands read).yields ?_
    exact yields_done v _ _
  | next s operation rest ih =>
    obtain ⟨plain,more,valid⟩ := valid
    obtain ⟨taken,read⟩ := Bool.and_eq_true_iff.mp read
    have operator := stands.right
    have behind := after_number operator
    have later := ih valid read behind
      (set++[slot target s.condition.toNat s.named s.comparison.toNat s.argument.toNat operation.toNat 0 0])
    have size : i+(Slots.next s operation rest).bytes.length = i+s.bytes.length+12+rest.bytes.length := by
      simp only [Slots.bytes,List.length_append,length_number]
      omega
    rw [List.append_assoc,List.singleton_append] at later
    obtain ⟨left,counted⟩ := Nat.exists_eq_succ_of_ne_zero more
    rw [Slots.count,size,Slots.conditions]
    rw [counted] at later ⊢
    rw [slots2]
    refine (passes_slot small room reserves _ stands.left taken).yields ?_
    refine yields_after (yields_getUint64 small operator.left (toNat_lt _)) ?_
    rw [if_neg plain]
    exact later
  | timed s operation t rest ih =>
    obtain ⟨isFor,valid⟩ := valid
    obtain ⟨taken,read⟩ := Bool.and_eq_true_iff.mp read
    obtain ⟨allowed,read⟩ := Bool.and_eq_true_iff.mp read
    have operator := stands.right
    have time := after_number operator
    have behind := time.right
    have later := ih valid read behind (set++[slot target s.condition.toNat s.named s.comparison.toNat
      s.argument.toNat operation.toNat t.comparison.toNat t.time.toNat])
    have size : i+(Slots.timed s operation t rest).bytes.length =
        i+s.bytes.length+12+t.bytes.length+rest.bytes.length := by
      simp only [Slots.bytes,List.length_append,length_number]
      omega
    rw [List.append_assoc,List.singleton_append] at later
    rw [Slots.count,size,Slots.conditions,slots2]
    refine (passes_slot small room reserves _ stands.left taken).yields ?_
    refine yields_after (yields_getUint64 small operator.left (toNat_lt _)) ?_
    rw [if_pos isFor]
    exact yields_after (timed allowed _ t time.left) later

variable (refuses : ∀ (i : Nat) f,takes f = false → Stands v i f.bytes → Throws v reserved i)
include refuses

omit reserves in
-- A slot with a reserved field that is not taken.
theorem throws_slot {s : Slot} (refused : takes s.reserved = false) {i : Nat} (stands : Stands v i s.bytes) (left : Nat)
    (set : List Condition) : Throws v (slots2 len target reserved timePart (left+1) set) i := by
  rw [slots2]
  refine (passes_named small room _ stands).throws ?_
  exact throws_bind (refuses _ _ refused (after_text (after_number stands)).left)

-- The first slot that a parser cannot read makes it throw.
theorem throws_slots (fails : ∀ (i : Nat) (t : TimeSlot),Stands v i t.bytes → Throws v timePart i) {slots : Slots}
    (valid : slots.Valid) (unread : slots.readBy takes false = false) {i : Nat}
    (stands : Stands v i slots.bytes) (set : List Condition) :
    Throws v (slots2 len target reserved timePart slots.count set) i := by
  induction slots generalizing i set with
  | none => cases unread
  | last s => exact throws_slot small room refuses unread stands 0 set
  | next s operation rest ih =>
    obtain ⟨plain,more,valid⟩ := valid
    obtain ⟨left,counted⟩ := Nat.exists_eq_succ_of_ne_zero more
    rcases Bool.and_eq_false_iff.mp unread with refused | unread
    · exact throws_slot small room refuses refused stands.left _ set
    · cases taken : takes s.reserved with
      | false => exact throws_slot small room refuses taken stands.left _ set
      | true =>
        have operator := stands.right
        have later := ih valid unread (after_number operator)
          (set++[slot target s.condition.toNat s.named s.comparison.toNat s.argument.toNat operation.toNat 0 0])
        rw [Slots.count]
        rw [counted] at later ⊢
        rw [slots2]
        refine (passes_slot small room reserves _ stands.left taken).throws ?_
        refine throws_after (yields_getUint64 small operator.left (toNat_lt _)) ?_
        rw [if_neg plain]
        exact later
  | timed s operation t rest ih =>
    cases taken : takes s.reserved with
    | false => exact throws_slot small room refuses taken stands.left _ set
    | true =>
      have operator := stands.right
      have time := after_number operator
      rw [Slots.count,slots2]
      refine (passes_slot small room reserves _ stands.left taken).throws ?_
      refine throws_after (yields_getUint64 small operator.left (toNat_lt _)) ?_
      rw [if_pos valid.1]
      exact throws_bind (fails _ t time.left)

end Slots

section Parts
variable {v : Bytes} (small : v.length < 2147483648)
include small

theorem yields_apctReserved (i : Nat) (f : Field) (stands : Stands v i f.bytes) :
    Yields v apctReserved i () (i+12 : Nat) id := by
  have room := stands.1
  rw [length_field] at room
  exact yields_skip small room

theorem yields_pbctReserved (i : Nat) (f : Field) (tagged : f.tag = 4) (stands : Stands v i f.bytes) :
    Yields v pbctReserved i () (i+12 : Nat) id := by
  rw [Field.bytes,tagged] at stands
  unfold pbctReserved
  exact yields_after (yields_getUint64 small stands (toNat_lt _)) (yields_done v _ _)

theorem yields_apctTimePart (i : Nat) (t : TimeSlot) (stands : Stands v i t.bytes) :
    Yields v apctTimePart i (t.comparison.toNat,t.time.toNat) (i+t.bytes.length : Nat) id := by
  have device := after_field stands
  have blank := after_text device
  have comparison := after_field blank
  have time := after_number comparison
  have size : i+t.bytes.length = i+12+12+t.device.length+12+12+12+12 := by
    simp only [TimeSlot.bytes,List.length_append,length_number,length_text,length_field]
    omega
  have room := stands.1
  rw [size] at room ⊢
  unfold apctTimePart
  refine yields_after (yields_skip small (n := 12) (by omega)) ?_
  refine yields_after (yields_getString small device.left) ?_
  refine yields_after (yields_skip small (n := 12) (by omega)) ?_
  refine yields_after (yields_getUint64 small comparison.left (toNat_lt _)) ?_
  refine yields_after (yields_getUint64 small time.left (toNat_lt _)) ?_
  refine yields_after (yields_skip small (n := 12) (by omega)) ?_
  exact yields_done v _ _

end Parts

section Refusals
variable {v : Bytes}

theorem throws_untagged {i : Nat} {f : Field} (untagged : f.tag ≠ 4) (stands : Stands v i f.bytes) :
    Throws v getUint64 i := by
  refine throws_getUint64 stands (UInt32.toNat_lt f.tag) ?_
  intro same
  exact untagged (UInt32.toNat_inj.mp same)

theorem throws_pbctReserved (i : Nat) (f : Field) (untagged : f.tag ≠ 4) (stands : Stands v i f.bytes) :
    Throws v pbctReserved i :=
  throws_bind (throws_untagged untagged stands)

-- PBCT takes the time slot's device for a number.
theorem throws_pbctTimePart (small : v.length < 2147483648) (i : Nat) (t : TimeSlot) (stands : Stands v i t.bytes) :
    Throws v pbctTimePart i := by
  have device := (after_field stands).left
  rw [GddvEncoding.text,List.append_assoc] at device
  by_cases tagged : t.condition.tag = 4
  · have condition := stands.left
    rw [Field.bytes,tagged] at condition
    refine throws_after (yields_getUint64 small condition (toNat_lt _)) ?_
    exact throws_bind (throws_getUint64 device (by decide) (by decide))
  · exact throws_bind (throws_untagged tagged stands.left)

end Refusals

structure ConditionSet where
  target : UInt64
  slots : Slots
  valid : slots.Valid
  named : toInt target.toNat ≠ -1

namespace ConditionSet

def bytes (set : ConditionSet) : Bytes :=
  number set.target.toNat++(number set.slots.count++set.slots.bytes)

def conditions (set : ConditionSet) : List Condition := set.slots.conditions (toInt set.target.toNat)

end ConditionSet

theorem count_le (slots : Slots) : slots.count ≤ slots.bytes.length := by
  induction slots with
  | none => exact Nat.le_refl _
  | last s => exact length_slot s
  | next s operation rest ih =>
    simp only [Slots.count,Slots.bytes,List.length_append,length_number]
    omega
  | timed s operation t rest ih =>
    simp only [Slots.count,Slots.bytes,List.length_append,length_number]
    omega

theorem record_end (set : ConditionSet) (i : Nat) : i+set.bytes.length = i+12+12+set.slots.bytes.length := by
  simp only [ConditionSet.bytes,List.length_append,length_number]
  omega

theorem pbct_accepts (set : ConditionSet) : ¬set.target.toNat = uint64Max := by
  intro same
  exact set.named (by rw [same]; decide)

section Records
variable {v : Bytes} (small : v.length < 2147483648) {len : Int} (room : (v.length : Int) ≤ len)
include small

-- The head of a record of either table, in front of its slots.
theorem passes_record {set : ConditionSet} {i : Nat} (stands : Stands v i set.bytes) (refused : Nat → Prop)
    [DecidablePred refused] (accepted : ¬refused set.target.toNat) (rest : Nat → Nat → Parse Unit) :
    Passes v (do
      let target ← getUint64
      if refused target then .throw
      else do
        let count ← getUint64
        rest target count) i
    (rest set.target.toNat set.slots.count) (i+12+12 : Nat) := by
  have count := after_number stands
  have inside := (after_number count).1
  have bound := count_le set.slots
  refine passes_after (yields_getUint64 small stands.left (toNat_lt _)) ?_
  rw [if_neg accepted]
  refine passes_after (yields_getUint64 small count.left (by omega)) ?_
  exact passes_refl v _ _

theorem record_count {set : ConditionSet} {i : Nat} (stands : Stands v i set.bytes) :
    (toInt set.slots.count).toNat = set.slots.count := by
  have inside := (after_number (after_number stands)).1
  have bound := count_le set.slots
  rw [toInt_small (by omega) (by omega),Int.toNat_natCast]

include room

theorem yields_apctRecord {set : ConditionSet} {i : Nat} (stands : Stands v i set.bytes) (u : Unit) :
    Yields v (apctRecord2 len u) i () (i+set.bytes.length : Nat)
      (fun g => {g with conditions := g.conditions++[set.conditions]}) := by
  have slots := after_number (after_number stands)
  rw [record_end set i]
  unfold apctRecord2
  refine (passes_record small stands (fun target => toInt target = -1) set.named _).yields ?_
  rw [record_count small stands]
  refine yields_after (yields_slots small room (fun i f _ => yields_apctReserved small i f)
    (fun _ => yields_apctTimePart small) set.valid (readBy_all _) slots []) ?_
  exact yields_write v _ _

theorem yields_pbctRecord {set : ConditionSet} (plain : set.slots.plain = true) {i : Nat}
    (stands : Stands v i set.bytes) (u : Unit) :
    Yields v (pbctRecord2 len u) i () (i+set.bytes.length : Nat)
      (fun g => {g with pbcts := g.pbcts++[⟨set.target.toNat,set.conditions⟩]}) := by
  have slots := after_number (after_number stands)
  rw [record_end set i]
  unfold pbctRecord2
  refine (passes_record small stands (fun target => target = uint64Max) (pbct_accepts set) _).yields ?_
  rw [record_count small stands]
  refine yields_after (yields_slots small room
    (fun i f tagged => yields_pbctReserved small i f (of_decide_eq_true tagged)) (fun timed => by cases timed) set.valid
    plain slots []) ?_
  exact yields_write v _ _

theorem throws_pbctRecord {set : ConditionSet} (other : set.slots.plain = false) {i : Nat}
    (stands : Stands v i set.bytes) (u : Unit) : Throws v (pbctRecord2 len u) i := by
  have slots := after_number (after_number stands)
  unfold pbctRecord2
  refine (passes_record small stands (fun target => target = uint64Max) (pbct_accepts set) _).throws ?_
  rw [record_count small stands]
  exact throws_bind (throws_slots small room
    (fun i f tagged => yields_pbctReserved small i f (of_decide_eq_true tagged))
    (fun i f untagged => throws_pbctReserved i f (of_decide_eq_false untagged)) (throws_pbctTimePart small) set.valid
    other slots [])

end Records

-- The parsers take the length of a table as an int.
structure ConditionTable where
  sets : List ConditionSet
  small : (number 2++sets.flatMap ConditionSet.bytes).length < 2147483648

namespace ConditionTable

def bytes (t : ConditionTable) : Bytes := number 2++t.sets.flatMap ConditionSet.bytes

-- The sets as the two parsers keep them.
def sets2 (t : ConditionTable) : List (List Condition) := t.sets.map ConditionSet.conditions

def entries (t : ConditionTable) : List PbctEntry := t.sets.map (fun set => ⟨set.target.toNat,set.conditions⟩)

variable (t : ConditionTable)

theorem bytes_small : t.bytes.length < 2147483648 := t.small

theorem length_bytes : toInt t.bytes.length = t.bytes.length := by
  have small := t.bytes_small
  exact toInt_small (by omega) (by omega)

theorem room : (t.bytes.length : Int) ≤ toInt t.bytes.length := Int.le_of_eq t.length_bytes.symm

theorem stands_sets : Stands t.bytes 12 (t.sets.flatMap ConditionSet.bytes) := by
  have rest := after_number (n := 2) (b := t.sets.flatMap ConditionSet.bytes) (stands_whole t.bytes)
  rwa [Nat.zero_add] at rest

theorem stop : toInt t.bytes.length = (12+(t.sets.flatMap ConditionSet.bytes).length : Nat) := by
  rw [length_bytes,bytes,List.length_append,length_number]

-- The version in front of the sets.
theorem version : Yields t.bytes getUint64 0 2 (12 : Nat) id :=
  yields_getUint64 t.bytes_small (i := 0) (stands_whole t.bytes).left (by decide)

theorem set_content (set : ConditionSet) (_ : set ∈ t.sets) : set.bytes ≠ [] := by
  apply List.ne_nil_of_length_pos
  simp only [ConditionSet.bytes,List.length_append,length_number]
  omega

end ConditionTable

open ConditionTable

theorem keep_conditions (sets : List ConditionSet) (g : Vault) :
    sets.foldl (fun g set => {g with conditions := g.conditions++[set.conditions]}) g =
      {g with conditions := g.conditions++sets.map ConditionSet.conditions} :=
  foldl_keep (fun kept (g : Vault) => {g with conditions := g.conditions++kept}) (by simp) (by simp)
    ConditionSet.conditions sets g

theorem keep_pbcts (sets : List ConditionSet) (g : Vault) :
    sets.foldl (fun g set => {g with pbcts := g.pbcts++[(⟨set.target.toNat,set.conditions⟩ : PbctEntry)]}) g =
      {g with pbcts := g.pbcts++sets.map (fun set => ⟨set.target.toNat,set.conditions⟩)} :=
  foldl_keep (fun kept (g : Vault) => {g with pbcts := g.pbcts++kept}) (by simp) (by simp)
    (fun set => (⟨set.target.toNat,set.conditions⟩ : PbctEntry)) sets g

-- parse_apct accepts the layout and returns its sets.
theorem apct_accepts (t : ConditionTable) {fuel : Nat} (enough : t.sets.length < fuel) :
    run t.bytes (parseApct fuel (toInt t.bytes.length)) =
      ⟨fun g => {g with conditions := g.conditions++t.sets2},.ok ()⟩ := by
  have each : ∀ set ∈ t.sets,∀ (u : Unit) (i : Nat),Stands t.bytes i set.bytes →
      Yields t.bytes (apctRecord2 (toInt t.bytes.length) u) i () (i+set.bytes.length : Nat)
        (fun g => {g with conditions := g.conditions++[set.conditions]}) :=
    fun set _ u i stands => yields_apctRecord t.bytes_small t.room stands u
  have loop := yields_whileBelow each t.set_content enough () t.stands_sets t.stop
  have result : Yields t.bytes (parseApct fuel (toInt t.bytes.length)) 0 () (toInt t.bytes.length)
      (fun g => {g with conditions := g.conditions++t.sets2}) := by
    unfold parseApct
    refine yields_after t.version ?_
    rw [if_neg (by decide),if_pos rfl]
    refine ⟨loop.1,loop.2.trans ?_⟩
    funext g
    exact keep_conditions t.sets g
  exact yields_run result

theorem pbct_accepts_plain (t : ConditionTable) (plain : ∀ set ∈ t.sets,set.slots.plain = true) {fuel : Nat}
    (enough : t.sets.length < fuel) :
    run t.bytes (parsePbct fuel (toInt t.bytes.length)) = ⟨fun g => {g with pbcts := g.pbcts++t.entries},.ok ()⟩ := by
  have each : ∀ set ∈ t.sets,∀ (u : Unit) (i : Nat),Stands t.bytes i set.bytes →
      Yields t.bytes (pbctRecord2 (toInt t.bytes.length) u) i () (i+set.bytes.length : Nat)
        (fun g => {g with pbcts := g.pbcts++[⟨set.target.toNat,set.conditions⟩]}) :=
    fun set listed u i stands => yields_pbctRecord t.bytes_small t.room (plain set listed) stands u
  have loop := yields_whileBelow each t.set_content enough () t.stands_sets t.stop
  have result : Yields t.bytes (parsePbct fuel (toInt t.bytes.length)) 0 () (toInt t.bytes.length)
      (fun g => {g with pbcts := g.pbcts++t.entries}) := by
    unfold parsePbct
    refine yields_after t.version ?_
    rw [if_neg (by decide),if_pos rfl]
    refine ⟨loop.1,loop.2.trans ?_⟩
    funext g
    exact keep_pbcts t.sets g
  exact yields_run result

-- One set that is not plain makes parse_pbct throw.
theorem pbct_throws (t : ConditionTable) (other : ∃ set ∈ t.sets,set.slots.plain = false) {fuel : Nat}
    (enough : t.sets.length < fuel) :
    (run t.bytes (parsePbct fuel (toInt t.bytes.length))).result = .error .thrown := by
  have each : ∀ set ∈ t.sets,¬set.slots.plain = false → ∀ (u : Unit) (i : Nat),Stands t.bytes i set.bytes →
      Yields t.bytes (pbctRecord2 (toInt t.bytes.length) u) i () (i+set.bytes.length : Nat)
        (fun g => {g with pbcts := g.pbcts++[⟨set.target.toNat,set.conditions⟩]}) :=
    fun set _ plain u i stands =>
      yields_pbctRecord t.bytes_small t.room (Bool.not_eq_false _ ▸ plain) stands u
  have fails : ∀ set ∈ t.sets,set.slots.plain = false → ∀ (u : Unit) (i : Nat),Stands t.bytes i set.bytes →
      Throws t.bytes (pbctRecord2 (toInt t.bytes.length) u) i :=
    fun set _ other u i stands => throws_pbctRecord t.bytes_small t.room other stands u
  have loop := throws_whileBelow each fails t.set_content enough () t.stands_sets t.stop other
  have result : Throws t.bytes (parsePbct fuel (toInt t.bytes.length)) 0 := by
    unfold parsePbct
    refine throws_after t.version ?_
    rw [if_neg (by decide),if_pos rfl]
    exact loop
  exact throws_run result

-- Both parsers succeed on the table and keep the same condition sets. What parse_pbct
-- keeps of a set's target is the target that the conditions of the set carry.
def Agree (t : ConditionTable) : Prop :=
  ∃ (sets : List (List Condition)) (entries : List PbctEntry) (least : Nat),entries.map PbctEntry.conditions = sets ∧
    entries.map PbctEntry.target = t.sets.map (fun set => set.target.toNat) ∧
    (∀ entry ∈ entries,∀ c ∈ entry.conditions,c.target = entry.target) ∧
    ∀ fuel,least ≤ fuel →
      run t.bytes (parseApct fuel (toInt t.bytes.length)) = ⟨fun g => {g with conditions := g.conditions++sets},.ok ()⟩ ∧
      run t.bytes (parsePbct fuel (toInt t.bytes.length)) = ⟨fun g => {g with pbcts := g.pbcts++entries},.ok ()⟩

theorem disagree (t : ConditionTable) (other : ∃ set ∈ t.sets,set.slots.plain = false) : ¬Agree t := by
  intro given
  obtain ⟨sets,entries,least,-,-,-,agree⟩ := given
  have enough : t.sets.length < least+t.sets.length+1 := by omega
  have accepted := (agree (least+t.sets.length+1) (by omega)).2
  have thrown := pbct_throws t other enough
  rw [accepted] at thrown
  cases thrown

theorem conditions_target (slots : Slots) (target : Int) : ∀ c ∈ slots.conditions target,c.target = target := by
  induction slots with
  | none =>
    intro c listed
    cases listed
  | last s =>
    intro c listed
    rw [List.mem_singleton.mp listed]
    rfl
  | next s operation rest ih =>
    intro c listed
    rcases List.mem_cons.mp listed with rfl | later
    · rfl
    · exact ih c later
  | timed s operation t rest ih =>
    intro c listed
    rcases List.mem_cons.mp listed with rfl | later
    · rfl
    · exact ih c later

theorem conditions_some {slots : Slots} (some : slots.count ≠ 0) (target : Int) : ∃ c,c ∈ slots.conditions target := by
  cases slots with
  | none => exact absurd rfl some
  | last s => exact ⟨_,List.mem_singleton.mpr rfl⟩
  | next s operation rest => exact ⟨_,List.mem_cons_self⟩
  | timed s operation t rest => exact ⟨_,List.mem_cons_self⟩

-- The conditions carry the target as an int.
def ConditionSet.kept (set : ConditionSet) : Prop := set.slots.count ≠ 0 → set.target.toNat < 2147483648

theorem entry_targets (set : ConditionSet) : (∀ c ∈ set.conditions,c.target = set.target.toNat) ↔ set.kept := by
  constructor
  · intro same some
    obtain ⟨c,listed⟩ := conditions_some some (toInt set.target.toNat)
    have carried := conditions_target set.slots _ c listed
    exact (toInt_kept_iff _).mp (carried.symm.trans (same c listed))
  · intro small c listed
    have some : set.slots.count ≠ 0 := by
      intro none
      cases slots : set.slots <;> rw [slots] at none
      · rw [ConditionSet.conditions,slots] at listed
        cases listed
      all_goals cases none
    rw [conditions_target set.slots _ c listed]
    exact (toInt_kept_iff _).mpr (small some)

-- What parse_pbct keeps of a table of plain slots.
theorem entries_exact (t : ConditionTable) (plain : ∀ set ∈ t.sets,set.slots.plain = true) {entries : List PbctEntry}
    {least : Nat} (accepted : ∀ fuel,least ≤ fuel → run t.bytes (parsePbct fuel (toInt t.bytes.length)) =
      ⟨fun g => {g with pbcts := g.pbcts++entries},.ok ()⟩) : entries = t.entries := by
  have taken := accepted (least+t.sets.length+1) (by omega)
  rw [pbct_accepts_plain t plain (by omega),Outcome.mk.injEq] at taken
  have same := congrArg (fun g : Vault => g.pbcts) (congrFun taken.1 Vault.new)
  exact same.symm

-- parse_pbct agrees with parse_apct exactly on tables of plain slots whose targets
-- are ints.
theorem parsers_agree_iff (t : ConditionTable) : Agree t ↔ ∀ set ∈ t.sets,set.slots.plain = true ∧ set.kept := by
  constructor
  · intro agree
    have plain : ∀ set ∈ t.sets,set.slots.plain = true := by
      intro set listed
      cases plain : set.slots.plain with
      | true => rfl
      | false => exact absurd agree (disagree t ⟨set,listed,plain⟩)
    obtain ⟨sets,entries,least,-,-,carried,accepted⟩ := agree
    have same := entries_exact t plain (fun fuel enough => (accepted fuel enough).2)
    intro set listed
    refine ⟨plain set listed,(entry_targets set).mp ?_⟩
    exact carried ⟨set.target.toNat,set.conditions⟩ (by rw [same]; exact List.mem_map_of_mem listed)
  · intro given
    have plain := fun set listed => (given set listed).1
    refine ⟨t.sets2,t.entries,t.sets.length+1,?_,?_,?_,fun fuel enough =>
      ⟨apct_accepts t (by omega),pbct_accepts_plain t plain (by omega)⟩⟩
    · rw [entries,sets2,List.map_map]
      rfl
    · rw [entries,List.map_map]
      rfl
    · intro entry listed
      obtain ⟨set,member,rfl⟩ := List.mem_map.mp listed
      exact (entry_targets set).mpr (given set member).2

-- One set with a condition that has to last for ten seconds.
def lastingTable : ConditionTable where
  sets := [{
    target := 1
    slots := .timed ⟨2,[0],⟨4,0⟩,1,30⟩ 2 ⟨⟨4,2⟩,[0],⟨4,0⟩,3,10,⟨4,1⟩⟩ .none
    valid := ⟨by decide,trivial⟩
    named := by decide}]
  small := by decide +kernel

theorem lasting_table_refused : ¬Agree lastingTable ∧ ∀ fuel,2 ≤ fuel →
    (run lastingTable.bytes (parseApct fuel (toInt lastingTable.bytes.length))).result = .ok () ∧
    (run lastingTable.bytes (parsePbct fuel (toInt lastingTable.bytes.length))).result = .error .thrown := by
  have other : ∃ set ∈ lastingTable.sets,set.slots.plain = false := ⟨_,List.mem_singleton.mpr rfl,rfl⟩
  refine ⟨disagree lastingTable other,fun fuel enough => ⟨?_,pbct_throws lastingTable other enough⟩⟩
  rw [apct_accepts lastingTable enough]

end ChuwiMinibook.ConditionTables
