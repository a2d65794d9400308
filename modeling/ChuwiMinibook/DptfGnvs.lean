import ChuwiMinibook.WordReads

namespace ChuwiMinibook.DptfGnvs
open ByteImage

inductive Errno where
  | ENOENT | ENODEV | ENOMEM | EINVAL
deriving DecidableEq

-- sizeof(struct acpi_table_header)
def headerSize : Nat := 36

-- A DSDT has as many bytes as its header declares.
structure Dsdt where
  bytes : Image
  declared : readU32 bytes 4 = some bytes.length

-- ExtOpPrefix OpRegionOp "GNVS" SystemMemory
def gnvsPattern : List (BitVec 8) := [0x5B#8,0x80#8,0x47#8,0x4E#8,0x56#8,0x53#8,0x00#8]

structure Gnvs where
  addr : Nat
  len : Nat
deriving DecidableEq

-- The two switches behind a match; phys_addr_t has 64 bits.
def gnvsLen (t : Image) (p addr : Nat) : Option (Except Errno Gnvs) :=
  (readU8 t p).bind fun op =>
    if op = 0x0A then (readU8 t (p+1)).map fun len => .ok ⟨addr,len⟩
    else if op = 0x0B then (readU16 t (p+1)).map fun len => .ok ⟨addr,len⟩
    else if op = 0x0C then (readU32 t (p+1)).map fun len => .ok ⟨addr,len⟩
    else some (.error .EINVAL)

def gnvsRegion (t : Image) (p : Nat) : Option (Except Errno Gnvs) :=
  (readU8 t p).bind fun op =>
    if op = 0x0C then (readU32 t (p+1)).bind fun addr => gnvsLen t (p+5) addr
    else if op = 0x0E then (readU64 t (p+1)).bind fun addr => gnvsLen t (p+9) addr
    else some (.error .EINVAL)

-- while (aml < end - 12)
def scan (t : Image) (stop aml : Nat) : Option (Except Errno Gnvs) :=
  if aml+12 < stop then
    (agrees t aml gnvsPattern).bind fun found => if found then gnvsRegion t (aml+7) else scan t stop (aml+1)
  else some (.error .ENOENT)
termination_by stop-aml

-- none is a read outside of the table.
def findGnvs : Option Dsdt → Option (Except Errno Gnvs)
  | none => some (.error .ENODEV)
  | some dsdt => (readU32 dsdt.bytes 4).bind fun length => scan dsdt.bytes length headerSize

-- What AML says of a constant: an opcode, then so many bytes of its value.
def addressWidth (op : Nat) : Option Nat := if op = 0x0C then some 4 else if op = 0x0E then some 8 else none

def lengthWidth (op : Nat) : Option Nat :=
  if op = 0x0A then some 1 else if op = 0x0B then some 2 else if op = 0x0C then some 4 else none

def Constant (width : Nat → Option Nat) (t : Image) (p n v : Nat) : Prop :=
  ∃ op,readU8 t p = some op ∧ width op = some n ∧ Reads t (p+1) n v

def Occurs (t : Image) (i : Nat) : Prop := gnvsPattern <+: t.drop i

instance (t : Image) (i : Nat) : Decidable (Occurs t i) := inferInstanceAs (Decidable (_ <+: _))

-- The first occurrence from a place on.
structure First (t : Image) (start i : Nat) : Prop where
  behind : start ≤ i
  here : Occurs t i
  before : ∀ j,start ≤ j → j < i → ¬Occurs t j

-- The whole operand list: an address, then a length.
def Declares (t : Image) (i : Nat) (g : Gnvs) : Prop :=
  ∃ n m,Constant addressWidth t (i+7) n g.addr ∧ Constant lengthWidth t (i+8+n) m g.len

-- The table goes on as far as the opcodes behind an occurrence ask for.
def Room (t : Image) (i : Nat) : Prop :=
  ∀ n,addressWidth (u8 t (i+7)) = some n → i+9+n ≤ t.length ∧
    ∀ m,lengthWidth (u8 t (i+8+n)) = some m → i+9+n+m ≤ t.length

section Operands
variable {t : Image} {α : Type}

-- Both switches: an opcode, a value of its width, and what follows.
def operand (width : Nat → Option Nat) (t : Image) (p : Nat) (next : Nat → Nat → Option (Except Errno α)) :
    Option (Except Errno α) :=
  (readU8 t p).bind fun op => match width op with
    | none => some (.error .EINVAL)
    | some n => if Inside t (p+1) n then next n (PackedWords.little (PackedWords.bytesAt t (p+1) n)) else none

theorem gnvsLen_operand (p addr : Nat) :
    gnvsLen t p addr = operand lengthWidth t p (fun _ len => some (.ok ⟨addr,len⟩)) := by
  unfold gnvsLen operand
  congr 1
  funext op
  rw [of_reads (fun v => readU8_reads (f := t) (i := p+1) (v := v)),of_reads (fun v => readU16_reads (f := t) (i := p+1) (v := v)),
    of_reads (fun v => readU32_reads (f := t) (i := p+1) (v := v))]
  unfold lengthWidth
  split_ifs <;> simp [*]

theorem gnvsRegion_operand (p : Nat) :
    gnvsRegion t p = operand addressWidth t p (fun n addr => gnvsLen t (p+1+n) addr) := by
  unfold gnvsRegion operand
  congr 1
  funext op
  rw [of_reads (fun v => readU32_reads (f := t) (i := p+1) (v := v)),of_reads (fun v => readU64_reads (f := t) (i := p+1) (v := v))]
  unfold addressWidth
  split_ifs <;> simp [*]

variable {width : Nat → Option Nat} {p : Nat} {next : Nat → Nat → Option (Except Errno α)}

theorem operand_ok {a : α} :
    operand width t p next = some (.ok a) ↔ ∃ n v,Constant width t p n v ∧ next n v = some (.ok a) := by
  unfold operand Constant
  constructor
  · intro given
    obtain ⟨op,read,rest⟩ := Option.bind_eq_some_iff.mp given
    cases wide : width op with
    | none => simp [wide] at rest
    | some n =>
      rw [wide] at rest
      by_cases inside : Inside t (p+1) n
      · exact ⟨n,_,⟨op,read,wide,inside,rfl⟩,(if_pos inside).symm.trans rest⟩
      · simp [inside] at rest
  · rintro ⟨n,v,⟨op,read,wide,inside,rfl⟩,rest⟩
    rw [read,Option.bind_some,wide]
    exact (if_pos inside).trans rest

theorem operand_isSome (here : Inside t p 1) :
    (operand width t p next).isSome = true ↔ ∀ n,width (u8 t p) = some n → Inside t (p+1) n ∧
      (next n (PackedWords.little (PackedWords.bytesAt t (p+1) n))).isSome = true := by
  unfold operand
  rw [(readU8_checks t p).gives here,Option.bind_some]
  cases wide : width (u8 t p) with
  | none => simp
  | some n =>
    by_cases inside : Inside t (p+1) n
    · simp [inside]
    · simp [inside]

end Operands

section Operations
variable {t : Image} {i : Nat}

theorem gnvsLen_ok {p addr : Nat} {g : Gnvs} :
    gnvsLen t p addr = some (.ok g) ↔ g.addr = addr ∧ ∃ m,Constant lengthWidth t p m g.len := by
  rw [gnvsLen_operand,operand_ok]
  constructor
  · rintro ⟨m,len,constant,same⟩
    cases Except.ok.inj (Option.some.inj same)
    exact ⟨rfl,m,constant⟩
  · rintro ⟨rfl,m,constant⟩
    exact ⟨m,g.len,constant,rfl⟩

theorem gnvsRegion_ok {g : Gnvs} : gnvsRegion t (i+7) = some (.ok g) ↔ Declares t i g := by
  rw [gnvsRegion_operand,operand_ok]
  unfold Declares
  have place (n : Nat) : i+7+1+n = i+8+n := by omega
  constructor
  · rintro ⟨n,addr,constant,rest⟩
    rw [place] at rest
    obtain ⟨rfl,m,length⟩ := gnvsLen_ok.mp rest
    exact ⟨n,m,constant,length⟩
  · rintro ⟨n,m,constant,length⟩
    refine ⟨n,g.addr,constant,?_⟩
    rw [place]
    exact gnvsLen_ok.mpr ⟨rfl,m,length⟩

-- The address opcode of a scanned occurrence is inside, and with it the length opcode
-- of an address of four bytes; all else depends on what the table holds.
theorem gnvsRegion_isSome (scanned : i+12 < t.length) : (gnvsRegion t (i+7)).isSome = true ↔ Room t i := by
  have opcode : Inside t (i+7) 1 := show i+7+1 ≤ t.length by omega
  rw [gnvsRegion_operand,operand_isSome opcode]
  unfold Room
  apply forall_congr'
  intro n
  apply imp_congr_right
  intro wide
  have place : i+7+1+n = i+8+n := by omega
  rw [place]
  by_cases length : i+9+n ≤ t.length
  · have here : Inside t (i+8+n) 1 := show i+8+n+1 ≤ t.length by omega
    have value : Inside t (i+7+1) n := show i+7+1+n ≤ t.length by omega
    rw [gnvsLen_operand,operand_isSome here]
    have ends (m : Nat) : Inside t (i+8+n+1) m ↔ i+9+n+m ≤ t.length := by
      unfold Inside
      rw [show i+8+n+1 = i+9+n by omega]
    simp [length,value,ends]
  · have outside : ¬Inside t (i+8+n) 1 := fun inside => length (by unfold Inside at inside; omega)
    have stopped (addr : Nat) : gnvsLen t (i+8+n) addr = none := by
      rw [gnvsLen,readU8_eq,if_neg outside]
      rfl
    simp [length,stopped]

theorem agrees_scanned (scanned : i+12 < t.length) : agrees t i gnvsPattern = some (decide (Occurs t i)) := by
  have inside : Inside t i gnvsPattern.length := show i+7 ≤ t.length by omega
  rw [agrees_inside inside,Option.some_inj,Bool.eq_iff_iff,List.isPrefixOf_iff_prefix,decide_eq_true_iff]
  exact Iff.rfl

theorem scan_hit (here : Occurs t i) (scanned : i+12 < t.length) : scan t t.length i = gnvsRegion t (i+7) := by
  rw [scan,if_pos scanned,agrees_scanned scanned]
  simp [here]

theorem scan_miss (other : ¬Occurs t i) (scanned : i+12 < t.length) : scan t t.length i = scan t t.length (i+1) := by
  rw [scan,if_pos scanned,agrees_scanned scanned]
  simp [other]

theorem scan_first {start : Nat} (first : First t start i) (scanned : i+12 < t.length) :
    scan t t.length start = gnvsRegion t (i+7) := by
  obtain ⟨k,rfl⟩ := Nat.exists_eq_add_of_le first.behind
  induction k generalizing start with
  | zero => exact scan_hit first.here scanned
  | succ k ih =>
    have place : start+1+k = start+(k+1) := by omega
    have later : First t (start+1) (start+1+k) := by
      refine ⟨by omega,?_,fun j behind below => first.before j (by omega) (by omega)⟩
      rw [place]
      exact first.here
    rw [scan_miss (first.before start (Nat.le_refl _) (by omega)) (by omega),ih later (by omega),place]

theorem scan_nowhere {start : Nat} (nowhere : ∀ j,start ≤ j → j+12 < t.length → ¬Occurs t j) :
    scan t t.length start = some (.error .ENOENT) := by
  induction left : t.length-start generalizing start with
  | zero =>
    rw [scan,if_neg (by omega)]
  | succ left ih =>
    by_cases scanned : start+12 < t.length
    · rw [scan_miss (nowhere start (Nat.le_refl _) scanned) scanned]
      exact ih (fun j behind => nowhere j (by omega)) (by omega)
    · rw [scan,if_neg scanned]

theorem first_exists {start j : Nat} (behind : start ≤ j) (here : Occurs t j) : ∃ i,First t start i ∧ i ≤ j := by
  have some : ∃ i,start ≤ i ∧ Occurs t i := ⟨j,behind,here⟩
  obtain ⟨first,occurs⟩ := Nat.find_spec some
  exact ⟨Nat.find some,⟨first,occurs,fun k low below other => Nat.find_min some below ⟨low,other⟩⟩,Nat.find_min' some ⟨behind,here⟩⟩

theorem First.unique {start j : Nat} (one : First t start i) (other : First t start j) : i = j := by
  rcases Nat.lt_trichotomy i j with below | same | above
  · exact absurd one.here (other.before i one.behind below)
  · exact same
  · exact absurd other.here (one.before j other.behind above)

theorem declares_scanned {g : Gnvs} (declared : Declares t i g) : i+12 < t.length := by
  obtain ⟨n,m,⟨op,_,wide,_⟩,⟨_,_,wider,inside,_⟩⟩ := declared
  have four : 4 ≤ n := by
    unfold addressWidth at wide
    split_ifs at wide <;> cases wide <;> decide
  unfold Inside at inside
  omega

-- What a success stands for is found at the first occurrence.
theorem declares_first {start : Nat} {g : Gnvs} (first : First t start i) :
    (∃ j,First t start j ∧ Declares t j g) ↔ Declares t i g := by
  constructor
  · rintro ⟨j,other,declared⟩
    rwa [first.unique other]
  · exact fun declared => ⟨i,first,declared⟩

theorem scan_exact {start : Nat} (first : First t start i) (scanned : i+12 < t.length) (room : Room t i) :
    ∃ r,scan t t.length start = some r ∧ ∀ g,r = .ok g ↔ ∃ j,First t start j ∧ Declares t j g := by
  obtain ⟨r,run⟩ := Option.isSome_iff_exists.mp ((gnvsRegion_isSome scanned).mpr room)
  refine ⟨r,(scan_first first scanned).trans run,fun g => ?_⟩
  rw [declares_first first,← gnvsRegion_ok,run,Option.some_inj]

theorem scan_room {start : Nat} {r : Except Errno Gnvs} (first : First t start i) (scanned : i+12 < t.length)
    (run : scan t t.length start = some r) : Room t i := by
  rw [scan_first first scanned] at run
  rw [← gnvsRegion_isSome scanned,run]
  rfl

theorem unscanned_exact {start : Nat} (unscanned : ∀ j,First t start j → ¬j+12 < t.length) :
    ∃ r,scan t t.length start = some r ∧ ∀ g,r = .ok g ↔ ∃ j,First t start j ∧ Declares t j g := by
  have nowhere : ∀ j,start ≤ j → j+12 < t.length → ¬Occurs t j := by
    intro j behind scanned here
    obtain ⟨i,first,low⟩ := first_exists behind here
    exact unscanned i first (by omega)
  refine ⟨_,scan_nowhere nowhere,fun g => ?_⟩
  constructor
  · intro failed
    cases failed
  · rintro ⟨j,first,declared⟩
    exact absurd (declares_scanned declared) (unscanned j first)

end Operations

-- Reads stay in the table and a success is exactly the first occurrence with all of
-- its operands, as long as the table has room for what that occurrence asks for.
theorem findGnvs_exact_iff (d : Dsdt) :
    (∃ r,findGnvs (some d) = some r ∧ ∀ g,r = .ok g ↔ ∃ i,First d.bytes headerSize i ∧ Declares d.bytes i g) ↔
      ∀ i,First d.bytes headerSize i → i+12 < d.bytes.length → Room d.bytes i := by
  have whole : findGnvs (some d) = scan d.bytes d.bytes.length headerSize := by
    rw [findGnvs,d.declared,Option.bind_some]
  rw [whole]
  constructor
  · rintro ⟨r,run,_⟩ i first scanned
    exact scan_room first scanned run
  · intro room
    by_cases found : ∃ i,First d.bytes headerSize i ∧ i+12 < d.bytes.length
    · obtain ⟨i,first,scanned⟩ := found
      exact scan_exact first scanned (room i first scanned)
    · exact unscanned_exact fun j first scanned => found ⟨j,first,scanned⟩

-- The table ends behind the opcode of a byte length; that byte is the next one in memory.
def cutDsdt : Dsdt where
  bytes := [0x44#8,0x53#8,0x44#8,0x54#8,49#8,0#8,0#8,0#8]++List.replicate 28 0#8++gnvsPattern++
    [0x0C#8,0x00#8,0x10#8,0x5B#8,0x7A#8,0x0A#8]
  declared := by decide

theorem findGnvs_reads_past_end : ¬∀ d,∃ r,findGnvs (some d) = some r ∧
    ∀ g,r = .ok g ↔ ∃ i,First d.bytes headerSize i ∧ Declares d.bytes i g := by
  intro exact
  obtain ⟨r,run,_⟩ := exact cutDsdt
  have outside : findGnvs (some cutDsdt) = none := by
    rw [findGnvs,cutDsdt.declared,Option.bind_some,scan_hit (by decide) (by decide)]
    rfl
  rw [outside] at run
  cases run

end ChuwiMinibook.DptfGnvs
