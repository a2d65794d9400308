import ChuwiMinibook.GddvReads

namespace ChuwiMinibook.GddvLayout
open ByteScan Scan GddvTables GddvParser

section Fields
variable (v : Bytes)

-- A field is a tag of four bytes and, behind the right tag, eight more. What has
-- to follow it is asked of its number and of the offset behind it.
def Tagged (tag : Nat) (i : Int) (rest : Nat → Int → Prop) : Prop :=
  Inside v i 4 ∧ (little (bytesAt v i 4) = tag → Inside v (toInt (i+4)) 8 ∧
    rest (little (bytesAt v (toInt (i+4)) 8)) (toInt (toInt (i+4)+8)))

def Number (i : Int) (rest : Nat → Int → Prop) : Prop := Tagged v 4 i rest

-- The length of a text says where the next field is, the text itself ends at
-- its zero.
def Text (i : Int) (rest : Int → Prop) : Prop :=
  Tagged v 8 i fun length start => Terminated v start ∧ rest (toInt (start+length))

def Unread (i : Int) (rest : Int → Prop) : Prop := Tagged v 8 i fun length start => rest (toInt (start+length))

def Blank (i : Int) (rest : Int → Prop) : Prop := rest (toInt (i+12))

abbrev Row := Int → (Int → Prop) → Prop

-- Rows one behind the other, the first n of them.
def Rows (len : Int) (row : Row) : Nat → Int → Prop
  | 0,_ => True
  | n+1,i => i < len → row i (Rows len row n)

def appcRow : Row := fun i rest =>
  Number v i fun _ i => Text v i fun i => Text v i fun i => Number v i fun _ i => Number v i fun _ i => rest i

def targetRow : Row := fun i rest =>
  Number v i fun _ i => Text v i fun i => Text v i fun i => Number v i fun _ i => Text v i fun i => Text v i fun i => rest i

def vsptRow : Row := fun i rest => Number v i fun _ i => Number v i fun _ i => rest i

def vsctRow : Row := fun i rest =>
  Text v i fun i => Number v i fun _ i => Number v i fun _ i => Number v i fun _ i => Number v i fun _ i =>
    Number v i fun _ i => Number v i fun _ i => rest i

def trtRow : Row := fun i rest =>
  Text v i fun i => Text v i fun i => Number v i fun _ i => Number v i fun _ i => Number v i fun _ i =>
    Number v i fun _ i => Number v i fun _ i => Number v i fun _ i => rest i

-- The tag of a limit is looked at before it is read.
def limitField : Row := fun i rest =>
  Inside v i 4 ∧ if little (bytesAt v i 4) = 8 then Text v i rest else Number v i fun _ i => rest i

def psvtRow : Row := fun i rest =>
  Text v i fun i => Text v i fun i => Number v i fun _ i => Number v i fun _ i => Number v i fun _ i =>
    Number v i fun _ i => Number v i fun _ i => limitField v i fun i => Number v i fun _ i => Number v i fun _ i =>
    Number v i fun _ i => Blank i rest

def itmtRow (version : Int) : Row := fun i rest =>
  Text v i fun i => Number v i fun _ i => Text v i fun i => Text v i fun i => Text v i fun i =>
    if version = 2 then Number v i fun _ i => Text v i fun i => Number v i fun _ i => Number v i fun _ i => rest i
    else Blank i rest

-- The slots of a condition set; a set whose next slot would start behind the
-- table is an error.
def Slots1 (len : Int) : Nat → Row
  | 0 => fun i rest => rest i
  | left+1 => fun i rest => i < len → Number v i fun _ i => Number v i fun _ i => Number v i fun _ i =>
    match left with
    | 0 => rest i
    | more+1 => Number v i fun operation i =>
      if operation % 256 = operationFor then
        Blank i fun i => Number v i fun _ i => Number v i fun _ i => Blank i fun i => Slots1 len more i rest
      else Slots1 len (more+1) i rest

def Slots2 (len : Int) (reserved timePart : Row) : Nat → Row
  | 0 => fun i rest => rest i
  | left+1 => fun i rest => i < len → Number v i fun _ i => Text v i fun i => reserved i fun i =>
    Number v i fun _ i => Number v i fun _ i =>
    match left with
    | 0 => rest i
    | more+1 => Number v i fun operation i =>
      if operation % 256 = operationFor then timePart i fun i => Slots2 len reserved timePart more i rest
      else Slots2 len reserved timePart (more+1) i rest

def apctTime : Row := fun i rest =>
  Blank i fun i => Unread v i fun i => Blank i fun i => Number v i fun _ i => Number v i fun _ i => Blank i rest

def pbctTime : Row := fun i rest =>
  Number v i fun _ i => Number v i fun _ i => Number v i fun _ i => Number v i fun _ i => rest i

def setRow1 (len : Int) (none : Nat → Prop) : Row := fun i rest =>
  Number v i fun target i => ¬ none target → Slots1 v len 10 i rest

def setRow2 (len : Int) (none : Nat → Prop) (reserved timePart : Row) : Row := fun i rest =>
  Number v i fun target i => ¬ none target → Number v i fun count i =>
    Slots2 v len reserved timePart (toInt count).toNat i rest

-- Entries of 296 bytes: their three texts have an end.
def Itmt3Rows (len : Int) : Nat → Int → Prop
  | 0,_ => True
  | n+1,i => i < len → 296 ≤ len-i → Terminated v i ∧ Terminated v (i+80) ∧ Terminated v (i+144) ∧
    Itmt3Rows len n (i+296)

-- No entry leads to one before the table.
def IdspRows (len : Int) : Nat → Int → Prop
  | 0,_ => True
  | n+1,i => 28 ≤ len-i → 0 ≤ i ∧ (little (bytesAt v i 1) = 7 →
    IdspRows len n (toInt (i+12+toInt (little (bytesAt v (i+4) 4)))))

-- The tables as a vault holds them; n bounds how many of their rows are looked
-- at. The length of a value is an int to its parser.
def appcTable (n : Nat) : Prop := Inside v 0 1 ∧ (little (bytesAt v 0 1) = 4 →
  Number v 0 fun version i => version = 1 → Rows (toInt v.length) (appcRow v) n i)

def pbatTable (n : Nat) : Prop :=
  Number v 0 fun version i => version = 1 ∨ version = 2 → Rows (toInt v.length) (targetRow v) n i

def apatTable (n : Nat) : Prop := Number v 0 fun version i => version = 2 → Rows (toInt v.length) (targetRow v) n i

def setTable (none : Nat → Prop) (reserved timePart : Row) (n : Nat) : Prop := Number v 0 fun version i =>
  (version = 1 → Rows (toInt v.length) (setRow1 v (toInt v.length) none) n i) ∧
  (version = 2 → Rows (toInt v.length) (setRow2 v (toInt v.length) none reserved timePart) n i)

def apctTable (n : Nat) : Prop := setTable v (fun target => toInt target = -1) Blank (apctTime v) n

def pbctTable (n : Nat) : Prop :=
  setTable v (fun target => target = uint64Max) (fun i rest => Number v i fun _ i => rest i) (pbctTime v) n

def psvtTable (n : Nat) : Prop :=
  Number v 0 fun version i => toInt version ≤ 2 → Rows (toInt v.length) (psvtRow v) n i

def itmtTable (n : Nat) : Prop :=
  Number v 0 fun version i => toInt version ≤ 2 → Rows (toInt v.length) (itmtRow v (toInt version)) n i

def itmt3Table (n : Nat) : Prop :=
  308 ≤ toInt v.length % 4294967296 → Itmt3Rows v (toInt v.length % 4294967296) n 12

def idspTable (n : Nat) : Prop := IdspRows v (toInt v.length) n 0

def trtTable (n : Nat) : Prop := Rows (toInt v.length) (trtRow v) n 0

def vsctTable (n : Nat) : Prop :=
  Number v 0 fun version i => toInt version ≤ 1 → Rows (toInt v.length) (vsctRow v) n i

def vsptTable (n : Nat) : Prop :=
  Number v 0 fun version i => toInt version ≤ 1 → Rows (toInt v.length) (vsptRow v) n i

def ppccTable : Prop := 84 ≤ v.length

def tripPointTable : Prop := 4 ≤ v.length

def Table (n : Nat) (path : KeyPath) : Prop :=
  match path.type with
  | none => True
  | some type =>
    if type = ascii "ppcc" then path.name ≠ none → ppccTable v
    else if type = ascii "psvt" then psvtTable v n
    else if type = ascii "appc" then appcTable v n
    else if type = ascii "apct" then apctTable v n
    else if type = ascii "pbat" then pbatTable v n
    else if type = ascii "pbct" then pbctTable v n
    else if type = ascii "apat" then apatTable v n
    else if (ascii "itmt3").isPrefixOf type then itmt3Table v n
    else if type = ascii "itmt" then itmtTable v n
    else if type = ascii "idsp" then path.name ≠ none → idspTable v n
    else if type = ascii "trippoint" then path.name ≠ none → path.point ≠ none → tripPointTable v
    else if type = ascii "_trt" then trtTable v n
    else if type = ascii "vsct" then vsctTable v n
    else if type = ascii "vspt" then vsptTable v n
    else True

end Fields

section Laws
variable {v : Bytes} {α β : Type}

theorem fits_read {p : Bytes → Parse β} {i j : Int} {n : Nat} :
    Along v (fits v) (.read j n p) i ↔ Inside v j n ∧ Along v (fits v) (p (bytesAt v j n)) i := by
  rw [Along]
  exact and_congr_right fun inside => ⟨fun rest => rest inside,fun rest _ => rest⟩

theorem fits_text {p : Bytes → Parse β} {i j : Int} :
    Along v (fits v) (.text j p) i ↔ Terminated v j ∧ Along v (fits v) (p (textAt v j)) i := by
  rw [Along]
  exact and_congr_right fun ended => ⟨fun rest => rest ended,fun rest _ => rest⟩

theorem fits_seek {p : Parse β} {i j : Int} : Along v (fits v) (.seek j p) i ↔ Along v (fits v) p j := by
  rw [Along]
  exact and_iff_right trivial

theorem fits_cursor {p : Int → Parse β} {i : Int} : Along v (fits v) (.cursor p) i ↔ Along v (fits v) (p i) i := by
  rw [Along]

theorem fits_push {g : Vault → Vault} {p : Parse β} {i : Int} :
    Along v (fits v) (.push g p) i ↔ Along v (fits v) p i := by
  rw [Along]

theorem fits_guard {c : Prop} [Decidable c] {p : Parse β} {i : Int} :
    Along v (fits v) (if c then .throw else p) i ↔ ¬ c → Along v (fits v) p i := by
  split
  · rename_i holds
    simp [Along,holds]
  · rename_i fails
    simp [fails]

theorem fits_ite {c : Prop} [Decidable c] {p q : Parse β} {i : Int} :
    Along v (fits v) (if c then p else q) i ↔ if c then Along v (fits v) p i else Along v (fits v) q i := by
  split <;> rfl

theorem fits_tagged (tag : Nat) (f : Nat → Parse β) (i : Int) :
    Along v (fits v) (position.bind fun offset => (word offset 4).bind fun type =>
      if type ≠ tag then .throw else (moveTo (toInt (offset+4))).bind fun _ => position.bind fun offset =>
        (word offset 8).bind fun value => (moveTo (toInt (offset+8))).bind fun _ => f value) i ↔
      Tagged v tag i fun value next => Along v (fits v) (f value) next := by
  unfold Tagged
  simp only [position,word,moveTo,Scan.bind]
  rw [Along,fits_read,fits_guard,not_not]
  simp only [fits_seek,Along,fits_read]

theorem along_getUint64 {f : Nat → Parse β} {i : Int} :
    Along v (fits v) (getUint64.bind f) i ↔ Number v i fun a j => Along v (fits v) (f a) j := by
  unfold getUint64
  simp only [bind_eq,pure_eq,bind_assoc,ite_bind]
  exact fits_tagged 4 f i

theorem along_getString {f : Int → Parse β} {i : Int} :
    Along v (fits v) (getString.bind f) i ↔
      Tagged v 8 i fun length start => Along v (fits v) (f start) (toInt (start+length)) := by
  have shape := fits_tagged (v := v) 8 (fun length => position.bind fun start =>
    (moveTo (toInt (start+length))).bind fun _ => f start) i
  unfold getString
  simp only [bind_eq,pure_eq,bind_assoc,ite_bind]
  refine shape.trans ?_
  simp only [position,moveTo,Scan.bind,Along,fits_seek]

theorem along_getText {f : String → Parse β} {i : Int} :
    Along v (fits v) (getText.bind f) i ↔ Tagged v 8 i fun length start => Terminated v start ∧
      Along v (fits v) (f (toText (textAt v start))) (toInt (start+length)) := by
  unfold getText
  simp only [bind_eq,pure_eq,bind_assoc,along_getString,cString,Scan.bind,fits_text]

theorem along_getInt {f : Int → Parse β} {i : Int} :
    Along v (fits v) (getInt.bind f) i ↔ Number v i fun a j => Along v (fits v) (f (toInt a)) j := by
  unfold getInt
  simp only [bind_eq,pure_eq,bind_assoc,along_getUint64,Scan.bind]

theorem along_skip {f : Unit → Parse β} {i : Int} :
    Along v (fits v) ((skip 12).bind f) i ↔ Blank i fun j => Along v (fits v) (f ()) j := by
  unfold skip Blank
  simp only [bind_eq,position,moveTo,Scan.bind,Along,fits_seek]

theorem along_write {f : Unit → Parse β} {g : Vault → Vault} {i : Int} :
    Along v (fits v) ((write g).bind f) i ↔ Along v (fits v) (f ()) i := by
  simp only [write,Scan.bind,Along]

-- A record's program asks what its row says, whatever it does with the content.
def Reads (v : Bytes) (p : Parse α) (row : Row) : Prop :=
  ∀ (β : Type) (f : α → Parse β) (next : Int → Prop),(∀ a j,Along v (fits v) (f a) j ↔ next j) →
    ∀ i,Along v (fits v) (p.bind f) i ↔ row i next

theorem appc_reads (u : Unit) : Reads v (appcRecord u) (appcRow v) := by
  intro β f next later i
  unfold appcRecord appcRow Text
  simp only [bind_eq,bind_assoc,along_getUint64,along_getText,along_getInt,along_write,later]

theorem target_reads (keep : Nat → String → String → Nat → String → String → Vault → Vault) (u : Unit) :
    Reads v (targetRecord keep u) (targetRow v) := by
  intro β f next later i
  unfold targetRecord targetRow Text
  simp only [bind_eq,bind_assoc,along_getUint64,along_getText,along_write,later]

theorem vspt_reads (u : Unit) : Reads v (vsptRecord u) (vsptRow v) := by
  intro β f next later i
  unfold vsptRecord vsptRow
  simp only [bind_eq,bind_assoc,along_getUint64,along_getInt,along_write,later]

theorem vsct_reads (u : Unit) : Reads v (vsctRecord u) (vsctRow v) := by
  intro β f next later i
  unfold vsctRecord vsctRow Text
  simp only [bind_eq,bind_assoc,along_getText,along_getInt,along_write,later]

theorem trt_reads (u : Unit) : Reads v (trtRecord u) (trtRow v) := by
  intro β f next later i
  unfold trtRecord trtRow Text
  simp only [bind_eq,pure_eq,bind_assoc,along_getText,along_getInt,Scan.bind,later]

theorem along_psvLimit {f : String → Parse β} {i : Int} :
    Along v (fits v) (psvLimit.bind f) i ↔ Inside v i 4 ∧ if little (bytesAt v i 4) = 8 then
      Tagged v 8 i fun length start => Terminated v start ∧
        Along v (fits v) (f (toText (textAt v start))) (toInt (start+length))
      else Number v i fun a j => Along v (fits v) (f (toString a)) j := by
  unfold psvLimit
  simp only [getType,bind_eq,pure_eq,bind_assoc,ite_bind,position,word,Scan.bind,Along,fits_read]
  refine and_congr_right fun _ => ?_
  split
  · simp only [along_getText]
  · simp only [along_getUint64]

theorem psvt_reads (psvs : List Psv) : Reads v (psvtRecord psvs) (psvtRow v) := by
  intro β f next later i
  unfold psvtRecord psvtRow limitField Text
  simp only [bind_eq,pure_eq,bind_assoc,along_getText,along_getInt,along_psvLimit,along_skip,Scan.bind,later]

theorem itmt_reads (version : Int) (entries : List ItmtEntry) : Reads v (itmtRecord version entries) (itmtRow v version) := by
  intro β f next later i
  unfold itmtRecord itmtRow itmtRest Text
  simp only [bind_eq,pure_eq,bind_assoc,ite_bind,along_getText,along_getInt]
  split
  · simp only [along_getText,along_getUint64,Scan.bind,later]
  · simp only [along_skip,Scan.bind,later]

theorem tagged_congr {tag : Nat} {i : Int} {rest other : Nat → Int → Prop} (same : ∀ value j,rest value j ↔ other value j) :
    Tagged v tag i rest ↔ Tagged v tag i other := by
  unfold Tagged
  simp only [same]

theorem number_congr {i : Int} {rest other : Nat → Int → Prop} (same : ∀ value j,rest value j ↔ other value j) :
    Number v i rest ↔ Number v i other := tagged_congr same

theorem slots1_reads (len target : Int) (left : Nat) (set : List Condition) :
    Reads v (slots1 len target left set) (Slots1 v len left) := by
  intro β f next later
  induction left using Nat.strong_induction_on generalizing set with
  | _ left ih =>
    intro i
    match left with
    | 0 =>
      unfold slots1 Slots1
      exact later set i
    | left+1 =>
      unfold slots1 Slots1
      simp only [bind_eq,pure_eq,bind_assoc,ite_bind,position,Scan.bind,Along]
      rw [fits_guard,ge_iff_le,not_le]
      refine imp_congr_right fun _ => ?_
      simp only [along_getUint64]
      cases left with
      | zero => simp only [Scan.bind,later]
      | succ more =>
        have taken := ih more (by omega)
        have again := ih (more+1) (by omega)
        simp only [bind_assoc,ite_bind,along_getUint64,fits_ite,along_skip,taken,again]

theorem slots2_reads (len target : Int) {reserved : Parse Unit} {timePart : Parse (Nat × Nat)}
    {reservedRow timeRow : Row} (reserves : Reads v reserved reservedRow) (times : Reads v timePart timeRow) (left : Nat)
    (set : List Condition) :
    Reads v (slots2 len target reserved timePart left set) (Slots2 v len reservedRow timeRow left) := by
  intro β f next later
  induction left using Nat.strong_induction_on generalizing set with
  | _ left ih =>
    intro i
    match left with
    | 0 =>
      unfold slots2 Slots2
      exact later set i
    | left+1 =>
      unfold slots2 Slots2 Text
      simp only [bind_eq,pure_eq,bind_assoc,ite_bind,position,Scan.bind,Along]
      rw [fits_guard,ge_iff_le,not_le]
      refine imp_congr_right fun _ => ?_
      simp only [along_getUint64,along_getText]
      refine number_congr fun condition j => tagged_congr fun length start => and_congr_right fun _ => ?_
      refine reserves _ _ _ (fun _ k => ?_) _
      simp only [along_getUint64]
      refine number_congr fun comparison k => number_congr fun argument k => ?_
      cases left with
      | zero => exact later _ k
      | succ more =>
        have again := ih (more+1) (by omega)
        simp only [bind_assoc,ite_bind,along_getUint64,fits_ite,again]
        refine number_congr fun operation k => ?_
        split
        · exact times _ _ _ (fun pair k => ih more (by omega) _ k) _
        · exact Iff.rfl

theorem apctReserved_reads : Reads v apctReserved Blank := by
  intro β f next later i
  unfold apctReserved
  rw [along_skip]
  simp only [later]

theorem pbctReserved_reads : Reads v pbctReserved (fun i rest => Number v i fun _ i => rest i) := by
  intro β f next later i
  unfold pbctReserved
  simp only [bind_eq,pure_eq,bind_assoc,along_getUint64,Scan.bind,later]

theorem apctTime_reads : Reads v apctTimePart (apctTime v) := by
  intro β f next later i
  unfold apctTimePart apctTime Unread
  simp only [bind_eq,pure_eq,bind_assoc,along_skip,along_getString,along_getUint64,Scan.bind,later]

theorem pbctTime_reads : Reads v pbctTimePart (pbctTime v) := by
  intro β f next later i
  unfold pbctTimePart pbctTime
  simp only [bind_eq,pure_eq,bind_assoc,along_getUint64,Scan.bind,later]

theorem reads_write {p : Parse α} {row : Row} (reads : Reads v p row) (g : α → Vault → Vault) :
    Reads v (p.bind fun a => write (g a)) row := by
  intro β f next later i
  rw [bind_assoc]
  refine reads _ _ _ (fun a j => ?_) i
  rw [along_write]
  exact later () j

theorem reads_guard {c : Prop} [Decidable c] {p : Parse α} {row : Row} (reads : Reads v p row) :
    Reads v (if c then .throw else p) (fun i rest => ¬ c → row i rest) := by
  intro β f next later i
  rw [ite_bind]
  refine fits_guard.trans ?_
  exact imp_congr_right fun _ => reads β f next later i

theorem reads_number {p : Nat → Parse α} {row : Nat → Row} (reads : ∀ a,Reads v (p a) (row a)) :
    Reads v (getUint64.bind p) (fun i rest => Number v i fun a i => row a i rest) := by
  intro β f next later i
  rw [bind_assoc,along_getUint64]
  exact number_congr fun a j => reads a β f next later j

theorem apct1_reads (len : Int) (u : Unit) :
    Reads v (apctRecord1 len u) (setRow1 v len fun target => toInt target = -1) :=
  reads_number fun _ => reads_guard (reads_write (slots1_reads len _ 10 []) _)

theorem apct2_reads (len : Int) (u : Unit) :
    Reads v (apctRecord2 len u) (setRow2 v len (fun target => toInt target = -1) Blank (apctTime v)) :=
  reads_number fun _ => reads_guard (reads_number fun _ =>
    reads_write (slots2_reads len _ apctReserved_reads apctTime_reads _ []) _)

theorem pbct1_reads (len : Int) (u : Unit) :
    Reads v (pbctRecord1 len u) (setRow1 v len fun target => target = uint64Max) :=
  reads_number fun _ => reads_guard (reads_write (slots1_reads len _ 10 []) _)

theorem pbct2_reads (len : Int) (u : Unit) : Reads v (pbctRecord2 len u)
    (setRow2 v len (fun target => target = uint64Max) (fun i rest => Number v i fun _ i => rest i) (pbctTime v)) :=
  reads_number fun _ => reads_guard (reads_number fun _ =>
    reads_write (slots2_reads len _ pbctReserved_reads pbctTime_reads _ []) _)

theorem rows_law {body : β → Parse β} {row : Row} (reads : ∀ acc,Reads v (body acc) row) (len : Int) (n : Nat) (acc : β)
    (i : Int) : Along v (fits v) (whileBelow len body n acc) i ↔ Rows len row n i := by
  induction n generalizing acc i with
  | zero => simp only [whileBelow,Rows,Along]
  | succ n ih =>
    simp only [whileBelow,Rows,Along]
    by_cases below : i < len
    · rw [if_pos below]
      refine (reads acc β _ _ ih i).trans ?_
      exact ⟨fun row _ => row,fun row => row below⟩
    · rw [if_neg below,Along]
      exact ⟨fun _ inside => absurd inside below,fun _ => trivial⟩

theorem fits_then {p : Parse α} {f : α → Parse β} {i : Int} (still : ∀ a j,Along v (fits v) (f a) j) :
    Along v (fits v) (p.bind f) i ↔ Along v (fits v) p i :=
  ⟨fun whole => (along_bind.mp whole).1,fun first => along_bind.mpr ⟨first,fun a j _ => still a j⟩⟩

theorem fits_done {a : α} {i : Int} : Along v (fits v) (.done a : Parse α) i := by
  rw [Along]
  trivial

theorem fits_write {g : Vault → Vault} {i : Int} : Along v (fits v) (write g) i := by
  simp only [write,Along]

theorem fits_skip {c : Prop} [Decidable c] {a : β} {p : Parse β} {i : Int} :
    Along v (fits v) (if c then .done a else p) i ↔ ¬ c → Along v (fits v) p i := by
  split
  · rename_i holds
    exact ⟨fun _ fails => absurd holds fails,fun _ => fits_done⟩
  · rename_i fails
    exact ⟨fun rest _ => rest,fun rest => rest fails⟩

theorem appc_law (n : Nat) : Along v (fits v) (parseAppc n (toInt v.length)) 0 ↔ appcTable v n := by
  unfold parseAppc appcTable
  simp only [bind_eq,pure_eq,word,Scan.bind,fits_read,fits_skip,along_getUint64,rows_law appc_reads,ne_eq,not_not]

theorem pbat_law (n : Nat) : Along v (fits v) (parsePbat n (toInt v.length)) 0 ↔ pbatTable v n := by
  unfold parsePbat pbatTable
  simp only [bind_eq,along_getUint64,fits_guard,rows_law (target_reads _),ne_eq,not_and_or,not_not]

theorem apat_law (n : Nat) : Along v (fits v) (parseApat n (toInt v.length)) 0 ↔ apatTable v n := by
  unfold parseApat apatTable
  simp only [bind_eq,along_getUint64,fits_guard,rows_law (target_reads _),ne_eq,not_not]

theorem fits_versions {version : Nat} {p q : Parse β} {i : Int} {first second : Prop}
    (one : Along v (fits v) p i ↔ first) (two : Along v (fits v) q i ↔ second) :
    Along v (fits v) (if version = 1 then p else if version = 2 then q else .throw) i ↔
      (version = 1 → first) ∧ (version = 2 → second) := by
  by_cases isOne : version = 1
  · subst version
    simp [one]
  · by_cases isTwo : version = 2
    · subst version
      simp [two]
    · simp [isOne,isTwo,Along]

theorem apct_law (n : Nat) : Along v (fits v) (parseApct n (toInt v.length)) 0 ↔ apctTable v n := by
  unfold parseApct apctTable setTable
  rw [bind_eq,along_getUint64]
  exact number_congr fun version i => fits_versions (rows_law (apct1_reads _) _ n () i) (rows_law (apct2_reads _) _ n () i)

theorem pbct_law (n : Nat) : Along v (fits v) (parsePbct n (toInt v.length)) 0 ↔ pbctTable v n := by
  unfold parsePbct pbctTable setTable
  rw [bind_eq,along_getUint64]
  exact number_congr fun version i => fits_versions (rows_law (pbct1_reads _) _ n () i) (rows_law (pbct2_reads _) _ n () i)

theorem psvt_law (name : Option Bytes) (n : Nat) :
    Along v (fits v) (parsePsvt n name (toInt v.length)) 0 ↔ psvtTable v n := by
  unfold parsePsvt psvtTable
  rw [bind_eq,along_getInt]
  refine number_congr fun version i => fits_guard.trans (imp_congr Int.not_lt ?_)
  exact (fits_then fun _ _ => fits_write).trans (rows_law psvt_reads _ n [] i)

theorem itmt_law (name : Option Bytes) (n : Nat) :
    Along v (fits v) (parseItmt n name (toInt v.length)) 0 ↔ itmtTable v n := by
  unfold parseItmt itmtTable
  rw [bind_eq,along_getInt]
  refine number_congr fun version i => fits_skip.trans (imp_congr Int.not_lt ?_)
  exact (fits_then fun _ _ => fits_write).trans (rows_law (itmt_reads _) _ n [] i)

theorem vspt_law (n : Nat) : Along v (fits v) (parseVspt n (toInt v.length)) 0 ↔ vsptTable v n := by
  unfold parseVspt vsptTable
  rw [bind_eq,along_getInt]
  exact number_congr fun version i => fits_skip.trans (imp_congr Int.not_lt (rows_law vspt_reads _ n () i))

theorem vsct_law (name : Option Bytes) (n : Nat) :
    Along v (fits v) (parseVsct n name (toInt v.length)) 0 ↔ vsctTable v n := by
  unfold parseVsct vsctTable
  rw [bind_eq,along_write,bind_eq,along_getInt]
  exact number_congr fun version i => fits_skip.trans (imp_congr Int.not_lt (rows_law vsct_reads _ n () i))

theorem trt_law (n : Nat) : Along v (fits v) (parseTrt n (toInt v.length)) 0 ↔ trtTable v n :=
  rows_law trt_reads _ n () 0

theorem tripPoint_law (name point : Bytes) : Along v (fits v) (parseTripPoint name point) 0 ↔ tripPointTable v := by
  unfold parseTripPoint tripPointTable
  rw [bind_eq,fits_then fun _ _ => fits_write]
  simp only [word,fits_read,Inside,fits_done,and_true]
  omega

-- Every field of the second limit lies before the length that is asked for it.
theorem ppcc_law (name : Bytes) : Along v (fits v) (parsePpcc name (toInt v.length)) 0 ↔ ppccTable v := by
  have short := GddvLoops.toInt_le_nat v.length
  unfold parsePpcc ppccTable
  generalize toInt v.length = len at short ⊢
  simp only [bind_eq,pure_eq,word,Scan.bind,fits_read,fits_skip,fits_write,Inside,and_true]
  omega

theorem itmt3Rows_law {len : Int} (room : len ≤ v.length) (n : Nat) (entries : List ItmtEntry) (i : Int) (start : 0 ≤ i) :
    Along v (fits v) (itmt3Entries len n entries) i ↔ Itmt3Rows v len n i := by
  induction n generalizing entries i with
  | zero => simp only [itmt3Entries,Itmt3Rows,Along]
  | succ n ih =>
    unfold itmt3Entries Itmt3Rows
    simp only [bind_eq,pure_eq,position,word,cString,moveTo,Scan.bind,fits_cursor,fits_ite]
    by_cases below : i < len
    · by_cases part : len-i < 296
      · simp [below,part,fits_done]
      · have temp : Inside v (i+64) 8 := by unfold Inside; omega
        have later (entries : List ItmtEntry) := ih entries (i+296) (by omega)
        simp only [below,part,if_true,if_false,fits_text,fits_read,fits_seek,later,temp,true_and,true_implies,
          Int.not_lt.mp part]
    · simp [below,fits_done]

theorem itmt3_law (name : Option Bytes) (n : Nat) :
    Along v (fits v) (parseItmt3 n name (toInt v.length)) 0 ↔ itmt3Table v n := by
  have length : toInt v.length % 4294967296 ≤ v.length := by
    unfold toInt Int.bmod
    dsimp only
    split <;> omega
  unfold parseItmt3 itmt3Table
  generalize toInt v.length % 4294967296 = len at length ⊢
  have rows := itmt3Rows_law length n [] 12 (by decide)
  simp only [bind_eq,pure_eq,moveTo,Scan.bind,fits_skip,fits_seek]
  refine ⟨fun rest whole => rows.mp (along_bind.mp (rest (by omega) (by omega))).1,?_⟩
  intro rest _ _
  refine along_bind.mpr ⟨rows.mpr (rest (by omega)),?_⟩
  intro entries j _
  cases entries with
  | none => exact fits_done
  | some entries => exact fits_write

theorem idspRows_law {len : Int} (room : len ≤ v.length) (n : Nat) (i : Int) :
    Along v (fits v) (idspEntries len n) i ↔ IdspRows v len n i := by
  induction n generalizing i with
  | zero => simp only [idspEntries,IdspRows,Along]
  | succ n ih =>
    unfold idspEntries IdspRows
    simp only [bind_eq,pure_eq,position,word,moveTo,write,Scan.bind,fits_cursor,fits_ite]
    by_cases part : len-i < 28
    · have short : ¬ 28 ≤ len-i := by omega
      simp [part,short,fits_done]
    · have whole : 28 ≤ len-i := Int.not_lt.mp part
      simp only [show i < len by omega,part,whole,if_true,if_false,fits_read,fits_skip,fits_seek,fits_push,ih,ne_eq,
        not_not,true_implies,Inside]
      refine ⟨fun laid => ⟨laid.1.1,fun seven => (laid.2 seven).2.2⟩,?_⟩
      intro laid
      exact ⟨⟨laid.1,by omega⟩,fun seven => ⟨⟨by omega,by omega⟩,⟨by omega,by omega⟩,laid.2 seven⟩⟩

theorem idsp_law (n : Nat) : Along v (fits v) (parseIdsp n (toInt v.length)) 0 ↔ idspTable v n :=
  idspRows_law (GddvLoops.toInt_le_nat v.length) n 0

theorem fits_choice {c : Prop} [Decidable c] {p q : Parse β} {i : Int} {yes no : Prop}
    (left : Along v (fits v) p i ↔ yes) (right : Along v (fits v) q i ↔ no) :
    Along v (fits v) (if c then p else q) i ↔ if c then yes else no := by
  split
  · exact left
  · exact right

theorem table_law (n : Nat) (path : KeyPath) :
    Along v (fits v) (parseValue n path (toInt v.length)) 0 ↔ Table v n path := by
  unfold parseValue Table
  cases type : path.type with
  | none => exact ⟨fun _ => trivial,fun _ => fits_done⟩
  | some type =>
    refine fits_choice ?_ (fits_choice (psvt_law _ n) (fits_choice (appc_law n) (fits_choice (apct_law n)
      (fits_choice (pbat_law n) (fits_choice (pbct_law n) (fits_choice (apat_law n) (fits_choice (itmt3_law _ n)
      (fits_choice (itmt_law _ n) (fits_choice ?_ (fits_choice ?_ (fits_choice (trt_law n) (fits_choice (vsct_law _ n)
      (fits_choice (vspt_law n) ⟨fun _ => trivial,fun _ => fits_done⟩)))))))))))))
    · cases path.name with
      | none => exact ⟨fun _ named => absurd rfl named,fun _ => fits_done⟩
      | some name => exact (ppcc_law name).trans ⟨fun table _ => table,fun table => table (by simp)⟩
    · cases path.name with
      | none => exact ⟨fun _ named => absurd rfl named,fun _ => fits_done⟩
      | some name => exact (idsp_law n).trans ⟨fun table _ => table,fun table => table (by simp)⟩
    · cases path.name with
      | none => exact ⟨fun _ named => absurd rfl named,fun _ => fits_done⟩
      | some name =>
        cases path.point with
        | none => exact ⟨fun _ _ pointed => absurd rfl pointed,fun _ => fits_done⟩
        | some point =>
          exact (tripPoint_law name point).trans ⟨fun table _ _ => table,fun table => table (by simp) (by simp)⟩

end Laws

end ChuwiMinibook.GddvLayout
