import Mathlib.Data.List.Basic
import Mathlib.Data.List.Induction

namespace ChuwiMinibook.ByteImage

-- A byte image in memory whose accesses are checked: none is one outside of it.
abbrev Image := List (BitVec 8)

def readU8 (f : Image) (i : Nat) : Option Nat := f[i]?.map BitVec.toNat

-- Words are little-endian.
def readU16 (f : Image) (i : Nat) : Option Nat := (readU8 f i).bind fun a => (readU8 f (i+1)).map fun b => a + 256*b

def readU32 (f : Image) (i : Nat) : Option Nat := (readU16 f i).bind fun a => (readU16 f (i+2)).map fun b => a + 65536*b

-- The values with 0 for what lies outside.
def u8 (f : Image) (i : Nat) : Nat := (readU8 f i).getD 0
def u16 (f : Image) (i : Nat) : Nat := (readU16 f i).getD 0
def u32 (f : Image) (i : Nat) : Nat := (readU32 f i).getD 0

def Inside (f : Image) (i n : Nat) : Prop := i+n ≤ f.length

instance (f : Image) (i n : Nat) : Decidable (Inside f i n) := inferInstanceAs (Decidable (_ ≤ _))

-- A computation that fails at its first access outside: it has the value exactly
-- under the condition.
structure Checks {α : Type} (x : Option α) (P : Prop) (v : α) : Prop where
  gives : P → x = some v
  needs : x.isSome = true → P

section Checks

variable {α β : Type} {x : Option α} {g : α → Option β} {P Q : Prop} {v : α} {w : β}

theorem Checks.done (v : α) : Checks (some v) True v := ⟨fun _ => rfl,fun _ => trivial⟩

theorem Checks.bind (first : Checks x P v) (second : P → Checks (g v) Q w) : Checks (x.bind g) (P ∧ Q) w := by
  constructor
  · rintro ⟨holds,more⟩
    rw [first.gives holds,Option.bind_some]
    exact (second holds).gives more
  · intro has
    have holds : P := first.needs (Option.isSome_of_isSome_bind has)
    rw [first.gives holds,Option.bind_some] at has
    exact ⟨holds,(second holds).needs has⟩

theorem Checks.map (first : Checks x P v) (h : α → β) : Checks (x.map h) P (h v) := by
  constructor
  · intro holds
    rw [first.gives holds,Option.map_some]
  · intro has
    exact first.needs (by rwa [Option.isSome_map] at has)

theorem Checks.cong {v' : α} (first : Checks x P v) (cond : P ↔ Q) (same : P → v = v') : Checks x Q v' :=
  ⟨fun holds => (first.gives (cond.mpr holds)).trans (congrArg some (same (cond.mpr holds))),
    fun has => cond.mp (first.needs has)⟩

theorem Checks.branch {y : Option α} {v' : α} {c : Prop} [Decidable c] (yes : c → Checks x P v)
    (no : ¬c → Checks y Q v') : Checks (if c then x else y) ((c → P) ∧ (¬c → Q)) (if c then v else v') := by
  by_cases holds : c
  · rw [if_pos holds,if_pos holds]
    exact (yes holds).cong (by simp [holds]) (fun _ => rfl)
  · rw [if_neg holds,if_neg holds]
    exact (no holds).cong (by simp [holds]) (fun _ => rfl)

theorem Checks.when {v' : α} {c : Prop} [Decidable c] (yes : c → Checks x P v) :
    Checks (if c then x else some v') (c → P) (if c then v else v') :=
  (Checks.branch yes (fun _ => Checks.done v')).cong (by simp) (fun _ => rfl)

theorem Checks.ite (c : Prop) [Decidable c] (v : α) : Checks (if c then some v else none) c v := by
  by_cases holds : c
  · rw [if_pos holds]
    exact ⟨fun _ => rfl,fun _ => holds⟩
  · rw [if_neg holds]
    exact ⟨fun yes => absurd yes holds,fun has => absurd has (by simp)⟩

end Checks

theorem readU8_eq (f : Image) (i : Nat) : readU8 f i = if Inside f i 1 then some (u8 f i) else none := by
  by_cases inside : i < f.length
  · rw [if_pos (show Inside f i 1 from inside)]
    simp [u8,readU8,inside]
  · rw [if_neg (show ¬Inside f i 1 from inside)]
    simp [readU8]
    omega

theorem readU16_eq (f : Image) (i : Nat) : readU16 f i = if Inside f i 2 then some (u16 f i) else none := by
  unfold u16 readU16
  rw [readU8_eq,readU8_eq]
  by_cases inside : Inside f i 2
  · unfold Inside at inside ⊢
    simp [show i+1 ≤ f.length by omega,show i+1+1 ≤ f.length by omega]
  · rw [if_neg inside]
    unfold Inside at inside
    by_cases first : Inside f i 1
    · rw [if_pos first,if_neg (show ¬Inside f (i+1) 1 by unfold Inside; omega)]
      rfl
    · rw [if_neg first]
      rfl

theorem readU32_eq (f : Image) (i : Nat) : readU32 f i = if Inside f i 4 then some (u32 f i) else none := by
  unfold u32 readU32
  rw [readU16_eq,readU16_eq]
  by_cases inside : Inside f i 4
  · unfold Inside at inside ⊢
    simp [show i+2 ≤ f.length by omega,show i+2+2 ≤ f.length by omega]
  · rw [if_neg inside]
    unfold Inside at inside
    by_cases first : Inside f i 2
    · rw [if_pos first,if_neg (show ¬Inside f (i+2) 2 by unfold Inside; omega)]
      rfl
    · rw [if_neg first]
      rfl

theorem readU8_checks (f : Image) (i : Nat) : Checks (readU8 f i) (Inside f i 1) (u8 f i) := by
  rw [readU8_eq]
  exact Checks.ite _ _

theorem readU16_checks (f : Image) (i : Nat) : Checks (readU16 f i) (Inside f i 2) (u16 f i) := by
  rw [readU16_eq]
  exact Checks.ite _ _

theorem readU32_checks (f : Image) (i : Nat) : Checks (readU32 f i) (Inside f i 4) (u32 f i) := by
  rw [readU32_eq]
  exact Checks.ite _ _

-- A write of the bits in a mask.
structure Write where
  pos : Nat
  mask : BitVec 8
  value : BitVec 8
deriving DecidableEq

def put (f : Image) (w : Write) : Image := f.modify w.pos (fun b => b &&& ~~~w.mask ||| w.value &&& w.mask)

def store (f : Image) (w : Write) : Option Image := if Inside f w.pos 1 then some (put f w) else none

def puts (f : Image) (ws : List Write) : Image := ws.foldl put f

def stores (f : Image) : List Write → Option Image
  | [] => some f
  | w::rest => (store f w).bind (stores · rest)

def byte (i : Nat) (v : BitVec 8) : Write := ⟨i,255#8,v⟩
def word (i v : Nat) : List Write := [byte i (BitVec.ofNat 8 v),byte (i+1) (BitVec.ofNat 8 (v/256))]
def dword (i v : Nat) : List Write := word i v++word (i+2) (v/65536)

@[simp] theorem length_put (f : Image) (w : Write) : (put f w).length = f.length := List.length_modify _ _ _

@[simp] theorem length_puts (f : Image) (ws : List Write) : (puts f ws).length = f.length := by
  induction ws generalizing f with
  | nil => rfl
  | cons w rest ih => exact (ih (put f w)).trans (length_put f w)

theorem puts_append (f : Image) (first second : List Write) : puts f (first++second) = puts (puts f first) second :=
  List.foldl_append

theorem inside_put {f : Image} {w : Write} {i n : Nat} : Inside (put f w) i n ↔ Inside f i n := by
  unfold Inside
  rw [length_put]

theorem inside_puts {f : Image} {ws : List Write} {i n : Nat} : Inside (puts f ws) i n ↔ Inside f i n := by
  unfold Inside
  rw [length_puts]

theorem readU8_apart {f : Image} {w : Write} {i : Nat} (apart : w.pos ≠ i) : readU8 (put f w) i = readU8 f i := by
  unfold readU8 put
  rw [List.getElem?_modify]
  simp [apart]

theorem readU16_apart {f : Image} {w : Write} {i : Nat} (apart : w.pos < i ∨ i+2 ≤ w.pos) :
    readU16 (put f w) i = readU16 f i := by
  unfold readU16
  rw [readU8_apart (by omega),readU8_apart (by omega)]

theorem word_pos {w : Write} {i v : Nat} (written : w ∈ word i v) : i ≤ w.pos ∧ w.pos < i+2 := by
  simp only [word,byte,List.mem_cons,List.not_mem_nil,or_false] at written
  rcases written with rfl | rfl
  · exact ⟨Nat.le_refl i,Nat.lt_add_of_pos_right (by decide)⟩
  · exact ⟨Nat.le_succ i,Nat.lt_succ_self (i+1)⟩

-- A write of a whole byte replaces it.
theorem put_byte (f : Image) (i : Nat) (v : BitVec 8) : put f (byte i v) = f.set i v := by
  have whole (b : BitVec 8) : b &&& ~~~(255#8) ||| v &&& 255#8 = v := by
    have ones : 255#8 = BitVec.allOnes 8 := rfl
    rw [ones,BitVec.not_allOnes,BitVec.and_zero,BitVec.zero_or,BitVec.and_allOnes]
  apply List.ext_getElem?
  intro k
  simp only [put,byte,whole,List.getElem?_modify,List.getElem?_set]
  by_cases here : i = k
  · subst here
    by_cases inside : i < f.length
    · simp [inside]
    · simp [inside]
  · simp [here]

theorem readU8_put_byte {f : Image} {i : Nat} (inside : Inside f i 1) (v : BitVec 8) :
    readU8 (put f (byte i v)) i = some v.toNat := by
  rw [put_byte,readU8,List.getElem?_set_self inside]
  rfl

theorem readU8_puts {f : Image} {ws : List Write} {i : Nat} (apart : ∀ w ∈ ws,w.pos ≠ i) :
    readU8 (puts f ws) i = readU8 f i := by
  induction ws generalizing f with
  | nil => rfl
  | cons w rest ih =>
    obtain ⟨first,others⟩ := List.forall_mem_cons.mp apart
    exact (ih others).trans (readU8_apart first)

theorem readU16_puts {f : Image} {ws : List Write} {i : Nat} (apart : ∀ w ∈ ws,w.pos < i ∨ i+2 ≤ w.pos) :
    readU16 (puts f ws) i = readU16 f i := by
  have low : ∀ w ∈ ws,w.pos ≠ i := fun w written => by
    have := apart w written
    omega
  have high : ∀ w ∈ ws,w.pos ≠ i+1 := fun w written => by
    have := apart w written
    omega
  rw [readU16,readU8_puts low,readU8_puts high]
  rfl

theorem readU32_puts {f : Image} {ws : List Write} {i : Nat} (apart : ∀ w ∈ ws,w.pos < i ∨ i+4 ≤ w.pos) :
    readU32 (puts f ws) i = readU32 f i := by
  have low : ∀ w ∈ ws,w.pos < i ∨ i+2 ≤ w.pos := fun w written => by
    have := apart w written
    omega
  have high : ∀ w ∈ ws,w.pos < i+2 ∨ i+2+2 ≤ w.pos := fun w written => by
    have := apart w written
    omega
  rw [readU32,readU16_puts low,readU16_puts high]
  rfl

-- Words are read as they were written, up to their width.
theorem readU16_word {f : Image} {i : Nat} (inside : Inside f i 2) (v : Nat) :
    readU16 (puts f (word i v)) i = some (v%65536) := by
  have first : Inside f i 1 := by
    unfold Inside at inside ⊢
    omega
  have second : Inside (put f (byte i (BitVec.ofNat 8 v))) (i+1) 1 := by
    unfold Inside at inside ⊢
    rw [length_put]
    omega
  have split : puts f (word i v) =
      put (put f (byte i (BitVec.ofNat 8 v))) (byte (i+1) (BitVec.ofNat 8 (v/256))) := rfl
  rw [split,readU16,readU8_put_byte second,readU8_apart (by simp [byte]),readU8_put_byte first]
  simp only [Option.bind_some,Option.map_some,BitVec.toNat_ofNat]
  congr 1
  omega

theorem readU32_dword {f : Image} {i : Nat} (inside : Inside f i 4) (v : Nat) :
    readU32 (puts f (dword i v)) i = some (v%4294967296) := by
  have first : Inside f i 2 := by
    unfold Inside at inside ⊢
    omega
  have second : Inside (puts f (word i v)) (i+2) 2 := by
    unfold Inside at inside ⊢
    rw [length_puts]
    omega
  have apart : ∀ w ∈ word (i+2) (v/65536),w.pos < i ∨ i+2 ≤ w.pos := fun w written => by
    have := word_pos written
    omega
  rw [dword,puts_append,readU32,readU16_word second,readU16_puts apart,readU16_word first]
  simp only [Option.bind_some,Option.map_some]
  congr 1
  omega

theorem store_checks (f : Image) (w : Write) : Checks (store f w) (Inside f w.pos 1) (put f w) := Checks.ite _ _

theorem stores_checks (f : Image) (ws : List Write) : Checks (stores f ws) (∀ w ∈ ws,Inside f w.pos 1) (puts f ws) := by
  induction ws generalizing f with
  | nil => exact (Checks.done f).cong (by simp) (fun _ => rfl)
  | cons w rest ih =>
    refine ((store_checks f w).bind fun _ => ih (put f w)).cong ?_ (fun _ => rfl)
    simp only [inside_put,List.forall_mem_cons]

theorem word_inside {f : Image} {i v : Nat} : (∀ w ∈ word i v,Inside f w.pos 1) ↔ Inside f i 2 := by
  simp only [word,byte,Inside,List.forall_mem_cons,List.not_mem_nil,false_implies,implies_true,and_true]
  omega

theorem dword_inside {f : Image} {i v : Nat} : (∀ w ∈ dword i v,Inside f w.pos 1) ↔ Inside f i 4 := by
  rw [dword,List.forall_mem_append,word_inside,word_inside]
  unfold Inside
  omega

theorem dword_pos {w : Write} {i v : Nat} (written : w ∈ dword i v) : i ≤ w.pos ∧ w.pos < i+4 := by
  rcases List.mem_append.mp written with low | high
  · have := word_pos low
    omega
  · have := word_pos high
    omega

-- One bit of the image, and the last write of a list that reaches it.
def bit (f : Image) (i k : Nat) : Bool := (f[i]?.getD 0#8).getLsbD k

def settled (ws : List Write) (i k : Nat) : Option Bool :=
  (ws.reverse.find? (fun w => w.pos = i ∧ w.mask.getLsbD k = true)).map (fun w => w.value.getLsbD k)

theorem bit_put (f : Image) (w : Write) (i k : Nat) (inside : i < f.length) :
    bit (put f w) i k = if w.pos = i ∧ w.mask.getLsbD k = true then w.value.getLsbD k else bit f i k := by
  unfold bit put
  rw [List.getElem?_modify,List.getElem?_eq_getElem inside]
  by_cases here : w.pos = i
  · by_cases small : k < 8
    · simp only [here,Option.map_eq_map,Option.map_some,Option.getD_some,if_true,true_and]
      rw [BitVec.getLsbD_or,BitVec.getLsbD_and,BitVec.getLsbD_and,BitVec.getLsbD_not]
      cases masked : w.mask.getLsbD k <;> simp [small]
    · have high (b : BitVec 8) : b.getLsbD k = false := BitVec.getLsbD_of_ge b k (by omega)
      simp [high]
  · simp [here]

theorem settled_snoc (ws : List Write) (w : Write) (i k : Nat) :
    settled (ws++[w]) i k = if w.pos = i ∧ w.mask.getLsbD k = true then some (w.value.getLsbD k) else settled ws i k := by
  unfold settled
  rw [List.reverse_append,List.reverse_singleton,List.singleton_append,List.find?_cons]
  split <;> rename_i found <;> simp_all

theorem settled_some {ws : List Write} {i k : Nat} {b : Bool} (stored : settled ws i k = some b) :
    ∃ w ∈ ws,w.pos = i ∧ w.mask.getLsbD k = true := by
  obtain ⟨w,found,_⟩ := Option.map_eq_some_iff.mp stored
  exact ⟨w,List.mem_reverse.mp (List.mem_of_find?_eq_some found),by simpa using List.find?_some found⟩

theorem settled_covered {ws : List Write} {w : Write} {i k : Nat} (written : w ∈ ws) (here : w.pos = i)
    (masked : w.mask.getLsbD k = true) : ∃ b,settled ws i k = some b := by
  rw [← Option.isSome_iff_exists,settled,Option.isSome_map,List.find?_isSome]
  exact ⟨w,List.mem_reverse.mpr written,by simp [here,masked]⟩

theorem settled_apart {ws later : List Write} {i k : Nat} (apart : ∀ w ∈ later,w.pos ≠ i) :
    settled (ws++later) i k = settled ws i k := by
  have none : later.reverse.find? (fun w => w.pos = i ∧ w.mask.getLsbD k = true) = none := by
    rw [List.find?_eq_none]
    intro w member
    simp [apart w (List.mem_reverse.mp member)]
  rw [settled,List.reverse_append,List.find?_append,none,Option.none_or]
  rfl

theorem bit_past {f : Image} {i : Nat} (past : f.length ≤ i) (k : Nat) : bit f i k = false := by
  unfold bit
  rw [List.getElem?_eq_none past]
  exact BitVec.getLsbD_zero

theorem bit_puts (f : Image) (ws : List Write) (i k : Nat) (inside : i < f.length) :
    bit (puts f ws) i k = (settled ws i k).getD (bit f i k) := by
  induction ws using List.reverseRecOn with
  | nil => rfl
  | append_singleton ws w ih =>
    rw [puts_append,settled_snoc]
    show bit (put (puts f ws) w) i k = _
    rw [bit_put _ _ _ _ (by rwa [length_puts]),ih]
    split <;> rfl

end ChuwiMinibook.ByteImage
