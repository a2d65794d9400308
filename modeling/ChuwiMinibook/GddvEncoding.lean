import ChuwiMinibook.ByteRuns
import ChuwiMinibook.GddvLoops
import ChuwiMinibook.GddvReads

namespace ChuwiMinibook.GddvEncoding
open ByteScan Scan GddvTables GddvParser GddvReads GddvLoops

-- The tagged fields of the vault's tables.
def number (n : Nat) : Bytes := encode 4 4++encode 8 n

def text (content : Bytes) : Bytes := encode 4 8++encode 8 content.length++content

-- Any twelve bytes, a tag and a value.
structure Field where
  tag : UInt32
  value : UInt64

def Field.bytes (f : Field) : Bytes := encode 4 f.tag.toNat++encode 8 f.value.toNat

@[simp] theorem length_number (n : Nat) : (number n).length = 12 := by
  simp [number,length_encode]

@[simp] theorem length_text (content : Bytes) : (text content).length = 12+content.length := by
  simp only [text,List.length_append,length_encode]

@[simp] theorem length_field (f : Field) : f.bytes.length = 12 := by
  simp only [Field.bytes,List.length_append,length_encode]

variable {v : Bytes} {i : Nat}

theorem after_field {f : Field} {b : Bytes} (stands : Stands v i (f.bytes++b)) : Stands v (i+12) b := by
  have rest := stands.right
  rwa [length_field] at rest

theorem after_number {n : Nat} {b : Bytes} (stands : Stands v i (number n++b)) : Stands v (i+12) b := by
  have rest := stands.right
  rwa [length_number] at rest

theorem after_text {content b : Bytes} (stands : Stands v i (text content++b)) : Stands v (i+12+content.length) b := by
  have rest := stands.right
  rwa [length_text,← Nat.add_assoc] at rest

-- A little-endian number that stands in the buffer.
theorem yields_field {n value : Nat} (stands : Stands v i (encode n value)) (fits : value < 256^n) (j : Int) :
    Yields v (word i n : Parse Nat) j value j id := by
  have read := yields_word (τ := Vault) stands j
  rwa [length_encode,little_encode,Nat.mod_eq_of_lt fits] at read

theorem throws_getUint64 {tag : Nat} {rest : Bytes} (stands : Stands v i (encode 4 tag++rest)) (fits : tag < 256^4)
    (other : tag ≠ 4) : Throws v getUint64 i := by
  unfold getUint64
  refine throws_after (⟨rfl,rfl⟩ : Yields v position i (i : Int) i id) ?_
  refine throws_after (yields_field stands.left fits i) ?_
  rw [if_pos other]
  rfl

section Fields
variable (small : v.length < 2147483648)
include small

theorem yields_moveTo {k : Nat} (room : k ≤ v.length) (j : Int) : Yields v (moveTo (toInt k) : Parse Unit) j () k id := by
  have same : toInt (k : Int) = k := toInt_small (by omega) (by omega)
  rw [same]
  exact ⟨rfl,rfl⟩

theorem yields_skip {n : Nat} (room : i+n ≤ v.length) : Yields v (skip n) i () (i+n : Nat) id :=
  yields_moveTo small room i

theorem yields_getUint64 {n : Nat} (stands : Stands v i (number n)) (fits : n < 18446744073709551616) :
    Yields v getUint64 i n (i+12 : Nat) id := by
  have room := stands.1
  rw [length_number] at room
  have value := stands.right
  rw [length_encode] at value
  unfold getUint64
  refine yields_after (⟨rfl,rfl⟩ : Yields v position i (i : Int) i id) ?_
  refine yields_after (yields_field stands.left (by decide) i) ?_
  rw [if_neg (by decide)]
  refine yields_after (yields_moveTo small (k := i+4) (by omega) i) ?_
  refine yields_after (⟨rfl,rfl⟩ : Yields v position (i+4 : Nat) ((i+4 : Nat) : Int) (i+4 : Nat) id) ?_
  refine yields_after (yields_field value fits _) ?_
  refine yields_after (yields_moveTo small (k := i+12) (by omega) _) ?_
  exact yields_done v n _

theorem yields_getString {content : Bytes} (stands : Stands v i (text content)) :
    Yields v getString i (i+12 : Nat) (i+12+content.length : Nat) id := by
  have room := stands.1
  rw [length_text] at room
  have length := stands.left.right
  rw [length_encode] at length
  unfold getString
  refine yields_after (⟨rfl,rfl⟩ : Yields v position i (i : Int) i id) ?_
  refine yields_after (yields_field stands.left.left (by decide) i) ?_
  rw [if_neg (by decide)]
  refine yields_after (yields_moveTo small (k := i+4) (by omega) i) ?_
  refine yields_after (⟨rfl,rfl⟩ : Yields v position (i+4 : Nat) ((i+4 : Nat) : Int) (i+4 : Nat) id) ?_
  refine yields_after (yields_field length (by omega) _) ?_
  refine yields_after (yields_moveTo small (k := i+12) (by omega) _) ?_
  refine yields_after (⟨rfl,rfl⟩ : Yields v position (i+12 : Nat) ((i+12 : Nat) : Int) (i+12 : Nat) id) ?_
  refine yields_after (yields_moveTo small (k := i+12+content.length) (by omega) _) ?_
  exact yields_done v _ _

-- A text may run on into the bytes behind its field.
theorem yields_getText {content behind : Bytes} (stands : Stands v i (text content++behind)) (zero : 0 ∈ content++behind) :
    Yields v getText i (toText ((content++behind).takeWhile (· ≠ 0))) (i+12+content.length : Nat) id := by
  have place : Stands v (i+12) (content++behind) := by
    rw [text,List.append_assoc] at stands
    have rest := stands.right
    rwa [List.length_append,length_encode,length_encode] at rest
  unfold getText
  refine yields_after (yields_getString small stands.left) ?_
  refine yields_after (yields_cString place zero _) ?_
  exact yields_done v _ _

theorem yields_getInt {n : Nat} (stands : Stands v i (number n)) (fits : n < 18446744073709551616) :
    Yields v getInt i (toInt n) (i+12 : Nat) id := by
  unfold getInt
  exact yields_after (yields_getUint64 small stands fits) (yields_done v _ _)

end Fields

-- A key and its value, as parse_gddv_key reads them.
structure KeyRecord where
  keyflags : UInt32
  key : Bytes
  valtype : UInt32
  val : Bytes

namespace KeyRecord

def bytes (k : KeyRecord) : Bytes :=
  encode 4 k.keyflags.toNat++(encode 4 k.key.length++(k.key++(encode 4 k.valtype.toNat++(encode 4 k.val.length++k.val))))

theorem length_bytes (k : KeyRecord) : k.bytes.length = 16+k.key.length+k.val.length := by
  simp only [bytes,List.length_append,length_encode]
  omega

end KeyRecord

section Keys
variable (small : v.length < 2147483648) {k : KeyRecord} (stands : Stands v i k.bytes)
include small stands

theorem yields_keyItem (j : Int) : Yields v (keyItem i) j (k.key,k.val) k.bytes.length id := by
  have size := k.length_bytes
  have inside := stands.1
  have keylength := stands.right
  rw [length_encode] at keylength
  have key := keylength.right
  rw [length_encode] at key
  have valtype := key.right
  have vallength := valtype.right
  rw [length_encode] at vallength
  have val := vallength.right
  rw [length_encode] at val
  have first : toInt (8+(k.key.length : Int)) = 8+k.key.length := toInt_small (by omega) (by omega)
  have place : (i : Int)+(8+k.key.length) = (i+4+4+k.key.length : Nat) := by omega
  have second : toInt (8+(k.key.length : Int)+8+k.val.length) = k.bytes.length := by
    rw [toInt_small (by omega) (by omega),size]
    omega
  unfold keyItem
  refine yields_after (yields_field stands.left (UInt32.toNat_lt _) j) ?_
  refine yields_after (yields_field keylength.left (by omega) j) ?_
  refine yields_after (yields_read key.left j) ?_
  dsimp only
  rw [first,place]
  refine yields_after (yields_field valtype.left (UInt32.toNat_lt _) j) ?_
  refine yields_after (yields_field vallength.left (by omega) j) ?_
  refine yields_after (yields_read val j) ?_
  rw [second]
  exact ⟨rfl,rfl⟩

-- What parse_gddv_key does with a record that stands in the buffer.
theorem parseGddvKey_stands (fuel : Nat) {path : KeyPath} (split : splitKey k.key = .ok path) :
    parseGddvKey fuel v i =
      ⟨(run k.val (parseValue fuel path (toInt k.val.length))).effect,
        (run k.val (parseValue fuel path (toInt k.val.length))).result.map (fun _ => (k.bytes.length : Int))⟩ := by
  rw [parseGddvKey,(yields_keyItem small stands 0).1]
  dsimp only
  rw [split]

end Keys

end ChuwiMinibook.GddvEncoding
