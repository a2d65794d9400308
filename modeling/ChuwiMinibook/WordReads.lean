import ChuwiMinibook.ByteImage
import ChuwiMinibook.PackedWords

namespace ChuwiMinibook.ByteImage
open PackedWords (little bytesAt)

def readU64 (f : Image) (i : Nat) : Option Nat := (readU32 f i).bind fun a => (readU32 f (i+4)).map fun b => a + 4294967296*b

-- The bytes of an image from a place on, compared one by one; a byte is read only
-- when those before it agree.
def agrees (f : Image) : Nat → List (BitVec 8) → Option Bool
  | _,[] => some true
  | i,b::rest => (readU8 f i).bind fun x => if x = b.toNat then agrees f (i+1) rest else some false

section Words
variable {f : Image} {i k n v : Nat}

-- A read of so many bytes that is inside and gives the number they stand for.
def Reads (f : Image) (i n v : Nat) : Prop := Inside f i n ∧ little (bytesAt f i n) = v

theorem bytesAt_add : bytesAt f i (k+n) = bytesAt f i k++bytesAt f (i+k) n := by
  unfold bytesAt
  rw [List.take_add,List.drop_drop]

theorem reads_add : Reads f i (k+n) v ↔ ∃ a b,Reads f i k a ∧ Reads f (i+k) n b ∧ a + 256^k*b = v := by
  have joined (inside : i+k ≤ f.length) :
      little (bytesAt f i (k+n)) = little (bytesAt f i k)+256^k*little (bytesAt f (i+k) n) := by
    rw [bytesAt_add]
    unfold little
    rw [List.map_append,Nat.ofDigits_append,List.length_map,PackedWords.length_bytesAt inside]
  constructor
  · rintro ⟨inside,value⟩
    unfold Inside at inside
    refine ⟨_,_,⟨show i+k ≤ f.length by omega,rfl⟩,⟨show i+k+n ≤ f.length by omega,rfl⟩,?_⟩
    rw [← joined (by omega),value]
  · rintro ⟨a,b,⟨first,rfl⟩,⟨second,rfl⟩,rfl⟩
    unfold Inside at first second
    exact ⟨show i+(k+n) ≤ f.length by omega,joined first⟩

theorem readU8_reads : readU8 f i = some v ↔ Reads f i 1 v := by
  rw [readU8_eq]
  unfold Reads
  by_cases inside : Inside f i 1
  · have byte : little (bytesAt f i 1) = u8 f i := by
      unfold Inside at inside
      have cell : f[i]? = some f[i] := List.getElem?_eq_getElem inside
      have first : bytesAt f i 1 = [f[i]] := by
        rw [bytesAt,List.drop_eq_getElem_cons inside]
        rfl
      rw [first,u8,readU8,cell]
      exact Nat.ofDigits_singleton
    simp [inside,byte]
  · simp [inside]

-- A word is read as two halves of it.
theorem halves {low high : Option Nat} {half : Nat} (first : ∀ a,low = some a ↔ Reads f i half a)
    (second : ∀ b,high = some b ↔ Reads f (i+half) half b) :
    (low.bind fun a => high.map fun b => a + 256^half*b) = some v ↔ Reads f i (half+half) v := by
  rw [reads_add]
  simp only [Option.bind_eq_some_iff,Option.map_eq_some_iff,first,second,exists_and_left]

theorem readU16_reads : readU16 f i = some v ↔ Reads f i 2 v := by
  have both := halves (v := v) (fun a => readU8_reads (v := a)) (fun b => readU8_reads (f := f) (i := i+1) (v := b))
  exact both

theorem readU32_reads : readU32 f i = some v ↔ Reads f i 4 v := by
  have both := halves (v := v) (fun a => readU16_reads (v := a)) (fun b => readU16_reads (f := f) (i := i+2) (v := b))
  exact both

theorem readU64_reads : readU64 f i = some v ↔ Reads f i 8 v := by
  have both := halves (v := v) (fun a => readU32_reads (v := a)) (fun b => readU32_reads (f := f) (i := i+4) (v := b))
  exact both

theorem of_reads {x : Option Nat} (reads : ∀ v,x = some v ↔ Reads f i n v) :
    x = if Inside f i n then some (little (bytesAt f i n)) else none := by
  by_cases inside : Inside f i n
  · rw [if_pos inside]
    exact (reads _).mpr ⟨inside,rfl⟩
  · rw [if_neg inside,Option.eq_none_iff_forall_ne_some]
    exact fun v found => inside ((reads v).mp found).1

end Words

theorem agrees_inside {f : Image} {i : Nat} {pattern : List (BitVec 8)} (inside : Inside f i pattern.length) :
    agrees f i pattern = some (pattern.isPrefixOf (f.drop i)) := by
  induction pattern generalizing i with
  | nil => simp [agrees]
  | cons b rest ih =>
    have here : i < f.length := by
      unfold Inside at inside
      simp at inside
      omega
    have later : Inside f (i+1) rest.length := by
      unfold Inside at inside ⊢
      simp at inside
      omega
    have split : f.drop i = f[i]::f.drop (i+1) := List.drop_eq_getElem_cons here
    have byte : readU8 f i = some f[i].toNat := by simp [readU8,here]
    rw [agrees,byte,Option.bind_some,ih later,split,List.isPrefixOf_cons_cons]
    by_cases same : f[i] = b
    · simp [same]
    · have different : f[i].toNat ≠ b.toNat := fun equal => same (BitVec.eq_of_toNat_eq equal)
      simp [different,Ne.symm same]

end ChuwiMinibook.ByteImage
