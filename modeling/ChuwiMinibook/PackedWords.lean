import Mathlib.Data.Nat.Digits.Defs
import Mathlib.Data.Nat.Digits.Lemmas
import Mathlib.Data.List.Basic
import Mathlib.Tactic.LinearCombination
import Mathlib.Tactic.Positivity

namespace ChuwiMinibook.PackedWords

-- The number that bytes stand for, the lowest one first.
def little (bytes : List (BitVec 8)) : Nat := Nat.ofDigits 256 (bytes.map BitVec.toNat)

def littleBytes : Nat → Nat → List (BitVec 8)
  | 0,_ => []
  | k+1,n => BitVec.ofNat 8 n::littleBytes k (n/256)

def wordOf (be : Bool) (bytes : List (BitVec 8)) : Nat := little (if be then bytes.reverse else bytes)

def bytesOf (be : Bool) (k n : Nat) : List (BitVec 8) := if be then (littleBytes k n).reverse else littleBytes k n

theorem length_littleBytes (k n : Nat) : (littleBytes k n).length = k := by
  induction k generalizing n with
  | zero => rfl
  | succ k ih => exact congrArg (·+1) (ih (n/256))

theorem little_littleBytes (k n : Nat) : little (littleBytes k n) = n%256^k := by
  induction k generalizing n with
  | zero => exact (Nat.mod_one n).symm
  | succ k ih =>
    have head : (BitVec.ofNat 8 n).toNat = n%256 := BitVec.toNat_ofNat n 8
    have tail : Nat.ofDigits 256 ((littleBytes k (n/256)).map BitVec.toNat) = n/256%256^k := ih (n/256)
    rw [littleBytes,little,List.map_cons,Nat.ofDigits_cons,head,tail,Nat.pow_succ',Nat.mod_mul]

theorem little_lt (bytes : List (BitVec 8)) : little bytes < 256^bytes.length := by
  have digits : ∀ d ∈ bytes.map BitVec.toNat,d < 256 := by
    intro d present
    obtain ⟨b,_,rfl⟩ := List.mem_map.mp present
    exact b.isLt
  have bound := Nat.ofDigits_lt_base_pow_length (by decide) digits
  rwa [List.length_map] at bound

@[simp] theorem length_bytesOf (be : Bool) (k n : Nat) : (bytesOf be k n).length = k := by
  cases be <;> simp [bytesOf,length_littleBytes]

theorem wordOf_bytesOf (be : Bool) (k n : Nat) : wordOf be (bytesOf be k n) = n%256^k := by
  cases be <;> simp [wordOf,bytesOf,little_littleBytes]

theorem wordOf_lt (be : Bool) (bytes : List (BitVec 8)) : wordOf be bytes < 256^bytes.length := by
  cases be
  · exact little_lt bytes
  · have bound := little_lt bytes.reverse
    rwa [List.length_reverse] at bound

-- Runs of bytes in a buffer.
def bytesAt (data : List (BitVec 8)) (i k : Nat) : List (BitVec 8) := (data.drop i).take k

def putBytes (data : List (BitVec 8)) (i : Nat) (bytes : List (BitVec 8)) : List (BitVec 8) :=
  data.take i++(bytes++data.drop (i+bytes.length))

section
variable {data bytes : List (BitVec 8)} {i : Nat}

theorem length_bytesAt {k : Nat} (inside : i+k ≤ data.length) : (bytesAt data i k).length = k := by
  simp [bytesAt]
  omega

theorem length_putBytes (inside : i+bytes.length ≤ data.length) : (putBytes data i bytes).length = data.length := by
  simp [putBytes]
  omega

theorem bytesAt_putBytes (inside : i+bytes.length ≤ data.length) : bytesAt (putBytes data i bytes) i bytes.length = bytes := by
  have start : (data.take i).length = i := by
    rw [List.length_take]
    omega
  rw [bytesAt,putBytes,List.drop_append_of_le_length (by omega),List.drop_of_length_le (by omega),List.nil_append,
    List.take_append_of_le_length (Nat.le_refl _),List.take_length]

theorem putBytes_getElem? (inside : i+bytes.length ≤ data.length) {j : Nat} (other : j < i ∨ i+bytes.length ≤ j) :
    (putBytes data i bytes)[j]? = data[j]? := by
  have start : (data.take i).length = i := by
    rw [List.length_take]
    omega
  rw [putBytes]
  rcases other with before | behind
  · rw [List.getElem?_append_left (by omega),List.getElem?_take_of_lt before]
  · rw [List.getElem?_append_right (by omega),start,List.getElem?_append_right (by omega),List.getElem?_drop]
    congr 1
    omega

-- A run apart from the bytes written reads as before.
theorem bytesAt_other (inside : i+bytes.length ≤ data.length) {j k : Nat} (apart : j+k ≤ i ∨ i+bytes.length ≤ j) :
    bytesAt (putBytes data i bytes) j k = bytesAt data j k := by
  apply List.ext_getElem?
  intro l
  rw [bytesAt,bytesAt,List.getElem?_take,List.getElem?_take]
  split
  · rename_i short
    rw [List.getElem?_drop,List.getElem?_drop,putBytes_getElem? inside (by omega)]
  · rfl

end

-- A number in the bits of a word from shift on.
def field (shift used w : Nat) : Nat := w/2^shift%2^used

def setField (shift used w v : Nat) : Nat := w/2^(shift+used)*2^(shift+used)+(v*2^shift+w%2^shift)

section
variable {shift used w v : Nat}

theorem field_setField (small : v < 2^used) : field shift used (setField shift used w v) = v := by
  have low : w%2^shift < 2^shift := Nat.mod_lt w (Nat.two_pow_pos shift)
  have split : setField shift used w v = w%2^shift+2^shift*(v+2^used*(w/2^(shift+used))) := by
    rw [setField,Nat.pow_add]
    ring
  rw [field,split,Nat.add_mul_div_left _ _ (Nat.two_pow_pos shift),Nat.div_eq_of_lt low,Nat.zero_add,
    Nat.add_mul_mod_self_left,Nat.mod_eq_of_lt small]

theorem setField_lt {bits : Nat} (small : v < 2^used) (word : w < 2^bits) (fits : shift+used ≤ bits) :
    setField shift used w v < 2^bits := by
  have low : w%2^shift < 2^shift := Nat.mod_lt w (Nat.two_pow_pos shift)
  have inner : v*2^shift+w%2^shift < 2^(shift+used) := by
    have above : (v+1)*2^shift ≤ 2^used*2^shift := Nat.mul_le_mul_right _ small
    rw [Nat.add_mul,Nat.one_mul,Nat.mul_comm (2^used),← Nat.pow_add] at above
    omega
  obtain ⟨k,total⟩ := Nat.exists_eq_add_of_le fits
  have high : w/2^(shift+used) < 2^k := by
    rw [total,Nat.pow_add,Nat.mul_comm] at word
    exact Nat.div_lt_of_lt_mul (by rwa [Nat.mul_comm] at word)
  have above : (w/2^(shift+used)+1)*2^(shift+used) ≤ 2^k*2^(shift+used) := Nat.mul_le_mul_right _ high
  rw [Nat.add_mul,Nat.one_mul,Nat.mul_comm (2^k),← Nat.pow_add,← total] at above
  rw [setField]
  omega

end

-- The bits of a signed number moved to the top of a word and back.
theorem extend_sign {bits used : Nat} {v : Int} (positive : 0 < used) (fits : used ≤ bits) (low : -2^(used-1) ≤ v)
    (high : v < 2^(used-1)) : (BitVec.ofNat bits ((v%2^used).toNat <<< (bits-used))).toInt >>> (bits-used) = v := by
  obtain ⟨d,total⟩ := Nat.exists_eq_add_of_le fits
  obtain ⟨u,below⟩ : ∃ u,used = u+1 := ⟨used-1,by omega⟩
  subst total below
  rw [Nat.add_sub_cancel_left]
  rw [Nat.add_sub_cancel] at low high
  have modulus : (0 : Int) < 2^(u+1) := by positivity
  have natural : (((v%2^(u+1)).toNat <<< d : Nat) : Int) = v*2^d+(2^(u+1+d) : Nat)*(-(v/2^(u+1))) := by
    have whole := Int.emod_add_mul_ediv v (2^(u+1))
    have power : ((2^(u+1+d) : Nat) : Int) = 2^(u+1)*2^d := by
      push_cast
      exact Int.pow_add 2 (u+1) d
    rw [Nat.shiftLeft_eq,power]
    push_cast
    rw [Int.toNat_of_nonneg (Int.emod_nonneg v modulus.ne')]
    generalize (2 : Int)^(u+1) = m at whole
    linear_combination whole*2^d
  have step : (0 : Int) < 2^d := by positivity
  have top : (v*2^d).bmod (2^(u+1+d)) = v*2^d := by
    have half : (2 : Int)^(u+1+d) = 2*(2^u*2^d) := by ring
    have above := mul_lt_mul_of_pos_right high step
    have under := mul_le_mul_of_nonneg_right low step.le
    rw [neg_mul] at under
    generalize (2 : Int)^u*2^d = h at half above under
    apply Int.bmod_eq_of_le <;> push_cast <;> omega
  rw [BitVec.toInt_ofNat',natural,Int.add_mul_bmod_self_left,top,Int.shiftRight_eq_div_pow]
  exact Int.mul_ediv_cancel v (by exact_mod_cast step.ne')

end ChuwiMinibook.PackedWords
