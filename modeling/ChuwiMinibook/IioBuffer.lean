import ChuwiMinibook.Binary32
import ChuwiMinibook.GLibText
import ChuwiMinibook.PackedWords

namespace ChuwiMinibook.IioBuffer
open GLib Binary32 PackedWords

-- iio-buffer-utils.c. The storage of a channel in a scan, as its _type file gives it.
structure ChannelType where
  isSigned : Bool
  bytes : Nat
  bitsUsed : Nat
  shift : Nat
  mask : Nat
  be : Bool
deriving DecidableEq

structure ChannelInfo extends ChannelType where
  name : String
  scale : ℚ
  offset : ℚ
  index : Nat
  location : Nat
deriving DecidableEq

-- %u of fscanf: blanks, a sign, and digits that stop at the limit of an unsigned long.
def scanUnsigned (text : List Char) : Option (Nat×List Char) :=
  let (negative,text) := signAt text
  let digits := text.takeWhile Char.isDigit
  let n := number 10 0 digits
  let n := if 2^64 ≤ n then 2^64-1 else if negative then (2^64-n)%2^64 else n
  if digits = [] then none else some (n%2^32,text.dropWhile Char.isDigit)

def typeMask (bitsUsed : Nat) : Nat := if bitsUsed = 64 then 2^64-1 else (1 <<< bitsUsed)%2^64-1

-- The five conversions of "%ce:%c%u/%u>>%u"; none when one of them is missing.
def scanType : List Char → Option ChannelType
  | endianchar :: 'e' :: ':' :: signchar :: text =>
    match scanUnsigned text with
    | some (bitsUsed,'/' :: text) =>
      match scanUnsigned text with
      | some (padint,'>' :: '>' :: text) =>
        (scanUnsigned text).map fun (shift,_) =>
          ⟨signchar = 's',padint/8,bitsUsed,shift,typeMask bitsUsed,endianchar = 'b'⟩
      | _ => none
    | _ => none
  | _ => none

-- The file of the channel, or the one under its generic name.
def iioutilsGetType (named generic : Option (List Char)) : Option ChannelType := (named.or generic).bind scanType

def asUnsigned (n : Int) : Nat := (BitVec.ofInt 32 n).toNat
def asInt (n : Int) : Int := (BitVec.ofInt 32 n).toInt

-- bytes is an int, and its remainder by an unsigned number is unsigned.
def sizeFrom (bytes : Int) : List ChannelInfo → List ChannelInfo×Int
  | [] => ([],bytes)
  | info::rest =>
    let start := asUnsigned bytes
    let location := if start%info.bytes = 0 then start else (start-start%info.bytes+info.bytes)%2^32
    let (rest,size) := sizeFrom (asInt (location+info.bytes)) rest
    ({ info with location := location }::rest,size)

def sizeFromChannelarray (channels : List ChannelInfo) : List ChannelInfo×Int := sizeFrom 0 channels

-- The macro for one width. The byte order is that of the channel whatever that of the
-- machine, and the offset is added in single precision.
def processChannelBits (bits : Nat) (data : List (BitVec 8)) (info : ChannelInfo) : Int :=
  let input := wordOf info.be (bytesAt data info.location (bits/8))
  let input := input >>> info.shift &&& info.mask
  if info.isSigned then
    let val := (BitVec.ofNat bits (input <<< (bits-info.bitsUsed))).toInt >>> (bits-info.bitsUsed)
    asInt (truncate (float (float val+info.offset)))
  else asInt (truncate (float (float input+info.offset)))

structure Reading where
  val : Int
  scale : ℚ
deriving DecidableEq

-- none is a channel that is not present. An error is the g_error that ends the program,
-- with the width it names.
def processScan1 (data : List (BitVec 8)) (channels : List ChannelInfo) (chName : String) : Except Nat (Option Reading) :=
  match channels with
  | [] => .ok none
  | info::rest =>
    if info.name ≠ chName then processScan1 data rest chName
    else match info.bytes with
      | 1 => .ok (some ⟨processChannelBits 8 data info,info.scale⟩)
      | 2 => .ok (some ⟨processChannelBits 16 data info,info.scale⟩)
      | 4 => .ok (some ⟨processChannelBits 32 data info,info.scale⟩)
      | 8 => .ok (some ⟨processChannelBits 64 data info,info.scale⟩)
      | bytes => .error bytes

section
variable {n : Nat} {rest : List Char}

theorem toDigits_split (stop : ∀ c ∈ rest.head?,c.isDigit = false) :
    (Nat.toDigits 10 n++rest).takeWhile Char.isDigit = Nat.toDigits 10 n ∧
    (Nat.toDigits 10 n++rest).dropWhile Char.isDigit = rest := by
  have digits : ∀ c ∈ Nat.toDigits 10 n,c.isDigit = true := fun c present =>
    Nat.isDigit_of_mem_toDigits (by decide) (by decide) present
  rw [List.takeWhile_append_of_pos digits,List.dropWhile_append_of_pos digits]
  cases rest with
  | nil => simp
  | cons c rest =>
    have other : c.isDigit = false := stop c rfl
    simp [other]

theorem scanUnsigned_toDigits (word : n < 2^32) (stop : ∀ c ∈ rest.head?,c.isDigit = false) :
    scanUnsigned (Nat.toDigits 10 n++rest) = some (n,rest) := by
  obtain ⟨digits,behind⟩ := toDigits_split (n := n) stop
  have value : number 10 0 (Nat.toDigits 10 n++[]) = number 10 n [] := number_toDigits (by decide) (by decide) n []
  rw [List.append_nil] at value
  rw [scanUnsigned,signAt_toDigits]
  simp only [digits,behind,value,number,if_neg Nat.toDigits_ne_nil]
  rw [if_neg (by omega),if_neg Bool.false_ne_true,Nat.mod_eq_of_lt word]

end

-- The text of the kernel for a channel, "le:s12/16>>4" for one.
def typeText (be isSigned : Bool) (bitsUsed padint shift : Nat) : List Char :=
  (if be then 'b' else 'l') :: 'e' :: ':' :: (if isSigned then 's' else 'u')::
    (Nat.toDigits 10 bitsUsed ++ '/' :: (Nat.toDigits 10 padint ++ '>' :: '>' :: Nat.toDigits 10 shift))

-- What the kernel prints is read back, and the mask covers the bits in use.
theorem getType_text (be isSigned : Bool) {bitsUsed padint shift : Nat} (bits : bitsUsed < 2^32) (pad : padint < 2^32)
    (right : shift < 2^32) (generic : Option (List Char)) :
    iioutilsGetType (some (typeText be isSigned bitsUsed padint shift)) generic =
      some ⟨isSigned,padint/8,bitsUsed,shift,typeMask bitsUsed,be⟩ := by
  have last : scanUnsigned (Nat.toDigits 10 shift++[]) = some (shift,[]) := scanUnsigned_toDigits right (by simp)
  rw [List.append_nil] at last
  have endian : decide ((if be then 'b' else 'l') = 'b') = be := by cases be <;> rfl
  have sign : decide ((if isSigned then 's' else 'u') = 's') = isSigned := by cases isSigned <;> rfl
  have middle : scanUnsigned (Nat.toDigits 10 padint ++ '>' :: '>' :: Nat.toDigits 10 shift) =
      some (padint,'>' :: '>' :: Nat.toDigits 10 shift) := scanUnsigned_toDigits pad (by simp +decide)
  rw [iioutilsGetType,Option.some_or,Option.bind_some,typeText,scanType,
    scanUnsigned_toDigits bits (by simp +decide)]
  simp only [middle,last,Option.map_some,endian,sign]

-- A channel as the drivers meet it, without an offset.
structure Proper (info : ChannelInfo) : Prop where
  width : info.bytes = 1 ∨ info.bytes = 2 ∨ info.bytes = 4 ∨ info.bytes = 8
  used : 1 ≤ info.bitsUsed
  short : info.bitsUsed ≤ 24
  fits : info.shift+info.bitsUsed ≤ 8*info.bytes
  mask : info.mask = typeMask info.bitsUsed
  offset : info.offset = 0

-- The numbers that the bits in use can hold.
def InRange (info : ChannelInfo) (v : Int) : Prop :=
  if info.isSigned then -2^(info.bitsUsed-1) ≤ v ∧ v < 2^(info.bitsUsed-1) else 0 ≤ v ∧ v < 2^info.bitsUsed

instance (info : ChannelInfo) (v : Int) : Decidable (InRange info v) :=
  inferInstanceAs (Decidable (if info.isSigned then -2^(info.bitsUsed-1) ≤ v ∧ v < 2^(info.bitsUsed-1)
    else 0 ≤ v ∧ v < 2^info.bitsUsed))

-- The bits of a channel in a scan are those of a value.
def Holds (data : List (BitVec 8)) (info : ChannelInfo) (v : Int) : Prop :=
  field info.shift info.bitsUsed (wordOf info.be (bytesAt data info.location info.bytes)) = (v%2^info.bitsUsed).toNat

section
variable {info : ChannelInfo} {v : Int}

theorem mask_field (proper : Proper info) (w : Nat) :
    w >>> info.shift &&& info.mask = field info.shift info.bitsUsed w := by
  have short := proper.short
  have mask : typeMask info.bitsUsed = 2^info.bitsUsed-1 := by
    have below : 2^info.bitsUsed < 2^64 := Nat.pow_lt_pow_right (by decide) (by omega)
    rw [typeMask,if_neg (by omega),Nat.shiftLeft_eq,Nat.one_mul,Nat.mod_eq_of_lt below]
  rw [proper.mask,mask,Nat.and_two_pow_sub_one_eq_mod,Nat.shiftRight_eq_div_pow,field]

theorem inRange_small (proper : Proper info) (range : InRange info v) : |v| < 2^24 := by
  have whole : (2 : Int)^info.bitsUsed ≤ 2^24 := pow_le_pow_right₀ (by decide) proper.short
  have half : (2 : Int)^(info.bitsUsed-1) ≤ 2^23 := pow_le_pow_right₀ (by decide) (by have := proper.short; omega)
  rw [abs_lt]
  unfold InRange at range
  split at range <;> omega

-- Adding an offset of 0 in single precision keeps what the bits in use can hold.
theorem offset_exact (proper : Proper info) (range : InRange info v) :
    asInt (truncate (float (float v+info.offset))) = v := by
  have small := inRange_small proper range
  rw [proper.offset,add_zero,float_int small,float_int small,truncate_int,asInt,BitVec.toInt_ofInt]
  rw [abs_lt] at small
  apply Int.bmod_eq_of_le <;> norm_num <;> omega

theorem processChannelBits_holds {data : List (BitVec 8)} (proper : Proper info) (range : InRange info v)
    (holds : Holds data info v) : processChannelBits (8*info.bytes) data info = v := by
  have stored := offset_exact proper range
  have used := proper.used
  have fits := proper.fits
  unfold processChannelBits
  simp only [Nat.mul_div_cancel_left info.bytes (show 0 < 8 by decide),mask_field proper]
  rw [Holds] at holds
  rw [holds]
  unfold InRange at range
  split
  · rename_i signed
    rw [if_pos signed] at range
    rw [extend_sign used (by omega) range.1 range.2]
    exact stored
  · rename_i unsigned
    rw [if_neg unsigned] at range
    have natural : (((v%2^info.bitsUsed).toNat : ℕ) : ℚ) = ((v : Int) : ℚ) := by
      rw [Int.emod_eq_of_lt range.1 range.2]
      exact_mod_cast congrArg (Int.cast (R := ℚ)) (Int.toNat_of_nonneg range.1)
    rw [natural]
    exact stored

end

end ChuwiMinibook.IioBuffer
