import ChuwiMinibook.XorLinear
import ChuwiMinibook.ByteScan
import ChuwiMinibook.StdString
import Mathlib.Data.List.TakeWhile
import Mathlib.Data.Nat.Bitwise

namespace ChuwiMinibook.VaultNames
open ByteScan XorLinear

-- tools/format_dv_name.c names the vault file on one machine, thd_gddv.cpp looks for
-- it on another run. Both hash what they read from /sys/class/dmi/id.
def shift (crc : BitVec 32) : BitVec 32 := (crc >>> 1) ^^^ (if crc &&& 1#32 ≠ 0#32 then 0xedb88320#32 else 0#32)

-- The loop of both programs; they differ in how a byte is widened.
def crcLoop (widen : UInt8 → BitVec 32) (p : Bytes) : BitVec 32 :=
  p.foldl (fun crc b => shift^[8] (crc ^^^ widen b)) 0#32

def unsignedChar (b : UInt8) : BitVec 32 := b.toBitVec.setWidth 32

def signedChar (b : UInt8) : BitVec 32 := b.toBitVec.signExtend 32

def toolCrc32 (p : Bytes) : BitVec 32 := crcLoop unsignedChar p

def crc32 (p : Bytes) : BitVec 32 := crcLoop signedChar p

-- fgets stops behind the first newline or when the buffer is full; at the end of
-- the file without a byte it fails.
def fgets (size : Nat) (file : Bytes) : Option Bytes :=
  if file = [] then none
  else some ((file.takeWhile (· ≠ 10)++(file.dropWhile (· ≠ 10)).take 1).take (size-1))

def cString (buffer : Bytes) : Bytes := buffer.takeWhile (· ≠ 0)

def readDmiAttribute (size : Nat) (file : Bytes) : Option Bytes :=
  (fgets size file).map (fun out => (cString out).takeWhile (· ≠ 10))

def getline (file : Bytes) : Option Bytes :=
  if file = [] then none else some (file.takeWhile (· ≠ 10))

-- The four attribute files, in the order the names are put together.
structure Dmi (α : Type) where
  sysVendor : α
  productFamily : α
  productName : α
  productSku : α

def Dmi.map {α β : Type} (f : α → β) (d : Dmi α) : Dmi β :=
  ⟨f d.sysVendor,f d.productFamily,f d.productName,f d.productSku⟩

def Dmi.All {α : Type} (holds : α → Prop) (d : Dmi α) : Prop :=
  holds d.sysVendor ∧ holds d.productFamily ∧ holds d.productName ∧ holds d.productSku

def Dmi.read {α β : Type} (f : α → Option β) (d : Dmi α) : Option (Dmi β) := do
  let sysVendor ← f d.sysVendor
  let productName ← f d.productName
  let productFamily ← f d.productFamily
  let productSku ← f d.productSku
  return ⟨sysVendor,productFamily,productName,productSku⟩

def numbered (crc : Dmi (BitVec 32)) : List Char :=
  Nat.toDigits 10 crc.sysVendor.toNat++ '_'::(Nat.toDigits 10 crc.productFamily.toNat++ '_'::
    (Nat.toDigits 10 crc.productName.toNat++ '_'::(Nat.toDigits 10 crc.productSku.toNat++".bin".toList)))

-- main of the tool; none when a buffer is used that no attribute was read into.
def formatDvName (files : Dmi Bytes) : Option String := do
  let read ← files.read (readDmiAttribute 256)
  return String.ofList (("dtt_data_vault_".toList++numbered (read.map toolCrc32)).take 255)

-- none is THD_ERROR.
def formatDvFilename (files : Dmi Bytes) : Option String := do
  let read ← files.read getline
  return String.ofList ("/lib/firmware/intel/dtt/dtt_data_vault_".toList++numbered (read.map crc32))

def lastComponent (path : String) : String := StdString.afterLast '/' path

-- A DMI string, as the kernel shows it in its file.
structure DmiString where
  bytes : Bytes
  short : bytes.length ≤ 254
  oneLine : ∀ b ∈ bytes,b ≠ 10 ∧ b ≠ 0

def DmiString.file (s : DmiString) : Bytes := s.bytes++[10]

def Agree (d : Dmi DmiString) : Prop :=
  ∃ name path,formatDvName (d.map DmiString.file) = some name ∧
    formatDvFilename (d.map DmiString.file) = some path ∧ name = lastComponent path

theorem shift_pick (crc : BitVec 32) : shift crc = (crc >>> 1) ^^^ pick (crc.getLsbD 0) 0xedb88320#32 := by
  have low : (crc &&& 1#32 ≠ 0#32) ↔ crc.getLsbD 0 = true := by
    rw [BitVec.and_one_eq_setWidth_ofBool_getLsbD]
    cases crc.getLsbD 0 with
    | false => decide
    | true => decide
  rw [shift,pick,if_congr low rfl rfl]

theorem shift_additive : Additive shift := by
  intro x y
  rw [shift_pick,shift_pick,shift_pick,BitVec.ushiftRight_xor_distrib,BitVec.getLsbD_xor,pick_xor]
  ac_rfl

theorem byte_additive : Additive shift^[8] := shift_additive.iterate 8

-- What sign extension adds to a byte of 128 and above.
def extension : BitVec 32 := 0xffffff00#32

def topBit (b : UInt8) : Bool := b.toBitVec.msb

theorem signedChar_widens (b : UInt8) : signedChar b = unsignedChar b ^^^ pick (topBit b) extension := by
  have words : ∀ x : BitVec 8,x.signExtend 32 = x.setWidth 32 ^^^ pick x.msb extension := by decide +kernel
  exact words b.toBitVec

theorem crc_difference (p : Bytes) (first second : BitVec 32) :
    p.foldl (fun crc b => shift^[8] (crc ^^^ signedChar b)) first ^^^
      p.foldl (fun crc b => shift^[8] (crc ^^^ unsignedChar b)) second =
    feed shift^[8] (shift^[8] extension) (p.map topBit) (first ^^^ second) := by
  induction p generalizing first second with
  | nil => rfl
  | cons b rest ih =>
    rw [List.foldl_cons,List.foldl_cons,ih,List.map_cons,feed,feed,List.foldl_cons,signedChar_widens,← byte_additive,
      ← byte_additive.pick,← byte_additive]
    congr 2
    calc first ^^^ (unsignedChar b ^^^ pick (topBit b) extension) ^^^ (second ^^^ unsignedChar b)
        = (first ^^^ second ^^^ pick (topBit b) extension) ^^^ (unsignedChar b ^^^ unsignedChar b) := by ac_rfl
      _ = first ^^^ second ^^^ pick (topBit b) extension := by rw [BitVec.xor_self,BitVec.xor_zero]

-- Long division of a polynomial over the two-element field, highest coefficient first,
-- by the generator x^32+x^26+x^23+x^22+x^16+x^12+x^11+x^10+x^8+x^7+x^5+x^4+x^2+x+1.
def timesX (r : BitVec 32) : BitVec 32 := (r <<< 1) ^^^ pick r.msb 0x04c11db7#32

def remainder (bits : List Bool) : BitVec 32 := feed timesX 1#32 bits 0#32

theorem timesX_additive : Additive timesX := by
  intro x y
  rw [timesX,timesX,timesX,BitVec.shiftLeft_xor_distrib,BitVec.msb_xor,pick_xor]
  ac_rfl

-- The register moves by x^8 where the division moves by x. Raising to the eighth power
-- is additive and turns the one into the other.
def eighth : BitVec 32 → BitVec 32 := combine (fun k => (shift^[8])^[k+1] extension) 32

def eighthRoots : List (BitVec 32) :=
  [0xbf4fb214,0x3ff209ae,0xce3618ad,0x773f317c,0x3be0f5a7,0x6b694e39,0xf2b23eee,0xf7a2c826,
   0x5fa7d90a,0x1ff904d7,0xe57b828d,0x3b9f98be,0x9f90f408,0xb7d429c7,0x79591f77,0x7bd16413,
   0x2fd3ec85,0x8d9c0cb0,0xf0dd4f9d,0x1dcfcc5f,0x4fc87a04,0xd98a9a38,0xbecc0160,0xbf883cd2,
   0x95897899,0x46ce0658,0xfa0e2915,0x8c8768f4,0x27e43d02,0x6cc54d1c,0x5f6600b0,0x5fc41e69]

theorem eighth_additive : Additive eighth := additive_combine _ _

theorem eighth_intertwined (r : BitVec 32) : eighth (timesX r) = shift^[8] (eighth r) := by
  refine additive_ext (eighth_additive.comp timesX_additive) (byte_additive.comp eighth_additive) ?_ r
  decide +kernel

theorem eighth_injective : Function.Injective eighth := by
  have inverse : ∀ r,(combine (fun i => eighthRoots.getD i 0) 32 ∘ eighth) r = id r :=
    additive_ext ((additive_combine _ _).comp eighth_additive) (fun _ _ => rfl) (by decide +kernel)
  exact Function.LeftInverse.injective inverse

theorem crc_agree_iff (p : Bytes) : toolCrc32 p = crc32 p ↔ remainder (p.map topBit) = 0#32 := by
  have difference : crc32 p ^^^ toolCrc32 p = feed shift^[8] (shift^[8] extension) (p.map topBit) 0#32 :=
    crc_difference p 0#32 0#32
  have unit : eighth 1#32 = shift^[8] extension := by decide +kernel
  rw [eq_comm,← BitVec.xor_eq_zero_iff,difference,← unit]
  exact feed_zero_iff eighth_additive eighth_injective eighth_intertwined 1#32 _

-- A dividend of at most 32 coefficients is its own remainder, read as a number.
theorem divide_small (r : BitVec 32) (b : Bool) (small : r.toNat < 2^31) :
    (timesX r ^^^ pick b 1#32).toNat = 2*r.toNat+b.toNat := by
  have shifted : timesX r = r <<< 1 := by
    rw [timesX,BitVec.msb_eq_false_iff_two_mul_lt.mpr (by omega),pick_false,BitVec.xor_zero]
  have doubled : (r <<< 1).toNat = 2*r.toNat := by
    rw [BitVec.toNat_shiftLeft,Nat.shiftLeft_eq,Nat.mod_eq_of_lt (by omega)]
    omega
  cases b with
  | false => rw [shifted,pick_false,BitVec.xor_zero,doubled,Bool.toNat_false,Nat.add_zero]
  | true =>
    rw [shifted,pick_true,BitVec.toNat_xor,doubled]
    exact Nat.xor_one_of_even (even_two_mul _)

theorem feed_nonzero (bits : List Bool) (r : BitVec 32) (k : Nat) (small : r.toNat < 2^k) (fits : k+bits.length ≤ 32)
    (nonzero : r ≠ 0#32) : feed timesX 1#32 bits r ≠ 0#32 := by
  induction bits generalizing r k with
  | nil => exact nonzero
  | cons b rest ih =>
    rw [List.length_cons] at fits
    have below : r.toNat < 2^31 := Nat.lt_of_lt_of_le small (Nat.pow_le_pow_right (by decide) (by omega))
    have next := divide_small r b below
    have bit := Bool.toNat_le b
    refine ih (timesX r ^^^ pick b 1#32) (k+1) ?_ (by omega) ?_
    · rw [next,Nat.pow_succ]
      omega
    · intro zero
      rw [zero,BitVec.toNat_zero] at next
      exact nonzero (BitVec.eq_of_toNat_eq (by rw [BitVec.toNat_zero]; omega))

theorem remainder_short (bits : List Bool) (short : bits.length ≤ 32) : remainder bits = 0#32 ↔ ∀ b ∈ bits,b = false := by
  induction bits with
  | nil => exact ⟨fun _ _ inside => absurd inside List.not_mem_nil,fun _ => rfl⟩
  | cons b rest ih =>
    rw [List.length_cons] at short
    cases b with
    | false =>
      have skipped : remainder (false::rest) = remainder rest := rfl
      rw [skipped,ih (by omega)]
      simp
    | true =>
      refine ⟨fun zero => absurd zero ?_,fun clear => absurd (clear true List.mem_cons_self) (by decide)⟩
      exact feed_nonzero rest 1#32 1 (by decide) (by omega) (by decide)

theorem crc_agree_short {p : Bytes} (short : p.length ≤ 32) : toolCrc32 p = crc32 p ↔ ∀ b ∈ p,topBit b = false := by
  rw [crc_agree_iff,remainder_short _ (by rwa [List.length_map]),List.forall_mem_map]

theorem takeWhile_line {p : Bytes} {b : UInt8} (absent : ∀ x ∈ p,x ≠ b) : (p++[b]).takeWhile (· ≠ b) = p := by
  rw [List.takeWhile_append_of_pos (fun x inside => decide_eq_true (absent x inside)),List.takeWhile_cons_of_neg (by simp),
    List.append_nil]

theorem getline_file (s : DmiString) : getline s.file = some s.bytes := by
  rw [getline,DmiString.file,if_neg (List.concat_ne_nil _ _),takeWhile_line (fun b inside => (s.oneLine b inside).1)]

theorem readDmiAttribute_file (s : DmiString) : readDmiAttribute 256 s.file = some s.bytes := by
  have line : (s.bytes++[10]).dropWhile (· ≠ 10) = [10] := by
    rw [List.dropWhile_append_of_pos (fun b inside => decide_eq_true (s.oneLine b inside).1),List.dropWhile_cons_of_neg (by simp)]
  have fits : (s.bytes++[10]).take 255 = s.bytes++[10] :=
    List.take_of_length_le (by simpa using Nat.succ_le_succ s.short)
  have whole : cString (s.bytes++[10]) = s.bytes++[10] := by
    refine List.takeWhile_eq_self_iff.mpr ?_
    intro b inside
    rcases List.mem_append.mp inside with inString | newline
    · exact decide_eq_true (s.oneLine b inString).2
    · rw [List.mem_singleton.mp newline]
      rfl
  rw [readDmiAttribute,fgets,DmiString.file,if_neg (List.concat_ne_nil _ _),
    takeWhile_line (fun b inside => (s.oneLine b inside).1),line]
  change some ((cString ((s.bytes++[10]).take 255)).takeWhile (· ≠ 10)) = some s.bytes
  rw [fits,whole,takeWhile_line (fun b inside => (s.oneLine b inside).1)]

theorem read_files (f : Bytes → Option Bytes) (reads : ∀ s : DmiString,f s.file = some s.bytes) (d : Dmi DmiString) :
    (d.map DmiString.file).read f = some (d.map DmiString.bytes) := by
  simp [Dmi.read,Dmi.map,reads]

theorem digits_length (n : BitVec 32) : (Nat.toDigits 10 n.toNat).length ≤ 10 :=
  (Nat.length_toDigits_le_iff (by decide) (by decide)).mpr (Nat.lt_trans n.isLt (by decide))

theorem numbered_length (crc : Dmi (BitVec 32)) : (numbered crc).length ≤ 47 := by
  have vendor := digits_length crc.sysVendor
  have family := digits_length crc.productFamily
  have name := digits_length crc.productName
  have sku := digits_length crc.productSku
  have ending : ".bin".toList.length = 4 := rfl
  simp only [numbered,List.length_append,List.length_cons]
  omega

theorem digit_between {n : Nat} {c : Char} (digit : c ∈ Nat.toDigits 10 n) : c ≠ '_' ∧ c ≠ '/' := by
  have isDigit := Nat.isDigit_of_mem_toDigits (by decide) (by decide) digit
  constructor
  · intro equal
    rw [equal] at isDigit
    exact absurd isDigit (by decide)
  · intro equal
    rw [equal] at isDigit
    exact absurd isDigit (by decide)

theorem toDigits_injective {m n : Nat} (same : Nat.toDigits 10 m = Nat.toDigits 10 n) : m = n := by
  rw [← Nat.ofDigitChars_ten_toDigits (n := m),same,Nat.ofDigitChars_ten_toDigits]

-- A number ends at the underscore behind it.
theorem takeWhile_field (n : Nat) (rest : List Char) :
    (Nat.toDigits 10 n++ '_'::rest).takeWhile (· ≠ '_') = Nat.toDigits 10 n := by
  rw [List.takeWhile_append_of_pos (fun c digit => decide_eq_true (digit_between digit).1),List.takeWhile_cons_of_neg (by simp),
    List.append_nil]

theorem field_injective {m n : BitVec 32} {rest others : List Char} :
    Nat.toDigits 10 m.toNat++ '_'::rest = Nat.toDigits 10 n.toNat++ '_'::others ↔ m = n ∧ rest = others := by
  constructor
  · intro same
    have number := congrArg (List.takeWhile (· ≠ '_')) same
    rw [takeWhile_field,takeWhile_field] at number
    rw [number] at same
    exact ⟨BitVec.eq_of_toNat_eq (toDigits_injective number),List.tail_eq_of_cons_eq (List.append_cancel_left same)⟩
  · intro given
    rw [given.1,given.2]

theorem numbered_injective {first second : Dmi (BitVec 32)} : numbered first = numbered second ↔
    first.sysVendor = second.sysVendor ∧ first.productFamily = second.productFamily ∧
      first.productName = second.productName ∧ first.productSku = second.productSku := by
  rw [numbered,numbered,field_injective,field_injective,field_injective,List.append_left_inj]
  have sku : Nat.toDigits 10 first.productSku.toNat = Nat.toDigits 10 second.productSku.toNat ↔
      first.productSku = second.productSku :=
    ⟨fun same => BitVec.eq_of_toNat_eq (toDigits_injective same),fun same => by rw [same]⟩
  rw [sku]

theorem numbered_plain (crc : Dmi (BitVec 32)) : '/' ∉ numbered crc := by
  have digits : ∀ n : Nat,'/' ∉ Nat.toDigits 10 n := fun n inside => (digit_between inside).2 rfl
  simp [numbered,digits]

theorem formatDvName_strings (d : Dmi DmiString) : formatDvName (d.map DmiString.file) =
    some (String.ofList ("dtt_data_vault_".toList++numbered (d.map (fun s => toolCrc32 s.bytes)))) := by
  have fits : ("dtt_data_vault_".toList++numbered (d.map (fun s => toolCrc32 s.bytes))).length ≤ 255 := by
    have bound := numbered_length (d.map (fun s => toolCrc32 s.bytes))
    have front : "dtt_data_vault_".toList.length = 15 := rfl
    rw [List.length_append,front]
    omega
  rw [formatDvName,read_files _ readDmiAttribute_file]
  change some (String.ofList (List.take 255 ("dtt_data_vault_".toList++numbered (d.map (fun s => toolCrc32 s.bytes))))) = _
  rw [List.take_of_length_le fits]

theorem vault_folder : "/lib/firmware/intel/dtt/dtt_data_vault_".toList =
    "/lib/firmware/intel/dtt".toList++ '/'::"dtt_data_vault_".toList := by decide

theorem formatDvFilename_strings (d : Dmi DmiString) : formatDvFilename (d.map DmiString.file) =
    some (String.ofList ("/lib/firmware/intel/dtt".toList++
      '/'::("dtt_data_vault_".toList++numbered (d.map (fun s => crc32 s.bytes))))) := by
  rw [formatDvFilename,read_files _ getline_file,vault_folder,← List.cons_append,← List.append_assoc]
  rfl

theorem lastComponent_plain (folder : List Char) {name : List Char} (plain : '/' ∉ name) :
    lastComponent (String.ofList (folder++ '/'::name)) = String.ofList name := by
  rw [lastComponent,StdString.afterLast,String.toList_ofList,List.reverse_append,List.reverse_cons,List.append_assoc,
    List.takeWhile_append_of_pos]
  · simp
  · intro c inside
    refine decide_eq_true (fun equal => plain ?_)
    rw [← equal]
    exact List.mem_reverse.mp inside

theorem agree_iff_crcs (d : Dmi DmiString) : Agree d ↔ d.All (fun s => toolCrc32 s.bytes = crc32 s.bytes) := by
  have plain : '/' ∉ "dtt_data_vault_".toList++numbered (d.map (fun s => crc32 s.bytes)) := by
    simp [numbered_plain]
  have last := lastComponent_plain "/lib/firmware/intel/dtt".toList plain
  have named : Agree d ↔ String.ofList ("dtt_data_vault_".toList++numbered (d.map (fun s => toolCrc32 s.bytes))) =
      String.ofList ("dtt_data_vault_".toList++numbered (d.map (fun s => crc32 s.bytes))) := by
    rw [Agree,formatDvName_strings,formatDvFilename_strings]
    constructor
    · intro given
      obtain ⟨name,path,printed,built,same⟩ := given
      rw [Option.some.inj printed,same,← Option.some.inj built,last]
    · intro same
      exact ⟨_,_,rfl,rfl,same.trans last.symm⟩
  rw [named,String.ofList_inj,List.append_right_inj,numbered_injective]
  rfl

theorem vault_names_agree_iff (d : Dmi DmiString) :
    Agree d ↔ d.All (fun s => remainder (s.bytes.map topBit) = 0#32) := by
  rw [agree_iff_crcs]
  simp only [Dmi.All,crc_agree_iff]

def emptyString : DmiString := ⟨[],by decide,by simp⟩

def accented : DmiString := ⟨[0xc3,0xa9],by decide,by decide +kernel⟩

theorem accented_vendor_differs : ¬ Agree ⟨accented,emptyString,emptyString,emptyString⟩ := by
  rw [agree_iff_crcs,Dmi.All]
  decide +kernel

end ChuwiMinibook.VaultNames
