import ChuwiMinibook.AlignedLayout
import ChuwiMinibook.IioBuffer

namespace ChuwiMinibook.IioBuffer
open PackedWords AlignedLayout

def placed (s : ChannelInfo×Nat) : ChannelInfo := { s.1 with location := s.2 }

-- Each channel at a multiple of its size, behind the ones before it, and inside the size
-- returned; nothing else of a channel is changed.
structure LaidOut (channels laid : List ChannelInfo) (size : Int) : Prop where
  aligned : ∀ c ∈ laid,c.bytes ∣ c.location
  apart : laid.Pairwise (fun c d => c.location < d.location ∧ c.location+c.bytes ≤ d.location)
  covered : ∀ c ∈ laid,((c.location+c.bytes : Nat) : Int) ≤ size
  same : List.Forall₂ (fun c d => d = placed (c,d.location)) channels laid

section
variable {channels : List ChannelInfo}

theorem slots_channels : (slots (fun c : ChannelInfo => c.bytes) 0 channels).map Prod.fst = channels := slots_items

theorem asUnsigned_small {n : Nat} (small : n < 2^31) : asUnsigned n = n := by
  rw [asUnsigned,BitVec.toNat_ofInt]
  omega

theorem asInt_small {n : Nat} (small : n < 2^31) : asInt n = n := by
  rw [asInt,BitVec.toInt_ofInt]
  apply Int.bmod_eq_of_le
  · norm_num
  · norm_num
    omega

-- Below 2^31 bytes no step of the loop wraps.
theorem sizeFrom_slots {n : Nat} (positive : ∀ c ∈ channels,0 < c.bytes)
    (small : extent (fun c : ChannelInfo => c.bytes) n channels < 2^31) :
    sizeFrom n channels = ((slots (fun c : ChannelInfo => c.bytes) n channels).map placed,
      (extent (fun c : ChannelInfo => c.bytes) n channels : Int)) := by
  induction channels generalizing n with
  | nil => rfl
  | cons info rest ih =>
    rw [List.forall_mem_cons] at positive
    have behind : n ≤ roundUp n info.bytes := le_roundUp positive.1
    have before : roundUp n info.bytes+info.bytes ≤ extent (fun c : ChannelInfo => c.bytes) n (info::rest) :=
      le_extent positive.2
    have location : (if n%info.bytes = 0 then n else (n-n%info.bytes+info.bytes)%2^32) = roundUp n info.bytes := by
      unfold roundUp at before ⊢
      split at before
      · rename_i whole
        rw [if_pos whole,if_pos whole]
      · rename_i part
        rw [if_neg part,if_neg part,Nat.mod_eq_of_lt (by omega)]
    rw [sizeFrom,asUnsigned_small (by omega)]
    simp only [location,← Int.natCast_add,asInt_small (show roundUp n info.bytes+info.bytes < 2^31 by omega)]
    rw [ih positive.2 small]
    rfl

theorem laidOut_slots (positive : ∀ c ∈ channels,0 < c.bytes) :
    LaidOut channels ((slots (fun c : ChannelInfo => c.bytes) 0 channels).map placed)
      (extent (fun c : ChannelInfo => c.bytes) 0 channels : Int) := by
  have within := slots_within (n := 0) positive
  constructor
  · exact List.forall_mem_map.mpr (fun s present => (within s present).1)
  · refine List.pairwise_map.mpr ((slots_apart positive).imp_of_mem ?_)
    intro s t present _ apart
    have width : 0 < s.1.bytes := positive s.1 (mem_items present)
    exact ⟨Nat.lt_of_lt_of_le (Nat.lt_add_of_pos_right width) apart,apart⟩
  · exact List.forall_mem_map.mpr (fun s present => Int.ofNat_le.mpr (within s present).2.2)
  · refine List.forall₂_map_right_iff.mpr ?_
    have each : List.Forall₂ (fun c s => placed s = placed (c,s.2))
        ((slots (fun c : ChannelInfo => c.bytes) 0 channels).map Prod.fst) (slots (fun c : ChannelInfo => c.bytes) 0 channels) :=
      List.forall₂_map_left_iff.mpr (List.forall₂_same.mpr (fun _ _ => rfl))
    rwa [slots_channels] at each

end

-- The value in the bits in use, at the location and in the byte order of the channel;
-- every other bit of the scan stays.
def putValue (data : List (BitVec 8)) (p : ChannelInfo×Int) : List (BitVec 8) :=
  let info := p.1
  let word := wordOf info.be (bytesAt data info.location info.bytes)
  putBytes data info.location
    (bytesOf info.be info.bytes (setField info.shift info.bitsUsed word (p.2%2^info.bitsUsed).toNat))

def buildScan (data : List (BitVec 8)) (pairs : List (ChannelInfo×Int)) : List (BitVec 8) := pairs.foldl putValue data

def Inside (data : List (BitVec 8)) (info : ChannelInfo) : Prop := info.location+info.bytes ≤ data.length

def Apart (c d : ChannelInfo) : Prop := c.location+c.bytes ≤ d.location ∨ d.location+d.bytes ≤ c.location

section
variable {data : List (BitVec 8)} {c d : ChannelInfo} {v w : Int}

theorem length_putValue (inside : Inside data c) : (putValue data (c,v)).length = data.length := by
  apply length_putBytes
  rw [length_bytesOf]
  exact inside

theorem putValue_holds (inside : Inside data c) (fits : c.shift+c.bitsUsed ≤ 8*c.bytes) :
    Holds (putValue data (c,v)) c v := by
  have bits : 256^c.bytes = 2^(8*c.bytes) := by rw [Nat.pow_mul]
  have small : (v%2^c.bitsUsed).toNat < 2^c.bitsUsed := by
    have modulus : (0 : Int) < 2^c.bitsUsed := Int.pow_pos (by decide)
    have below := Int.emod_lt_of_pos v modulus
    have natural : ((2^c.bitsUsed : Nat) : Int) = 2^c.bitsUsed := by push_cast; rfl
    omega
  have word : wordOf c.be (bytesAt data c.location c.bytes) < 2^(8*c.bytes) := by
    have bound := wordOf_lt c.be (bytesAt data c.location c.bytes)
    rwa [length_bytesAt inside,bits] at bound
  have written : ∀ n,bytesAt (putBytes data c.location (bytesOf c.be c.bytes n)) c.location c.bytes = bytesOf c.be c.bytes n := by
    intro n
    have same := bytesAt_putBytes (show c.location+(bytesOf c.be c.bytes n).length ≤ data.length by
      rw [length_bytesOf]
      exact inside)
    rwa [length_bytesOf] at same
  rw [Holds,putValue,written,wordOf_bytesOf,bits,Nat.mod_eq_of_lt (setField_lt small word fits),field_setField small]

theorem putValue_other (inside : Inside data c) (apart : Apart c d) (holds : Holds data d w) :
    Holds (putValue data (c,v)) d w := by
  rw [Holds,putValue,bytesAt_other (by rw [length_bytesOf]; exact inside)]
  · exact holds
  · rw [length_bytesOf]
    rcases apart with behind | before
    · exact .inr behind
    · exact .inl before

theorem buildScan_keeps {pairs : List (ChannelInfo×Int)} (inside : ∀ p ∈ pairs,Inside data p.1)
    (apart : ∀ p ∈ pairs,Apart p.1 d) (holds : Holds data d w) : Holds (buildScan data pairs) d w := by
  induction pairs generalizing data with
  | nil => exact holds
  | cons p pairs ih =>
    rw [List.forall_mem_cons] at inside apart
    refine ih ?_ apart.2 (putValue_other inside.1 apart.1 holds)
    intro q later
    rw [Inside,length_putValue inside.1]
    exact inside.2 q later

theorem buildScan_holds {pairs : List (ChannelInfo×Int)} (inside : ∀ p ∈ pairs,Inside data p.1)
    (fits : ∀ p ∈ pairs,p.1.shift+p.1.bitsUsed ≤ 8*p.1.bytes) (apart : pairs.Pairwise (fun p q => Apart p.1 q.1)) :
    ∀ p ∈ pairs,Holds (buildScan data pairs) p.1 p.2 := by
  induction pairs generalizing data with
  | nil => simp
  | cons p pairs ih =>
    rw [List.forall_mem_cons] at inside fits
    rw [List.pairwise_cons] at apart
    have room : ∀ q ∈ pairs,Inside (putValue data p) q.1 := by
      intro q later
      rw [Inside,length_putValue inside.1]
      exact inside.2 q later
    refine List.forall_mem_cons.mpr ⟨?_,ih room fits.2 apart.2⟩
    change Holds (buildScan (putValue data p) pairs) p.1 p.2
    exact buildScan_keeps room (fun q later => (apart.1 q later).symm) (putValue_holds inside.1 fits.1)

-- The first channel of the name is read, at its own width.
theorem processScan1_find {pairs : List (ChannelInfo×Int)} (proper : ∀ p ∈ pairs,Proper p.1)
    (range : ∀ p ∈ pairs,InRange p.1 p.2) (holds : ∀ p ∈ pairs,Holds data p.1 p.2) (name : String) :
    processScan1 data (pairs.map Prod.fst) name =
      .ok ((pairs.find? (fun p => p.1.name = name)).map (fun p => ⟨p.2,p.1.scale⟩)) := by
  induction pairs with
  | nil => rfl
  | cons p pairs ih =>
    rw [List.forall_mem_cons] at proper range holds
    rw [List.map_cons,processScan1]
    by_cases named : p.1.name = name
    · have value := processChannelBits_holds proper.1 range.1 holds.1
      rw [if_neg (by simpa using named),List.find?_cons_of_pos (by simpa using named)]
      rcases proper.1.width with width | width | width | width <;>
        (rw [width] at value; simp only [width]; rw [value]; rfl)
    · rw [if_pos (by simpa using named),List.find?_cons_of_neg (by simpa using named)]
      exact ih proper.2 range.2 holds.2

end

section
variable {channels : List ChannelInfo} {values : List Int}

theorem proper_positive (proper : ∀ c ∈ channels,Proper c) : ∀ c ∈ channels,0 < c.bytes := by
  intro c present
  have width := (proper c present).width
  omega

-- What holds of a channel without its location holds of it in the scan.
theorem forall_laid {P : ChannelInfo → Prop} (free : ∀ c i,P c → P (placed (c,i))) (each : ∀ c ∈ channels,P c) :
    ∀ c ∈ (slots (fun c : ChannelInfo => c.bytes) 0 channels).map placed,P c := by
  refine List.forall_mem_map.mpr ?_
  intro s present
  exact free s.1 s.2 (each s.1 (mem_items present))

theorem inRange_laid (range : List.Forall₂ InRange channels values) :
    List.Forall₂ InRange ((slots (fun c : ChannelInfo => c.bytes) 0 channels).map placed) values := by
  rw [← (slots_channels : _ = channels)] at range
  have each : List.Forall₂ (fun s v => InRange s.1 v) (slots (fun c : ChannelInfo => c.bytes) 0 channels) values :=
    List.forall₂_map_left_iff.mp range
  exact List.forall₂_map_left_iff.mpr each

-- Without two channels of one name the first one of a name is the only one.
theorem find_named {pairs : List (ChannelInfo×Int)} (distinct : (pairs.map (fun p => p.1.name)).Nodup) {p : ChannelInfo×Int}
    (present : p ∈ pairs) : pairs.find? (fun q => q.1.name = p.1.name) = some p := by
  induction pairs with
  | nil => cases present
  | cons q pairs ih =>
    rw [List.map_cons,List.nodup_cons] at distinct
    rcases List.mem_cons.mp present with here | later
    · subst here
      exact List.find?_cons_of_pos (by simp)
    · rw [List.find?_cons_of_neg]
      · exact ih distinct.2 later
      · have other : q.1.name ≠ p.1.name := fun same => distinct.1 (same ▸ List.mem_map_of_mem later)
        simpa using other

theorem located_decoded {data : List (BitVec 8)} {located : List ChannelInfo} {size : Int}
    (properAt : ∀ c ∈ located,Proper c) (rangeAt : List.Forall₂ InRange located values)
    (laid : LaidOut channels located size) (room : size ≤ data.length) (name : String) :
    processScan1 (buildScan data (located.zip values)) located name =
      .ok (((located.zip values).find? (fun p => p.1.name = name)).map (fun p => ⟨p.2,p.1.scale⟩)) := by
  obtain ⟨sameLength,inside⟩ := List.forall₂_iff_zip.mp rangeAt
  have channelOf : ∀ p ∈ located.zip values,p.1 ∈ located := fun p present => (List.of_mem_zip present).1
  have first : (located.zip values).map Prod.fst = located := List.map_fst_zip (Nat.le_of_eq sameLength)
  have apart : (located.zip values).Pairwise (fun p q => Apart p.1 q.1) := by
    have order := laid.apart
    rw [← first,List.pairwise_map] at order
    exact order.imp (fun between => .inl between.2)
  have within : ∀ p ∈ located.zip values,Inside data p.1 := by
    intro p present
    have covered := laid.covered p.1 (channelOf p present)
    unfold Inside
    omega
  have held := buildScan_holds within (fun p present => (properAt p.1 (channelOf p present)).fits) apart
  have read := processScan1_find (fun p present => properAt p.1 (channelOf p present))
    (fun p present => inside (show (p.1,p.2) ∈ located.zip values from present)) held name
  rwa [first] at read

end

-- Over whatever bytes the scan is built, each name reads the value of its first channel.
theorem scan_decoded {channels : List ChannelInfo} {values : List Int} (data : List (BitVec 8))
    (proper : ∀ c ∈ channels,Proper c) (small : extent (fun c : ChannelInfo => c.bytes) 0 channels < 2^31)
    (range : List.Forall₂ InRange channels values) (room : (sizeFromChannelarray channels).2 ≤ data.length) :
    LaidOut channels (sizeFromChannelarray channels).1 (sizeFromChannelarray channels).2 ∧
    (∀ name,processScan1 (buildScan data ((sizeFromChannelarray channels).1.zip values)) (sizeFromChannelarray channels).1 name =
      .ok ((((sizeFromChannelarray channels).1.zip values).find? (fun p => p.1.name = name)).map
        (fun p => ⟨p.2,p.1.scale⟩))) ∧
    ((channels.map (·.name)).Nodup → ∀ p ∈ (sizeFromChannelarray channels).1.zip values,
      processScan1 (buildScan data ((sizeFromChannelarray channels).1.zip values)) (sizeFromChannelarray channels).1 p.1.name =
        .ok (some ⟨p.2,p.1.scale⟩)) := by
  have positive := proper_positive proper
  have computed : sizeFromChannelarray channels = _ := sizeFrom_slots (n := 0) positive small
  have laid := laidOut_slots positive
  have properAt := forall_laid (P := Proper)
    (fun _ _ each => ⟨each.width,each.used,each.short,each.fits,each.mask,each.offset⟩) proper
  have rangeAt := inRange_laid range
  have names : ((slots (fun c : ChannelInfo => c.bytes) 0 channels).map placed).map (·.name) = channels.map (·.name) := by
    have items := congrArg (List.map (fun c : ChannelInfo => c.name)) (slots_channels : _ = channels)
    rw [List.map_map] at items ⊢
    exact items
  rw [computed] at room ⊢
  generalize (slots (fun c : ChannelInfo => c.bytes) 0 channels).map placed = located at *
  have found := located_decoded properAt rangeAt laid room
  refine ⟨laid,found,?_⟩
  intro distinct p present
  have first : (located.zip values).map Prod.fst = located := List.map_fst_zip (Nat.le_of_eq rangeAt.length_eq)
  have alone : ((located.zip values).map (fun p => p.1.name)).Nodup := by
    rw [← names,← first,List.map_map] at distinct
    exact distinct
  rw [found,find_named alone present]
  rfl

-- Twelve bits of a little-endian half-word and a big-endian word behind two bytes of padding.
def accelX : ChannelInfo := ⟨⟨true,2,12,4,4095,false⟩,"in_accel_x",1,0,0,0⟩
def level : ChannelInfo := ⟨⟨false,4,24,0,16777215,true⟩,"in_intensity_both",1,0,1,0⟩

theorem scan_decoded_two :
    processScan1 (buildScan (List.replicate 8 255#8) [(accelX,-5),({ level with location := 4 },1193046)])
      [accelX,{ level with location := 4 }] "in_accel_x" = .ok (some ⟨-5,1⟩) := by
  have proper : ∀ c ∈ [accelX,level],Proper c := by
    refine List.forall_mem_cons.mpr ⟨?_,List.forall_mem_singleton.mpr ?_⟩
    · constructor <;> decide
    · constructor <;> decide
  have range : List.Forall₂ InRange [accelX,level] [-5,1193046] := .cons (by decide) (.cons (by decide) .nil)
  have decoded := scan_decoded (List.replicate 8 255#8) proper (by decide) range (by decide)
  exact decoded.2.1 "in_accel_x"

def wide : ChannelInfo := ⟨⟨false,8,24,0,16777215,false⟩,"in_count",1,0,0,0⟩

theorem sizeFrom_wide (n k : Nat) : (sizeFrom (asInt (8*k : Nat)) (List.replicate n wide)).2 = asInt (8*(k+n) : Nat) := by
  induction n generalizing k with
  | zero => rfl
  | succ n ih =>
    have start : asUnsigned (asInt (8*k : Nat)) = 8*k%2^32 := by
      rw [asUnsigned,asInt,BitVec.ofInt_toInt,BitVec.toNat_ofInt]
      omega
    have next : asInt ((8*k%2^32 : Nat)+(8 : Nat)) = asInt (8*(k+1) : Nat) := by
      refine congrArg BitVec.toInt (BitVec.eq_of_toNat_eq ?_)
      rw [BitVec.toNat_ofInt,BitVec.toNat_ofInt]
      omega
    have whole : 8*k%2^32%wide.bytes = 0 := by
      change 8*k%2^32%8 = 0
      omega
    rw [List.replicate_succ,sizeFrom,start]
    simp only [if_pos whole]
    change (sizeFrom (asInt ((8*k%2^32 : Nat)+(8 : Nat))) (List.replicate n wide)).2 = _
    rw [next,ih (k+1)]
    congr 3
    omega

-- With 2^28 channels of eight bytes the size does not fit the int.
theorem scan_size_negative :
    (∀ c ∈ List.replicate (2^28) wide,Proper c) ∧ (sizeFromChannelarray (List.replicate (2^28) wide)).2 = -2147483648 ∧
    ¬LaidOut (List.replicate (2^28) wide) (sizeFromChannelarray (List.replicate (2^28) wide)).1
      (sizeFromChannelarray (List.replicate (2^28) wide)).2 := by
  have size : (sizeFromChannelarray (List.replicate (2^28) wide)).2 = -2147483648 := sizeFrom_wide (2^28) 0
  refine ⟨?_,size,?_⟩
  · intro c present
    rw [List.eq_of_mem_replicate present]
    constructor <;> decide
  · intro laid
    rw [size] at laid
    generalize (sizeFromChannelarray (List.replicate (2^28) wide)).1 = located at laid
    cases located with
    | nil =>
      have length := laid.same.length_eq
      rw [List.length_replicate] at length
      cases length
    | cons c located =>
      have covered := laid.covered c List.mem_cons_self
      omega

end ChuwiMinibook.IioBuffer
