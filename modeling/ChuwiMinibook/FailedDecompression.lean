import ChuwiMinibook.GddvBounds
import ChuwiMinibook.RefusedVaults
import ChuwiMinibook.VaultTree

namespace ChuwiMinibook.FailedDecompression
open ByteScan Scan GddvTables GddvParser GddvReads GddvBounds RefusedVaults
open VaultTree (Enough)

-- LzmaDecode also returns a result.
structure Decoder extends Lzma where
  code : Nat → Bytes → Int

def lzmaMaxCompressedSize : Nat := 9223372036854775806

-- lzma_decompress returns THD_ERROR unless one of its branches sets rc: without a
-- destination,
def lengthCode (src : Bytes) : Int :=
  let original := little (bytesAt src 5 8)
  if src.length > lzmaHeaderSize ∧ src.take 2 = [93,0] ∧ original > 0 ∧ original ≠ uint64Max then 0 else thdError

-- and with one.
def decompressCode (d : Decoder) (src : Bytes) : Int :=
  if src.length > lzmaHeaderSize then
    let destLen := (lzmaDecompress d.toLzma src).length
    let rc := if destLen < little (bytesAt src 5 8) then thdError else d.code (lzmaLength src) src
    if destLen > lzmaMaxCompressedSize then thdError else rc
  else thdError

-- What both calls are handed, unless reading it runs out of the buffer.
def source (buf : Bytes) (address : Int) (headersize : Nat) (size : Int) : Option Bytes :=
  match exec buf (readCompressed address headersize size) 0 with
  | .error _ => none
  | .ok ((_,src,_),_) => some src

-- handle_compressed_gddv: res is the code of parse_gddv, its two earlier values are only logged.
def handled (d : Decoder) (fuel : Nat) (buf : Bytes) (address : Int) (headersize : Nat) (size : Int) :
    Outcome Vault (Int × Option Int) :=
  match handleCompressedGddv d.toLzma buf address headersize size with
  | .error s => ⟨id,.error s⟩
  | .ok output => andThen (parseGddv d.toLzma fuel output 0 (toInt output.length)) (fun x => ⟨id,.ok (x.1,none)⟩)

def Failed (d : Decoder) (src : Bytes) : Prop := lengthCode src ≠ 0 ∨ decompressCode d src ≠ 0

-- A failure becomes an error or an exception, and no table is changed.
def FailureReported (d : Decoder) (buf : Bytes) (address : Int) (headersize : Nat) (size : Int) : Prop :=
  ∀ src,source buf address headersize size = some src → Failed d src →
    Enough (fun fuel => Refused (handled d fuel buf address headersize size))

-- The stream has a header and decodes to the length that this one announces.
structure Sound (d : Decoder) (src : Bytes) : Prop where
  long : src.length > lzmaHeaderSize
  signature : src.take 2 = [93,0]
  positive : little (bytesAt src 5 8) > 0
  known : little (bytesAt src 5 8) ≠ uint64Max
  whole : (d.decode (little (bytesAt src 5 8)) src).length = little (bytesAt src 5 8)
  short : little (bytesAt src 5 8) ≤ lzmaMaxCompressedSize
  accepted : d.code (little (bytesAt src 5 8)) src = 0

theorem parse_compressed (d : Decoder) {fuel headersize : Nat} {buf : Bytes} {address size j : Int}
    (read : exec buf (readHead address size) 0 = .ok (.compressed headersize,j)) :
    parseGddv d.toLzma (fuel+1) buf address size = handled d fuel buf address headersize size := by
  cases unpacked : handleCompressedGddv d.toLzma buf address headersize size with
  | error s => simp only [parseGddv,handled,read,unpacked]
  | ok output => simp only [parseGddv,handled,read,unpacked]

theorem lengthCode_zero {src : Bytes} : lengthCode src = 0 ↔
    src.length > lzmaHeaderSize ∧ src.take 2 = [93,0] ∧ little (bytesAt src 5 8) > 0 ∧ little (bytesAt src 5 8) ≠ uint64Max := by
  unfold lengthCode
  dsimp only
  split
  case isTrue valid => exact iff_of_true rfl valid
  case isFalse invalid => exact iff_of_false (by decide) invalid

theorem decompressCode_zero {d : Decoder} {src : Bytes} : decompressCode d src = 0 ↔
    src.length > lzmaHeaderSize ∧ little (bytesAt src 5 8) ≤ (lzmaDecompress d.toLzma src).length ∧
      (lzmaDecompress d.toLzma src).length ≤ lzmaMaxCompressedSize ∧ d.code (lzmaLength src) src = 0 := by
  unfold decompressCode
  dsimp only
  split_ifs <;> simp_all [thdError]

theorem unfailed_iff {d : Decoder} {src : Bytes} : ¬Failed d src ↔ Sound d src := by
  simp only [Failed,not_or,Decidable.not_not]
  rw [lengthCode_zero,decompressCode_zero]
  constructor
  · rintro ⟨⟨long,signature,positive,known⟩,-,all,short,accepted⟩
    have announced : lzmaLength src = little (bytesAt src 5 8) := if_pos ⟨long,signature,positive,known⟩
    have content : lzmaDecompress d.toLzma src = d.decode (little (bytesAt src 5 8)) src := by
      rw [lzmaDecompress,if_pos long,announced]
    rw [content] at all short
    rw [announced] at accepted
    have bounded := d.decode_length (little (bytesAt src 5 8)) src
    exact ⟨long,signature,positive,known,by omega,by omega,accepted⟩
  · rintro ⟨long,signature,positive,known,whole,short,accepted⟩
    have announced : lzmaLength src = little (bytesAt src 5 8) := if_pos ⟨long,signature,positive,known⟩
    have content : lzmaDecompress d.toLzma src = d.decode (little (bytesAt src 5 8)) src := by
      rw [lzmaDecompress,if_pos long,announced]
    rw [content,announced,whole]
    exact ⟨⟨long,signature,positive,known⟩,long,Nat.le_refl _,short,accepted⟩

-- Whatever the calls returned, it is the parse of the buffer they left that decides.
theorem refused_handled {d : Decoder} {fuel : Nat} {buf : Bytes} {address : Int} {headersize : Nat} {size : Int} :
    Refused (handled d fuel buf address headersize size) ↔
      ∃ output,handleCompressedGddv d.toLzma buf address headersize size = .ok output ∧
        Refuses d.toLzma fuel output 0 (toInt output.length) := by
  unfold handled
  cases unpacked : handleCompressedGddv d.toLzma buf address headersize size with
  | error s =>
    dsimp only
    rw [refused_stop]
    constructor
    · rintro rfl
      exact absurd unpacked (compressed_unthrown _ _ _ _ _)
    · rintro ⟨output,other,-⟩
      cases other
  | ok output =>
    dsimp only
    rw [refused_inner,← (laws_hold d.toLzma fuel).refuses]
    constructor
    · exact fun inner => ⟨output,rfl,inner⟩
    · rintro ⟨other,same,inner⟩
      cases same
      exact inner

def Sounds (d : Decoder) (buf : Bytes) (address : Int) (headersize : Nat) (size : Int) : Prop :=
  ∀ src,source buf address headersize size = some src → Sound d src

-- new[] of the header's length and the announced size.
def bufferSize (buf : Bytes) (address : Int) (headersize : Nat) : Nat :=
  (headersize+little (bytesAt buf (address+headersize+5) 8)) % 18446744073709551616

-- The header and all that was announced have room in the buffer that is made, but
-- its length, taken as an int, is none of a vault.
def Misfits (buf : Bytes) (address : Int) (headersize : Nat) (size : Int) : Prop :=
  ∀ src,source buf address headersize size = some src → headersize+lzmaLength src ≤ bufferSize buf address headersize ∧
    144 ≤ bufferSize buf address headersize ∧ toInt (bufferSize buf address headersize) < headerSize

-- Another decoder and other memory, with the same verdict on the stream.
def SameVerdict (d e : Decoder) (buf : Bytes) (address : Int) (headersize : Nat) (size : Int) : Prop :=
  ∀ src,source buf address headersize size = some src → (Failed e src ↔ Failed d src)

section Left
variable {buf src : Bytes} {address size : Int} {headersize : Nat}

theorem source_read (found : source buf address headersize size = some src) :
    ∃ j,exec buf (readCompressed address headersize size) 0 =
      .ok ((little (bytesAt buf (address+headersize+5) 8),src,bytesAt buf address headersize),j) := by
  unfold source at found
  split at found
  · cases found
  rename_i payload src' header j read
  cases found
  have shape := read
  simp only [readCompressed,word,bind_eq,pure_eq,Scan.bind,exec] at shape
  split_ifs at shape
  all_goals
    cases shape
    exact ⟨_,read⟩

theorem handled_unpack (found : source buf address headersize size = some src) (lzma : Lzma) :
    handleCompressedGddv lzma buf address headersize size = unpack lzma headersize
      (little (bytesAt buf (address+headersize+5) 8)) src (bytesAt buf address headersize) := by
  obtain ⟨j,read⟩ := source_read found
  unfold handleCompressedGddv
  rw [read]

theorem content_length (lzma : Lzma) (src : Bytes) : (lzmaDecompress lzma src).length ≤ lzmaLength src := by
  unfold lzmaDecompress
  split
  · exact lzma.decode_length _ _
  · exact Nat.zero_le _

theorem source_header (found : source buf address headersize size = some src) :
    0 ≤ address ∧ (bytesAt buf address headersize).length = headersize := by
  obtain ⟨j,read⟩ := source_read found
  simp only [readCompressed,word,bind_eq,pure_eq,Scan.bind,exec] at read
  split_ifs at read
  all_goals
    rename_i inside
    exact ⟨inside.1,length_bytesAt inside⟩

-- A buffer whose length is none of a vault is refused for it.
theorem misfit_refused (d : Decoder) (found : source buf address headersize size = some src)
    (misfits : Misfits buf address headersize size) (fuel : Nat) :
    Refused (handled d (fuel+1) buf address headersize size) := by
  obtain ⟨room,long,short⟩ := misfits src found
  have content := content_length d.toLzma src
  obtain ⟨_,sized⟩ := source_header found
  unfold bufferSize at room long short
  rw [refused_handled,handled_unpack found,unpack_spec d.toLzma sized (by omega) long]
  refine ⟨_,rfl,.header (j := 0) ?_⟩
  have length : (bytesAt buf address headersize++(lzmaDecompress d.toLzma src++(d.fresh ((headersize+
      little (bytesAt buf (address+headersize+5) 8)) % 18446744073709551616)).drop
        (headersize+(lzmaDecompress d.toLzma src).length))).length =
      (headersize+little (bytesAt buf (address+headersize+5) 8)) % 18446744073709551616 := by
    have fresh := d.fresh_length ((headersize+little (bytesAt buf (address+headersize+5) 8)) % 18446744073709551616)
    simp only [List.length_append,List.length_drop,sized,fresh]
    omega
  rw [updated_length (by rw [length]; exact long),length]
  unfold readHead
  rw [if_pos short]
  rfl

end Left

def zeroing : Lzma := {idle with
  decode := fun n _ => List.replicate n 0
  decode_length := fun _ _ => Nat.le_of_eq List.length_replicate}

-- A decoder that fails with all it could decode, and one that decodes nothing, in
-- memory with the signature of a key behind the header.
def overflowing : Decoder := ⟨zeroing,fun _ _ => 1⟩

def keyMark : Bytes := encode 2 keysSignature

def littered (headersize : Nat) : Decoder where
  decode _ _ := []
  decode_length _ _ := Nat.zero_le _
  fresh n := (List.replicate headersize 0++(keyMark++List.replicate n 0)).take n
  fresh_length n := by
    simp only [List.length_take,List.length_append,List.length_replicate]
    omega
  code _ _ := 1

theorem failed_always {e : Decoder} (code : ∀ n src,e.code n src = 1) (src : Bytes) : Failed e src := by
  refine .inr fun accepted => ?_
  have zero := (decompressCode_zero.mp accepted).2.2.2
  rw [code] at zero
  cases zero

theorem bytesAt_append {front back : Bytes} {i n : Nat} (inside : i+n ≤ front.length) :
    bytesAt (front++back) i n = bytesAt front i n := by
  simp only [bytesAt,Int.toNat_natCast]
  rw [List.drop_append_of_le_length (by omega),List.take_append_of_le_length (by rw [List.length_drop]; omega)]

theorem bytesAt_behind {front back : Bytes} {h : Nat} (place : front.length = h) (i n : Nat) :
    bytesAt (front++back) ((h+i : Nat) : Int) n = (back.drop i).take n := by
  simp only [bytesAt,Int.toNat_natCast]
  rw [← place,← List.drop_drop,List.drop_left]

theorem bytesAt_part {buf : Bytes} {address : Int} (start : 0 ≤ address) {h i n : Nat} (inside : i+n ≤ h) :
    bytesAt (bytesAt buf address h) i n = bytesAt buf (address+i) n := by
  have place : (address+i).toNat = address.toNat+i := by omega
  simp only [bytesAt,Int.toNat_natCast]
  rw [place,List.drop_take,List.take_take,Nat.min_eq_left (by omega),List.drop_drop]

theorem little_zeros {b : Bytes} (zeros : ∀ x ∈ b,x = 0) : little b = 0 := by
  induction b with
  | nil => rfl
  | cons x rest ih =>
    rw [little,zeros x List.mem_cons_self,ih (fun y inside => zeros y (List.mem_cons_of_mem _ inside))]
    rfl

-- What that memory holds behind a header, where an object has n bytes.
def litter (h n : Nat) : Bytes := (keyMark++List.replicate n 0).take (n-h)

theorem littered_tail (h n : Nat) : ((littered h).fresh n).drop h = litter h n := by
  have front : (List.replicate h (0 : UInt8)).length = h := List.length_replicate
  show ((List.replicate h 0++(keyMark++List.replicate n 0)).take n).drop h = _
  rw [List.drop_take,List.drop_left' front]
  rfl

theorem length_litter (h n : Nat) : (litter h n).length = n-h := by
  simp only [litter,List.length_take,List.length_append,List.length_replicate]
  omega

theorem litter_mark {h n : Nat} (room : h+2 ≤ n) : ((litter h n).drop 0).take 2 = keyMark := by
  rw [litter,List.drop_zero,List.take_take,Nat.min_eq_left (by omega)]
  rfl

theorem litter_zero (h n k : Nat) : little (((litter h n).drop 6).take k) = 0 := by
  refine little_zeros fun x inside => ?_
  have part := List.mem_of_mem_take inside
  rw [litter,List.drop_take] at part
  have behind := List.mem_of_mem_take part
  have rest : (keyMark++List.replicate n (0 : UInt8)).drop 6 = (List.replicate n (0 : UInt8)).drop 4 := rfl
  rw [rest] at behind
  exact List.eq_of_mem_replicate (List.mem_of_mem_drop behind)

section Unreported
variable {buf src : Bytes} {address size : Int} {headersize : Nat} (found : source buf address headersize size = some src)
include found

-- Where header and content overrun the buffer, or it has no room for the fields that
-- are updated, nothing is refused.
theorem overrun_unreported (overrun : ¬(headersize+lzmaLength src ≤ bufferSize buf address headersize ∧
      144 ≤ bufferSize buf address headersize)) (fuel : Nat) :
    ¬Refused (handled overflowing fuel buf address headersize size) := by
  have content : (lzmaDecompress overflowing.toLzma src).length = lzmaLength src := by
    unfold lzmaDecompress
    split
    · exact List.length_replicate
    · rename_i short
      unfold lzmaLength
      rw [if_neg (fun valid => short valid.1)]
      rfl
  unfold bufferSize at overrun
  rw [refused_handled,handled_unpack found]
  rintro ⟨output,done,_⟩
  unfold unpack at done
  dsimp only at done
  rw [content,if_pos (by omega)] at done
  cases done

variable (whole : 148 ≤ headersize) (room : headersize ≤ bufferSize buf address headersize)
include whole room

theorem littered_unpacks : handleCompressedGddv (littered headersize).toLzma buf address headersize size =
    .ok (updated (bytesAt buf address headersize++litter headersize (bufferSize buf address headersize))
      (little (bytesAt buf (address+headersize+5) 8))) := by
  obtain ⟨_,sized⟩ := source_header found
  have unpacked := handled_unpack found (littered headersize).toLzma
  have nothing : lzmaDecompress (littered headersize).toLzma src = [] := by
    unfold lzmaDecompress
    split <;> rfl
  have content : headersize+(lzmaDecompress (littered headersize).toLzma src).length ≤
      bufferSize buf address headersize := by
    rw [nothing]
    exact room
  rw [unpack_spec _ sized content (show 144 ≤ bufferSize buf address headersize by omega),nothing,List.length_nil,
    Nat.add_zero,List.nil_append] at unpacked
  rw [← littered_tail]
  exact unpacked

variable {j : Int} (read : exec buf (readHead address size) 0 = .ok (.compressed headersize,j))
  (long : headerSize ≤ toInt (bufferSize buf address headersize))
include read long

-- The header is copied as it was taken; behind it stands a key whose text has no
-- end, if anything.
theorem littered_left : ∃ output,
    handleCompressedGddv (littered headersize).toLzma buf address headersize size = .ok output ∧
      output.length = bufferSize buf address headersize ∧
      exec output (readHead 0 (toInt output.length)) 0 = .ok (.plain headersize
        (toInt ((little (bytesAt buf (address+headersize+5) 8) % 4294967296 : Nat) : Int)) true,0) ∧
      (headersize+2 ≤ output.length → little (bytesAt output headersize 2) = keysSignature) ∧
      little (bytesAt output ((headersize+6 : Nat) : Int) 4) = 0 := by
  obtain ⟨start,sized⟩ := source_header found
  obtain ⟨_,signature,version,_,own⟩ := head_compressed read
  have bound := GddvLoops.toInt_le_nat (bufferSize buf address headersize)
  have unpacked := littered_unpacks found whole room
  have tail := length_litter headersize (bufferSize buf address headersize)
  have length : (bytesAt buf address headersize++litter headersize (bufferSize buf address headersize)).length =
      bufferSize buf address headersize := by
    rw [List.length_append,sized,tail]
    omega
  have updatable := length ▸ Nat.le_trans (show 144 ≤ headersize by omega) room
  have all := updated_length updatable (little (bytesAt buf (address+headersize+5) 8))
  have front (i n : Nat) (inside : i+n ≤ 8) : bytesAt (updated (bytesAt buf address headersize++
      litter headersize (bufferSize buf address headersize)) (little (bytesAt buf (address+headersize+5) 8))) i n =
        bytesAt buf (address+i) n := by
    rw [updated_kept updatable _ (.inl inside),bytesAt_append (by rw [sized]; omega),bytesAt_part start (by omega)]
  have behind (i n : Nat) : bytesAt (updated (bytesAt buf address headersize++
      litter headersize (bufferSize buf address headersize)) (little (bytesAt buf (address+headersize+5) 8)))
        ((headersize+i : Nat) : Int) n = ((litter headersize (bufferSize buf address headersize)).drop i).take n := by
    rw [updated_kept updatable _ (.inr (by omega)),bytesAt_behind sized]
  refine ⟨_,unpacked,all.trans length,?_,?_,?_⟩
  · rw [all,length]
    refine head_read ⟨long,?_,?_,?_,?_,?_,.inr (.inr ⟨?_,?_,?_,?_,?_⟩)⟩
    any_goals
      unfold Inside
      omega
    · exact (congrArg little (front 0 2 (by omega))).trans (by rw [Nat.cast_zero,Int.add_zero]; exact signature)
    · exact (congrArg (little · / 16777216) (front 4 4 (by omega))).trans version
    · have clear := updated_flag updatable (little (bytesAt buf (address+headersize+5) 8))
      rw [Int.zero_add,clear]
      decide
    · have width := congrArg little (front 2 2 (by omega))
      rw [Int.zero_add,Int.zero_add,updated_size updatable]
      exact congrArg (fun n => Head.plain n _ true) (own.trans width.symm)
  · intro inside
    rw [all,length] at inside
    have read := behind 0 2
    rw [litter_mark inside] at read
    exact (congrArg little read).trans (little_encode 2 keysSignature)
  · rw [behind 6 4]
    exact litter_zero _ _ 4

theorem littered_unreported (fuel : Nat) : ¬Refused (handled (littered headersize) fuel buf address headersize size) := by
  obtain ⟨output,unpacked,sized,head,marked,zero⟩ := littered_left found whole room read long
  have eight : (bytesAt buf (address+headersize+5) 8).length ≤ 8 := List.length_take_le _ _
  have bytes : little (bytesAt buf (address+headersize+5) 8) < 18446744073709551616 :=
    lt_of_lt_of_le (little_lt _) (Nat.pow_le_pow_right (by decide) eight)
  have announced := GddvLoops.toInt_le_nat (little (bytesAt buf (address+headersize+5) 8) % 4294967296)
  have filled : toInt ((little (bytesAt buf (address+headersize+5) 8) % 4294967296 : Nat) : Int)+headersize ≤ output.length := by
    rw [sized]
    unfold bufferSize at room ⊢
    generalize little (bytesAt buf (address+headersize+5) 8) = payload at bytes announced room ⊢
    generalize toInt ((payload % 4294967296 : Nat) : Int) = given at announced ⊢
    omega
  generalize toInt ((little (bytesAt buf (address+headersize+5) 8) % 4294967296 : Nat) : Int) = payload at head filled
  rw [refused_handled]
  rintro ⟨same,done,refuses⟩
  cases unpacked.symm.trans done
  cases fuel with
  | zero => cases refuses
  | succ fuel =>
    have items := (refuses_plain head).mp refuses
    cases fuel with
    | zero => cases items
    | succ fuel =>
      by_cases more : (headersize : Int)+headersize < payload
      swap
      · cases items <;> exact absurd ‹_› more
      have inside : headersize+2 ≤ output.length := by omega
      have there : Inside output (headersize : Int) 2 := by
        unfold Inside
        omega
      have item : exec output (readItem ⟨0,headersize,payload,true⟩ headersize) 0 = .ok (.key (headersize+2),0) := by
        unfold readItem
        simp only [if_true,word,bind_eq,pure_eq,Scan.bind,exec,Int.zero_add,marked inside]
        rw [if_pos there]
      have fault : (parseGddvKey fuel output (headersize+2)).result = .error .fault := by
        by_contra clean
        obtain ⟨_,path,split,_⟩ := (key_law fuel).mp clean
        have place : ((headersize : Int)+2)+4 = ((headersize+6 : Nat) : Int) := by omega
        unfold keyText at split
        rw [place,zero] at split
        cases split
      rcases (refusesItems_key more item).mp items with ⟨_,thrown⟩ | ⟨_,taken,_⟩
      · exact absurd (fault.symm.trans thrown) (by simp)
      · exact absurd (fault.symm.trans taken) (by simp)

end Unreported

-- No call fails, or the buffer has a length that parse_gddv refuses: then a failure
-- is reported. With a header of at least the struct's own length this is exact,
-- whatever the decoder leaves when it fails and whatever the memory held.
theorem failure_reported_iff (d : Decoder) {buf : Bytes} {address size : Int} {headersize : Nat} {j : Int}
    (read : exec buf (readHead address size) 0 = .ok (.compressed headersize,j)) :
    (Sounds d buf address headersize size ∨ Misfits buf address headersize size →
      FailureReported d buf address headersize size) ∧
    (148 ≤ headersize →
      ((∀ e,SameVerdict d e buf address headersize size → FailureReported e buf address headersize size) ↔
        Sounds d buf address headersize size ∨ Misfits buf address headersize size)) := by
  have enough (e : Decoder) (sounds : Sounds e buf address headersize size ∨ Misfits buf address headersize size) :
      FailureReported e buf address headersize size := by
    intro src found failed
    rcases sounds with sound | misfits
    · exact absurd failed (unfailed_iff.mpr (sound src found))
    · refine ⟨1,fun fuel one => ?_⟩
      obtain ⟨rest,rfl⟩ : ∃ rest,fuel = rest+1 := ⟨fuel-1,by omega⟩
      exact misfit_refused e found misfits rest
  refine ⟨enough d,fun whole => ⟨?_,?_⟩⟩
  · intro all
    by_contra neither
    obtain ⟨unsounds,fits⟩ := not_or.mp neither
    simp only [Sounds,not_forall] at unsounds
    obtain ⟨src,found,unsound⟩ := unsounds
    have failed : Failed d src := by
      by_contra unfailed
      exact unsound (unfailed_iff.mp unfailed)
    have only : ∀ other,source buf address headersize size = some other → other = src := by
      intro other again
      exact Option.some.inj (again.symm.trans found)
    have unreported (e : Decoder) (code : ∀ n src,e.code n src = 1)
        (accepted : ∀ fuel,¬Refused (handled e fuel buf address headersize size)) : False := by
      have same : SameVerdict d e buf address headersize size := by
        intro other again
        rw [only other again]
        exact iff_of_true (failed_always code src) failed
      obtain ⟨least,refused⟩ := all e same src found (failed_always code src)
      exact accepted least (refused least (Nat.le_refl _))
    by_cases room : headersize+lzmaLength src ≤ bufferSize buf address headersize ∧
        144 ≤ bufferSize buf address headersize
    · by_cases long : headerSize ≤ toInt (bufferSize buf address headersize)
      · exact unreported (littered headersize) (fun _ _ => rfl)
          (littered_unreported found whole (by omega) read long)
      · refine fits fun other again => ?_
        rw [only other again]
        exact ⟨room.1,room.2,Int.not_le.mp long⟩
    · exact unreported overflowing (fun _ _ => rfl) (overrun_unreported found room)
  · intro given e same
    refine enough e (given.imp_left fun sounds src found => ?_)
    refine unfailed_iff.mp fun failed => ?_
    exact absurd ((same src found).mp failed) (unfailed_iff.mpr (sounds src found))

-- Ten bytes are announced and one follows. LzmaDecode wants five and ends with
-- SZ_ERROR_INPUT_EOF.
def truncated : Bytes := [229,31,148,0,0,0,0,2,0,0,0,64]++List.replicate 136 0++[93,0,0,16,0,10,0,0,0,0,0,0,0,0]

def starved : Decoder := ⟨idle,fun _ _ => 6⟩

-- Its header without the flag, and ten bytes that nothing was written to.
def leftover : Bytes := [229,31,148,0,0,0,0,2,0,0,0,0]++List.replicate 128 0++[10,0,0,0]++List.replicate 14 0

theorem truncated_ignored (fuel : Nat) : Ignored (handled starved (fuel+2) truncated 0 148 truncated.length) none := by
  have read : exec truncated (readHead 0 truncated.length) 0 = .ok (.compressed 148,0) := by decide +kernel
  have unpacked : handleCompressedGddv idle truncated 0 148 truncated.length = .ok leftover := by decide +kernel
  have inner : exec leftover (readHead 0 (toInt leftover.length)) 0 = .ok (.plain 148 10 true,0) := by decide +kernel
  rw [← parse_compressed starved read]
  refine ((laws_hold idle (fuel+3)).ignores _ _ _ _).mp (.compressed read unpacked (.items inner (.finished ?_)))
  decide

theorem truncated_accepted : exec truncated (readHead 0 truncated.length) 0 = .ok (.compressed 148,0) ∧
    (∃ src,source truncated 0 148 truncated.length = some src ∧ lengthCode src = 0 ∧ decompressCode starved src = thdError) ∧
    (∀ fuel,(handled starved (fuel+2) truncated 0 148 truncated.length).result = .ok (0,none)) ∧
    ¬FailureReported starved truncated 0 148 truncated.length := by
  have found : source truncated 0 148 truncated.length = some (truncated.drop 148) := by decide +kernel
  have failed : decompressCode starved (truncated.drop 148) = thdError := by decide +kernel
  refine ⟨by decide +kernel,⟨_,found,by decide +kernel,failed⟩,fun fuel => (truncated_ignored fuel).2,?_⟩
  intro reported
  have wrong : Failed starved (truncated.drop 148) := Or.inr (by rw [failed]; decide)
  obtain ⟨least,refused⟩ := reported _ found wrong
  obtain ⟨-,stopped⟩ := refused (least+2) (Nat.le_add_right _ _)
  simp [(truncated_ignored least).2] at stopped

-- A stream that decodes to what it announces, and one whose buffer is as long as an
-- int can not be.
def obliging : Decoder := ⟨zeroing,fun _ _ => 0⟩

def vast : Bytes := [229,31,148,0,0,0,0,2,0,0,0,64]++List.replicate 136 0++[93,0,0,16,0,0,0,0,128,0,0,0,0,0]

theorem failure_reported_truncated : FailureReported obliging truncated 0 148 truncated.length ∧
    (∀ e,SameVerdict starved e vast 0 148 vast.length → FailureReported e vast 0 148 vast.length) := by
  have read : exec truncated (readHead 0 truncated.length) 0 = .ok (.compressed 148,0) := by decide +kernel
  have far : exec vast (readHead 0 vast.length) 0 = .ok (.compressed 148,0) := by decide +kernel
  have found : source truncated 0 148 truncated.length = some (truncated.drop 148) := by decide +kernel
  have reached : source vast 0 148 vast.length = some (vast.drop 148) := by decide +kernel
  have announced : little (bytesAt (truncated.drop 148) 5 8) = 10 := by decide +kernel
  constructor
  · refine (failure_reported_iff obliging read).1 (.inl fun src again => ?_)
    cases found.symm.trans again
    refine ⟨by decide +kernel,by decide +kernel,by rw [announced]; decide,by rw [announced]; decide,?_,
      by rw [announced]; decide,rfl⟩
    exact List.length_replicate
  · refine ((failure_reported_iff starved far).2 (by decide)).mpr (.inr fun src again => ?_)
    cases reached.symm.trans again
    exact ⟨by decide +kernel,by decide +kernel,by decide +kernel⟩

end ChuwiMinibook.FailedDecompression
