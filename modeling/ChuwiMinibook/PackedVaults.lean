import ChuwiMinibook.FailedDecompression
import ChuwiMinibook.GddvBounds
import ChuwiMinibook.LzmaEncoding
import ChuwiMinibook.VaultRuns

namespace ChuwiMinibook.PackedVaults
open ByteScan Scan GddvTables GddvParser GddvReads GddvLoops GddvBounds GddvEncoding VaultTree FailedDecompression
open LzmaSymbols LzmaDec LzmaPlain LzmaDecode LzmaEncoding
open VaultRuns (plainHeader enough_step complete_small result_andThen)

section Decoder

-- The call of LzmaDecode in lzma_decompress, into memory whose contents do not matter.
def decoded (n : Nat) (src : Bytes) : Result :=
  (lzmaDecode (List.replicate n 0) (src.drop lzmaHeaderSize) (src.take lzmaHeaderSize) .any).getD ⟨szErrorFail,[],0⟩

theorem decoded_length (n : Nat) (src : Bytes) : ((decoded n src).dest.take (decoded n src).destLen).length ≤ n := by
  obtain ⟨code,out,short,ran⟩ := lzmaDecode_frame (src.drop lzmaHeaderSize) (src.take lzmaHeaderSize) .any n
  rw [decoded,ran _ List.length_replicate,Option.getD_some,List.take_left]
  exact short

def decoder (memory : Nat → Bytes) (size : ∀ n,(memory n).length = n) : Decoder where
  decode n src := (decoded n src).dest.take (decoded n src).destLen
  decode_length := decoded_length
  fresh := memory
  fresh_length := size
  code n src := (decoded n src).code

theorem propsDecode_append {props : Bytes} (five : props.length = 5) (more : Bytes) : propsDecode (props ++ more) = propsDecode props := by
  obtain ⟨a,b,c,d,e,rfl⟩ : ∃ a b c d e,props = [a,b,c,d,e] := by
    obtain _ | ⟨a,_ | ⟨b,_ | ⟨c,_ | ⟨d,_ | ⟨e,_ | ⟨f,rest⟩⟩⟩⟩⟩⟩ := props
    all_goals simp only [List.length_cons,List.length_nil] at five
    all_goals first | omega | exact ⟨a,b,c,d,e,rfl⟩
  rfl

theorem lzmaDecode_props {props : Bytes} (five : props.length = 5) (dest src more : Bytes) (mode : ELzmaFinishMode) :
    lzmaDecode dest src (props ++ more) mode = lzmaDecode dest src props mode := by
  rw [lzmaDecode,propsDecode_append five,lzmaDecode]

theorem visits_compressed {lzma : Lzma} {fuel headersize : Nat} {buf output : Bytes} {address size j : Int}
    (read : exec buf (readHead address size) 0 = .ok (.compressed headersize,j))
    (unpacked : handleCompressedGddv lzma buf address headersize size = .ok output) :
    visits lzma (fuel+1) buf address size = visits lzma fuel output 0 (toInt output.length) := by
  simp only [visits,read,unpacked]

end Decoder

-- The same vault with its payload packed: the flag is set, and behind the header stand
-- the properties, the payload's length and the stream.
structure Packing where
  vault : DataVault
  stored : UInt32
  a : UInt8
  b : UInt8
  c : UInt8
  stream : Bytes
  some : stream ≠ []

namespace Packing

-- The signature fixes the first two bytes of the properties.
def props (p : Packing) : Bytes := [93,0,p.a,p.b,p.c]

def header (p : Packing) : Bytes :=
  encode 2 headerSignature++(encode 2 p.vault.header.size++(encode 4 p.vault.header.version.toNat++
    (encode 4 (p.vault.header.flags.toNat+compressedFlag)++(p.vault.header.fields++(encode 4 p.stored.toNat++p.vault.header.rest)))))

def source (p : Packing) : Bytes := p.props++(encode 8 p.vault.items.bytes.length++p.stream)

def bytes (p : Packing) : Bytes := p.header++p.source

-- The parse of the packed vault succeeds and hands over every key of the vault
-- once and in order, at the addresses these have in the vault.
def Complete (lzma : Lzma) (p : Packing) : Prop := Enough (fun fuel =>
  (parseGddv lzma fuel p.bytes 0 (toInt p.bytes.length)).result = .ok (0,none) ∧
  handed (visits lzma fuel p.bytes 0 (toInt p.bytes.length)) = p.vault.keys ∧
  Right p.vault.bytes (visits lzma fuel p.bytes 0 (toInt p.bytes.length)))

end Packing

section Packed
variable (p : Packing)

theorem header_size : p.header.length = p.vault.header.size := by
  have fields := p.vault.header.fieldsLength
  simp only [Packing.header,Header.size,List.length_append,length_encode]
  omega

theorem source_size : p.source.length = 13+p.stream.length := by
  simp only [Packing.source,Packing.props,List.length_append,length_encode,List.length_cons,List.length_nil]
  omega

theorem bytes_size : p.bytes.length = p.vault.header.size+(13+p.stream.length) := by
  rw [Packing.bytes,List.length_append,header_size,source_size]

theorem store_over (b content c : Bytes) {a : Bytes} {n : Nat} (place : a.length = n) (same : content.length = b.length) :
    store (a++(b++c)) n content = a++(content++c) := by
  subst place
  have back : (a++(b++c)).drop (a.length+content.length) = c := by
    rw [same,← List.length_append,← List.append_assoc,List.drop_left]
  rw [store,List.take_left,back,List.append_assoc]

-- The copy of the header has its flag cleared and its payload's length set.
theorem header_restored (payload : Nat) (behind : Bytes) :
    store (store (p.header++behind) 8 (encode 4 p.vault.header.flags.toNat)) 140 (encode 4 payload) =
      p.vault.header.bytes payload++behind := by
  have fields := p.vault.header.fieldsLength
  have eight : (encode 2 headerSignature++(encode 2 p.vault.header.size++encode 4 p.vault.header.version.toNat)).length = 8 := by
    simp only [List.length_append,length_encode]
  have cleared := store_over (encode 4 (p.vault.header.flags.toNat+compressedFlag)) (encode 4 p.vault.header.flags.toNat)
    (p.vault.header.fields++(encode 4 p.stored.toNat++(p.vault.header.rest++behind))) eight (by rw [length_encode,length_encode])
  have far : (encode 2 headerSignature++(encode 2 p.vault.header.size++(encode 4 p.vault.header.version.toNat++
      (encode 4 p.vault.header.flags.toNat++p.vault.header.fields)))).length = 140 := by
    simp only [List.length_append,length_encode,fields]
  have sized := store_over (encode 4 p.stored.toNat) (encode 4 payload) (p.vault.header.rest++behind) far
    (by rw [length_encode,length_encode])
  simp only [List.append_assoc] at cleared sized
  simp only [Packing.header,Header.bytes,List.append_assoc]
  rw [cleared,sized]

variable {memory : Nat → Bytes} (sized : ∀ n,(memory n).length = n)

theorem flags_room : p.vault.header.flags.toNat+compressedFlag < 4294967296 ∧
    (p.vault.header.flags.toNat+compressedFlag)/compressedFlag % 2 = 1 := by
  have clear := p.vault.header.uncompressed
  have small := p.vault.header.flags.toNat_lt
  unfold compressedFlag at *
  omega

theorem stands_header (behind : Bytes) : Stands (p.header++behind) 0 p.header := (stands_whole (p.header++behind)).left

theorem flags_stand {v : Bytes} {i : Nat} (stands : Stands v i p.header) :
    Stands v (i+8) (encode 4 (p.vault.header.flags.toNat+compressedFlag)) := by
  have flags := stands.right.right.right.left
  simp only [length_encode] at flags
  exact flags

theorem stands_source : Stands p.bytes p.vault.header.size p.source := by
  have stands := (stands_whole p.bytes).right
  rwa [header_size,Nat.zero_add] at stands

-- What handle_compressed_gddv reads.
theorem source_read (small : p.bytes.length < 2147483648) :
    exec p.bytes (readCompressed 0 p.vault.header.size p.bytes.length) 0 =
      .ok ((p.vault.items.bytes.length,p.source,p.header),0) := by
  have fits := p.vault.fits
  have length := bytes_size p
  have some : 0 < p.stream.length := List.length_pos_iff.mpr p.some
  have given : sourceLength p.vault.header.size p.bytes.length = 13+p.stream.length := by
    rw [sourceLength]
    omega
  have source := (stands_source p).bytes
  have payload := (stands_source p).right.left.bytes
  have header := (stands_header p p.source).bytes
  rw [source_size] at source
  rw [length_encode] at payload
  rw [header_size] at header
  have value : little (encode 8 p.vault.items.bytes.length) = p.vault.items.bytes.length := by
    rw [little_encode,Nat.mod_eq_of_lt (fits.trans (by decide))]
  rw [source_exec ⟨le_rfl,by rw [given,length]; omega⟩,given,if_pos (by simp only [lzmaHeaderSize]; omega),Int.zero_add]
  have places : (p.vault.header.size : Int)+5 = (p.vault.header.size+p.props.length : Nat) := rfl
  rw [places,payload,source,value]
  exact congrArg (fun header => Except.ok ((p.vault.items.bytes.length,p.source,header),(0 : Int))) header

theorem announced (fits : p.vault.items.bytes.length < 4294967296) : little (bytesAt p.source 5 8) = p.vault.items.bytes.length := by
  have payload := (stands_whole p.source).right.left.bytes
  rw [length_encode] at payload
  have place : ((0+p.props.length : Nat) : Int) = 5 := rfl
  rw [place] at payload
  rw [payload,little_encode,Nat.mod_eq_of_lt (fits.trans (by decide))]

-- What lzma_decompress writes behind the header.
theorem decompressed {code : Int}
    (ran : lzmaDecode (List.replicate p.vault.items.bytes.length 0) p.stream p.props .any =
      some ⟨code,p.vault.items.bytes,p.vault.items.bytes.length⟩) :
    lzmaDecompress (decoder memory sized).toLzma p.source = p.vault.items.bytes := by
  have some : 0 < p.stream.length := List.length_pos_iff.mpr p.some
  have long : p.source.length > lzmaHeaderSize := by
    rw [source_size]
    simp only [lzmaHeaderSize]
    omega
  have length : lzmaLength p.source = p.vault.items.bytes.length := by
    have value := announced p p.vault.fits
    rw [lzmaLength,value]
    by_cases none : p.vault.items.bytes.length = 0
    case pos => rw [if_neg (by omega),none]
    case neg =>
      have fits := p.vault.fits
      have known : p.vault.items.bytes.length ≠ uint64Max := by simp only [uint64Max]; omega
      exact if_pos ⟨long,rfl,Nat.pos_of_ne_zero none,known⟩
  have front : p.source.take lzmaHeaderSize = p.props++encode 8 p.vault.items.bytes.length := by
    rw [Packing.source,← List.append_assoc]
    exact List.take_left' (by simp only [List.length_append,length_encode]; rfl)
  have back : p.source.drop lzmaHeaderSize = p.stream := by
    rw [Packing.source,← List.append_assoc]
    exact List.drop_left' (by simp only [List.length_append,length_encode]; rfl)
  rw [lzmaDecompress,if_pos long,length]
  change (decoded _ _).dest.take (decoded _ _).destLen = _
  rw [decoded,front,back,lzmaDecode_props rfl,ran,Option.getD_some,List.take_length]

theorem restored {buf content : Bytes} (room : buf.length = p.header.length+content.length) :
    store (store buf p.header.length content) 0 p.header = p.header++content := by
  have front : (buf.take p.header.length).length = p.header.length := by
    rw [List.length_take]
    omega
  have first : store buf p.header.length content = buf.take p.header.length++content := by
    rw [store,← room,List.drop_length,List.append_nil]
  rw [first,store,List.take_zero,List.nil_append,Nat.zero_add,List.drop_left' front]

theorem readHead_packed (small : p.bytes.length < 2147483648) :
    exec p.bytes (readHead 0 p.bytes.length) 0 = .ok (.compressed p.vault.header.size,0) := by
  have stands : Stands p.bytes 0 p.header := stands_header p p.source
  have headersize := stands.right.left
  have version := stands.right.right.left
  have flags := flags_stand p stands
  simp only [length_encode] at headersize version
  have range := header_bounds p.vault.header
  have length := bytes_size p
  obtain ⟨bound,set⟩ := flags_room p
  have result : Yields p.bytes (readHead 0 p.bytes.length) 0 (.compressed p.vault.header.size) 0 id := by
    unfold readHead
    rw [if_neg (by rw [headerSize]; omega)]
    refine yields_after (yields_field stands.left (by decide) 0) ?_
    rw [if_neg (by simp)]
    refine yields_after (yields_field headersize (by omega) 0) ?_
    refine yields_after (yields_field version (UInt32.toNat_lt _) 0) ?_
    dsimp only
    rw [p.vault.header.second,if_neg (by decide)]
    refine yields_after (yields_field flags (bound.trans_le (by decide)) 0) ?_
    rw [if_neg (by decide),if_pos set]
    exact yields_done p.bytes _ _
  exact result.1

section Decoded
variable {code : Int}
  (ran : lzmaDecode (List.replicate p.vault.items.bytes.length 0) p.stream p.props .any =
    some ⟨code,p.vault.items.bytes,p.vault.items.bytes.length⟩) (small : p.bytes.length < 2147483648)
include ran small

-- A stream that is decoded as the payload makes of the packed vault the vault.
theorem handle_packed :
    handleCompressedGddv (decoder memory sized).toLzma p.bytes 0 p.vault.header.size p.bytes.length = .ok p.vault.bytes := by
  have bounds := header_bounds p.vault.header
  have fits := p.vault.fits
  have size := header_size p
  have output : (p.vault.header.size+p.vault.items.bytes.length) % 18446744073709551616 =
      p.vault.header.size+p.vault.items.bytes.length := Nat.mod_eq_of_lt (by omega)
  have content := decompressed p sized ran
  have whole : store (store ((decoder memory sized).fresh (p.vault.header.size+p.vault.items.bytes.length)) p.vault.header.size
      p.vault.items.bytes) 0 p.header = p.header++p.vault.items.bytes := by
    have room : ((decoder memory sized).fresh (p.vault.header.size+p.vault.items.bytes.length)).length =
        p.header.length+p.vault.items.bytes.length := by rw [(decoder memory sized).fresh_length,size]
    have copied := restored p room
    rwa [size] at copied
  have flags := (flags_stand p (stands_header p p.vault.items.bytes)).bytes
  rw [length_encode] at flags
  obtain ⟨bound,set⟩ := flags_room p
  have value : little (encode 4 (p.vault.header.flags.toNat+compressedFlag)) = p.vault.header.flags.toNat+compressedFlag := by
    rw [little_encode,Nat.mod_eq_of_lt (bound.trans_le (by decide))]
  have place : ((0+8 : Nat) : Int) = 8 := rfl
  rw [place] at flags
  rw [handleCompressedGddv,source_read p small]
  simp only [unpack,output,content]
  rw [if_neg (by omega),whole,flags,value,if_pos set,Nat.add_sub_cancel,header_restored]
  rfl

theorem handled_packed (fuel : Nat) :
    handled (decoder memory sized) fuel p.bytes 0 p.vault.header.size p.bytes.length =
      andThen (parseGddv (decoder memory sized).toLzma fuel p.vault.bytes 0 (toInt p.vault.bytes.length))
        (fun x => ⟨id,.ok (x.1,none)⟩) := by
  rw [handled,handle_packed p sized ran small]

theorem visits_packed (fuel : Nat) :
    visits (decoder memory sized).toLzma (fuel+1) p.bytes 0 (toInt p.bytes.length) =
      visits (decoder memory sized).toLzma fuel p.vault.bytes 0 (toInt p.vault.bytes.length) := by
  have int : toInt p.bytes.length = p.bytes.length := toInt_small (by omega) (by omega)
  rw [int]
  exact visits_compressed (readHead_packed p small) (handle_packed p sized ran small)

theorem complete_packed (complete : VaultTree.Complete (decoder memory sized).toLzma p.vault) :
    p.Complete (decoder memory sized).toLzma := by
  have int : toInt p.bytes.length = p.bytes.length := toInt_small (by omega) (by omega)
  refine enough_step complete ?_
  intro fuel given
  obtain ⟨⟨endOffset,ended⟩,keys,right⟩ := given
  rw [visits_packed p sized ran small]
  refine ⟨?_,keys,right⟩
  rw [int,parse_compressed _ (readHead_packed p small),handled_packed p sized ran small,result_andThen ended]

end Decoded

-- A packed vault is parsed as the vault itself, but that the end is not reported.
theorem parse_packed {code : Int}
    (ran : lzmaDecode (List.replicate p.vault.items.bytes.length 0) p.stream p.props .any =
      some ⟨code,p.vault.items.bytes,p.vault.items.bytes.length⟩) (small : p.bytes.length < 2147483648) (fuel : Nat) :
    parseGddv (decoder memory sized).toLzma (fuel+1) p.bytes 0 (toInt p.bytes.length) =
      andThen (parseGddv (decoder memory sized).toLzma fuel p.vault.bytes 0 (toInt p.vault.bytes.length))
        (fun x => ⟨id,.ok (x.1,none)⟩) := by
  have int : toInt p.bytes.length = p.bytes.length := toInt_small (by omega) (by omega)
  rw [int,parse_compressed _ (readHead_packed p small),handled_packed p sized ran small]

-- Three keys, one of them in a nested object, each followed by enough of the payload.
def nestedVault : DataVault where
  header := plainHeader
  items :=
    .key ⟨0,ascii "/shared/first"++[0],0,List.replicate 300 0⟩
      (.object plainHeader (.key ⟨0,ascii "/shared/inner"++[0],0,List.replicate 300 0⟩ .nil)
        (.key ⟨0,ascii "/shared/last"++[0],0,List.replicate 300 0⟩ .nil))
  valid := ⟨⟨⟨none,none,none⟩,by decide,0,fun _ _ => rfl⟩,⟨⟨⟨none,none,none⟩,by decide,0,fun _ _ => rfl⟩,trivial⟩,
    ⟨⟨none,none,none⟩,by decide,0,fun _ _ => rfl⟩,trivial⟩
  fits := by decide +kernel

theorem parse_packed_nested : ∃ p : Packing,p.vault = nestedVault ∧
    p.Complete (decoder (fun n => List.replicate n 0) fun _ => List.length_replicate).toLzma ∧ ∀ fuel,
    parseGddv (decoder (fun n => List.replicate n 0) fun _ => List.length_replicate).toLzma (fuel+1) p.bytes 0 (toInt p.bytes.length) =
      andThen (parseGddv (decoder (fun n => List.replicate n 0) fun _ => List.length_replicate).toLzma fuel
        p.vault.bytes 0 (toInt p.vault.bytes.length)) (fun x => ⟨id,.ok (x.1,none)⟩) := by
  obtain ⟨prop,known⟩ : ∃ prop,propsDecode [93,0,0,1,0] = some prop := ⟨_,rfl⟩
  obtain ⟨stream,-,few,ran⟩ := bytes_stream known nestedVault.items.bytes
  have length : nestedVault.items.bytes.length < 2000 ∧ nestedVault.header.size = 148 := by decide +kernel
  have small : (Packing.bytes ⟨nestedVault,0,0,1,0,0::stream,List.cons_ne_nil _ _⟩).length < 2147483648 := by
    rw [bytes_size]
    simp only [length.2,lzmaRequiredInputMax,List.length_cons] at few ⊢
    omega
  have plain : nestedVault.bytes.length < 2147483648 := by
    rw [nestedVault.length_bytes]
    omega
  have complete := complete_small (decoder (fun n => List.replicate n 0) fun _ => List.length_replicate).toLzma nestedVault plain
    (by decide +kernel)
  replace ran := ran (List.replicate nestedVault.items.bytes.length 0) List.length_replicate
  exact ⟨⟨nestedVault,0,0,1,0,0::stream,List.cons_ne_nil _ _⟩,rfl,complete_packed _ _ ran small complete,parse_packed _ _ ran small⟩

-- Every vault whose keys are clear can be packed, with any dictionary size, so
-- that none of its keys is lost.
theorem vault_packs (v : DataVault) (room : v.header.size+18+lzmaRequiredInputMax*v.items.bytes.length < 2147483648)
    (clear : v.items.clearKeys v.header.size = true) (stored : UInt32) (a b c : UInt8) :
    ∃ p : Packing,p.vault = v ∧ p.stored = stored ∧ p.props = [93,0,a,b,c] ∧
      ∀ (memory : Nat → Bytes) (sized : ∀ n,(memory n).length = n),p.Complete (decoder memory sized).toLzma := by
  obtain ⟨prop,known⟩ : ∃ prop,propsDecode [93,0,a,b,c] = some prop := ⟨_,rfl⟩
  obtain ⟨stream,-,few,ran⟩ := bytes_stream known v.items.bytes
  have packed : (Packing.bytes ⟨v,stored,a,b,c,0::stream,List.cons_ne_nil _ _⟩).length < 2147483648 := by
    rw [bytes_size]
    simp only [List.length_cons]
    omega
  have plain : v.bytes.length < 2147483648 := by
    rw [v.length_bytes]
    simp only [lzmaRequiredInputMax] at room
    omega
  refine ⟨⟨v,stored,a,b,c,0::stream,List.cons_ne_nil _ _⟩,rfl,rfl,rfl,fun memory sized => ?_⟩
  exact complete_packed _ sized (ran _ List.length_replicate) packed (complete_small _ v plain clear)

theorem vault_packs_nested : nestedVault.keys = [150,630,962] ∧
    ∃ p : Packing,p.vault = nestedVault ∧ p.stored = 0 ∧ p.props = [93,0,0,1,0] ∧
      ∀ (memory : Nat → Bytes) (sized : ∀ n,(memory n).length = n),p.Complete (decoder memory sized).toLzma :=
  ⟨by decide +kernel,vault_packs nestedVault (by decide +kernel) (by decide +kernel) 0 0 1 0⟩

end Packed

end ChuwiMinibook.PackedVaults
