import ChuwiMinibook.GddvTables

namespace ChuwiMinibook.GddvParser
open ByteScan Scan GddvTables

def thdError : Int := -1

-- The key item: two lengths, two copies. Reads are at the item's address, the
-- cursor is the offset behind it that becomes end_offset.
def keyItem (address : Int) : Parse (Bytes × Bytes) := do
  let _ ← word address 4
  let keylength ← word (address+4) 4
  let key ← Scan.read (address+8) keylength .done
  let offset := toInt (8+keylength)
  let _ ← word (address+offset) 4
  let vallength ← word (address+offset+4) 4
  let val ← Scan.read (address+offset+8) vallength .done
  moveTo (toInt (offset+8+vallength))
  return (key,val)

def slash : UInt8 := 47

-- strtok on the rest of a buffer: the token, if any, and what the next call
-- starts from. Running off the end of the buffer is a fault.
def strtok (rest : Bytes) : Except Stop (Option Bytes × Bytes) :=
  match rest.dropWhile (· = slash) with
  | [] => .error .fault
  | c::more =>
    if c = 0 then .ok (none,c::more)
    else
      let token := (c::more).takeWhile (fun b => b ≠ slash && b ≠ 0)
      match (c::more).drop token.length with
      | [] => .error .fault
      | d::after => .ok (some token,if d = 0 then d::after else after)

structure KeyPath where
  name : Option Bytes
  type : Option Bytes
  point : Option Bytes
deriving DecidableEq

def ascii (s : String) : Bytes := s.toList.map (fun c => c.toNat.toUInt8)

def splitKey (key : Bytes) : Except Stop KeyPath := do
  let (str,rest) ← strtok key
  match str with
  | none => return ⟨none,none,none⟩
  | some str =>
    if str = ascii "participants" then
      let (name,rest) ← strtok rest
      let (type,rest) ← strtok rest
      let (point,_) ← strtok rest
      return ⟨name,type,point⟩
    else if str = ascii "shared" then
      let (ns,rest) ← strtok rest
      let (type,rest) ← strtok rest
      if ns = some (ascii "tables") then
        let (point,_) ← strtok rest
        return ⟨none,type,point⟩
      else return ⟨none,type,none⟩
    else return ⟨none,none,none⟩

-- The table parser that a key's type selects.
def parseValue (fuel : Nat) (path : KeyPath) (len : Int) : Parse Unit :=
  match path.type with
  | none => .done ()
  | some type =>
    let name := path.point.or path.name
    if type = ascii "ppcc" then
      match path.name with
      | none => .done ()
      | some name => parsePpcc name len
    else if type = ascii "psvt" then parsePsvt fuel name len
    else if type = ascii "appc" then parseAppc fuel len
    else if type = ascii "apct" then parseApct fuel len
    else if type = ascii "pbat" then parsePbat fuel len
    else if type = ascii "pbct" then parsePbct fuel len
    else if type = ascii "apat" then parseApat fuel len
    else if (ascii "itmt3").isPrefixOf type then parseItmt3 fuel name len
    else if type = ascii "itmt" then parseItmt fuel name len
    else if type = ascii "idsp" then
      match path.name with
      | none => .done ()
      | some _ => parseIdsp fuel len
    else if type = ascii "trippoint" then
      match path.name,path.point with
      | some name,some point => parseTripPoint name point
      | _,_ => .done ()
    else if type = ascii "_trt" then parseTrt fuel len
    else if type = ascii "vsct" then parseVsct fuel name len
    else if type = ascii "vspt" then parseVspt fuel len
    else .done ()

-- parse_gddv_key, whose code is always success: the end offset.
def parseGddvKey (fuel : Nat) (buf : Bytes) (address : Int) : Outcome Vault Int :=
  match exec buf (keyItem address) 0 with
  | .error s => ⟨id,.error s⟩
  | .ok ((key,val),endOffset) =>
    match splitKey key with
    | .error s => ⟨id,.error s⟩
    | .ok path =>
      let outcome := Scan.run val (parseValue fuel path (toInt val.length))
      ⟨outcome.effect,outcome.result.map (fun _ => endOffset)⟩

-- What the fields of struct header decide.
inductive Head where
  | rejected
  | compressed (headersize : Nat)
  | plain (headersize : Nat) (size : Int) (nested : Bool)
deriving DecidableEq

def headerSize : Int := 148
def headerSignature : Nat := 8165
def keysSignature : Nat := 41176
def compressedFlag : Nat := 1073741824

-- Version 2 takes its size from payload_size and may nest objects. The two
-- strncpy calls read what lies between the flags and payload_size.
def readHead (address size : Int) : Parse Head :=
  if size < headerSize then .done .rejected
  else do
    let signature ← word address 2
    if signature ≠ headerSignature then .throw
    else
      let headersize ← word (address+2) 2
      let version ← word (address+4) 4
      let major := version/16777216
      if major ≠ 1 ∧ major ≠ 2 then return .rejected
      else
        let flags ← word (address+8) 4
        if major = 1 then return .plain headersize size false
        else if flags/compressedFlag % 2 = 1 then return .compressed headersize
        else
          let _ ← Scan.read (address+12) 128 .done
          let payloadSize ← word (address+140) 4
          return .plain headersize (toInt payloadSize) true

-- LzmaDecode and operator new[]: what is decoded of a source into a buffer of a
-- given length, and what fresh memory holds.
structure Lzma where
  decode : Nat → Bytes → Bytes
  decode_length : ∀ n src,(decode n src).length ≤ n
  fresh : Nat → Bytes
  fresh_length : ∀ n,(fresh n).length = n

def lzmaHeaderSize : Nat := 13

-- lzma_decompress without a destination: the length it stores, else the 0 that
-- was there.
def lzmaLength (src : Bytes) : Nat :=
  let original := little (bytesAt src 5 8)
  if src.length > lzmaHeaderSize ∧ src.take 2 = [93,0] ∧ original > 0 ∧ original ≠ uint64Max then original else 0

def lzmaDecompress (lzma : Lzma) (src : Bytes) : Bytes :=
  if src.length > lzmaHeaderSize then lzma.decode (lzmaLength src) src else []

def store (buf : Bytes) (i : Nat) (content : Bytes) : Bytes :=
  buf.take i ++ content ++ buf.drop (i+content.length)

def encode : Nat → Nat → Bytes
  | 0,_ => []
  | n+1,value => (value % 256).toUInt8::encode n (value/256)

-- The reads of handle_compressed_gddv on the compressed buffer. An unsigned
-- length that is not above the header's is not handed to the decoder.
def readCompressed (address : Int) (headersize : Nat) (size : Int) : Parse (Nat × Bytes × Bytes) := do
  let payload ← word (address+headersize+5) 8
  let srcLen := ((size-headersize) % 18446744073709551616).toNat
  let src ← Scan.read (address+headersize) (if srcLen > lzmaHeaderSize then srcLen else 0) .done
  let header ← Scan.read address headersize .done
  return (payload,src,header)

-- The decompressed buffer with its copied and updated header; a header or a
-- payload that does not fit in it is a fault.
def unpack (lzma : Lzma) (headersize : Nat) (payload : Nat) (src header : Bytes) : Except Stop Bytes :=
  let outputSize := (headersize+payload) % 18446744073709551616
  let content := lzmaDecompress lzma src
  if outputSize < headersize+content.length ∨ outputSize < 144 then .error .fault
  else
    let buf := store (store (lzma.fresh outputSize) headersize content) 0 header
    let flags := little (bytesAt buf 8 4)
    let flags := if flags/compressedFlag % 2 = 1 then flags-compressedFlag else flags
    .ok (store (store buf 8 (encode 4 flags)) 140 (encode 4 payload))

def handleCompressedGddv (lzma : Lzma) (buf : Bytes) (address : Int) (headersize : Nat) (size : Int) :
    Except Stop Bytes :=
  match exec buf (readCompressed address headersize size) 0 with
  | .error s => .error s
  | .ok ((payload,src,header),_) => unpack lzma headersize payload src header

-- A loop of parse_gddv: where its object starts and what its header said.
structure Frame where
  address : Int
  headersize : Nat
  size : Int
  nested : Bool
deriving DecidableEq

-- What stands at an offset: in version 2 an item has a signature.
inductive Item where
  | key (address : Int)
  | object
  | unknown
deriving DecidableEq

def readItem (f : Frame) (offset : Int) : Parse Item :=
  if f.nested then do
    let signature ← word (f.address+offset) 2
    if signature = keysSignature then return .key (f.address+offset+2)
    else if signature = headerSignature then return .object
    else return .unknown
  else .done (.key (f.address+offset))

def andThen {α β : Type} (first : Outcome Vault α) (next : α → Outcome Vault β) : Outcome Vault β :=
  match first.result with
  | .error s => ⟨first.effect,.error s⟩
  | .ok a => ⟨(next a).effect ∘ first.effect,(next a).result⟩

mutual

-- parse_gddv: its code and the end offset, which it does not report when the
-- object was compressed.
def parseGddv (lzma : Lzma) : Nat → Bytes → Int → Int → Outcome Vault (Int × Option Int)
  | 0,_,_,_ => ⟨id,.error .hang⟩
  | fuel+1,buf,address,size =>
    match exec buf (readHead address size) 0 with
    | .error s => ⟨id,.error s⟩
    | .ok (.rejected,_) => ⟨id,.ok (thdError,none)⟩
    | .ok (.compressed headersize,_) =>
      match handleCompressedGddv lzma buf address headersize size with
      | .error s => ⟨id,.error s⟩
      | .ok output => andThen (parseGddv lzma fuel output 0 (toInt output.length)) (fun x => ⟨id,.ok (x.1,none)⟩)
    | .ok (.plain headersize size nested,_) =>
      parseItems lzma fuel buf ⟨address,headersize,size,nested⟩ headersize

-- Its loop over the items of an object.
def parseItems (lzma : Lzma) : Nat → Bytes → Frame → Int → Outcome Vault (Int × Option Int)
  | 0,_,_,_ => ⟨id,.error .hang⟩
  | fuel+1,buf,f,offset =>
    if offset+f.headersize < f.size then
      match exec buf (readItem f offset) 0 with
      | .error s => ⟨id,.error s⟩
      | .ok (.unknown,_) => ⟨id,.ok (thdError,none)⟩
      | .ok (.key address,_) => andThen (parseGddvKey fuel buf address) (fun endOffset =>
          parseItems lzma fuel buf f (toInt (address-f.address+endOffset)))
      | .ok (.object,_) => andThen (parseGddv lzma fuel buf (f.address+offset) (f.size-offset)) (fun x =>
          if x.1 ≠ 0 then ⟨id,.ok (x.1,none)⟩
          else parseItems lzma fuel buf f (toInt (offset+x.2.getD 0)))
    else ⟨id,.ok (0,some offset)⟩

end

-- Demands on the places a parse comes to: objects (and whether a loop waits for
-- their end), positions of items, key items, and the end offset that a loop goes on
-- from behind a nested object.
structure Places where
  object : Bool → Bytes → Int → Int → Prop
  item : Bytes → Frame → Int → Prop
  key : Nat → Bytes → Int → Prop
  resume : Option Int → Prop

mutual

def Throughout (lzma : Lzma) (demand : Places) : Nat → Bool → Bytes → Int → Int → Prop
  | 0,_,_,_,_ => True
  | fuel+1,inner,buf,address,size => demand.object inner buf address size ∧
    match exec buf (readHead address size) 0 with
    | .ok (.compressed headersize,_) => ∀ output,handleCompressedGddv lzma buf address headersize size = .ok output →
        Throughout lzma demand fuel false output 0 (toInt output.length)
    | .ok (.plain headersize size nested,_) =>
      ThroughoutItems lzma demand fuel buf ⟨address,headersize,size,nested⟩ headersize
    | _ => True

def ThroughoutItems (lzma : Lzma) (demand : Places) : Nat → Bytes → Frame → Int → Prop
  | 0,_,_,_ => True
  | fuel+1,buf,f,offset => offset+f.headersize < f.size → demand.item buf f offset ∧
    match exec buf (readItem f offset) 0 with
    | .ok (.key address,_) => demand.key fuel buf address ∧
        ∀ endOffset,(parseGddvKey fuel buf address).result = .ok endOffset →
          ThroughoutItems lzma demand fuel buf f (toInt (address-f.address+endOffset))
    | .ok (.object,_) => Throughout lzma demand fuel true buf (f.address+offset) (f.size-offset) ∧
        ∀ x,(parseGddv lzma fuel buf (f.address+offset) (f.size-offset)).result = .ok x → x.1 = 0 →
          demand.resume x.2 ∧ ThroughoutItems lzma demand fuel buf f (toInt (offset+x.2.getD 0))
    | _ => True

end

end ChuwiMinibook.GddvParser
