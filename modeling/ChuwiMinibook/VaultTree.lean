import ChuwiMinibook.GddvEncoding

namespace ChuwiMinibook.VaultTree
open ByteScan Scan GddvTables GddvParser GddvReads GddvLoops GddvEncoding

-- The calls of a parse: an item handed to parse_gddv_key, and an end offset that
-- a nested object reported to the loop around it.
inductive Visit where
  | key (address : Int)
  | ended (address endOffset : Int)
deriving DecidableEq

def Visit.key? : Visit → Option Int
  | .key address => some address
  | .ended _ _ => none

mutual

def visits (lzma : Lzma) : Nat → Bytes → Int → Int → List Visit
  | 0,_,_,_ => []
  | fuel+1,buf,address,size =>
    match exec buf (readHead address size) 0 with
    | .ok (.compressed headersize,_) =>
      match handleCompressedGddv lzma buf address headersize size with
      | .error _ => []
      | .ok output => visits lzma fuel output 0 (toInt output.length)
    | .ok (.plain headersize size nested,_) =>
      itemVisits lzma fuel buf ⟨address,headersize,size,nested⟩ headersize
    | _ => []

def itemVisits (lzma : Lzma) : Nat → Bytes → Frame → Int → List Visit
  | 0,_,_,_ => []
  | fuel+1,buf,f,offset =>
    if offset+f.headersize < f.size then
      match exec buf (readItem f offset) 0 with
      | .ok (.key address,_) => .key address::
        match (parseGddvKey fuel buf address).result with
        | .ok endOffset => itemVisits lzma fuel buf f (toInt (address-f.address+endOffset))
        | .error _ => []
      | .ok (.object,_) => visits lzma fuel buf (f.address+offset) (f.size-offset)++
        match (parseGddv lzma fuel buf (f.address+offset) (f.size-offset)).result with
        | .ok (code,some endOffset) => .ended (f.address+offset) endOffset::
          if code ≠ 0 then [] else itemVisits lzma fuel buf f (toInt (offset+endOffset))
        | .ok (code,none) => if code ≠ 0 then [] else itemVisits lzma fuel buf f (toInt offset)
        | .error _ => []
      | _ => []
    else []

end

-- The addresses that parse_gddv_key was called with.
def handed (calls : List Visit) : List Int := calls.filterMap Visit.key?

-- What the header at an address says of where its object ends.
def declared (buf : Bytes) (address : Int) : Int :=
  little (bytesAt buf (address+2) 2)+little (bytesAt buf (address+140) 4)

-- Every end offset that was reported is headersize + payload_size.
def Right (buf : Bytes) (calls : List Visit) : Prop :=
  ∀ address endOffset,Visit.ended address endOffset ∈ calls → endOffset = declared buf address

def Enough (p : Nat → Prop) : Prop := ∃ least,∀ fuel,least ≤ fuel → p fuel

-- A header of version 2 without the flag of a compressed payload: the text fields
-- and the hash, and what follows payload_size.
structure Header where
  version : UInt32
  second : version.toNat/16777216 = 2
  flags : UInt32
  uncompressed : flags.toNat/compressedFlag % 2 = 0
  fields : Bytes
  fieldsLength : fields.length = 128
  rest : Bytes
  whole : 4 ≤ rest.length
  short : rest.length < 65392

namespace Header

def size (h : Header) : Nat := 144+h.rest.length

def bytes (h : Header) (payload : Nat) : Bytes :=
  encode 2 headerSignature++(encode 2 h.size++(encode 4 h.version.toNat++(encode 4 h.flags.toNat++(h.fields++
    (encode 4 payload++h.rest)))))

end Header

-- A key whose table parse_gddv_key accepts.
def Readable (k : KeyRecord) : Prop := ∃ path,splitKey k.key = .ok path ∧
  Enough (fun fuel => (run k.val (parseValue fuel path (toInt k.val.length))).result = .ok ())

-- The payload of an object: key records and nested objects.
inductive Items where
  | nil
  | key (k : KeyRecord) (rest : Items)
  | object (h : Header) (inner rest : Items)

namespace Items

def bytes : Items → Bytes
  | nil => []
  | key k rest => encode 2 keysSignature++(k.bytes++rest.bytes)
  | object h inner rest => h.bytes inner.bytes.length++(inner.bytes++rest.bytes)

def Valid : Items → Prop
  | nil => True
  | key k rest => Readable k ∧ rest.Valid
  | object _ inner rest => inner.Valid ∧ rest.Valid

-- The addresses that parse_gddv_key is to be called with, for items that start
-- at an address.
def keys (start : Int) : Items → List Int
  | nil => []
  | key k rest => (start+2)::rest.keys (start+(2+k.bytes.length : Nat))
  | object h inner rest => inner.keys (start+h.size)++rest.keys (start+(h.size+inner.bytes.length : Nat))

-- Every item starts further than two headers from the end of its object.
def clear (headersize : Nat) : Items → Bool
  | nil => true
  | key k rest => decide (2*headersize < (key k rest).bytes.length) && rest.clear headersize
  | object h inner rest => decide (2*headersize < (object h inner rest).bytes.length) &&
    (inner.clear h.size && rest.clear headersize)

def keyless : Items → Bool
  | nil => true
  | key _ _ => false
  | object _ inner rest => inner.keyless && rest.keyless

-- The same for the outermost object, whose end nobody waits for: what stands
-- closer to its end must only hold no key.
def clearKeys (headersize : Nat) : Items → Bool
  | nil => true
  | key k rest => decide (2*headersize < (key k rest).bytes.length) && rest.clearKeys headersize
  | object h inner rest =>
    if 2*headersize < (object h inner rest).bytes.length then inner.clear h.size && rest.clearKeys headersize
    else (object h inner rest).keyless

end Items

structure DataVault where
  header : Header
  items : Items
  valid : items.Valid
  fits : items.bytes.length < 4294967296

namespace DataVault

def bytes (v : DataVault) : Bytes := v.header.bytes v.items.bytes.length++v.items.bytes

def keys (v : DataVault) : List Int := v.items.keys v.header.size

end DataVault

-- The parse succeeds, hands over every key record once and in order, and every
-- end offset reported for a nested object is its size.
def Complete (lzma : Lzma) (v : DataVault) : Prop := Enough (fun fuel =>
  (∃ endOffset,(parseGddv lzma fuel v.bytes 0 (toInt v.bytes.length)).result = .ok (0,endOffset)) ∧
  handed (visits lzma fuel v.bytes 0 (toInt v.bytes.length)) = v.keys ∧
  Right v.bytes (visits lzma fuel v.bytes 0 (toInt v.bytes.length)))

-- Every item starts further than two headers from its object's end (in the
-- outermost object, every item with a key). The size is an int: a vault of 2 GiB
-- is refused, and one of 4 GiB and a header returns at once.
def DataVault.Clear (v : DataVault) : Prop :=
  (v.bytes.length < 2147483648 ∧ v.items.clearKeys v.header.size = true) ∨
    (4294967444 ≤ v.bytes.length ∧ v.items.keyless = true)

theorem header_length (h : Header) (payload : Nat) : (h.bytes payload).length = h.size := by
  have fields := h.fieldsLength
  simp only [Header.bytes,Header.size,List.length_append,length_encode]
  omega

theorem header_bounds (h : Header) : 148 ≤ h.size ∧ h.size < 65536 := by
  have whole := h.whole
  have short := h.short
  rw [Header.size]
  omega

section Header
variable {v : Bytes} {x : Nat} {h : Header} {payload : Nat} (stands : Stands v x (h.bytes payload))
include stands

theorem header_payload : Stands v (x+140) (encode 4 payload) := by
  have flags := stands.right.right.right
  have fields := flags.right
  have payload := fields.right.left
  simp only [length_encode,h.fieldsLength] at payload
  exact payload

theorem header_headersize : Stands v (x+2) (encode 2 h.size) := stands.right.left

theorem header_declares (bound : payload < 4294967296) : declared v x = (h.size+payload : Nat) := by
  have size := (header_headersize stands).bytes
  have content := (header_payload stands).bytes
  rw [length_encode] at size content
  have first : little (encode 2 h.size) = h.size := by
    rw [little_encode]
    exact Nat.mod_eq_of_lt (header_bounds h).2
  have second : little (encode 4 payload) = payload := by
    rw [little_encode]
    exact Nat.mod_eq_of_lt bound
  have places : (x : Int)+2 = (x+2 : Nat) ∧ (x : Int)+140 = (x+140 : Nat) := ⟨rfl,rfl⟩
  rw [declared,places.1,places.2,size,content,first,second]
  omega

theorem readHead_object (bound : payload < 4294967296) {size : Int} (long : 148 ≤ size) :
    exec v (readHead x size) 0 = .ok (.plain h.size (toInt payload) true,0) := by
  have headersize := header_headersize stands
  have version := stands.right.right
  have flags := version.right
  have fields := flags.right.left
  have content := header_payload stands
  simp only [length_encode] at version flags fields
  have range := header_bounds h
  have names := yields_read (τ := Vault) fields 0
  rw [h.fieldsLength] at names
  have result : Yields v (readHead x size) 0 (.plain h.size (toInt payload) true) 0 id := by
    unfold readHead
    rw [if_neg (by rw [headerSize]; omega)]
    refine yields_after (yields_field stands.left (by decide) 0) ?_
    rw [if_neg (by simp)]
    refine yields_after (yields_field headersize (by omega) 0) ?_
    refine yields_after (yields_field version.left (UInt32.toNat_lt _) 0) ?_
    dsimp only
    rw [h.second,if_neg (by decide)]
    refine yields_after (yields_field flags.left (UInt32.toNat_lt _) 0) ?_
    rw [if_neg (by decide),h.uncompressed,if_neg (by decide)]
    refine yields_after names ?_
    refine yields_after (yields_field content bound 0) ?_
    exact yields_done v _ _
  exact result.1

end Header

namespace Items

theorem keys_keyless {items : Items} (none : items.keyless = true) (start : Int) : items.keys start = [] := by
  induction items generalizing start with
  | nil => rfl
  | key k rest ih => cases none
  | object h inner rest first second =>
    obtain ⟨inside,behind⟩ := Bool.and_eq_true_iff.mp none
    rw [keys,first inside,second behind]
    rfl

theorem keys_some {items : Items} (some : items.keyless = false) (start : Int) : [] ≠ items.keys start := by
  induction items generalizing start with
  | nil => cases some
  | key k rest ih => exact (List.cons_ne_nil _ _).symm
  | object h inner rest first second =>
    rw [keys]
    intro none
    obtain ⟨left,right⟩ := List.append_eq_nil_iff.mp none.symm
    rcases Bool.and_eq_false_iff.mp some with inside | behind
    · exact first inside _ left.symm
    · exact second behind _ right.symm

theorem clear_clearKeys {items : Items} {headersize : Nat} (clear : items.clear headersize = true) :
    items.clearKeys headersize = true := by
  induction items with
  | nil => rfl
  | key k rest ih =>
    obtain ⟨room,rest⟩ := Bool.and_eq_true_iff.mp clear
    exact Bool.and_eq_true_iff.mpr ⟨room,ih rest⟩
  | object h inner rest first second =>
    obtain ⟨room,both⟩ := Bool.and_eq_true_iff.mp clear
    obtain ⟨inside,behind⟩ := Bool.and_eq_true_iff.mp both
    rw [clearKeys,if_pos (of_decide_eq_true room)]
    exact Bool.and_eq_true_iff.mpr ⟨inside,second behind⟩

end Items

section Places
variable {v : Bytes} {a hs payload o : Nat} {rest : Items}

-- Where the items behind a key record or a nested object start.
theorem after_key {k : KeyRecord} (stands : Stands v (a+o) (Items.key k rest).bytes)
    (span : o+(Items.key k rest).bytes.length = hs+payload) :
    Stands v (a+(o+(2+k.bytes.length))) rest.bytes ∧ o+(2+k.bytes.length)+rest.bytes.length = hs+payload := by
  have behind := stands.right.right
  rw [length_encode,Nat.add_assoc,Nat.add_assoc] at behind
  refine ⟨behind,?_⟩
  rw [← span]
  simp only [Items.bytes,List.length_append,length_encode]
  omega

theorem keys_key {k : KeyRecord} : (Items.key k rest).keys (a+o : Nat) =
    (((a+o : Nat) : Int)+2)::rest.keys (a+(o+(2+k.bytes.length)) : Nat) := by
  have start : ((a+o : Nat) : Int)+(2+k.bytes.length : Nat) = (a+(o+(2+k.bytes.length)) : Nat) := by omega
  rw [Items.keys,start]

theorem after_object {h : Header} {inner : Items} (stands : Stands v (a+o) (Items.object h inner rest).bytes)
    (span : o+(Items.object h inner rest).bytes.length = hs+payload) :
    Stands v (a+o+h.size) inner.bytes ∧ Stands v (a+(o+(h.size+inner.bytes.length))) rest.bytes ∧
      o+(h.size+inner.bytes.length)+rest.bytes.length = hs+payload := by
  have content := stands.right.left
  have behind := stands.right.right
  rw [header_length] at content behind
  rw [Nat.add_assoc,Nat.add_assoc] at behind
  refine ⟨content,behind,?_⟩
  rw [← span]
  simp only [Items.bytes,List.length_append,header_length]
  omega

theorem keys_object {h : Header} {inner : Items} : (Items.object h inner rest).keys (a+o : Nat) =
    inner.keys (a+o+h.size : Nat)++rest.keys (a+(o+(h.size+inner.bytes.length)) : Nat) := by
  have first : ((a+o : Nat) : Int)+h.size = (a+o+h.size : Nat) := rfl
  have second : ((a+o : Nat) : Int)+(h.size+inner.bytes.length : Nat) = (a+(o+(h.size+inner.bytes.length)) : Nat) := by
    omega
  rw [Items.keys,first,second]

end Places

namespace DataVault
variable (v : DataVault)

theorem length_bytes : v.bytes.length = v.header.size+v.items.bytes.length := by
  rw [bytes,List.length_append,header_length]

theorem stands_header : Stands v.bytes 0 (v.header.bytes v.items.bytes.length) := (stands_whole v.bytes).left

theorem stands_items : Stands v.bytes (0+v.header.size) v.items.bytes := by
  have items : Stands v.bytes (0+(v.header.bytes v.items.bytes.length).length) v.items.bytes :=
    (stands_whole v.bytes).right
  rwa [header_length] at items

end DataVault

end ChuwiMinibook.VaultTree
