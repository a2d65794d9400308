import ChuwiMinibook.VbtParse

namespace ChuwiMinibook.Vbt
open ByteImage

-- The bytes of a part of an image.
def Held (f : Image) (i : Nat) (bytes : List (BitVec 8)) : Prop := bytes <+: f.drop i

section Held
variable {f : Image} {i : Nat} {bytes : List (BitVec 8)}

theorem held_byte (held : Held f i bytes) {k : Nat} (inside : k < bytes.length) :
    readU8 f (i+k) = some (bytes[k].toNat) := by
  obtain ⟨rest,split⟩ := held
  have here : (bytes++rest)[k]? = f[i+k]? := by rw [split,List.getElem?_drop]
  rw [readU8,← here,List.getElem?_append_left inside,List.getElem?_eq_getElem inside]
  rfl

theorem held_append {more : List (BitVec 8)} (held : Held f i (bytes++more)) : Held f (i+bytes.length) more := by
  obtain ⟨rest,split⟩ := held
  refine ⟨rest,?_⟩
  rw [← List.drop_drop,← split,List.append_assoc,List.drop_left]

end Held

-- A block of a BDB: its id, the two bytes of its 16-bit size, and what it holds.
structure Block where
  id : BitVec 8
  low : BitVec 8
  high : BitVec 8
  payload : List (BitVec 8)
  nonempty : payload ≠ []

namespace Block

def bytes (b : Block) : List (BitVec 8) := [b.id,b.low,b.high]++b.payload

-- A MIPI sequence block of version 3 or later.
def late (L : Layout) (b : Block) : Prop := b.id.toNat = L.bdbMipiSequence ∧ 3 ≤ (b.payload.head b.nonempty).toNat

instance (L : Layout) (b : Block) : Decidable (b.late L) := inferInstanceAs (Decidable (_ ∧ _))

theorem payload_pos (b : Block) : 0 < b.payload.length := List.length_pos_iff.mpr b.nonempty

end Block

section Stream
variable (L : Layout) (f : Image) (bdb : Nat)

-- The field that holds the size of a block.
def sizeField (b : Block) (index : Nat) : Option Nat :=
  if b.late L then readU32 f (bdb+(index+4)) else readU16 f (bdb+(index+1))

-- Blocks one behind the other, from one offset in the BDB to another.
inductive Laid : Nat → List Block → Nat → Prop
  | nil (index : Nat) : Laid index [] index
  | cons {index stop : Nat} {b : Block} {rest : List Block} (here : Held f (bdb+index) b.bytes)
      (sized : sizeField L f bdb b index = some b.payload.length)
      (later : Laid (index+3+b.payload.length) rest stop) : Laid index (b::rest) stop

end Stream

-- Where the payload of the first block with an id is.
def firstAt (bdb : Nat) : Nat → List Block → Nat → Option Nat
  | _,[],_ => none
  | index,b::rest,id => if b.id.toNat = id then some (bdb+(index+3)) else firstAt bdb (index+3+b.payload.length) rest id

section Lookup
variable {L : Layout} {f : Image} {bdb : Nat}

theorem laid_le {index stop : Nat} {blocks : List Block} (laid : Laid L f bdb index blocks stop) : index ≤ stop := by
  induction laid with
  | nil => exact Nat.le_refl _
  | cons _ _ _ ih => omega

theorem held_id {b : Block} {index : Nat} (here : Held f (bdb+index) b.bytes) :
    readU8 f (bdb+index) = some b.id.toNat :=
  held_byte here (k := 0) (by simp [Block.bytes])

theorem held_version {b : Block} {index : Nat} (here : Held f (bdb+index) b.bytes) :
    readU8 f (bdb+(index+3)) = some (b.payload.head b.nonempty).toNat := by
  have inside : 3 < b.bytes.length := by
    have := b.payload_pos
    simp [Block.bytes]
    omega
  have read := held_byte here inside
  rw [Nat.add_assoc] at read
  rw [read,List.head_eq_getElem]
  rfl

theorem blockSize_sized {b : Block} {index : Nat} (here : Held f (bdb+index) b.bytes)
    (sized : sizeField L f bdb b index = some b.payload.length) :
    blockSize L f bdb index b.id.toNat = some b.payload.length := by
  rw [← sized]
  unfold blockSize sizeField
  by_cases sequence : b.id.toNat = L.bdbMipiSequence
  · rw [if_pos sequence,held_version here,Option.bind_some]
    simp [Block.late,sequence]
  · rw [if_neg sequence,if_neg (fun late => sequence late.1)]

-- The walk stops at the first block with the id; a nonempty last block is not missed.
theorem walk_laid {index stop : Nat} {blocks : List Block} (laid : Laid L f bdb index blocks stop) (id fuel : Nat)
    (enough : stop ≤ fuel+index) : walk L f bdb stop id fuel index = some (firstAt bdb index blocks id) := by
  induction laid generalizing fuel with
  | nil index =>
    cases fuel with
    | zero => rfl
    | succ fuel =>
      rw [walk,if_neg (by omega)]
      rfl
  | cons here sized later ih =>
    rename_i index stop b rest
    have room := laid_le later
    have some := b.payload_pos
    cases fuel with
    | zero => omega
    | succ fuel =>
      rw [walk,if_pos (by omega),held_id here,Option.bind_some,blockSize_sized here sized,Option.bind_some,firstAt]
      split
      · rfl
      · exact ih fuel (by omega)

theorem firstAt_some {index stop id p : Nat} {blocks : List Block} (laid : Laid L f bdb index blocks stop)
    (found : firstAt bdb index blocks id = some p) :
    ∃ before b rest,blocks = before++b::rest ∧ (∀ c ∈ before,c.id.toNat ≠ id) ∧ b.id.toNat = id ∧
      p = bdb+index+(before.flatMap Block.bytes).length+3 ∧ Held f p b.payload := by
  induction laid with
  | nil => exact nomatch found
  | cons here sized later ih =>
    rename_i index stop b rest
    rw [firstAt] at found
    by_cases same : b.id.toNat = id
    · rw [if_pos same] at found
      cases found
      exact ⟨[],b,rest,rfl,by simp,same,by simp; omega,held_append here⟩
    · rw [if_neg same] at found
      obtain ⟨before,c,after,split,others,own,place,held⟩ := ih found
      refine ⟨b::before,c,after,by rw [split,List.cons_append],?_,own,?_,held⟩
      · exact List.forall_mem_cons.mpr ⟨same,others⟩
      · rw [place,List.flatMap_cons,List.length_append]
        simp [Block.bytes]
        omega

theorem firstAt_split {index id : Nat} {before rest : List Block} {b : Block} (others : ∀ c ∈ before,c.id.toNat ≠ id)
    (own : b.id.toNat = id) :
    firstAt bdb index (before++b::rest) id = some (bdb+index+(before.flatMap Block.bytes).length+3) := by
  induction before generalizing index with
  | nil =>
    rw [List.nil_append,firstAt,if_pos own]
    simp
    omega
  | cons c before ih =>
    obtain ⟨other,others⟩ := List.forall_mem_cons.mp others
    rw [List.cons_append,firstAt,if_neg other,ih others,List.flatMap_cons,List.length_append]
    simp [Block.bytes]
    omega

theorem firstAt_none {index id : Nat} {blocks : List Block} :
    firstAt bdb index blocks id = none ↔ ∀ b ∈ blocks,b.id.toNat ≠ id := by
  induction blocks generalizing index with
  | nil => simp [firstAt]
  | cons b rest ih =>
    rw [firstAt,List.forall_mem_cons]
    by_cases same : b.id.toNat = id
    · simp [same]
    · simp [same,ih]

-- Of blocks that fill the BDB behind its header; where the header says that it is
-- longer than the BDB there are none.
theorem findBlock_laid {start total bdbSize : Nat} {blocks : List Block}
    (headed : readU16 f (bdb+L.headerSize) = some start) (sized : readU16 f (bdb+L.bdbSize) = some total)
    (within : total ≤ bdbSize) (laid : Laid L f bdb start blocks (max start total)) (id : Nat) :
    findBlock L f bdb bdbSize id = some (firstAt bdb start blocks id) := by
  rw [findBlock,headed,Option.bind_some,sized,Option.bind_some]
  dsimp only
  rw [if_neg (by omega)]
  by_cases full : start ≤ total
  · rw [Nat.max_eq_right full] at laid
    exact walk_laid laid id total (by omega)
  · rw [Nat.max_eq_left (by omega)] at laid
    have past : walk L f bdb total id total start = some none := by
      cases total with
      | zero => rfl
      | succ n => rw [walk,if_neg (by omega)]
    cases laid with
    | nil => exact past
    | cons here sized later =>
      have := laid_le later
      omega

-- The size that init_ctx passes reaches to the end of the file.
theorem within_remaining {total : Nat} (inside : Inside f bdb total) (size : f.length < 2^64) :
    total ≤ remaining f bdb := by
  unfold Inside at inside
  unfold remaining
  omega

theorem findBlock_first {start total : Nat} {blocks : List Block} (size : f.length < 2^64)
    (headed : readU16 f (bdb+L.headerSize) = some start) (sized : readU16 f (bdb+L.bdbSize) = some total)
    (inside : Inside f bdb total) (laid : Laid L f bdb start blocks (max start total)) (id : Nat) :
    (∀ p,findBlock L f bdb (remaining f bdb) id = some (some p) ↔
      ∃ before b rest,blocks = before++b::rest ∧ (∀ c ∈ before,c.id.toNat ≠ id) ∧ b.id.toNat = id ∧
        p = bdb+start+(before.flatMap Block.bytes).length+3 ∧ Held f p b.payload) ∧
    (findBlock L f bdb (remaining f bdb) id = some none ↔ ∀ b ∈ blocks,b.id.toNat ≠ id) := by
  rw [findBlock_laid headed sized (within_remaining inside size) laid]
  constructor
  · intro p
    constructor
    · intro found
      exact firstAt_some laid (Option.some.inj found)
    · rintro ⟨before,b,rest,rfl,others,own,place,_⟩
      rw [firstAt_split others own,place]
  · rw [Option.some_inj]
    exact firstAt_none

end Lookup

-- A header, a block 40 and a MIPI sequence block of version 3.
def smallBdb : Image :=
  List.replicate 18 0#8++[22#8,0#8,35#8,0#8]++[40#8,1#8,0#8,7#8]++[53#8,0#8,0#8,3#8,6#8,0#8,0#8,0#8,9#8]

def optionsBlock : Block := ⟨40#8,1#8,0#8,[7#8],by decide⟩

def sequenceBlock : Block := ⟨53#8,0#8,0#8,[3#8,6#8,0#8,0#8,0#8,9#8],by decide⟩

theorem findBlock_first_small : findBlock intelVbtDefs smallBdb 0 (remaining smallBdb 0) 53 = some (some 29) := by
  have laid : Laid intelVbtDefs smallBdb 0 22 [optionsBlock,sequenceBlock] (max 22 35) := by
    refine .cons (by unfold Held; decide) (by decide) ?_
    refine .cons (by unfold Held; decide) (by decide) ?_
    exact .nil _
  refine ((findBlock_first (by decide) (by decide) (by decide) (by decide) laid 53).1 29).mpr ?_
  exact ⟨[optionsBlock],sequenceBlock,[],rfl,by decide,rfl,rfl,by unfold Held; decide⟩

end ChuwiMinibook.Vbt
