import ChuwiMinibook.VbtBounds

namespace ChuwiMinibook.Vbt
open ByteImage

section Frame

variable (L : Layout) (f : Image) (c : Ctx) (o : PatchOpts)

-- The end of a block by the size in its header, and the entries that lie in one.
def blockEnd (payload : Nat) : Nat := payload+sizeAt L f c.bdb (payload-(c.bdb+3))

def EntryIn (payload entry size : Nat) : Prop := payload ≤ entry ∧ entry+size ≤ blockEnd L f c payload

-- What may differ: the requested fields of the panel's entries, if the block has the
-- entry, and the checksum.
inductive Asked (i k : Nat) : Prop
  | clock (gdtd : Nat) (there : c.gdtd = some gdtd) (home : EntryIn L f c gdtd (dtdAt L c gdtd) L.dtdEntry)
      (asked : 0 < clockFor L f c o) (low : dtdAt L c gdtd+L.pixelClock ≤ i) (high : i < dtdAt L c gdtd+L.pixelClock+4)
  | rotation (mipi : Nat) (there : c.mipiCfg = some mipi) (known : c.panel < L.maxMipiPanel)
      (home : EntryIn L f c mipi (configAt L c mipi) L.mipiConfig) (asked : 0 ≤ o.rotation)
      (here : i = configAt L c mipi+L.rotation) (low : L.rotationShift ≤ k) (high : k < L.rotationShift+2)
  | delay (mipi : Nat) (there : c.mipiCfg = some mipi) (known : c.panel < L.maxMipiPanel)
      (home : EntryIn L f c mipi (ppsAt L c mipi) L.ppsData)
      (d : Int × Nat) (listed : d ∈ delays L o (ppsAt L c mipi)) (asked : 0 ≤ d.1) (low : d.2 ≤ i) (high : i < d.2+2)
  | checksum (here : i = c.vbt+L.vbtChecksum)

end Frame

-- Every run ends, and a file it writes differs from the input in what was asked only.
def ChangesOnlyAsked (L : Layout) (f : Image) (o : PatchOpts) : Prop :=
  ∃ out,main L f o = some out ∧ ∀ file,out = .written file → file.length = f.length ∧
    ∀ vbt c,vbtAt f = some vbt → ctxAt L f vbt = .ok c → ∀ i k,bit file i k ≠ bit f i k → Asked L f c o i k

-- The files the promise is about: the VBT, the BDB and every block by their own sizes
-- (256 is no id, so the lookup goes over all headers).
structure Placed (L : Layout) (f : Image) (vbt : Nat) : Prop where
  header : HeaderInside L f vbt
  whole : Inside f vbt (u16 f (vbt+L.vbtSize))
  bdb : Inside f (bdbAt L f vbt) (u16 f (bdbAt L f vbt+L.bdbSize))
  blocks : ∀ i ∈ headers L f (bdbAt L f vbt) 256,i+3+sizeAt L f (bdbAt L f vbt) i ≤ u16 f (bdbAt L f vbt+L.bdbSize)

section Home

variable (L : Layout) (f : Image) (c : Ctx) (o : PatchOpts)

def Home (p : Patch) : Prop := EntryIn L f c p.block p.entry p.size

-- A requested field outside of its block that changes nothing: what is stored last in
-- each of its bits is what was there, or the bit is in another requested field.
def Harmless (p : Patch) : Prop :=
  ∀ w ∈ p.writes,∀ k,w.mask.getLsbD k = true → Asked L f c o w.pos k ∨
    settled (writesOf (requested L f c o)) w.pos k = some (bit f w.pos k)

end Home

section Lemmas

variable {L : Layout} {f : Image} {c : Ctx} {o : PatchOpts}

theorem clockPatches_mem {p : Patch} {clock : Int} (member : p ∈ clockPatches L c clock) :
    ∃ gdtd,c.gdtd = some gdtd ∧ 0 < clock ∧ p = clockPatch L c gdtd clock := by
  unfold clockPatches at member
  cases there : c.gdtd with
  | none => simp [there] at member
  | some gdtd =>
    rw [there] at member
    dsimp only at member
    split at member
    · rename_i positive
      exact ⟨gdtd,rfl,positive,List.mem_singleton.mp member⟩
    · cases member

theorem requested_mem {p : Patch} (member : p ∈ requested L f c o) :
    p ∈ clockPatches L c (clockFor L f c o) ∨
      ∃ mipi,c.mipiCfg = some mipi ∧ c.panel < L.maxMipiPanel ∧ p ∈ mipiPatches L c o mipi := by
  rcases List.mem_append.mp member with clock | rest
  · exact .inl clock
  · cases there : c.mipiCfg with
    | none => simp [there] at rest
    | some mipi =>
      rw [there] at rest
      dsimp only at rest
      split at rest
      · rename_i known
        exact .inr ⟨mipi,rfl,known,rest⟩
      · cases rest

theorem rotation_bits {s k : Nat} (masked : (3#8 <<< s).getLsbD k = true) : s ≤ k ∧ k < s+2 := by
  rw [BitVec.getLsbD_shiftLeft] at masked
  simp only [Bool.and_eq_true,Bool.not_eq_true',decide_eq_false_iff_not,decide_eq_true_eq] at masked
  obtain ⟨⟨_,low⟩,field⟩ := masked
  have two : ∀ j < 8,(3#8).getLsbD j = true → j < 2 := by decide
  have := two (k-s) (BitVec.lt_of_getLsbD field) field
  omega

-- What is requested of an entry in its block is asked.
theorem home_asked {p : Patch} {w : Write} {k : Nat} (member : p ∈ requested L f c o) (home : Home L f c p)
    (written : w ∈ p.writes) (masked : w.mask.getLsbD k = true) : Asked L f c o w.pos k := by
  rcases requested_mem member with clock | ⟨mipi,there,known,rest⟩
  · obtain ⟨gdtd,there,positive,rfl⟩ := clockPatches_mem clock
    have here := dword_pos written
    exact .clock gdtd there home positive here.1 here.2
  · rcases List.mem_append.mp rest with turned | delayed
    · unfold rotationPatches at turned
      split at turned
      · rename_i asked
        rw [List.mem_singleton.mp turned] at home written
        rw [List.mem_singleton.mp written] at masked ⊢
        have bits := rotation_bits masked
        exact .rotation mipi there known home asked rfl bits.1 bits.2
      · cases turned
    · obtain ⟨d,kept,rfl⟩ := List.mem_map.mp delayed
      obtain ⟨listed,asked⟩ := List.mem_filter.mp kept
      have here := word_pos written
      exact .delay mipi there known home d listed (by simpa using asked) here.1 here.2

theorem checksum_pos {g : Image} {vbt : Nat} {w : Write} (member : w ∈ checksumWrites L g vbt) :
    w.pos = vbt+L.vbtChecksum := by
  simp only [checksumWrites,byte,List.mem_cons,List.not_mem_nil,or_false] at member
  rcases member with rfl | rfl <;> rfl

-- Only the patches write outside of the checksum.
theorem settled_patched {i : Nat} (k : Nat) (apart : i ≠ c.vbt+L.vbtChecksum) :
    settled (patchedWrites L f c o) i k = settled (writesOf (requested L f c o)) i k := by
  refine settled_apart fun w member same => apart ?_
  rw [← same]
  exact checksum_pos member

theorem outcome_written {vbt : Nat} (found : vbtAt f = some vbt) (parsed : ctxAt L f vbt = .ok c)
    (patches : hasPatches o = true) (output : o.output = true) (some : requested L f c o ≠ []) :
    outcome L f o = .written (puts f (patchedWrites L f c o)) := by
  unfold outcome
  simp only [found,parsed,served,patches,output,some,if_false,Bool.true_eq_false]

theorem written_parts {file : Image} (written : outcome L f o = .written file) : ∃ vbt c,vbtAt f = some vbt ∧
    ctxAt L f vbt = .ok c ∧ hasPatches o = true ∧ o.output = true ∧ file = puts f (patchedWrites L f c o) := by
  unfold outcome at written
  split at written
  · cases written
  rename_i vbt found
  split at written
  · cases written
  rename_i c parsed
  unfold served at written
  split at written
  · cases written
  rename_i patches
  split at written
  · cases written
  rename_i output
  split at written
  · cases written
  · cases written
    exact ⟨vbt,c,found,parsed,by simpa using patches,by simpa using output,rfl⟩

end Lemmas

theorem changes_only_asked_iff (L : Layout) (f : Image) (o : PatchOpts) : ChangesOnlyAsked L f o ↔
    (∀ vbt,vbtAt f = some vbt → FileInside L f o vbt) ∧
      ∀ vbt c,vbtAt f = some vbt → ctxAt L f vbt = .ok c → hasPatches o = true → o.output = true →
        ∀ p ∈ requested L f c o,Home L f c p ∨ Harmless L f c o p := by
  have checks := main_checks L f o
  constructor
  · rintro ⟨out,ran,frame⟩
    have inside := checks.needs (by rw [ran]; rfl)
    have same : outcome L f o = out := Option.some.inj ((checks.gives inside).symm.trans ran)
    refine ⟨inside,fun vbt c found parsed patches output p member => .inr fun w written k masked => ?_⟩
    have file := outcome_written found parsed patches output (List.ne_nil_of_mem member)
    have frame := (frame _ (same.symm.trans file)).2 vbt c found parsed w.pos k
    have applied := ((inside vbt found).served c parsed).applied patches output
    have landed : w.pos < f.length := applied.patches.fields p member w written
    by_cases asked : Asked L f c o w.pos k
    · exact .inl asked
    · right
      have kept := not_not.mp (fun changed => asked (frame changed))
      obtain ⟨b,stored⟩ := settled_covered (writesOf_mem.mpr ⟨p,member,written⟩) rfl masked
      rw [bit_puts _ _ _ _ landed,settled_patched k (fun here => asked (.checksum here)),stored] at kept
      rw [stored]
      exact congrArg some kept
  · rintro ⟨inside,kept⟩
    refine ⟨_,checks.gives inside,fun file written => ?_⟩
    obtain ⟨vbt,c,found,parsed,patches,output,rfl⟩ := written_parts written
    refine ⟨length_puts _ _,fun vbt' c' found' parsed' i k changed => ?_⟩
    rw [found] at found'
    cases found'
    rw [parsed] at parsed'
    cases parsed'
    by_cases landed : i < f.length
    · by_cases sum : i = c.vbt+L.vbtChecksum
      · exact .checksum sum
      · rw [bit_puts _ _ _ _ landed,settled_patched k sum] at changed
        cases stored : settled (writesOf (requested L f c o)) i k with
        | none => simp [stored] at changed
        | some b =>
          obtain ⟨w,member,rfl,masked⟩ := settled_some stored
          obtain ⟨p,member,written⟩ := writesOf_mem.mp member
          rcases kept vbt c found parsed patches output p member with home | harmless
          · exact home_asked member home written masked
          · rcases harmless w written k masked with asked | same
            · exact asked
            · rw [same] at changed
              exact absurd rfl changed
    · rw [bit_past (by rw [length_puts]; omega),bit_past (by omega)] at changed
      exact absurd rfl changed

-- Panel index 1, a block 58 of one entry and a block 9 after it: the clock lands in the
-- header of block 9.
def withNext (checksum : BitVec 8) (next : List (BitVec 8)) : Image :=
  [0x24,0x56,0x42,0x54]++zeros 20++[150,0,checksum,0,48,0,0,0]++zeros 16++
    zeros 18++[22,0,102,0]++[40,1,0,1]++[58,30,0,28,0]++zeros 28++next++zeros 40

def clockOpts : PatchOpts := ⟨1,-1,-1,-1,-1,-1,-1,-1,true⟩

theorem withNext_placed : Placed intelVbtDefs (withNext 0 [9,40,0]) 0 where
  header := ⟨by decide +kernel,by decide +kernel,by decide +kernel⟩
  whole := by decide +kernel
  bdb := by decide +kernel
  blocks := by decide +kernel

theorem next_block_patched : Placed intelVbtDefs (withNext 0 [9,40,0]) 0 ∧
    ¬ChangesOnlyAsked intelVbtDefs (withNext 0 [9,40,0]) clockOpts := by
  refine ⟨withNext_placed,?_⟩
  rintro ⟨out,ran,frame⟩
  have patched : main intelVbtDefs (withNext 0 [9,40,0]) clockOpts = some (.written (withNext 15 [1,0,0])) := by
    decide +kernel
  rw [patched] at ran
  cases ran
  have changed := (frame _ rfl).2 0 ⟨0,48,102,1,some 77,none⟩ (by decide +kernel) (by decide +kernel) 107 3 (by decide +kernel)
  cases changed with
  | clock gdtd there home =>
    cases there
    have past : ¬(77+2+1*28)+28 ≤
        blockEnd intelVbtDefs (withNext 0 [9,40,0]) ⟨0,48,102,1,some 77,none⟩ 77 := by decide +kernel
    exact past home.2
  | rotation mipi there => cases there
  | delay mipi there => cases there
  | checksum here => exact absurd here (by decide)

end ChuwiMinibook.Vbt
