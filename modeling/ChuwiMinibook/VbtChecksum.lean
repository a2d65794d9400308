import ChuwiMinibook.VbtFrame

namespace ChuwiMinibook.Vbt
open ByteImage

def byteSum (bytes : List (BitVec 8)) : Nat := (bytes.map BitVec.toNat).sum

-- The bytes of the VBT: as many as its header says.
def vbtBytes (L : Layout) (f : Image) (vbt : Nat) : List (BitVec 8) := (f.drop vbt).take (u16 f (vbt+L.vbtSize))

theorem byteSum_set {bytes : List (BitVec 8)} {j : Nat} (inside : j < bytes.length) (v : BitVec 8) :
    byteSum (bytes.set j v)+bytes[j].toNat = byteSum bytes+v.toNat := by
  induction bytes generalizing j with
  | nil => exact absurd inside (Nat.not_lt_zero j)
  | cons b rest ih =>
    cases j with
    | zero =>
      simp [byteSum]
      omega
    | succ j =>
      have more := ih (Nat.lt_of_succ_lt_succ inside)
      simp only [byteSum,List.set_cons_succ,List.map_cons,List.sum_cons,List.getElem_cons_succ] at more ⊢
      omega

theorem sumAt_byteSum {f : Image} {start n : Nat} (inside : Inside f start n) :
    sumAt f start n = byteSum ((f.drop start).take n)%256 := by
  induction n with
  | zero => rfl
  | succ n ih =>
    unfold Inside at inside ih
    have room : n < (f.drop start).length := by
      rw [List.length_drop]
      omega
    have read : u8 f (start+n) = (f.drop start)[n].toNat := by
      simp [u8,readU8,show start+n < f.length by omega]
    rw [sumAt,ih (by omega),read,List.take_succ_eq_append_getElem room]
    simp [byteSum]

section Sum
variable {L : Layout} {f : Image} {vbt : Nat}

theorem vbtBytes_length (inside : Inside f vbt (u16 f (vbt+L.vbtSize))) :
    (vbtBytes L f vbt).length = u16 f (vbt+L.vbtSize) := by
  unfold Inside at inside
  rw [vbtBytes,List.length_take_of_le (by rw [List.length_drop]; omega)]

-- The checksum is not in the field of the size.
theorem size_set (v : BitVec 8) : u16 (f.set (vbt+L.vbtChecksum) v) (vbt+L.vbtSize) = u16 f (vbt+L.vbtSize) := by
  have order := L.vbt_order
  unfold u16
  rw [← put_byte,readU16_apart (by simp only [byte]; omega)]

theorem vbtBytes_set (v : BitVec 8) :
    vbtBytes L (f.set (vbt+L.vbtChecksum) v) vbt = (vbtBytes L f vbt).set L.vbtChecksum v := by
  rw [vbtBytes,size_set,vbtBytes,List.drop_set,if_neg (by omega),Nat.add_sub_cancel_left,List.take_set]

-- What update_checksum stores: the negated sum of the other bytes.
def checksumByte (L : Layout) (f : Image) (vbt : Nat) : BitVec 8 := BitVec.ofNat 8 (0x100-checksumAt L f vbt)

theorem checksum_puts : puts f (checksumWrites L f vbt) = f.set (vbt+L.vbtChecksum) (checksumByte L f vbt) := by
  rw [checksumWrites,puts,List.foldl_cons,List.foldl_cons,List.foldl_nil,put_byte,put_byte,List.set_set]
  rfl

theorem checksumAt_byteSum (inside : Inside f vbt (u16 f (vbt+L.vbtSize))) :
    checksumAt L f vbt = byteSum ((vbtBytes L f vbt).set L.vbtChecksum 0)%256 := by
  rw [checksumAt,put_byte,sumAt_byteSum (by simpa [Inside] using inside),← vbtBytes_set,vbtBytes,size_set]

theorem updated_sum (inside : Inside f vbt (u16 f (vbt+L.vbtSize))) (beyond : L.vbtChecksum < u16 f (vbt+L.vbtSize)) :
    byteSum (vbtBytes L (puts f (checksumWrites L f vbt)) vbt)%256 = 0 := by
  have within : L.vbtChecksum < (vbtBytes L f vbt).length := by rwa [vbtBytes_length inside]
  have cleared : _ = _+0 := byteSum_set within 0
  have stored := byteSum_set within (checksumByte L f vbt)
  have value : (checksumByte L f vbt).toNat = (256-byteSum ((vbtBytes L f vbt).set L.vbtChecksum 0)%256)%256 := by
    rw [checksumByte,checksumAt_byteSum inside,BitVec.toNat_ofNat]
  rw [checksum_puts,vbtBytes_set]
  omega

-- Only one byte makes the sum zero: the one that is there.
theorem updated_same (inside : Inside f vbt (u16 f (vbt+L.vbtSize))) (beyond : L.vbtChecksum < u16 f (vbt+L.vbtSize))
    (zero : byteSum (vbtBytes L f vbt)%256 = 0) : puts f (checksumWrites L f vbt) = f := by
  have within : L.vbtChecksum < (vbtBytes L f vbt).length := by rwa [vbtBytes_length inside]
  have room : vbt+L.vbtChecksum < f.length := by
    unfold Inside at inside
    omega
  have cleared : _ = _+0 := byteSum_set within 0
  have value : (checksumByte L f vbt).toNat = (256-byteSum ((vbtBytes L f vbt).set L.vbtChecksum 0)%256)%256 := by
    rw [checksumByte,checksumAt_byteSum inside,BitVec.toNat_ofNat]
  have old : (vbtBytes L f vbt)[L.vbtChecksum] = f[vbt+L.vbtChecksum] := by simp [vbtBytes]
  have small := (f[vbt+L.vbtChecksum]).isLt
  have same : checksumByte L f vbt = f[vbt+L.vbtChecksum] := by
    apply BitVec.eq_of_toNat_eq
    rw [old] at cleared
    omega
  rw [checksum_puts,same,List.set_getElem_self]

end Sum

theorem image_ext {f g : Image} (length : g.length = f.length) (bits : ∀ i k,i < f.length → bit g i k = bit f i k) :
    g = f := by
  apply List.ext_getElem length
  intro i inG inF
  apply BitVec.eq_of_getLsbD_eq
  intro k _
  have same := bits i k inF
  unfold bit at same
  simpa [inF,inG] using same

section Kept
variable {L : Layout} {f : Image} {c : Ctx} {o : PatchOpts}

-- Read again after the patches, every requested field has its old value.
def FieldsKept (L : Layout) (f : Image) (c : Ctx) (o : PatchOpts) : Prop :=
  ∀ patched n,applyPatches L f c o = some (patched,n) → ∀ p ∈ requested L f c o,∀ w ∈ p.writes,∀ k,
    w.mask.getLsbD k = true → bit patched w.pos k = bit f w.pos k

theorem kept_unchanged (inside : PatchesInside L f c o) (kept : FieldsKept L f c o) :
    puts f (writesOf (requested L f c o)) = f := by
  have applied := (applyPatches_checks L f c o).gives inside
  apply image_ext (length_puts _ _)
  intro i k landed
  cases stored : settled (writesOf (requested L f c o)) i k with
  | none => rw [bit_puts _ _ _ _ landed,stored,Option.getD_none]
  | some b =>
    obtain ⟨w,written,rfl,masked⟩ := settled_some stored
    obtain ⟨p,member,written⟩ := writesOf_mem.mp written
    exact kept _ _ applied p member w written k masked

theorem written_requested {vbt : Nat} {out : Image} (found : vbtAt f = some vbt) (parsed : ctxAt L f vbt = .ok c)
    (written : outcome L f o = .written out) : requested L f c o ≠ [] := by
  intro empty
  simp only [outcome,found,parsed,served,empty,if_true] at written
  split at written
  · cases written
  · split at written
    · cases written
    · cases written

theorem parsed_ctx {vbt : Nat} (found : vbtAt f = some vbt) (opened : initCtx L f = some (.ok c)) :
    ctxAt L f vbt = .ok c := by
  have checks := initCtx_checks L f
  have gives := checks.gives (checks.needs (by simp [opened]))
  rw [opened,found] at gives
  exact (Option.some.inj gives).symm

-- What a run that writes a file went through.
theorem written_sum {out : Image} (written : main L f o = some (.written out)) :
    ∃ vbt c,vbtAt f = some vbt ∧ ctxAt L f vbt = .ok c ∧ PatchesInside L f c o ∧
      Inside f vbt (u16 (puts f (writesOf (requested L f c o))) (vbt+L.vbtSize)) ∧
      out = puts (puts f (writesOf (requested L f c o))) (checksumWrites L (puts f (writesOf (requested L f c o))) vbt) := by
  have checks := main_checks L f o
  have inside := checks.needs (by simp [written])
  have ran : outcome L f o = .written out := Option.some.inj ((checks.gives inside).symm.trans written)
  obtain ⟨vbt,c,found,parsed,patches,output,file⟩ := written_parts ran
  have applied := ((inside vbt found).served c parsed).applied patches output
  have sum := applied.sum (written_requested found parsed ran)
  rw [patchedWrites,puts_append,ctxAt_vbt parsed] at file
  rw [ctxAt_vbt parsed] at sum
  exact ⟨vbt,c,found,parsed,applied.patches,sum,file⟩

end Kept

-- The size counts as it is written: a file can have its VBT header in the way of a patch.
theorem checksum_zero {L : Layout} {f : Image} {o : PatchOpts} {out : Image} {vbt : Nat} {c : Ctx}
    (written : main L f o = some (.written out)) (found : findVbt f = some (some vbt))
    (opened : initCtx L f = some (.ok c)) (beyond : L.vbtChecksum < u16 out (vbt+L.vbtSize)) :
    Inside out vbt (u16 out (vbt+L.vbtSize)) ∧ byteSum (vbtBytes L out vbt)%256 = 0 ∧
      (byteSum (vbtBytes L f vbt)%256 = 0 → FieldsKept L f c o → out = f) := by
  have place : vbtAt f = some vbt := by
    rw [findVbt_eq] at found
    exact Option.some.inj found
  obtain ⟨vbt',c',found',parsed',fields,inside,rfl⟩ := written_sum written
  rw [place] at found'
  cases found'
  rw [parsed_ctx place opened] at parsed'
  cases parsed'
  have whole : Inside (puts f (writesOf (requested L f c o))) vbt
      (u16 (puts f (writesOf (requested L f c o))) (vbt+L.vbtSize)) := inside_puts.mpr inside
  have size : u16 ((puts f (writesOf (requested L f c o))).set (vbt+L.vbtChecksum)
      (checksumByte L (puts f (writesOf (requested L f c o))) vbt)) (vbt+L.vbtSize) =
      u16 (puts f (writesOf (requested L f c o))) (vbt+L.vbtSize) := size_set _
  rw [← checksum_puts] at size
  rw [size] at beyond ⊢
  refine ⟨inside_puts.mpr whole,updated_sum whole beyond,?_⟩
  intro zero kept
  have same := kept_unchanged fields kept
  rw [same] at whole beyond ⊢
  exact updated_same whole beyond zero

theorem checksum_zero_one_panel :
    byteSum (vbtBytes intelVbtDefs (withNext 15 [1,0,0]) 0)%256 = 0 := by
  have written : main intelVbtDefs (withNext 0 [9,40,0]) clockOpts = some (.written (withNext 15 [1,0,0])) := by
    decide +kernel
  have opened : initCtx intelVbtDefs (withNext 0 [9,40,0]) = some (.ok ⟨0,48,102,1,some 77,none⟩) := by decide +kernel
  exact (checksum_zero written (by decide +kernel) opened (by decide +kernel)).2.1

-- A file of 48 bytes whose BDB starts at its VBT: the upper half of the clock is the
-- size of the VBT.
def folded (clock : List (BitVec 8)) (checksum : BitVec 8) : Image :=
  [0x24,0x56,0x42,0x54,40,10,0,0]++zeros 9++[58,4,0,48,0]++clock++[checksum]++zeros 21

theorem vbt_size_patched :
    Inside (folded [0,0,48,0] 0) 0 (u16 (folded [0,0,48,0] 0) 24) ∧ 26 < u16 (folded [0,0,48,0] 0) 24 ∧
      main intelVbtDefs (folded [0,0,48,0] 0) ⟨0x100000,-1,-1,-1,-1,-1,-1,-1,true⟩ =
        some (.written (folded [0,0,16,0] 190)) ∧
      byteSum ((folded [0,0,16,0] 190).take 48)%256 ≠ 0 ∧
      byteSum (vbtBytes intelVbtDefs (folded [0,0,16,0] 190) 0)%256 ≠ 0 := by
  decide +kernel

end ChuwiMinibook.Vbt
