import ChuwiMinibook.VbtFrame
import ChuwiMinibook.VbtOptions

namespace ChuwiMinibook.Vbt
open ByteImage StdString

section Fields

variable (L : Layout) (f : Image) (c : Ctx)

-- The delays of a panel with their options.
def delayFields (pps : Nat) : List (Opt × Nat) :=
  [(.panelOn,pps+L.panelOnDelay),(.panelOff,pps+L.panelOffDelay),(.blOn,pps+L.blEnableDelay),
    (.blOff,pps+L.blDisableDelay),(.cycle,pps+L.panelPowerCycleDelay)]

-- What can be patched: the first bytes and the sizes.
def mipiFields (mipi : Nat) : List (Nat × Nat) :=
  (configAt L c mipi+L.rotation,1)::(delayFields L (ppsAt L c mipi)).map (fun d => (d.2,2))

def Separate (a b : Nat × Nat) : Prop := a.1+a.2 ≤ b.1 ∨ b.1+b.2 ≤ a.1

instance (a b : Nat × Nat) : Decidable (Separate a b) := inferInstanceAs (Decidable (_ ∨ _))

-- No two fields share a byte.
structure Apart : Prop where
  mipi : ∀ mipi,c.mipiCfg = some mipi → c.panel < L.maxMipiPanel → (mipiFields L c mipi).Pairwise Separate
  clock : ∀ gdtd mipi,c.gdtd = some gdtd → c.mipiCfg = some mipi → c.panel < L.maxMipiPanel →
    ∀ field ∈ mipiFields L c mipi,Separate (dtdAt L c gdtd+L.pixelClock,4) field

-- The clock a refresh rate asks for.
def clockOf (t : Timings) (hz : Int) : Int := hz*t.htotal*t.vtotal/1000

-- The fields, read again, hold what the options asked for.
structure Stored (o : PatchOpts) (w : Opt → Int) (patched : Image) : Prop where
  clock : ∀ gdtd,c.gdtd = some gdtd → 0 < o.clock → (u32 patched (dtdAt L c gdtd+L.pixelClock) : Int) = w .clock
  hz : ∀ gdtd,c.gdtd = some gdtd → 0 < o.hz → let t := timingsAt L f (dtdAt L c gdtd)
    t.htotal ≠ 0 → t.vtotal ≠ 0 →
      0 ≤ w .hz*t.htotal*t.vtotal-1000*(u32 patched (dtdAt L c gdtd+L.pixelClock) : Int) ∧
      w .hz*t.htotal*t.vtotal-1000*(u32 patched (dtdAt L c gdtd+L.pixelClock) : Int) < 1000
  rotation : ∀ mipi,c.mipiCfg = some mipi → c.panel < L.maxMipiPanel → 0 ≤ o.rotation →
    ((u8 patched (configAt L c mipi+L.rotation)/2^L.rotationShift%4 : Nat) : Int) = w .rotation
  delays : ∀ mipi,c.mipiCfg = some mipi → c.panel < L.maxMipiPanel → ∀ d ∈ delayFields L (ppsAt L c mipi),
    0 ≤ o.get d.1 → (u16 patched d.2 : Int) = 10*w d.1

-- A rate whose clock is a positive int is stored; any other leaves the old clock, which
-- may happen to be the one asked for.
def HzFits (t : Timings) (old : Nat) (v : Int) : Prop :=
  (0 < v ∧ v < 2^31 ∧ 1 ≤ clockOf t v ∧ clockOf t v < 2^31) ∨
    (clockOf t v = old ∧ ¬(1 ≤ clockOf t (longToInt v) ∧ clockOf t (longToInt v) < 2^31))

-- A clock that --hz replaces has to be the one it asks for, or the old one where the
-- totals are zero.
def ClockFits (t : Timings) (old : Nat) (w : Opt → Int) : Prop :=
  if 0 < longToInt (w .hz) then w .clock = if t.htotal ≠ 0 ∧ t.vtotal ≠ 0 then clockOf t (w .hz) else old
  else 0 < w .clock ∧ w .clock < 2^31

-- The numbers that fit where they are to go.
structure Fits (w : Opt → Int) : Prop where
  clock : ∀ gdtd,c.gdtd = some gdtd → 0 < longToInt (w .clock) →
    ClockFits (timingsAt L f (dtdAt L c gdtd)) (u32 f (dtdAt L c gdtd+L.pixelClock)) w
  hz : ∀ gdtd,c.gdtd = some gdtd → 0 < longToInt (w .hz) → let t := timingsAt L f (dtdAt L c gdtd)
    t.htotal ≠ 0 → t.vtotal ≠ 0 → HzFits t (u32 f (dtdAt L c gdtd+L.pixelClock)) (w .hz)
  rotation : ∀ mipi,c.mipiCfg = some mipi → c.panel < L.maxMipiPanel → 0 ≤ longToInt (w .rotation) →
    0 ≤ w .rotation ∧ w .rotation ≤ 3
  delays : ∀ mipi,c.mipiCfg = some mipi → c.panel < L.maxMipiPanel → ∀ d ∈ delayFields L (ppsAt L c mipi),
    0 ≤ longToInt (w d.1) → 0 ≤ w d.1 ∧ w d.1 ≤ 6553

end Fields

-- The field of two bits is read as it was written.
theorem rotation_read (b r : BitVec 8) {s : Nat} (low : s ≤ 6) :
    (b &&& ~~~(3#8 <<< s) ||| r <<< s &&& 3#8 <<< s).toNat/2^s%4 = r.toNat%4 := by
  have bits : (b &&& ~~~(3#8 <<< s) ||| r <<< s &&& 3#8 <<< s).extractLsb' s 2 = r.extractLsb' 0 2 := by
    apply BitVec.eq_of_getLsbD_eq
    intro k small
    have two : k = 0 ∨ k = 1 := by omega
    have inside : s+k < 8 := by omega
    have mask : (3#8).getLsbD k = true := by
      rcases two with rfl | rfl
      · rfl
      · rfl
    simp only [BitVec.getLsbD_extractLsb',BitVec.getLsbD_or,BitVec.getLsbD_and,BitVec.getLsbD_not,
      BitVec.getLsbD_shiftLeft,inside,small,show ¬s+k < s by omega,Nat.add_sub_cancel_left,mask,Nat.zero_add]
    simp
  have values := congrArg BitVec.toNat bits
  rw [BitVec.extractLsb'_toNat,BitVec.extractLsb'_toNat,Nat.shiftRight_eq_div_pow,Nat.shiftRight_zero] at values
  exact values

section Reads

variable {L : Layout} {f : Image} {c : Ctx} {o : PatchOpts}

theorem readU8_rotation {config : Nat} (inside : Inside f (config+L.rotation) 1) (rotation : Int) :
    ∃ n,readU8 (put f (rotationWrite L config rotation)) (config+L.rotation) = some n ∧
      n/2^L.rotationShift%4 = (BitVec.ofInt 8 rotation).toNat%4 := by
  unfold Inside at inside
  unfold readU8 put
  rw [List.getElem?_modify,List.getElem?_eq_getElem (by omega : config+L.rotation < f.length)]
  simp only [rotationWrite,if_true,Option.map_eq_map,Option.map_some]
  exact ⟨_,rfl,rotation_read _ _ L.rotation_in⟩

theorem delay_pos {mipi : Nat} {ds : List (Int × Nat)} {w : Write} (written : w ∈ writesOf (delayPatches L c mipi ds)) :
    ∃ d ∈ ds,d.2 ≤ w.pos ∧ w.pos < d.2+2 := by
  obtain ⟨p,member,written⟩ := writesOf_mem.mp written
  obtain ⟨d,kept,rfl⟩ := List.mem_map.mp member
  exact ⟨d,(List.mem_filter.mp kept).1,word_pos written⟩

-- Of delays whose fields are apart each one is read as it was written.
theorem readU16_delays {mipi : Nat} {ds : List (Int × Nat)} {ms : Int} {field : Nat}
    (apart : ds.Pairwise (fun a b => Separate (a.2,2) (b.2,2))) (listed : (ms,field) ∈ ds) (asked : 0 ≤ ms)
    (inside : Inside f field 2) :
    readU16 (puts f (writesOf (delayPatches L c mipi ds))) field = some ((BitVec.ofInt 16 (ms*10)).toNat%65536) := by
  induction ds generalizing f with
  | nil => cases listed
  | cons d rest ih =>
    obtain ⟨first,others⟩ := List.pairwise_cons.mp apart
    by_cases kept : 0 ≤ d.1
    · have patches : writesOf (delayPatches L c mipi (d::rest)) =
          word d.2 (BitVec.ofInt 16 (d.1*10)).toNat++writesOf (delayPatches L c mipi rest) := by
        simp [delayPatches,writesOf,kept,delayPatch]
      rw [patches,puts_append]
      rcases List.mem_cons.mp listed with rfl | later
      · rw [readU16_puts ?_,readU16_word inside]
        intro w written
        obtain ⟨e,listed,low,high⟩ := delay_pos written
        have := first e listed
        unfold Separate at this
        omega
      · exact ih others later (inside_puts.mpr inside)
    · have patches : delayPatches L c mipi (d::rest) = delayPatches L c mipi rest := by
        simp [delayPatches,kept]
      rw [patches]
      rcases List.mem_cons.mp listed with rfl | later
      · exact absurd asked kept
      · exact ih others later inside

theorem writesOf_append (ps qs : List Patch) : writesOf (ps++qs) = writesOf ps++writesOf qs := List.flatMap_append

theorem delays_fields (pps : Nat) : delays L o pps = (delayFields L pps).map (fun d => (o.get d.1,d.2)) := rfl

theorem mipi_pos {mipi : Nat} {w : Write} (written : w ∈ writesOf (mipiPatches L c o mipi)) :
    ∃ field ∈ mipiFields L c mipi,field.1 ≤ w.pos ∧ w.pos < field.1+field.2 := by
  rw [mipiPatches,writesOf_append] at written
  rcases List.mem_append.mp written with turned | delayed
  · unfold rotationPatches at turned
    split at turned
    · have here : w = rotationWrite L (configAt L c mipi) o.rotation := by simpa [writesOf] using turned
      refine ⟨_,List.mem_cons_self,?_⟩
      rw [here]
      exact ⟨Nat.le_refl _,Nat.lt_succ_self _⟩
    · cases turned
  · obtain ⟨d,listed,low,high⟩ := delay_pos delayed
    rw [delays_fields] at listed
    obtain ⟨field,member,rfl⟩ := List.mem_map.mp listed
    exact ⟨(field.2,2),List.mem_cons_of_mem _ (List.mem_map_of_mem member),low,high⟩

theorem requested_writes {mipi : Nat} (there : c.mipiCfg = some mipi) (known : c.panel < L.maxMipiPanel) :
    writesOf (requested L f c o) =
      writesOf (clockPatches L c (clockFor L f c o))++writesOf (mipiPatches L c o mipi) := by
  simp only [requested,there,if_pos known,writesOf_append]

theorem requested_without (missing : ∀ mipi,c.mipiCfg = some mipi → ¬c.panel < L.maxMipiPanel) :
    writesOf (requested L f c o) = writesOf (clockPatches L c (clockFor L f c o)) := by
  unfold requested
  cases there : c.mipiCfg with
  | none => simp
  | some mipi => simp [missing mipi there]

theorem readU32_clock {gdtd : Nat} (there : c.gdtd = some gdtd) (inside : Inside f (dtdAt L c gdtd+L.pixelClock) 4)
    {clock : Int} (small : clock < 2^31) :
    (u32 (puts f (writesOf (clockPatches L c clock))) (dtdAt L c gdtd+L.pixelClock) : Int) =
      if 0 < clock then clock else u32 f (dtdAt L c gdtd+L.pixelClock) := by
  by_cases positive : 0 < clock
  · have writes : writesOf (clockPatches L c clock) =
        dword (dtdAt L c gdtd+L.pixelClock) (BitVec.ofInt 32 clock).toNat := by
      simp [clockPatches,there,positive,writesOf,clockPatch]
    rw [if_pos positive,writes,u32,readU32_dword inside,BitVec.toNat_ofInt]
    simp only [Option.getD_some]
    omega
  · have writes : writesOf (clockPatches L c clock) = [] := by
      simp [clockPatches,there,positive,writesOf]
    rw [if_neg positive,writes]
    rfl

-- The clock after all patches: the one that was resolved, if it is positive.
theorem readU32_patched {gdtd : Nat} (there : c.gdtd = some gdtd) (apart : Apart L c)
    (inside : Inside f (dtdAt L c gdtd+L.pixelClock) 4) (small : clockFor L f c o < 2^31) :
    (u32 (puts f (writesOf (requested L f c o))) (dtdAt L c gdtd+L.pixelClock) : Int) =
      if 0 < clockFor L f c o then clockFor L f c o else u32 f (dtdAt L c gdtd+L.pixelClock) := by
  have first := readU32_clock there inside small
  by_cases has : ∃ mipi,c.mipiCfg = some mipi ∧ c.panel < L.maxMipiPanel
  · obtain ⟨mipi,there',known⟩ := has
    have later : ∀ w ∈ writesOf (mipiPatches L c o mipi),w.pos < dtdAt L c gdtd+L.pixelClock ∨
        dtdAt L c gdtd+L.pixelClock+4 ≤ w.pos := by
      intro w written
      obtain ⟨field,member,low,high⟩ := mipi_pos written
      have := apart.clock gdtd mipi there there' known field member
      unfold Separate at this
      omega
    rw [requested_writes there' known,puts_append,u32,readU32_puts later]
    exact first
  · rw [requested_without fun mipi there' known => has ⟨mipi,there',known⟩]
    exact first

theorem ofInt_word (v : Int) : (((BitVec.ofInt 16 v).toNat%65536 : Nat) : Int) = v%65536 := by
  have low := Int.emod_nonneg v (by decide : (65536 : Int) ≠ 0)
  have high := Int.emod_lt_of_pos v (by decide : (0 : Int) < 65536)
  have value : (BitVec.ofInt 16 v).toNat = (v%65536).toNat := BitVec.toNat_ofInt _
  rw [value]
  omega

section Mipi

variable {mipi : Nat} (there : c.mipiCfg = some mipi) (known : c.panel < L.maxMipiPanel)
  (apart : (mipiFields L c mipi).Pairwise Separate)
include there known apart

theorem rotation_patched (inside : Inside f (configAt L c mipi+L.rotation) 1) (asked : 0 ≤ o.rotation)
    (few : o.rotation ≤ 3) :
    ((u8 (puts f (writesOf (requested L f c o))) (configAt L c mipi+L.rotation)/2^L.rotationShift%4 : Nat) : Int) =
      o.rotation := by
  have later : ∀ w ∈ writesOf (delayPatches L c mipi (delays L o (ppsAt L c mipi))),
      w.pos ≠ configAt L c mipi+L.rotation := by
    intro w written
    obtain ⟨d,listed,low,high⟩ := delay_pos written
    rw [delays_fields] at listed
    obtain ⟨field,member,rfl⟩ := List.mem_map.mp listed
    have := (List.pairwise_cons.mp apart).1 (field.2,2) (List.mem_map_of_mem member)
    unfold Separate at this
    omega
  have writes : writesOf (mipiPatches L c o mipi) =
      rotationWrite L (configAt L c mipi) o.rotation::writesOf (delayPatches L c mipi (delays L o (ppsAt L c mipi))) := by
    simp [mipiPatches,rotationPatches,asked,writesOf]
  obtain ⟨n,read,value⟩ := readU8_rotation (L := L) (f := puts f (writesOf (clockPatches L c (clockFor L f c o))))
    (inside_puts.mpr inside) o.rotation
  have stored : u8 (puts f (writesOf (requested L f c o))) (configAt L c mipi+L.rotation) = n := by
    rw [requested_writes there known,puts_append,writes,u8]
    change (readU8 (puts (put _ _) _) _).getD 0 = n
    rw [readU8_puts later,read]
    rfl
  rw [stored,value,BitVec.toNat_ofInt]
  omega

theorem delay_patched {d : Opt × Nat} (listed : d ∈ delayFields L (ppsAt L c mipi)) (inside : Inside f d.2 2)
    (asked : 0 ≤ o.get d.1) :
    (u16 (puts f (writesOf (requested L f c o))) d.2 : Int) = o.get d.1*10%65536 := by
  have fields : (delays L o (ppsAt L c mipi)).Pairwise (fun a b => Separate (a.2,2) (b.2,2)) := by
    rw [delays_fields]
    exact List.pairwise_map.mpr (List.pairwise_map.mp (List.pairwise_cons.mp apart).2)
  have member : (o.get d.1,d.2) ∈ delays L o (ppsAt L c mipi) := by
    rw [delays_fields]
    exact List.mem_map_of_mem (f := fun d : Opt × Nat => (o.get d.1,d.2)) listed
  rw [requested_writes there known,mipiPatches,writesOf_append,puts_append,puts_append]
  change ((readU16 (puts _ (writesOf _)) d.2).getD 0 : Int) = _
  rw [readU16_delays fields member asked (inside_puts.mpr (inside_puts.mpr inside)),Option.getD_some]
  exact ofInt_word _

end Mipi

end Reads

section Clock

theorem readU8_lt (f : Image) (i : Nat) : u8 f i < 256 := by
  unfold u8 readU8
  cases f[i]? with
  | none => decide
  | some b => exact b.isLt

theorem u16_lt (f : Image) (i : Nat) : u16 f i < 65536 := by
  unfold u16
  rw [readU16_eq]
  split
  · have low := readU8_lt f i
    have high := readU8_lt f (i+1)
    rename_i inside
    unfold Inside at inside
    have first : readU8 f i = some (u8 f i) := (readU8_checks f i).gives (by unfold Inside; omega)
    have second : readU8 f (i+1) = some (u8 f (i+1)) := (readU8_checks f (i+1)).gives (by unfold Inside; omega)
    simp only [Option.getD_some,u16,readU16,first,second,Option.bind_some,Option.map_some]
    omega
  · decide

theorem u32_lt (f : Image) (i : Nat) : u32 f i < 4294967296 := by
  unfold u32
  rw [readU32_eq]
  split
  · rename_i inside
    have low := u16_lt f i
    have high := u16_lt f (i+2)
    unfold Inside at inside
    have first : readU16 f i = some (u16 f i) := (readU16_checks f i).gives (by unfold Inside; omega)
    have second : readU16 f (i+2) = some (u16 f (i+2)) := (readU16_checks f (i+2)).gives (by unfold Inside; omega)
    simp only [Option.getD_some,u32,readU32,first,second,Option.bind_some,Option.map_some]
    omega
  · decide

theorem timings_lt (L : Layout) (f : Image) (entry : Nat) :
    (timingsAt L f entry).htotal < 131072 ∧ (timingsAt L f entry).vtotal < 131072 := by
  have a := u16_lt f (entry+L.hactive)
  have b := u16_lt f (entry+L.hblank)
  have c := u16_lt f (entry+L.vactive)
  have d := u16_lt f (entry+L.vblank)
  unfold timingsAt Timings.htotal Timings.vtotal
  dsimp only
  omega

-- Where the quotient is below 2^32 the product has not wrapped.
theorem clock_exact {t : Timings} {h : Int} (width : t.htotal < 131072) (positive : 0 < h) (int : h < 2^31)
    (small : clockOf t h < 2^32) :
    t.clock h = if clockOf t h < 2^31 then clockOf t h else clockOf t h-2^32 := by
  obtain ⟨n,rfl⟩ := Int.eq_ofNat_of_zero_le (Int.le_of_lt positive)
  have line : n*t.htotal ≤ 2^31*131072 := Nat.mul_le_mul (by omega) (by omega)
  have quotient : clockOf t n = (n*t.htotal*t.vtotal/1000 : Nat) := by
    rw [clockOf,Int.natCast_ediv,Int.natCast_mul,Int.natCast_mul]
    rfl
  have whole : n*t.htotal%2^64 = n*t.htotal := Nat.mod_eq_of_lt (by omega)
  rw [quotient] at small ⊢
  have frame : n*t.htotal*t.vtotal%2^64 = n*t.htotal*t.vtotal := Nat.mod_eq_of_lt (by omega)
  rw [Timings.clock,Int.toNat_natCast,whole,frame,BitVec.toInt_ofNat',Int.bmod_def]
  split <;> split <;> omega

-- A quotient that is stored is the one asked for.
theorem stored_iff_quotient {n c : Int} : (0 ≤ n-1000*c ∧ n-1000*c < 1000) ↔ c = n/1000 := by
  omega

theorem pixels_positive {t : Timings} (line : t.htotal ≠ 0) (frame : t.vtotal ≠ 0) : 1 ≤ (t.htotal : Int)*t.vtotal := by
  have := Nat.mul_pos (Nat.pos_of_ne_zero line) (Nat.pos_of_ne_zero frame)
  exact_mod_cast this

theorem clockOf_mono {t : Timings} (line : t.htotal ≠ 0) (frame : t.vtotal ≠ 0) {h v : Int}
    (more : h+4294967296 ≤ v) : clockOf t h+4294967 ≤ clockOf t v := by
  have pixels := pixels_positive line frame
  have grown : h*t.htotal*t.vtotal+4294967296 ≤ v*t.htotal*t.vtotal := by
    calc h*t.htotal*t.vtotal+4294967296 ≤ h*(t.htotal*t.vtotal)+4294967296*(t.htotal*t.vtotal) := by
          rw [Int.mul_assoc]
          omega
      _ = (h+4294967296)*(t.htotal*t.vtotal) := (Int.add_mul _ _ _).symm
      _ ≤ v*(t.htotal*t.vtotal) := Int.mul_le_mul_of_nonneg_right more (by omega)
      _ = v*t.htotal*t.vtotal := (Int.mul_assoc _ _ _).symm
  unfold clockOf
  omega

theorem nonneg_of_clockOf {t : Timings} (line : t.htotal ≠ 0) (frame : t.vtotal ≠ 0) {v : Int}
    (quotient : 0 ≤ clockOf t v) : 0 ≤ v := by
  by_contra negative
  have pixels := pixels_positive line frame
  have below : v*t.htotal*t.vtotal < 0 := by
    rw [Int.mul_assoc]
    exact Int.mul_neg_of_neg_of_pos (Int.not_le.mp negative) (by omega)
  unfold clockOf at quotient
  omega

-- The number is what it was cut down to, or far above it.
theorem same_or_above {v : Int} (positive : 0 < longToInt v) (nonneg : 0 ≤ v) :
    v = longToInt v ∨ longToInt v+4294967296 ≤ v := by
  by_cases near : v < longToInt v+4294967296
  · rcases longToInt_excess (Int.le_of_lt positive) near with negative | same
    · omega
    · exact .inl same.symm
  · exact .inr (Int.not_lt.mp near)

-- The quotient of the cut number is at most that of the number.
theorem clock_cut {t : Timings} {v : Int} (width : t.htotal < 131072) (line : t.htotal ≠ 0) (frame : t.vtotal ≠ 0)
    (positive : 0 < longToInt v) (nonneg : 0 ≤ v) (small : clockOf t v < 2^32) :
    clockOf t (longToInt v) ≤ clockOf t v ∧
      t.clock (longToInt v) = (if clockOf t (longToInt v) < 2^31 then clockOf t (longToInt v)
        else clockOf t (longToInt v)-2^32) ∧
      (v = longToInt v ∨ clockOf t (longToInt v) < clockOf t v) := by
  have range := longToInt_range v
  rcases same_or_above positive nonneg with same | above
  · rw [← same] at positive range ⊢
    exact ⟨Int.le_refl _,clock_exact width positive range.2 small,.inl rfl⟩
  · have grown := clockOf_mono line frame above
    exact ⟨by omega,clock_exact width positive range.2 (by omega),.inr (by omega)⟩

theorem hz_stored_iff {t : Timings} {v : Int} {old : Nat} (width : t.htotal < 131072) (line : t.htotal ≠ 0)
    (frame : t.vtotal ≠ 0) (bound : old < 4294967296) (positive : 0 < longToInt v) :
    (if 0 < t.clock (longToInt v) then t.clock (longToInt v) else old) = clockOf t v ↔ HzFits t old v := by
  have range := longToInt_range v
  constructor
  · intro stored
    have bounds : 0 ≤ clockOf t v ∧ clockOf t v < 2^32 := by
      rw [← stored]
      have top : t.clock (longToInt v) < 2^31 := BitVec.toInt_lt
      split <;> omega
    have nonneg := nonneg_of_clockOf line frame bounds.1
    obtain ⟨most,clock,which⟩ := clock_cut width line frame positive nonneg bounds.2
    by_cases kept : 0 < t.clock (longToInt v)
    · rw [if_pos kept,clock] at stored
      rw [clock] at kept
      left
      rcases which with same | less
      · rw [← same] at stored kept range positive
        split at kept <;> omega
      · split at kept <;> split at stored <;> omega
    · rw [if_neg kept] at stored
      refine .inr ⟨stored.symm,fun small => kept ?_⟩
      rw [clock,if_pos small.2]
      omega
  · rintro (⟨above,int,low,high⟩ | ⟨found,unstored⟩)
    · obtain ⟨_,clock,_⟩ := clock_cut width line frame positive (Int.le_of_lt above) (by omega)
      have same := longToInt_same (by omega) int
      rw [same] at clock ⊢
      rw [clock,if_pos high,if_pos (by omega)]
    · have nonneg := nonneg_of_clockOf line frame (show 0 ≤ clockOf t v by omega)
      obtain ⟨most,clock,_⟩ := clock_cut width line frame positive nonneg (by omega)
      rw [if_neg ?_,found]
      rw [clock]
      split <;> omega

theorem clock_without {t : Timings} (none : ¬(t.htotal ≠ 0 ∧ t.vtotal ≠ 0)) (h : Int) : t.clock h = 0 := by
  by_cases line : t.htotal = 0
  · simp [Timings.clock,line]
  · have frame : t.vtotal = 0 := by
      by_contra frame
      exact none ⟨line,frame⟩
    simp [Timings.clock,frame]

theorem clock_stored_iff {v : Int} (positive : 0 < longToInt v) : longToInt v = v ↔ 0 < v ∧ v < 2^31 := by
  have range := longToInt_range v
  constructor
  · intro same
    omega
  · rintro ⟨above,int⟩
    exact longToInt_same (by omega) int

theorem delay_stored_iff (v : Int) :
    longToInt v*10%65536 = 10*v ↔ 0 ≤ v ∧ v ≤ 6553 := by
  constructor
  · intro same
    have low := Int.emod_nonneg (longToInt v*10) (by decide : (65536 : Int) ≠ 0)
    have high := Int.emod_lt_of_pos (longToInt v*10) (by decide : (0 : Int) < 65536)
    rw [same] at low high
    omega
  · rintro ⟨low,high⟩
    rw [longToInt_same (by omega) (by omega),Int.mul_comm v 10]
    exact Int.emod_eq_of_lt (by omega) (by omega)

end Clock

section Requested

variable {L : Layout} {f : Image} {c : Ctx} {o : PatchOpts}

theorem delay_inside {mipi : Nat} (inside : MipiInside L f c mipi) {d : Opt × Nat}
    (listed : d ∈ delayFields L (ppsAt L c mipi)) : Inside f d.2 2 := by
  simp only [delayFields,List.mem_cons,List.not_mem_nil,or_false] at listed
  rcases listed with rfl | rfl | rfl | rfl | rfl
  all_goals exact inside.2 _ (by simp)

-- Where all fields are in the file, only the text of a rotation can be missing.
theorem applied_iff (inside : InfoInside L f c) : PatchesInside L f c o ↔
    ∀ mipi,c.mipiCfg = some mipi → c.panel < L.maxMipiPanel → o.rotation ≤ 3 := by
  constructor
  · intro patches mipi there known
    exact patches.rotation (by simp [there]) known
  · intro few
    refine ⟨fun gdtd there _ => (inside.dtd gdtd there).1,?_,?_⟩
    · intro p member w written
      rcases requested_mem member with clock | ⟨mipi,there,known,rest⟩
      · obtain ⟨gdtd,there,_,rfl⟩ := clockPatches_mem clock
        exact dword_inside.mpr (inside.dtd gdtd there).2 w written
      · obtain ⟨field,listed,low,high⟩ := mipi_pos (writesOf_mem.mpr ⟨p,rest,written⟩)
        have home := inside.mipi mipi there known
        have fits : Inside f field.1 field.2 := by
          rcases List.mem_cons.mp listed with rfl | delayed
          · exact home.1 L.rotation (by simp)
          · obtain ⟨d,member,rfl⟩ := List.mem_map.mp delayed
            exact delay_inside home member
        unfold Inside at fits ⊢
        omega
    · intro has known
      obtain ⟨mipi,there⟩ := Option.isSome_iff_exists.mp has
      exact few mipi there known

theorem clockFor_small (small : o.clock < 2^31) : clockFor L f c o < 2^31 := by
  unfold clockFor
  split
  · exact small
  · split
    · exact BitVec.toInt_lt
    · exact small

-- The clock of a run, in the numbers asked for.
theorem clock_patched {w : Opt → Int} (cut : ∀ x,o.get x = longToInt (w x)) (inside : InfoInside L f c) (apart : Apart L c)
    {gdtd : Nat} (there : c.gdtd = some gdtd) :
    (u32 (puts f (writesOf (requested L f c o))) (dtdAt L c gdtd+L.pixelClock) : Int) =
      if 0 < longToInt (w .hz) then
        if 0 < (timingsAt L f (dtdAt L c gdtd)).clock (longToInt (w .hz)) then
          (timingsAt L f (dtdAt L c gdtd)).clock (longToInt (w .hz))
        else u32 f (dtdAt L c gdtd+L.pixelClock)
      else if 0 < longToInt (w .clock) then longToInt (w .clock) else u32 f (dtdAt L c gdtd+L.pixelClock) := by
  have int : o.clock < 2^31 := by
    rw [show o.clock = longToInt (w .clock) from cut .clock]
    exact (longToInt_range _).2
  have resolved : clockFor L f c o =
      if 0 < longToInt (w .hz) then (timingsAt L f (dtdAt L c gdtd)).clock (longToInt (w .hz))
      else longToInt (w .clock) := by
    rw [clockFor,there,← show o.hz = longToInt (w .hz) from cut .hz,← show o.clock = longToInt (w .clock) from cut .clock]
  rw [readU32_patched there apart (inside.dtd gdtd there).2 (clockFor_small int),resolved]
  split <;> rfl

theorem clock_fits {w : Opt → Int} (cut : ∀ x,o.get x = longToInt (w x)) (inside : InfoInside L f c) (apart : Apart L c)
    {gdtd : Nat} (there : c.gdtd = some gdtd) :
    let t := timingsAt L f (dtdAt L c gdtd)
    let stored : Int := u32 (puts f (writesOf (requested L f c o))) (dtdAt L c gdtd+L.pixelClock)
    let old := u32 f (dtdAt L c gdtd+L.pixelClock)
    ((0 < longToInt (w .clock) → stored = w .clock) ∧
      (0 < longToInt (w .hz) → t.htotal ≠ 0 → t.vtotal ≠ 0 → stored = clockOf t (w .hz))) ↔
    (0 < longToInt (w .clock) → ClockFits t old w) ∧
      (0 < longToInt (w .hz) → t.htotal ≠ 0 → t.vtotal ≠ 0 → HzFits t old (w .hz)) := by
  intro t stored old
  have value : stored = _ := clock_patched cut inside apart there
  have bound : old < 4294967296 := u32_lt _ _
  have width : t.htotal < 131072 := (timings_lt L f _).1
  unfold ClockFits
  by_cases asked : 0 < longToInt (w .hz)
  · rw [if_pos asked] at value
    by_cases real : t.htotal ≠ 0 ∧ t.vtotal ≠ 0
    · have rate : stored = clockOf t (w .hz) ↔ HzFits t old (w .hz) := by
        rw [value]
        exact hz_stored_iff width real.1 real.2 bound asked
      simp only [if_pos asked,if_pos real,rate]
      refine and_congr_left fun hz => forall_congr' fun _ => ?_
      rw [rate.mpr (hz asked real.1 real.2)]
      exact eq_comm
    · have kept : stored = old := by
        rw [value]
        change (if 0 < t.clock _ then _ else _) = _
        rw [clock_without real]
        rfl
      simp only [if_pos asked,if_neg real,kept]
      refine and_congr (forall_congr' fun _ => eq_comm) ?_
      exact forall_congr' fun _ => forall_congr' fun line => forall_congr' fun frame => absurd ⟨line,frame⟩ real
  · rw [if_neg asked] at value
    simp only [asked,false_implies,and_true]
    refine forall_congr' fun given => ?_
    rw [value,if_pos given]
    exact clock_stored_iff given

theorem rotation_fits {w : Opt → Int} (cut : ∀ x,o.get x = longToInt (w x)) {mipi : Nat}
    (inside : MipiInside L f c mipi) (apart : Apart L c) (there : c.mipiCfg = some mipi)
    (known : c.panel < L.maxMipiPanel) :
    (o.rotation ≤ 3 ∧ (0 ≤ o.rotation →
      ((u8 (puts f (writesOf (requested L f c o))) (configAt L c mipi+L.rotation)/2^L.rotationShift%4 : Nat) : Int) =
        w .rotation)) ↔ (0 ≤ longToInt (w .rotation) → 0 ≤ w .rotation ∧ w .rotation ≤ 3) := by
  have value : o.rotation = longToInt (w .rotation) := cut .rotation
  have field := inside.1 L.rotation (by simp)
  have read := rotation_patched (f := f) (o := o) there known (apart.mipi mipi there known) field
  constructor
  · rintro ⟨few,stored⟩ asked
    have same := (read (by omega) few).symm.trans (stored (by omega))
    omega
  · intro fits
    by_cases asked : 0 ≤ longToInt (w .rotation)
    · obtain ⟨low,high⟩ := fits asked
      have same := longToInt_same (by omega : -2147483648 ≤ w .rotation) (by omega)
      refine ⟨by omega,fun given => ?_⟩
      rw [read given (by omega),value,same]
    · exact ⟨by omega,fun given => absurd (value ▸ given) asked⟩

theorem delay_fits {w : Opt → Int} (cut : ∀ x,o.get x = longToInt (w x)) {mipi : Nat}
    (inside : MipiInside L f c mipi) (apart : Apart L c) (there : c.mipiCfg = some mipi)
    (known : c.panel < L.maxMipiPanel) {d : Opt × Nat} (listed : d ∈ delayFields L (ppsAt L c mipi)) :
    (0 ≤ o.get d.1 → (u16 (puts f (writesOf (requested L f c o))) d.2 : Int) = 10*w d.1) ↔
      (0 ≤ longToInt (w d.1) → 0 ≤ w d.1 ∧ w d.1 ≤ 6553) := by
  have read := delay_patched (f := f) (o := o) there known (apart.mipi mipi there known) listed (delay_inside inside listed)
  rw [cut] at read ⊢
  refine forall_congr' fun asked => ?_
  rw [read asked]
  exact delay_stored_iff _

end Requested

-- Whatever texts the command line has: the patches end and store what was asked for
-- exactly when the numbers fit.
theorem requested_stored_iff {L : Layout} {f : Image} {c : Ctx} {args : List Arg} {output : Bool} {o : PatchOpts}
    (parsed : parseArgs args output = some o) (inside : InfoInside L f c) (apart : Apart L c) :
    (∃ patched n,applyPatches L f c o = some (patched,n) ∧ Stored L f c o (wanted args) patched) ↔
      Fits L f c (wanted args) := by
  have cut := parseArgs_get parsed
  have checks := applyPatches_checks L f c o
  have ends : (∃ patched n,applyPatches L f c o = some (patched,n) ∧ Stored L f c o (wanted args) patched) ↔
      PatchesInside L f c o ∧ Stored L f c o (wanted args) (puts f (writesOf (requested L f c o))) := by
    constructor
    · rintro ⟨patched,n,ran,stored⟩
      have holds := checks.needs (by simp [ran])
      rw [checks.gives holds] at ran
      cases ran
      exact ⟨holds,stored⟩
    · rintro ⟨holds,stored⟩
      exact ⟨_,_,checks.gives holds,stored⟩
  rw [ends,applied_iff inside]
  have clock : o.clock = longToInt (wanted args .clock) := cut .clock
  have hz : o.hz = longToInt (wanted args .hz) := cut .hz
  constructor
  · rintro ⟨few,stored⟩
    have clocks (gdtd : Nat) (there : c.gdtd = some gdtd) := (clock_fits cut inside apart there).mp
      ⟨fun asked => stored.clock gdtd there (clock ▸ asked),fun asked line frame =>
        stored_iff_quotient.mp (stored.hz gdtd there (hz ▸ asked) line frame)⟩
    refine ⟨fun gdtd there => (clocks gdtd there).1,fun gdtd there => (clocks gdtd there).2,?_,?_⟩
    · intro mipi there known
      exact (rotation_fits cut (inside.mipi mipi there known) apart there known).mp
        ⟨few mipi there known,stored.rotation mipi there known⟩
    · intro mipi there known d listed
      exact (delay_fits cut (inside.mipi mipi there known) apart there known listed).mp
        (stored.delays mipi there known d listed)
  · intro fits
    have clocks (gdtd : Nat) (there : c.gdtd = some gdtd) := (clock_fits cut inside apart there).mpr
      ⟨fits.clock gdtd there,fits.hz gdtd there⟩
    have turns (mipi : Nat) (there : c.mipiCfg = some mipi) (known : c.panel < L.maxMipiPanel) :=
      (rotation_fits cut (inside.mipi mipi there known) apart there known).mpr (fits.rotation mipi there known)
    refine ⟨fun mipi there known => (turns mipi there known).1,?_,?_,?_,?_⟩
    · exact fun gdtd there asked => (clocks gdtd there).1 (clock ▸ asked)
    · intro gdtd there asked t line frame
      exact stored_iff_quotient.mpr ((clocks gdtd there).2 (hz ▸ asked) line frame)
    · exact fun mipi there known => (turns mipi there known).2
    · intro mipi there known d listed
      exact (delay_fits cut (inside.mipi mipi there known) apart there known listed).mpr
        (fits.delays mipi there known d listed)

-- Six panels in a block 52, of which the first is used.
def withMipi (checksum low high : BitVec 8) : Image :=
  [0x24,0x56,0x42,0x54]++zeros 20++[101,3,checksum,0,48,0,0,0]++zeros 16++
    zeros 18++[22,0,53,3]++[40,1,0,0]++[52,24,3]++zeros 732++[low,high]++zeros 58

def mipiCtx : Ctx := ⟨0,48,821,0,none,some 77⟩

def panelOn (text : String) : List Arg := [.opt .panelOn text]

theorem requested_stored_panel_on :
    ∃ patched n,applyPatches intelVbtDefs (withMipi 0 0 0) mipiCtx ⟨-1,-1,-1,200,-1,-1,-1,-1,true⟩ = some (patched,n) ∧
      Stored intelVbtDefs (withMipi 0 0 0) mipiCtx ⟨-1,-1,-1,200,-1,-1,-1,-1,true⟩ (wanted (panelOn "200")) patched := by
  have parsed : parseArgs (panelOn "200") true = some ⟨-1,-1,-1,200,-1,-1,-1,-1,true⟩ := by decide
  have inside : InfoInside intelVbtDefs (withMipi 0 0 0) mipiCtx :=
    ⟨by simp [mipiCtx],fun mipi there _ => by
      cases there
      exact ⟨by decide +kernel,by decide +kernel⟩⟩
  have apart : Apart intelVbtDefs mipiCtx :=
    ⟨fun mipi there _ => by
      cases there
      decide +kernel,by simp [mipiCtx]⟩
  refine (requested_stored_iff parsed inside apart).mpr ⟨by simp [mipiCtx],by simp [mipiCtx],?_,?_⟩
  · intro mipi _ _ asked
    exact absurd asked (by decide)
  · intro mipi there _ d listed
    cases there
    simp only [delayFields,List.mem_cons,List.not_mem_nil,or_false] at listed
    rcases listed with rfl | rfl | rfl | rfl | rfl
    all_goals decide

-- 7000 ms are 70000 tenths, of which 16 bits are left.
theorem panel_on_truncated :
    parseArgs (panelOn "7000") true = some ⟨-1,-1,-1,7000,-1,-1,-1,-1,true⟩ ∧ wanted (panelOn "7000") .panelOn = 7000 ∧
      initCtx intelVbtDefs (withMipi 0 0 0) = some (.ok mipiCtx) ∧
      applyPatches intelVbtDefs (withMipi 0 0 0) mipiCtx ⟨-1,-1,-1,7000,-1,-1,-1,-1,true⟩ = some (withMipi 0 112 17,1) ∧
      u16 (withMipi 0 112 17) (ppsAt intelVbtDefs mipiCtx 77+intelVbtDefs.panelOnDelay) = 4464 := by
  refine ⟨by decide,by decide,?_,?_,?_⟩
  · decide +kernel
  · decide +kernel
  · decide +kernel

end ChuwiMinibook.Vbt
