import ChuwiMinibook.VbtParse

namespace ChuwiMinibook.Vbt
open ByteImage

-- The entries of the active panel.
section Entries

variable (L : Layout) (f : Image)

def timingsAt (entry : Nat) : Timings :=
  ⟨u16 f (entry+L.hactive),u16 f (entry+L.hblank),u16 f (entry+L.vactive),u16 f (entry+L.vblank)⟩

def TimingsInside (entry : Nat) : Prop := ∀ field ∈ [L.hactive,L.hblank,L.vactive,L.vblank],Inside f (entry+field) 2

theorem readTimings_checks (entry : Nat) : Checks (readTimings L f entry) (TimingsInside L f entry) (timingsAt L f entry) := by
  apply Checks.cong
  · apply Checks.bind (readU16_checks f _)
    intro _
    apply Checks.bind (readU16_checks f _)
    intro _
    apply Checks.bind (readU16_checks f _)
    intro _
    exact (readU16_checks f _).map _
  · simp [TimingsInside]
  · intro _
    rfl

def dtdInfoAt (c : Ctx) (gdtd : Nat) : DtdInfo := ⟨timingsAt L f (dtdAt L c gdtd),u32 f (dtdAt L c gdtd+L.pixelClock)⟩

def mipiInfoAt (c : Ctx) (mipi : Nat) : MipiInfo :=
  ⟨u8 f (configAt L c mipi+L.laneCnt)/2^L.laneShift%4+1,
    rotationStr[u8 f (configAt L c mipi+L.rotation)/2^L.rotationShift%4]?.getD "",
    u16 f (ppsAt L c mipi+L.panelOnDelay),u16 f (ppsAt L c mipi+L.blEnableDelay),u16 f (ppsAt L c mipi+L.blDisableDelay),
    u16 f (ppsAt L c mipi+L.panelOffDelay),u16 f (ppsAt L c mipi+L.panelPowerCycleDelay)⟩

def infoAt (c : Ctx) : Info :=
  ⟨c.panel,c.gdtd.map (dtdInfoAt L f c),
    c.mipiCfg.bind fun mipi => if c.panel < L.maxMipiPanel then some (mipiInfoAt L f c mipi) else none⟩

def DtdInside (c : Ctx) (gdtd : Nat) : Prop :=
  TimingsInside L f (dtdAt L c gdtd) ∧ Inside f (dtdAt L c gdtd+L.pixelClock) 4

def MipiInside (c : Ctx) (mipi : Nat) : Prop :=
  (∀ field ∈ [L.laneCnt,L.rotation],Inside f (configAt L c mipi+field) 1) ∧
    ∀ field ∈ [L.panelOnDelay,L.blEnableDelay,L.blDisableDelay,L.panelOffDelay,L.panelPowerCycleDelay],
      Inside f (ppsAt L c mipi+field) 2

structure InfoInside (c : Ctx) : Prop where
  dtd : ∀ gdtd,c.gdtd = some gdtd → DtdInside L f c gdtd
  mipi : ∀ mipi,c.mipiCfg = some mipi → c.panel < L.maxMipiPanel → MipiInside L f c mipi

theorem rotation_shown (n : Nat) : rotationStr[n%4]? = some (rotationStr[n%4]?.getD "") := by
  have shown : ∀ k < 4,rotationStr[k]? = some (rotationStr[k]?.getD "") := by decide
  exact shown _ (by omega)

theorem printMipi_checks (c : Ctx) (mipi : Nat) :
    Checks (printMipi L f c mipi) (MipiInside L f c mipi) (mipiInfoAt L f c mipi) := by
  apply Checks.cong
  · apply Checks.bind (readU8_checks f _)
    intro _
    apply Checks.bind (readU8_checks f _)
    intro _
    rw [rotation_shown,Option.bind_some]
    apply Checks.bind (readU16_checks f _)
    intro _
    apply Checks.bind (readU16_checks f _)
    intro _
    apply Checks.bind (readU16_checks f _)
    intro _
    apply Checks.bind (readU16_checks f _)
    intro _
    exact (readU16_checks f _).map _
  · simp [MipiInside,and_assoc]
  · intro _
    rfl

theorem printInfo_checks (c : Ctx) : Checks (printInfo L f c) (InfoInside L f c) (infoAt L f c) := by
  apply Checks.cong
  · apply Checks.bind (v := c.gdtd.map (dtdInfoAt L f c)) (P := ∀ gdtd,c.gdtd = some gdtd → DtdInside L f c gdtd)
    · cases c.gdtd with
      | none => exact (Checks.done none).cong (by simp) (fun _ => rfl)
      | some gdtd =>
        have shown : Checks (printDtd L f c gdtd) (DtdInside L f c gdtd) (dtdInfoAt L f c gdtd) :=
          (readTimings_checks L f _).bind fun _ => (readU32_checks f _).map _
        exact (shown.map some).cong (by simp) (fun _ => rfl)
    · intro _
      apply Checks.map (v := c.mipiCfg.bind fun mipi =>
        if c.panel < L.maxMipiPanel then some (mipiInfoAt L f c mipi) else none)
        (P := ∀ mipi,c.mipiCfg = some mipi → c.panel < L.maxMipiPanel → MipiInside L f c mipi)
      cases c.mipiCfg with
      | none => exact (Checks.done none).cong (by simp) (fun _ => rfl)
      | some mipi => exact (Checks.when fun _ => (printMipi_checks L f c mipi).map some).cong (by simp) (fun _ => rfl)
  · exact ⟨fun both => ⟨both.1,both.2⟩,fun inside => ⟨inside.dtd,inside.mipi⟩⟩
  · intro _
    rfl

end Entries

-- What is asked for: each patch with the block and the entry it is meant for and the
-- bytes it writes.
structure Patch where
  block : Nat
  entry : Nat
  size : Nat
  writes : List Write

def writesOf (ps : List Patch) : List Write := ps.flatMap Patch.writes

def Lands (f : Image) (ps : List Patch) : Prop := ∀ p ∈ ps,∀ w ∈ p.writes,Inside f w.pos 1

theorem writesOf_mem {w : Write} {ps : List Patch} : w ∈ writesOf ps ↔ ∃ p ∈ ps,w ∈ p.writes := List.mem_flatMap

theorem lands_iff {f : Image} {ps : List Patch} : Lands f ps ↔ ∀ w ∈ writesOf ps,Inside f w.pos 1 := by
  unfold Lands
  simp only [writesOf_mem,forall_exists_index,and_imp]
  exact ⟨fun all w p member written => all p member w written,fun all p member w written => all w p member written⟩

theorem lands_puts {f : Image} {ws : List Write} {ps : List Patch} : Lands (puts f ws) ps ↔ Lands f ps := by
  simp only [Lands,inside_puts]

section Patches

variable (L : Layout) (f : Image) (c : Ctx) (o : PatchOpts)

def clockFor : Int :=
  match c.gdtd with
  | none => o.clock
  | some gdtd => if 0 < o.hz then (timingsAt L f (dtdAt L c gdtd)).clock o.hz else o.clock

def clockPatch (gdtd : Nat) (clock : Int) : Patch :=
  ⟨gdtd,dtdAt L c gdtd,L.dtdEntry,dword (dtdAt L c gdtd+L.pixelClock) (BitVec.ofInt 32 clock).toNat⟩

def clockPatches (clock : Int) : List Patch :=
  match c.gdtd with
  | none => []
  | some gdtd => if 0 < clock then [clockPatch L c gdtd clock] else []

def rotationPatches (mipi : Nat) : List Patch :=
  if 0 ≤ o.rotation then [⟨mipi,configAt L c mipi,L.mipiConfig,[rotationWrite L (configAt L c mipi) o.rotation]⟩] else []

def delayPatch (mipi : Nat) (delay : Int × Nat) : Patch :=
  ⟨mipi,ppsAt L c mipi,L.ppsData,word delay.2 (BitVec.ofInt 16 (delay.1*10)).toNat⟩

def delayPatches (mipi : Nat) (ds : List (Int × Nat)) : List Patch :=
  (ds.filter (fun d => 0 ≤ d.1)).map (delayPatch L c mipi)

def mipiPatches (mipi : Nat) : List Patch := rotationPatches L c o mipi++delayPatches L c mipi (delays L o (ppsAt L c mipi))

def requested : List Patch :=
  clockPatches L c (clockFor L f c o)++
    match c.mipiCfg with
    | none => []
    | some mipi => if c.panel < L.maxMipiPanel then mipiPatches L c o mipi else []

structure PatchesInside : Prop where
  timings : ∀ gdtd,c.gdtd = some gdtd → 0 < o.hz ∨ 0 < clockFor L f c o → TimingsInside L f (dtdAt L c gdtd)
  fields : Lands f (requested L f c o)
  rotation : c.mipiCfg.isSome = true → c.panel < L.maxMipiPanel → o.rotation ≤ 3

theorem resolved_checks : Checks (resolved L f c o)
    (∀ gdtd,c.gdtd = some gdtd → 0 < o.hz → TimingsInside L f (dtdAt L c gdtd)) (clockFor L f c o) := by
  unfold resolved clockFor
  cases c.gdtd with
  | none => exact (Checks.done _).cong (by simp) (fun _ => rfl)
  | some gdtd => exact (Checks.when fun _ => (readTimings_checks L f _).map _).cong (by simp) (fun _ => rfl)

theorem patchClock_checks (gdtd : Nat) (clock : Int) : Checks (patchClock L f (dtdAt L c gdtd) clock)
    (TimingsInside L f (dtdAt L c gdtd) ∧ Lands f [clockPatch L c gdtd clock])
    (puts f (writesOf [clockPatch L c gdtd clock])) := by
  apply Checks.cong
  · apply Checks.bind (readTimings_checks L f _)
    intro _
    apply Checks.bind (readU32_checks f _)
    intro _
    exact stores_checks f _
  · rw [lands_iff,dword_inside]
    simp [writesOf,clockPatch,dword_inside]
  · intro _
    simp [writesOf,clockPatch]

theorem applyClock_checks (clock : Int) : Checks (applyClock L f c clock)
    ((∀ gdtd,c.gdtd = some gdtd → 0 < clock → TimingsInside L f (dtdAt L c gdtd)) ∧ Lands f (clockPatches L c clock))
    (puts f (writesOf (clockPatches L c clock)),(clockPatches L c clock).length) := by
  unfold applyClock clockPatches
  cases c.gdtd with
  | none => exact (Checks.done _).cong (by simp [Lands]) (fun _ => rfl)
  | some gdtd =>
    by_cases positive : 0 < clock
    · simp only [if_pos positive]
      exact ((patchClock_checks L f c gdtd clock).map (·,1)).cong (by simp [positive]) (fun _ => rfl)
    · simp only [if_neg positive]
      exact (Checks.done _).cong (by simp [positive,Lands]) (fun _ => rfl)

theorem patchDelays_checks (mipi : Nat) (ds : List (Int × Nat)) (n : Nat) : Checks (patchDelays ds f n)
    (Lands f (delayPatches L c mipi ds))
    (puts f (writesOf (delayPatches L c mipi ds)),n+(delayPatches L c mipi ds).length) := by
  induction ds generalizing f n with
  | nil => exact (Checks.done _).cong (by simp [Lands,delayPatches]) (fun _ => rfl)
  | cons d rest ih =>
    obtain ⟨ms,field⟩ := d
    unfold patchDelays
    by_cases asked : 0 ≤ ms
    · have patches : delayPatches L c mipi ((ms,field)::rest) =
          delayPatch L c mipi (ms,field)::delayPatches L c mipi rest := by simp [delayPatches,asked]
      rw [if_pos asked,patches]
      apply Checks.cong
      · apply Checks.bind
        · apply Checks.bind (readU16_checks f _)
          intro _
          exact stores_checks f _
        · intro _
          exact ih _ (n+1)
      · rw [word_inside,lands_puts,and_self,Lands,Lands,List.forall_mem_cons]
        exact and_congr_left fun _ => word_inside.symm
      · intro _
        refine Prod.ext ?_ ?_
        · exact (puts_append _ _ _).symm
        · simp only [List.length_cons]
          omega
    · have patches : delayPatches L c mipi ((ms,field)::rest) = delayPatches L c mipi rest := by
        simp [delayPatches,asked]
      rw [if_neg asked,patches]
      exact ih f n

theorem rotation_known {rotation : Int} (asked : 0 ≤ rotation) :
    Checks rotationStr[rotation.toNat]? (rotation ≤ 3) (rotationStr[rotation.toNat]?.getD "") := by
  constructor
  · intro small
    have mod : rotation.toNat%4 = rotation.toNat := by omega
    rw [← mod]
    exact rotation_shown _
  · intro has
    have short : rotation.toNat < 4 := by simpa [rotationStr] using has
    omega

theorem patchRotation_checks (config : Nat) {rotation : Int} (asked : 0 ≤ rotation) :
    Checks (patchRotation L f config rotation) (Inside f (config+L.rotation) 1 ∧ rotation ≤ 3)
      (put f (rotationWrite L config rotation)) := by
  apply Checks.cong
  · apply Checks.bind (readU8_checks f _)
    intro _
    apply Checks.bind (store_checks f _)
    intro _
    rw [rotation_shown,Option.bind_some]
    exact (rotation_known asked).map _
  · exact ⟨fun all => ⟨all.1,all.2.2⟩,fun all => ⟨all.1,all.1,all.2⟩⟩
  · intro _
    rfl

theorem applyMipi_checks (mipi n : Nat) : Checks (applyMipi L f c o mipi n)
    (Lands f (mipiPatches L c o mipi) ∧ o.rotation ≤ 3)
    (puts f (writesOf (mipiPatches L c o mipi)),n+(mipiPatches L c o mipi).length) := by
  apply Checks.cong
  · apply Checks.bind (P := Lands f (rotationPatches L c o mipi) ∧ o.rotation ≤ 3)
      (v := (puts f (writesOf (rotationPatches L c o mipi)),n+(rotationPatches L c o mipi).length))
    · unfold rotationPatches
      by_cases asked : 0 ≤ o.rotation
      · simp only [if_pos asked]
        refine ((patchRotation_checks L f (configAt L c mipi) asked).map (·,n+1)).cong ?_ ?_
        · simp [Lands,rotationWrite]
        · intro _
          rfl
      · simp only [if_neg asked]
        exact (Checks.done _).cong (by simp [Lands]; omega) (fun _ => rfl)
    · intro _
      exact patchDelays_checks L _ c mipi (delays L o (ppsAt L c mipi)) _
  · rw [lands_puts]
    simp only [Lands,mipiPatches,List.forall_mem_append]
    exact ⟨fun all => ⟨⟨all.1.1,all.2⟩,all.1.2⟩,fun all => ⟨⟨all.1.1,all.2⟩,all.1.2⟩⟩
  · intro _
    simp only [mipiPatches,writesOf,List.flatMap_append,puts_append,List.length_append,Nat.add_assoc]

theorem applyPatches_checks : Checks (applyPatches L f c o) (PatchesInside L f c o)
    (puts f (writesOf (requested L f c o)),(requested L f c o).length) := by
  apply Checks.cong
  · apply Checks.bind (resolved_checks L f c o)
    intro _
    apply Checks.bind (applyClock_checks L f c (clockFor L f c o))
    intro _
    apply Checks.cong (P := ∀ mipi,c.mipiCfg = some mipi → c.panel < L.maxMipiPanel →
        Lands f (mipiPatches L c o mipi) ∧ o.rotation ≤ 3)
      (v := (puts f (writesOf (requested L f c o)),(requested L f c o).length)) ?_ Iff.rfl (fun _ => rfl)
    unfold requested
    cases c.mipiCfg with
    | none => exact (Checks.done _).cong (by simp) (fun _ => by simp)
    | some mipi =>
      by_cases known : c.panel < L.maxMipiPanel
      · simp only [if_pos known]
        refine (applyMipi_checks L _ c o mipi _).cong ?_ ?_
        · simp [lands_puts,known]
        · intro _
          simp only [writesOf,List.flatMap_append,puts_append,List.length_append]
      · simp only [if_neg known]
        exact (Checks.done _).cong (by simp [known]) (fun _ => by simp)
  · constructor
    · rintro ⟨hz,⟨clock,first⟩,rest⟩
      refine ⟨fun gdtd there used => used.elim (hz gdtd there) (clock gdtd there),?_,?_⟩
      · rw [requested,Lands,List.forall_mem_append]
        refine ⟨first,?_⟩
        cases mipi : c.mipiCfg with
        | none => simp
        | some mipi' =>
          by_cases known : c.panel < L.maxMipiPanel
          · simp only [if_pos known]
            exact (rest mipi' mipi known).1
          · simp [known]
      · intro has known
        obtain ⟨mipi,there⟩ := Option.isSome_iff_exists.mp has
        exact (rest mipi there known).2
    · rintro ⟨timings,fields,rotation⟩
      rw [requested,Lands,List.forall_mem_append] at fields
      refine ⟨fun gdtd there asked => timings gdtd there (.inl asked),
        ⟨fun gdtd there asked => timings gdtd there (.inr asked),fields.1⟩,fun mipi there known => ⟨?_,?_⟩⟩
      · simp only [there,if_pos known] at fields
        exact fields.2
      · exact rotation (by simp [there]) known
  · intro _
    rfl

end Patches

def sumAt (f : Image) (start : Nat) : Nat → Nat
  | 0 => 0
  | n+1 => (sumAt f start n+u8 f (start+n))%256

theorem sumBytes_checks {f : Image} {start : Nat} (begins : start ≤ f.length) (n : Nat) :
    Checks (sumBytes f start n) (Inside f start n) (sumAt f start n) := by
  induction n with
  | zero => exact (Checks.done 0).cong (by simpa [Inside] using begins) (fun _ => rfl)
  | succ n ih =>
    refine (ih.bind fun _ => (readU8_checks f _).map _).cong ?_ (fun _ => rfl)
    unfold Inside
    omega

section Checksum

variable (L : Layout) (f : Image) (vbt : Nat)

def checksumAt : Nat := sumAt (put f (byte (vbt+L.vbtChecksum) 0)) vbt (u16 f (vbt+L.vbtSize))

def checksumWrites : List Write :=
  [byte (vbt+L.vbtChecksum) 0,byte (vbt+L.vbtChecksum) (BitVec.ofNat 8 (0x100-checksumAt L f vbt))]

theorem updateChecksum_checks (offset : Inside f (vbt+L.bdbOffset) 4) : Checks (updateChecksum L f vbt)
    (Inside f vbt (u16 f (vbt+L.vbtSize))) (puts f (checksumWrites L f vbt)) := by
  have order := L.vbt_order
  have whole : vbt+L.bdbOffset+4 ≤ f.length := offset
  have size : u16 (put f (byte (vbt+L.vbtChecksum) 0)) (vbt+L.vbtSize) = u16 f (vbt+L.vbtSize) := by
    unfold u16
    rw [readU16_apart (by simp only [byte]; omega)]
  apply Checks.cong
  · apply Checks.bind (store_checks f _)
    intro _
    apply Checks.bind (readU16_checks _ _)
    intro _
    rw [size]
    apply Checks.bind (sumBytes_checks (by simp only [length_put]; omega) _)
    intro _
    exact store_checks _ _
  · simp only [inside_put,byte]
    unfold Inside
    omega
  · intro _
    rfl

end Checksum

section Main

variable (L : Layout) (f : Image) (c : Ctx) (o : PatchOpts)

def patchedWrites : List Write :=
  writesOf (requested L f c o)++checksumWrites L (puts f (writesOf (requested L f c o))) c.vbt

-- The checksum is over as many bytes as the header says after the patches.
structure AppliedInside : Prop where
  patches : PatchesInside L f c o
  sum : requested L f c o ≠ [] → Inside f c.vbt (u16 (puts f (writesOf (requested L f c o))) (c.vbt+L.vbtSize))

structure ServedInside : Prop where
  info : hasPatches o = false → InfoInside L f c
  applied : hasPatches o = true → o.output = true → AppliedInside L f c o

structure FileInside (vbt : Nat) : Prop where
  header : HeaderInside L f vbt
  blocks : BlocksInside L f (bdbAt L f vbt)
  served : ∀ c,ctxAt L f vbt = .ok c → ServedInside L f c o

def served : Outcome :=
  if hasPatches o = false then .info (infoAt L f c)
  else if o.output = false then .rejected "Output file required when patching"
  else if requested L f c o = [] then .unchanged
  else .written (puts f (patchedWrites L f c o))

def outcome : Outcome :=
  match vbtAt f with
  | none => .rejected "VBT signature not found"
  | some vbt => match ctxAt L f vbt with
    | .error message => .rejected message
    | .ok c => served L f c o

end Main

theorem ctxAt_vbt {L : Layout} {f : Image} {vbt : Nat} {c : Ctx} (parsed : ctxAt L f vbt = .ok c) : c.vbt = vbt := by
  unfold ctxAt at parsed
  dsimp only at parsed
  split at parsed
  · cases parsed
  · split at parsed
    · cases parsed
    · cases parsed
      rfl

theorem applied_checks {L : Layout} {f : Image} {c : Ctx} {o : PatchOpts} (offset : Inside f (c.vbt+L.bdbOffset) 4) :
    Checks ((applyPatches L f c o).bind fun (patched,changed) =>
        if changed = 0 then some Outcome.unchanged else (updateChecksum L patched c.vbt).map Outcome.written)
      (AppliedInside L f c o)
      (if requested L f c o = [] then .unchanged else .written (puts f (patchedWrites L f c o))) := by
  apply Checks.cong
  · apply Checks.bind (applyPatches_checks L f c o)
    intro _
    apply Checks.branch
    · intro _
      exact Checks.done _
    · intro _
      exact (updateChecksum_checks L _ c.vbt (inside_puts.mpr offset)).map _
  · simp only [List.length_eq_zero_iff,inside_puts]
    exact ⟨fun all => ⟨all.1,all.2.2⟩,fun all => ⟨all.patches,fun _ => trivial,all.sum⟩⟩
  · intro _
    simp only [List.length_eq_zero_iff,patchedWrites,puts_append]

theorem served_checks {L : Layout} {f : Image} {c : Ctx} {o : PatchOpts} (offset : Inside f (c.vbt+L.bdbOffset) 4) :
    Checks (if hasPatches o = false then (printInfo L f c).map .info
      else if o.output = false then some (.rejected "Output file required when patching")
      else (applyPatches L f c o).bind fun (patched,changed) =>
        if changed = 0 then some .unchanged else (updateChecksum L patched c.vbt).map .written)
      (ServedInside L f c o) (served L f c o) := by
  apply Checks.cong
  · apply Checks.branch
    · intro _
      exact (printInfo_checks L f c).map _
    · intro _
      apply Checks.branch
      · intro _
        exact Checks.done _
      · intro _
        exact applied_checks offset
  · simp only [Bool.not_eq_false]
    exact ⟨fun all => ⟨all.1,fun patches output => (all.2 patches).2 output⟩,
      fun all => ⟨all.info,fun patches => ⟨fun _ => trivial,all.applied patches⟩⟩⟩
  · intro _
    rfl

theorem main_checks (L : Layout) (f : Image) (o : PatchOpts) :
    Checks (main L f o) (∀ vbt,vbtAt f = some vbt → FileInside L f o vbt) (outcome L f o) := by
  have opened := initCtx_checks L f
  unfold main outcome
  cases found : vbtAt f with
  | none =>
    rw [found] at opened
    apply Checks.cong
    · apply Checks.bind opened
      intro _
      exact Checks.done _
    · simp
    · intro _
      rfl
  | some vbt =>
    rw [found] at opened
    dsimp only at opened ⊢
    have parts : (∀ vbt',some vbt = some vbt' → HeaderInside L f vbt' ∧ BlocksInside L f (bdbAt L f vbt')) ↔
        HeaderInside L f vbt ∧ BlocksInside L f (bdbAt L f vbt) := by simp
    cases parsed : ctxAt L f vbt with
    | error message =>
      apply Checks.cong
      · apply Checks.bind (opened.cong parts fun _ => parsed)
        intro _
        exact Checks.done _
      · constructor
        · rintro ⟨⟨header,blocks⟩,_⟩ _ ⟨⟩
          exact ⟨header,blocks,by simp [parsed]⟩
        · intro all
          exact ⟨⟨(all vbt rfl).header,(all vbt rfl).blocks⟩,trivial⟩
      · intro _
        rfl
    | ok c =>
      apply Checks.cong
      · apply Checks.bind (opened.cong parts fun _ => parsed)
        intro inside
        apply served_checks
        rw [ctxAt_vbt parsed]
        exact inside.1.offset
      · constructor
        · rintro ⟨⟨header,blocks⟩,rest⟩ _ ⟨⟩
          refine ⟨header,blocks,fun c' parsed' => ?_⟩
          rw [parsed] at parsed'
          cases parsed'
          exact rest
        · intro all
          exact ⟨⟨(all vbt rfl).header,(all vbt rfl).blocks⟩,(all vbt rfl).served c parsed⟩
      · intro _
        rfl

end ChuwiMinibook.Vbt
