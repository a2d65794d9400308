import ChuwiMinibook.LzmaRefinement

namespace ChuwiMinibook.LzmaLoops
open ByteScan CodedBits LzmaSymbols LzmaBits LzmaDec LzmaPlain LzmaSteps LzmaRefinement
open Lz77 (extend)
open Coded (exec)

-- What no loop changes, and how far a loop writes.
structure Kept (p q : CLzmaDec) : Prop where
  prop : q.prop = p.prop
  tempBuf : q.tempBuf = p.tempBuf
  forward : p.dicPos ≤ q.dicPos
  length : q.dic.length = p.dic.length
  behind : q.dic.drop q.dicPos = p.dic.drop q.dicPos

theorem Kept.refl (p : CLzmaDec) : Kept p p := ⟨rfl,rfl,le_rfl,rfl,rfl⟩

theorem drop_later {a b : Bytes} {m n : Nat} (le : m ≤ n) (same : a.drop m = b.drop m) : a.drop n = b.drop n := by
  rw [show n = m+(n-m) by omega,← List.drop_drop,← List.drop_drop,same]

theorem Kept.trans {p q r : CLzmaDec} (first : Kept p q) (second : Kept q r) : Kept p r where
  prop := second.prop.trans first.prop
  tempBuf := second.tempBuf.trans first.tempBuf
  forward := first.forward.trans second.forward
  length := second.length.trans first.length
  behind := second.behind.trans (drop_later second.forward first.behind)

-- A failed run's dictionary holds what was decoded, up to where it was written.
structure Stopped (p : CLzmaDec) (s : Lz) (dic : Bytes) (dicPos : Nat) : Prop where
  length : dic.length = p.dic.length
  fits : dicPos ≤ p.dic.length
  behind : dic.drop dicPos = p.dic.drop dicPos
  forward : p.dicPos ≤ dicPos
  out : s.out = dic.take dicPos

theorem Stopped.earlier {p q : CLzmaDec} {s : Lz} {dic : Bytes} {dicPos : Nat} (kept : Kept p q) (stopped : Stopped q s dic dicPos) :
    Stopped p s dic dicPos where
  length := stopped.length.trans kept.length
  fits := kept.length ▸ stopped.fits
  behind := stopped.behind.trans (drop_later stopped.forward kept.behind)
  forward := kept.forward.trans stopped.forward
  out := stopped.out

-- How a run of the decoder's loops stands to the plain decoder: it goes on where the
-- plain one does, or both are at an end marker, or both refuse a symbol.
inductive Refined (total : Nat) (mode : ELzmaFinishMode) (p : CLzmaDec) (c : Coder) (limit : Nat) : Run CLzmaDec → Prop where
  | more {q : CLzmaDec} {d : Coder} (inv : Inv q) (wide : Wide q.toCoder) (normalized : normalize q.toCoder = .ok d)
      (kept : Kept p q) (forward : p.dicPos < q.dicPos) (within : q.dicPos ≤ limit)
      (short : q.remainLen < kMatchSpecLenStart) (full : q.remainLen ≠ 0 → q.dicPos = limit)
      (input : ∃ k,d.input = c.input.drop k)
      (same : ∀ tail,plain p.prop total mode (lz p) (c.append tail) = plain p.prop total mode (lz q) (d.append tail)) :
      Refined total mode p c limit (.ok q)
  | ended {q : CLzmaDec} {d : Coder} (fits : q.dicPos ≤ limit) (wide : Wide q.toCoder) (normalized : normalize q.toCoder = .ok d) (kept : Kept p q)
      (marked : q.remainLen = kMatchSpecLenStart)
      (input : ∃ k,d.input = c.input.drop k)
      (same : ∀ tail,plain p.prop total mode (lz p) (c.append tail) = (lz q,d.append tail,.finished)) :
      Refined total mode p c limit (.ok q)
  | failed {dic : Bytes} {dicPos : Nat} {s : Lz} (within : dicPos ≤ limit) (stopped : Stopped p s dic dicPos)
      (same : ∀ tail,∃ d,plain p.prop total mode (lz p) (c.append tail) = (s,d,.bad)) : Refined total mode p c limit (.error (.failed szErrorData dic dicPos))

theorem Refined.earlier {total limit : Nat} {mode : ELzmaFinishMode} {p q : CLzmaDec} {c d : Coder} {run : Run CLzmaDec}
    (kept : Kept p q) (input : ∃ k,d.input = c.input.drop k)
    (same : ∀ tail,plain p.prop total mode (lz p) (c.append tail) = plain p.prop total mode (lz q) (d.append tail))
    (refined : Refined total mode q d limit run) : Refined total mode p c limit run := by
  obtain ⟨j,eaten⟩ := input
  cases refined with
  | more inv wide normalized kept' forward within short full input' same' =>
    obtain ⟨k,eaten'⟩ := input'
    refine .more inv wide normalized (kept.trans kept') (kept.forward.trans_lt forward) within short full
      ⟨j+k,by rw [eaten',eaten,List.drop_drop]⟩ fun tail => ?_
    rw [same,← kept.prop]
    exact same' tail
  | ended fits wide normalized kept' marked input' same' =>
    obtain ⟨k,eaten'⟩ := input'
    refine .ended fits wide normalized (kept.trans kept') marked ⟨j+k,by rw [eaten',eaten,List.drop_drop]⟩ fun tail => ?_
    rw [same,← kept.prop]
    exact same' tail
  | failed within stopped same' =>
    refine .failed within (stopped.earlier kept) fun tail => ?_
    rw [same,← kept.prop]
    exact same' tail

section Real
variable {total limit reserve : Nat} {mode : ELzmaFinishMode}

-- Before the first symbol the source compares the code with kBadRepCode.
def Opened (p : CLzmaDec) (c : Coder) : Prop := p.dicPos = 0 → Opening (lz p) c ∧ c.code < kBadRepCode

theorem inv_coder {p : CLzmaDec} {c : Coder} (inv : Inv p) (probs : c.probs.length = p.probs.length) :
    Inv {p with toCoder := c} :=
  ⟨probs.trans inv.probs,inv.state,inv.fits,inv.place,inv.reps,inv.started⟩

theorem realLoop_refines {fuel : Nat} {p : CLzmaDec} {c : Coder} (inv : Inv p) (idle : p.remainLen = 0) (room : p.dicPos < limit)
    (fits : limit ≤ p.dic.length) (dicLimit : p.checkDicSize = 0 → limit ≤ p.prop.dicSize) (opened : Opened p c)
    (wide : Wide p.toCoder) (normalized : normalize p.toCoder = .ok c)
    (fed : ∃ symbol e d,Came p.prop (lz p) c symbol e d) (reserved : lzmaRequiredInputMax ≤ reserve ∨ c.input.length ≤ reserve)
    (enough : limit-p.dicPos < fuel) (le : limit ≤ total) :
    Refined total mode p c limit (realLoop limit reserve fuel p) := by
  induction fuel generalizing p c with
  | zero => omega
  | succ fuel ih =>
    obtain ⟨symbol,e,d,came⟩ := fed
    have quiet := quiet_of idle
    have ran := real_reads inv quiet wide normalized
    rw [came.ran] at ran
    have normal := normalize_wide wide normalized
    have probs : e.probs.length = p.probs.length := by rw [came.probs,normalize_probs normalized]
    have there := inv_coder inv probs
    have started : (lz p).out.length < total := by rw [idle_length inv quiet]; omega
    obtain ⟨k,few,inside,rest⟩ := came.few normal
    have repeated : symbol.kind = .rep → 0 < p.dicPos := by
      intro kind
      by_contra none
      obtain ⟨opening,low⟩ := opened (by omega)
      have high := (opening_kind opening came.ran).mp kind
      omega
    simp only [realLoop,ran]
    by_cases marked : symbol = .marker
    case pos =>
      subst marked
      simp only [emit,ne_eq,not_true_eq_false,false_and,if_false]
      have same : lz {p with toCoder := e,remainLen := kMatchSpecLenStart} = lz p := by
        rw [lz_eq quiet]
        exact lz_eq rfl
      refine .ended room.le came.wide came.normalized ⟨rfl,rfl,le_rfl,rfl,rfl⟩ rfl ⟨k,rest⟩ fun tail => ?_
      rw [plain_marker started (came.append tail),same]
    case neg =>
      obtain ⟨q,emitted,applied,inv',advanced⟩ | ⟨refused,applied⟩ :=
        emit_refines there idle room fits dicLimit came.proper repeated marked
      · simp only [emitted,marked,ne_eq,not_false_eq_true,true_and]
        have coder : q.toCoder = e := advanced.coder
        have kept : Kept p q := ⟨advanced.prop,advanced.tempBuf,advanced.forward.le,advanced.length,advanced.behind⟩
        have step : ∀ tail,plain p.prop total mode (lz p) (c.append tail) = plain p.prop total mode (lz q) (d.append tail) :=
          fun tail => plain_step started (came.append tail) marked applied
        have normalized' : normalize q.toCoder = .ok d := coder ▸ came.normalized
        have wide' : Wide q.toCoder := coder ▸ came.wide
        split
        case isFalse =>
          exact .more inv' wide' normalized' kept advanced.forward advanced.within advanced.short advanced.full
            ⟨k,rest⟩ step
        case isTrue again =>
          obtain ⟨below,left⟩ := again
          have idle' : q.remainLen = 0 := by
            by_contra some
            exact absurd (advanced.full some) (by omega)
          have normal' := came.normal
          have length' : d.probs.length = numProbs q.prop := by rw [came.length,normalize_probs normalized,inv.probs,advanced.prop]
          have eaten : e.input.length ≤ c.input.length := by
            obtain ⟨j,-,rest',-⟩ := came.paid
            rw [rest',List.length_drop]
            omega
          have most : lzmaRequiredInputMax ≤ d.input.length := by
            have one := (normalize_length came.normalized).2
            rw [coder] at left
            omega
          have fed' : ∃ symbol e f,Came q.prop (lz q) d symbol e f := by
            obtain fed' | ⟨-,few⟩ := next_cases (idle_valid inv' (quiet_of idle')) length' normal'
            · exact fed'
            · omega
          have forward : p.dicPos < q.dicPos := advanced.forward
          refine (ih inv' idle' below (advanced.length ▸ fits) ?_ ?_ wide' normalized' fed' ?_ (by omega)).earlier kept ⟨k,rest⟩ step
          · rw [advanced.check,advanced.prop]
            exact dicLimit
          · intro zero
            omega
          · exact reserved.imp id fun few => by rw [rest,List.length_drop]; omega
      · simp only [refused]
        refine .failed (s := lz p) room.le ⟨rfl,inv.fits,rfl,le_rfl,lz_idle quiet⟩ fun tail => ⟨d.append tail,?_⟩
        exact plain_bad started (came.append tail) marked applied

theorem atLimit_came {prop : Props} {s : Lz} {c d : Coder} {symbol : Symbol} (full : s.out.length = total) (more : c.code ≠ 0)
    (came : next prop s c = .ok (symbol,d)) :
    atLimit prop total .end s c = (s,d,if symbol = .marker then .finished else .bad) := by
  rw [atLimit,if_neg (by decide),if_neg (by omega),if_neg more,came]
  cases symbol <;> rfl

-- Where the output is complete, one match is looked at: an end marker or an error.
theorem realLoop_full {p : CLzmaDec} {c d e : Coder} {symbol : Symbol} (inv : Inv p) (idle : p.remainLen = 0)
    (full : p.dicPos = total) (wide : Wide p.toCoder) (normalized : normalize p.toCoder = .ok c) (more : c.code ≠ 0)
    (came : Came p.prop (lz p) c symbol e d) (kind : symbol.kind = .match) :
    Refined total .end p c total (realLoop total reserve (total-p.dicPos+1) p) := by
  have quiet := quiet_of idle
  have ran := real_reads inv quiet wide normalized
  rw [came.ran] at ran
  have normal := normalize_wide wide normalized
  have length : (lz p).out.length = total := by rw [idle_length inv quiet,full]
  obtain ⟨k,few,inside,rest⟩ := came.few normal
  have looked : ∀ tail,plain p.prop total .end (lz p) (c.append tail) =
      (lz p,d.append tail,if symbol = .marker then .finished else .bad) := by
    intro tail
    rw [plain_limit length.ge,atLimit_came (c := c.append tail) length more (came.append tail)]
  simp only [realLoop,ran]
  cases symbol with
  | literal symbol => cases kind
  | shortRep => cases kind
  | rep index len => cases kind
  | marker =>
    simp only [emit,ne_eq,not_true_eq_false,false_and,if_false]
    have same : lz {p with toCoder := e,remainLen := kMatchSpecLenStart} = lz p := by
      rw [lz_eq quiet]
      exact lz_eq rfl
    refine .ended full.le came.wide came.normalized ⟨rfl,rfl,le_rfl,rfl,rfl⟩ rfl ⟨k,rest⟩ fun tail => ?_
    rw [looked,same,if_pos rfl]
  | simple distance len =>
    rw [emit_full (p := {p with toCoder := e}) full]
    exact .failed (s := lz p) full.le ⟨rfl,inv.fits,rfl,le_rfl,lz_idle quiet⟩ fun tail =>
      ⟨d.append tail,by rw [looked,if_neg fun same => by cases same]⟩

theorem zero_remain {p : CLzmaDec} (idle : p.remainLen = 0) : {p with remainLen := 0} = p := by
  rw [← idle]

-- After the loop the coder is normalized.
theorem decodeReal3_refines {p : CLzmaDec} {c : Coder} (idle : p.remainLen = 0)
    (refined : Refined total mode p c limit (realLoop limit reserve (limit-p.dicPos+1) p)) :
    Refined total mode p c limit (decodeReal3 p limit reserve) ∧
      ∀ q,decodeReal3 p limit reserve = .ok q → Normal q.toCoder := by
  unfold decodeReal3
  rw [zero_remain idle]
  cases ran : realLoop limit reserve (limit-p.dicPos+1) p with
  | error f =>
    rw [ran] at refined
    exact ⟨refined,fun q same => by cases same⟩
  | ok q =>
    rw [ran] at refined
    cases refined with
    | more inv wide normalized kept forward within short full input same =>
      rename_i d
      have normal := normalize_wide wide normalized
      simp only [normalized]
      refine ⟨.more (q := {q with toCoder := d}) (inv_coder inv (congrArg List.length (normalize_probs normalized)))
        normal.wide (normalize_normal normal) ⟨kept.prop,kept.tempBuf,kept.forward,kept.length,kept.behind⟩ forward within short full input
        same,fun r same => ?_⟩
      cases same
      exact normal
    | ended fits wide normalized kept marked input same =>
      rename_i d
      have normal := normalize_wide wide normalized
      simp only [normalized]
      refine ⟨.ended (q := {q with toCoder := d}) fits normal.wide (normalize_normal normal)
        ⟨kept.prop,kept.tempBuf,kept.forward,kept.length,kept.behind⟩ marked input same,fun r same => ?_⟩
      cases same
      exact normal

end Real

section Rem

-- Where checkDicSize has been set as soon as a dictionary's worth is written.
def Strict (p : CLzmaDec) : Prop := p.checkDicSize = 0 → p.dicPos < p.prop.dicSize

theorem writeBytes_extends {n : Nat} {p : CLzmaDec} (pos : 0 < p.reps.rep0) (behind : p.reps.rep0 ≤ p.dicPos)
    (fits : p.dicPos+n ≤ p.dic.length) :
    writeBytes n p = .ok {p with
      dic := extend p.reps.rep0 n (p.dic.take p.dicPos) ++ p.dic.drop (p.dicPos+n),dicPos := p.dicPos+n} := by
  induction n generalizing p with
  | zero => simp only [writeBytes,Lz77.extend_zero,Nat.add_zero,List.take_append_drop]
  | succ n ih =>
    have inside : p.dicPos-p.reps.rep0 < p.dic.length := by omega
    have here : p.dicPos < p.dic.length := by omega
    have length : (p.dic.take p.dicPos).length = p.dicPos := by rw [List.length_take]; omega
    have index : matchedByte p.view = ((p.dicPos-p.reps.rep0 : Nat) : Int) := by
      simp only [matchedByte,CLzmaDec.view,show ¬p.dicPos < p.reps.rep0 by omega,if_false]
      omega
    have found : peek p.dic (matchedByte p.view) = some p.dic[p.dicPos-p.reps.rep0] := by
      rw [index,peek,if_pos (by omega),Int.toNat_natCast,List.getElem?_eq_getElem inside]
    have step := ih (p := {p with dic := p.dic.set p.dicPos p.dic[p.dicPos-p.reps.rep0],dicPos := p.dicPos+1}) pos
      (by simp only; omega) (by simp only [List.length_set]; omega)
    simp only [writeBytes,found,put,here,if_true,step]
    rw [take_set here,List.drop_set_of_lt (by omega),extend,length,List.getElem?_take_of_lt (by omega),
      List.getElem?_eq_getElem inside,show p.dicPos+1+n = p.dicPos+(n+1) by omega]
    rfl

-- The rest of a match is written as far as there is room, and what was decoded
-- stays what it was.
structure Written (limit : Nat) (p r : CLzmaDec) : Prop where
  same : lz r = lz p
  inv : Inv r
  strict : Strict r
  kept : Kept p r
  coder : r.toCoder = p.toCoder
  within : r.dicPos ≤ limit
  short : r.remainLen < kMatchSpecLenStart
  full : r.remainLen ≠ 0 → r.dicPos = limit

theorem left32_eq {p : CLzmaDec} (inv : Inv p) (strict : Strict p) (zero : p.checkDicSize = 0) :
    left32 p = p.prop.dicSize-p.dicPos ∧ p.processedPos = p.dicPos := by
  have below := strict zero
  have small := p.prop.dicSize_lt
  have large := p.prop.dicSize_ge
  obtain ⟨-,same,-⟩ | ⟨set,-,-⟩ := inv.place
  · refine ⟨?_,same⟩
    rw [left32,same]
    simp only [word] at small ⊢
    omega
  · omega

theorem writeRem_refines {limit : Nat} {p : CLzmaDec} (inv : Inv p) (strict : Strict p) (short : p.remainLen < kMatchSpecLenStart)
    (room : p.dicPos ≤ limit) (fits : limit ≤ p.dic.length) (some : p.remainLen ≠ 0 → 0 < p.dicPos) :
    ∃ r,writeRem p limit = .ok r ∧ Written limit p r := by
  by_cases none : p.remainLen = 0
  case pos =>
    refine ⟨p,?_,rfl,inv,strict,.refl p,rfl,room,short,fun other => absurd none other⟩
    simp only [writeRem,none,ne_eq,not_true_eq_false,false_and,if_false]
  case neg =>
    have pos := some none
    obtain ⟨back,reach⟩ := inv.reps.1
    have behind : p.reps.rep0 ≤ p.dicPos := by omega
    have length := take_length inv
    have large := p.prop.dicSize_ge
    have small := p.prop.dicSize_lt
    generalize cut : (if limit-p.dicPos < p.remainLen then limit-p.dicPos else p.remainLen) = len
    have bounds : len ≤ p.remainLen ∧ p.dicPos+len ≤ limit ∧ (p.remainLen-len ≠ 0 → p.dicPos+len = limit) := by
      rw [← cut]
      split <;> omega
    obtain ⟨lenLe,lenFits,lenFull⟩ := bounds
    generalize set : (if p.checkDicSize = 0 ∧ left32 p ≤ len then p.prop.dicSize else p.checkDicSize) = check
    let out := extend p.reps.rep0 len (p.dic.take p.dicPos)
    have outLength : out.length = p.dicPos+len := by rw [Lz77.extend_length back (by rw [length]; exact behind),length]
    let r := {p with
      checkDicSize := check,processedPos := (p.processedPos+len) % word,remainLen := p.remainLen-len
      dic := out ++ p.dic.drop (p.dicPos+len),dicPos := p.dicPos+len}
    have written : writeRem p limit = .ok r := by
      simp only [writeRem,ne_eq,none,not_false_eq_true,short,and_self,if_true,cut,set]
      exact writeBytes_extends (p := {p with checkDicSize := check,processedPos := (p.processedPos+len) % word,remainLen := p.remainLen-len})
        back behind (by simp only; omega)
    have taken : r.dic.take r.dicPos = out := by
      simp only [r]
      rw [List.take_append_of_le_length (by omega),List.take_of_length_le (by omega)]
    have dropped : r.dic.drop r.dicPos = p.dic.drop r.dicPos := by
      simp only [r]
      rw [List.drop_append_of_le_length (by omega),List.drop_of_length_le (by omega),List.nil_append]
    have whole : r.dic.length = p.dic.length := by
      simp only [r,List.length_append,List.length_drop,outLength]
      omega
    have rest : r.remainLen < kMatchSpecLenStart := by simp only [r]; omega
    have place : Place r ∧ Strict r := by
      unfold Place Strict
      simp only [r]
      rw [← set]
      by_cases zero : p.checkDicSize = 0
      case pos =>
        obtain ⟨left,same⟩ := left32_eq inv strict zero
        have below := strict zero
        rw [left,same]
        by_cases reached : p.prop.dicSize-p.dicPos ≤ len
        case pos =>
          rw [if_pos ⟨zero,reached⟩]
          exact ⟨.inr ⟨rfl,by omega,rfl⟩,fun none => by omega⟩
        case neg =>
          rw [if_neg (fun both => reached both.2)]
          refine ⟨.inl ⟨zero,Nat.mod_eq_of_lt (by omega),by omega⟩,fun _ => by omega⟩
      case neg =>
        rw [if_neg (fun both => zero both.1)]
        obtain ⟨other,-,-⟩ | ⟨full,le,same⟩ := inv.place
        · exact absurd other zero
        · rw [same,Nat.mod_add_mod]
          exact ⟨.inr ⟨full,by omega,rfl⟩,fun other => absurd other zero⟩
    refine ⟨r,written,?_,?_,place.2,⟨rfl,rfl,Nat.le_add_right _ _,whole,dropped⟩,rfl,lenFits,rest,lenFull⟩
    · have final : extend r.reps.rep0 (pending r) (r.dic.take r.dicPos) = extend p.reps.rep0 (pending p) (p.dic.take p.dicPos) := by
        rw [pending_of rest,pending_of short,taken]
        simp only [r,out,← Lz77.extend_add,Nat.add_sub_cancel' lenLe]
      rw [lz,final]
      rfl
    · exact ⟨inv.probs,inv.state,by rw [whole]; simp only [r]; omega,place.1,inv.reps.mono fun rep => Reaches.mono (Nat.le_add_right _ _),
        fun _ => Nat.add_pos_left pos _⟩

end Rem

section Real2
variable {limit reserve : Nat} {mode : ELzmaFinishMode}

theorem checked_inv {q : CLzmaDec} (inv : Inv q) : Inv (checked q) ∧ Strict (checked q) := by
  have large := q.prop.dicSize_ge
  have small := q.prop.dicSize_lt
  have place : Place (checked q) ∧ Strict (checked q) := by
    unfold Place Strict checked
    dsimp only
    obtain ⟨zero,same,le⟩ | ⟨full,le,same⟩ := inv.place
    · by_cases reached : q.prop.dicSize ≤ q.processedPos
      · rw [if_pos ⟨zero,reached⟩]
        exact ⟨.inr ⟨rfl,by omega,by rw [same,Nat.mod_eq_of_lt (by omega)]⟩,fun none => by omega⟩
      · rw [if_neg (fun both => reached both.2)]
        exact ⟨.inl ⟨zero,same,le⟩,fun _ => by omega⟩
    · rw [if_neg (by omega)]
      exact ⟨.inr ⟨full,le,same⟩,fun none => by omega⟩
  exact ⟨⟨inv.probs,inv.state,inv.fits,place.1,inv.reps,inv.started⟩,place.2⟩

-- What a round of LzmaDec_DecodeReal2 leaves.
structure Tidy (r : CLzmaDec) : Prop where
  normal : Normal r.toCoder
  strict : r.remainLen < kMatchSpecLenStart → Strict r

theorem Written.kept_trans {p q r : CLzmaDec} (kept : Kept p q) (written : Written limit (checked q) r) : Kept p r :=
  kept.trans ⟨written.kept.prop,written.kept.tempBuf,written.kept.forward,written.kept.length,written.kept.behind⟩

-- The part of a round behind LzmaDec_DecodeReal_3.
theorem settle {limit2 : Nat} {p q : CLzmaDec} {c : Coder} (le : limit2 ≤ limit) (fits : limit ≤ p.dic.length)
    (refined : Refined limit mode p c limit2 (.ok q)) (normal : Normal q.toCoder) :
    ∃ r,writeRem (checked q) limit = .ok r ∧ Refined limit mode p c limit (.ok r) ∧ Tidy r ∧ r.toCoder = q.toCoder := by
  cases refined with
  | more inv wide normalized kept forward within short full input same =>
    rename_i d
    obtain ⟨inv',strict⟩ := checked_inv inv
    obtain ⟨r,ran,written⟩ := writeRem_refines inv' strict short (within.trans le) (kept.length ▸ fits)
      (fun _ => (Nat.zero_le _).trans_lt forward)
    have coder : r.toCoder = q.toCoder := written.coder
    have equal : lz r = lz q := written.same
    refine ⟨r,ran,.more written.inv (coder ▸ wide) (coder ▸ normalized) (written.kept_trans kept) (forward.trans_le written.kept.forward)
      written.within written.short written.full input (fun tail => ?_),⟨coder ▸ normal,fun _ => written.strict⟩,coder⟩
    rw [same tail,equal]
  | ended fits' wide normalized kept marked input same =>
    have ran : writeRem (checked q) limit = .ok (checked q) := by
      simp only [writeRem,checked,marked,lt_irrefl,and_false,if_false]
    refine ⟨checked q,ran,.ended (fits'.trans le) wide normalized ⟨kept.prop,kept.tempBuf,kept.forward,kept.length,kept.behind⟩ marked
      input same,⟨normal,fun short => ?_⟩,rfl⟩
    exact absurd short (by rw [show (checked q).remainLen = q.remainLen from rfl,marked]; exact lt_irrefl _)

def Opens (p : CLzmaDec) : Prop := p.dicPos = 0 → Opening (lz p) p.toCoder

theorem limit2_bounds {p : CLzmaDec} (inv : Inv p) (strict : Strict p) (room : p.dicPos ≤ limit) :
    limit2 p limit ≤ limit ∧ (p.dicPos < limit → p.dicPos < limit2 p limit) ∧ (p.dicPos = limit → limit2 p limit = limit) ∧
      (p.checkDicSize = 0 → p.dicPos < limit → limit2 p limit ≤ p.prop.dicSize) := by
  unfold limit2
  by_cases zero : p.checkDicSize = 0
  case pos =>
    obtain ⟨left,-⟩ := left32_eq inv strict zero
    have below := strict zero
    rw [left]
    split <;> omega
  case neg =>
    rw [if_neg (fun both => zero both.1)]
    exact ⟨le_rfl,id,fun _ => rfl,fun other => absurd other zero⟩

theorem first_refused {p : CLzmaDec} {symbol : Symbol} {d e : Coder} (inv : Inv p) (idle : p.remainLen = 0) (room : p.dicPos < limit)
    (opens : Opens p) (came : Came p.prop (lz p) p.toCoder symbol e d) (zero : p.dicPos = 0) (bad : kBadRepCode ≤ p.code) :
    Refined limit mode p p.toCoder limit (.error (.failed szErrorData p.dic p.dicPos)) := by
  have quiet := quiet_of idle
  have opening := opens zero
  have kind := (opening_kind opening came.ran).mpr bad
  have started : (lz p).out.length < limit := by rw [idle_length inv quiet]; exact room
  have refused : (lz p).apply p.prop symbol = none := by
    have unreached : ∀ s : Lz,s.out = [] → ∀ len,s.copy len = none := by
      intro s empty len
      rw [Lz.copy,if_neg]
      rw [empty,List.length_nil]
      omega
    cases symbol with
    | literal symbol => cases kind
    | shortRep => exact unreached {lz p with state := shortRepState p.state} opening.empty 1
    | rep index len =>
      exact unreached {lz p with reps := p.reps.choose index,state := repState p.state} opening.empty (len+kMatchMinLen)
    | simple distance len => cases kind
    | marker => cases kind
  have other : symbol ≠ .marker := fun same => by rw [same] at kind; cases kind
  exact .failed (s := lz p) room.le ⟨rfl,inv.fits,rfl,le_rfl,lz_idle quiet⟩ fun tail =>
    ⟨d.append tail,plain_bad started (came.append tail) other refused⟩

theorem real2Loop_refines {fuel : Nat} {p : CLzmaDec} (inv : Inv p) (strict : Strict p) (idle : p.remainLen = 0)
    (room : p.dicPos < limit) (fits : limit ≤ p.dic.length) (opens : Opens p) (normal : Normal p.toCoder)
    (fed : ∃ symbol e d,Came p.prop (lz p) p.toCoder symbol e d)
    (reserved : lzmaRequiredInputMax ≤ reserve ∨ p.input.length ≤ reserve) (enough : limit-p.dicPos < fuel) :
    Refined limit mode p p.toCoder limit (real2Loop limit reserve fuel p) ∧
      ∀ r,real2Loop limit reserve fuel p = .ok r → Tidy r := by
  induction fuel generalizing p with
  | zero => omega
  | succ fuel ih =>
    obtain ⟨symbol,e,d,came⟩ := fed
    have large := p.prop.dicSize_ge
    obtain ⟨le,farther,-,early⟩ := limit2_bounds inv strict room.le
    simp only [real2Loop]
    by_cases first : p.checkDicSize = 0 ∧ p.processedPos = 0 ∧ kBadRepCode ≤ p.code
    case pos =>
      obtain ⟨zero,none,bad⟩ := first
      obtain ⟨-,same⟩ := left32_eq inv strict zero
      simp only [zero,none,bad,and_self,if_true]
      exact ⟨first_refused inv idle room opens came (by omega) bad,fun r other => by cases other⟩
    case neg =>
      simp only [first,if_false]
      have opened : Opened p p.toCoder := by
        intro none
        refine ⟨opens none,?_⟩
        by_contra bad
        have zero : p.checkDicSize = 0 ∧ p.processedPos = 0 := by
          obtain ⟨zero,same,-⟩ | ⟨-,full,-⟩ := inv.place
          · exact ⟨zero,by omega⟩
          · omega
        exact first ⟨zero.1,zero.2,Nat.not_lt.mp bad⟩
      have looped : Refined limit mode p p.toCoder (limit2 p limit)
          (realLoop (limit2 p limit) reserve (limit2 p limit-p.dicPos+1) p) := realLoop_refines inv idle (farther room) (le.trans fits)
        (fun zero => early zero room) opened normal.wide (normalize_normal normal) ⟨symbol,e,d,came⟩ reserved (Nat.lt_succ_self _) le
      obtain ⟨refined,ends⟩ := decodeReal3_refines idle looped
      cases ran : decodeReal3 p (limit2 p limit) reserve with
      | error f =>
        rw [ran] at refined
        cases refined with
        | failed within stopped same => exact ⟨.failed (within.trans le) stopped same,fun r other => by cases other⟩
      | ok q =>
        rw [ran] at refined
        obtain ⟨r,written,after,tidy,coder⟩ := settle le fits refined (ends q ran)
        simp only [written]
        split
        case isFalse => exact ⟨after,fun s same => by cases same; exact tidy⟩
        case isTrue again =>
          obtain ⟨below,left,short⟩ := again
          cases after with
          | ended fits' wide normalized kept marked input same => rw [marked] at short; exact absurd short (lt_irrefl _)
          | more inv' wide normalized kept forward within short' full input same =>
            rename_i f
            have idle' : r.remainLen = 0 := by
              by_contra some
              exact absurd (full some) (by omega)
            obtain ⟨k,rest⟩ := input
            rw [normalize_normal tidy.normal] at normalized
            cases normalized
            have length : r.probs.length = numProbs r.prop := inv'.probs
            have eaten : r.input.length ≤ p.input.length := by
              rw [rest,List.length_drop]
              omega
            have fed' : ∃ symbol e d,Came r.prop (lz r) r.toCoder symbol e d := by
              obtain fed' | ⟨-,few⟩ := next_cases (idle_valid inv' (quiet_of idle')) length tidy.normal
              · exact fed'
              · simp only [lzmaRequiredInputMax] at few reserved
                omega
            obtain ⟨final,tidies⟩ := ih inv' (tidy.strict short') idle' below (kept.length ▸ fits) (fun none => by omega) tidy.normal fed'
              (reserved.imp id fun few => by omega) (by omega)
            exact ⟨final.earlier kept ⟨k,rest⟩ same,tidies⟩

end Real2

end ChuwiMinibook.LzmaLoops
