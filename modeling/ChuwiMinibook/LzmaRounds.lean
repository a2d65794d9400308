import ChuwiMinibook.LzmaDummy
import ChuwiMinibook.LzmaLoops

namespace ChuwiMinibook.LzmaRounds
open ByteScan CodedBits LzmaSymbols LzmaBits LzmaDec LzmaPlain LzmaSteps LzmaRefinement LzmaLoops LzmaDummy
open Lz77 (extend)
open Coded (exec exec_bind)

-- The coder is changed by what is read and by nothing that is written.
section Frame
variable {limit reserve : Nat} {p q : CLzmaDec}

theorem put_coder {byte : UInt8} (ran : put p byte = .ok q) : q.toCoder = p.toCoder := by
  unfold put at ran
  split at ran
  case isTrue => cases ran; rfl
  case isFalse => cases ran

theorem copyMatch_coder {len : Nat} (ran : copyMatch limit p len = .ok q) : q.toCoder = p.toCoder := by
  unfold copyMatch at ran
  dsimp only at ran
  split at ran
  case isTrue => cases ran
  case isFalse =>
    split at ran
    · cases ran
    · cases ran
      rfl

theorem emit_coder {symbol : Symbol} (ran : emit limit p symbol = .ok q) : q.toCoder = p.toCoder := by
  cases symbol with
  | literal symbol =>
    have coder := put_coder ran
    exact coder
  | shortRep =>
    simp only [emit] at ran
    cases found : peek p.dic (matchedByte p.view) with
    | none => simp only [found] at ran; cases ran
    | some byte =>
      simp only [found] at ran
      have coder := put_coder ran
      exact coder
  | rep index len =>
    have coder := copyMatch_coder ran
    exact coder
  | simple distance len =>
    simp only [emit] at ran
    generalize (if p.checkDicSize = 0 then p.processedPos else p.checkDicSize) = size at ran
    by_cases far : size ≤ distance
    case pos =>
      rw [if_pos far] at ran
      cases ran
    case neg =>
      rw [if_neg far] at ran
      have coder := copyMatch_coder ran
      exact coder
  | marker => cases ran; rfl

theorem writeBytes_coder {n : Nat} (ran : writeBytes n p = .ok q) : q.toCoder = p.toCoder := by
  induction n generalizing p with
  | zero => cases ran; rfl
  | succ n ih =>
    simp only [writeBytes] at ran
    split at ran
    · cases ran
    · split at ran
      · cases ran
      · rename_i put
        exact (ih ran).trans (put_coder put)

theorem writeRem_coder (ran : writeRem p limit = .ok q) : q.toCoder = p.toCoder := by
  unfold writeRem at ran
  split at ran
  case isTrue =>
    have coder := writeBytes_coder ran
    exact coder
  case isFalse => cases ran; rfl

-- Where no more input is meant to be taken than one symbol needs, none is.
theorem decodeReal2_once {d e : Coder} {symbol : Symbol} (inv : Inv p) (idle : p.remainLen = 0) (normal : Normal p.toCoder)
    (came : Came p.prop (lz p) p.toCoder symbol e d) (few : p.input.length ≤ reserve)
    (ran : decodeReal2 p limit reserve = .ok q) : q.toCoder = d := by
  have read := real_reads inv (quiet_of idle) normal.wide (normalize_normal normal)
  rw [came.ran] at read
  have eaten : e.input.length ≤ p.input.length := by
    obtain ⟨j,-,rest,-⟩ := came.paid
    rw [rest,List.length_drop]
    omega
  have one : ∀ limit r,decodeReal3 p limit reserve = .ok r → r.toCoder = d := by
    intro limit r ran
    unfold decodeReal3 at ran
    rw [zero_remain idle] at ran
    simp only [realLoop,read] at ran
    split at ran
    · cases ran
    · rename_i q looped
      split at looped
      · cases looped
      · rename_i after emitted
        have coder := emit_coder emitted
        rw [if_neg (by rw [coder]; dsimp only; omega)] at looped
        cases looped
        rw [coder,came.normalized] at ran
        cases ran
        rfl
  have same := (normalize_length came.normalized).1
  unfold decodeReal2 at ran
  simp only [real2Loop] at ran
  split at ran
  · cases ran
  · split at ran
    · cases ran
    · rename_i after decoded
      split at ran
      · cases ran
      · rename_i r written
        have kept : r.toCoder = (checked after).toCoder := writeRem_coder written
        have coder : r.toCoder = d := kept.trans (one _ after decoded)
        rw [if_neg (by rw [coder]; omega)] at ran
        cases ran
        exact coder

end Frame

section Dummy
variable {p : CLzmaDec}

theorem alike_refl (used : Nat → Prop) (c : Coder) : Alike used c c := ⟨rfl,rfl,rfl,fun _ _ => rfl⟩

-- Two runs that read alike stand at one place of the input.
theorem sketch_cases {α : Type} {r s : Except Halt (α × Coder)} (same : sketch r = sketch s) :
    (∃ h,r = .error h ∧ s = .error h) ∨ ∃ a c d,r = .ok (a,c) ∧ s = .ok (a,d) ∧ Alike (fun _ => True) d c := by
  cases r with
  | error h =>
    cases s with
    | error i => cases same; exact .inl ⟨h,rfl,rfl⟩
    | ok s => cases same
  | ok r =>
    cases s with
    | error i => cases same
    | ok s =>
      obtain ⟨a,c⟩ := r
      obtain ⟨b,d⟩ := s
      simp only [sketch,Except.ok.injEq,Prod.mk.injEq] at same
      obtain ⟨rfl,range,code,input⟩ := same
      exact .inr ⟨a,c,d,rfl,rfl,range,code,input,fun _ unused => absurd trivial unused⟩

-- The dry run reads what the decoder would.
theorem dummy_sketch (inv : Inv p) (idle : p.remainLen = 0) (c : Coder) :
    sketch (exec p.dic keep (readSymbol p.view) c) = sketch (exec (lz p).out learn (readSymbol ((lz p).view p.prop)) c) := by
  have quiet := quiet_of idle
  have allowed := view_allowed p.prop (idle_valid inv quiet)
  have window : ∀ i < (lz p).out.length,p.dic[i]? = (lz p).out[i]? := by
    intro i inside
    rw [lz_idle quiet] at inside ⊢
    rw [take_length inv] at inside
    rw [List.getElem?_take_of_lt inside]
  rw [reads inv quiet,exec_window allowed window]
  exact exec_alike allowed (alike_refl _ c)

theorem tryDummy_cases (buf : Bytes) (inv : Inv p) (idle : p.remainLen = 0) (normal : Normal p.toCoder) :
    (∃ symbol e d,Came p.prop (lz p) {p.toCoder with input := buf} symbol e d ∧ tryDummy p buf = .ok symbol.kind) ∨
      (next p.prop (lz p) {p.toCoder with input := buf} = .error .starved ∧ buf.length < lzmaRequiredInputMax ∧
        tryDummy p buf = .ok .error) := by
  have alike := sketch_cases (dummy_sketch inv idle {p.toCoder with input := buf})
  unfold tryDummy
  rw [dummySymbol_eq,exec_bind]
  obtain ⟨symbol,e,d,came⟩ | ⟨starved,few⟩ :=
    next_cases (c := {p.toCoder with input := buf}) (idle_valid inv (quiet_of idle)) inv.probs normal
  · refine .inl ⟨symbol,e,d,came,?_⟩
    obtain ⟨h,-,failed⟩ | ⟨a,c,f,dry,ran,alike⟩ := alike
    · rw [came.ran] at failed
      cases failed
    · rw [came.ran] at ran
      cases ran
      obtain ⟨h,failed,-⟩ | ⟨n,m,-,right,-⟩ := alike.normalize
      · rw [came.normalized] at failed
        cases failed
      · simp only [dry,exec,right]
  · refine .inr ⟨starved,few,?_⟩
    obtain ⟨h,dry,ran⟩ | ⟨a,c,f,dry,ran,alike⟩ := alike
    · simp only [next,ran] at starved
      cases starved
      simp only [dry]
    · obtain ⟨h,-,right⟩ | ⟨n,m,left,-,-⟩ := alike.normalize
      · simp only [dry,exec,right]
      · simp only [next,ran,left] at starved
        cases starved

end Dummy

section Round
variable {total limit reserve : Nat} {mode : ELzmaFinishMode} {p q : CLzmaDec} {c : Coder}

theorem forward_of (refined : Refined total mode p c limit (.ok q)) : p.dicPos ≤ q.dicPos := by
  cases refined with
  | more inv wide normalized kept forward within short full input same => exact kept.forward
  | ended fits wide normalized kept marked input same => exact kept.forward

-- What holds of a decoder between two symbols.
structure Steady (limit : Nat) (p : CLzmaDec) : Prop where
  inv : Inv p
  normal : Normal p.toCoder
  strict : Strict p
  within : p.dicPos ≤ limit
  fits : limit ≤ p.dic.length
  opens : Opens p

theorem Steady.input (steady : Steady limit p) (buf : Bytes) : Steady limit {p with input := buf} where
  inv := inv_coder steady.inv rfl
  normal := steady.normal
  strict := steady.strict
  within := steady.within
  fits := steady.fits
  opens := fun none => ⟨(steady.opens none).state,(steady.opens none).empty,(steady.opens none).range,(steady.opens none).isMatch,
    (steady.opens none).isRep⟩

theorem real2Loop_full {symbol : Symbol} {d e : Coder} (steady : Steady limit p) (idle : p.remainLen = 0) (full : p.dicPos = limit)
    (more : p.code ≠ 0) (came : Came p.prop (lz p) p.toCoder symbol e d) (kind : symbol.kind = .match) :
    Refined limit .end p p.toCoder limit (decodeReal2 p limit reserve) ∧ ∀ r,decodeReal2 p limit reserve = .ok r → Tidy r := by
  obtain ⟨inv,normal,strict,-,fits,opens⟩ := steady
  have first : ¬(p.checkDicSize = 0 ∧ p.processedPos = 0 ∧ kBadRepCode ≤ p.code) := by
    rintro ⟨zero,none,bad⟩
    obtain ⟨-,same⟩ := left32_eq inv strict zero
    have again := (opening_kind (opens (by omega)) came.ran).mpr bad
    rw [kind] at again
    cases again
  obtain ⟨-,-,whole,-⟩ := limit2_bounds inv strict full.le
  have looped : Refined limit .end p p.toCoder limit (realLoop limit reserve (limit-p.dicPos+1) p) :=
    realLoop_full inv idle full normal.wide (normalize_normal normal) more came kind
  obtain ⟨refined,ends⟩ := decodeReal3_refines idle looped
  simp only [decodeReal2,real2Loop,first,if_false,whole full]
  cases ran : decodeReal3 p limit reserve with
  | error f =>
    rw [ran] at refined
    exact ⟨refined,fun r other => by cases other⟩
  | ok q =>
    rw [ran] at refined
    obtain ⟨r,written,after,tidy,-⟩ := settle le_rfl fits refined (ends q ran)
    have stays : ¬r.dicPos < limit := by
      have forward := forward_of after
      omega
    simp only [written,stays,false_and,if_false]
    exact ⟨after,fun s same => by cases same; exact tidy⟩

-- A round is begun where there is room, or for an end marker.
theorem decodeReal2_refines {symbol : Symbol} {d e : Coder} (steady : Steady limit p) (idle : p.remainLen = 0)
    (came : Came p.prop (lz p) p.toCoder symbol e d)
    (way : p.dicPos < limit ∨ (p.dicPos = limit ∧ mode = .end ∧ p.code ≠ 0 ∧ symbol.kind = .match))
    (reserved : lzmaRequiredInputMax ≤ reserve ∨ p.input.length ≤ reserve) :
    Refined limit mode p p.toCoder limit (decodeReal2 p limit reserve) ∧ ∀ r,decodeReal2 p limit reserve = .ok r → Tidy r := by
  obtain room | ⟨full,rfl,more,kind⟩ := way
  · exact real2Loop_refines steady.inv steady.strict idle room steady.fits steady.opens steady.normal ⟨symbol,e,d,came⟩ reserved
      (Nat.lt_succ_self _)
  · exact real2Loop_full steady idle full more came kind

theorem append_append (c : Coder) (a b : Bytes) : (c.append a).append b = c.append (a ++ b) := by
  simp only [Coder.append,List.append_assoc]

theorem drop_within (input : Bytes) (k : Nat) : ∃ j ≤ input.length,input.drop k = input.drop j := by
  by_cases le : k ≤ input.length
  · exact ⟨k,le,rfl⟩
  · exact ⟨input.length,le_rfl,by rw [List.drop_of_length_le (by omega),List.drop_length]⟩

theorem appended (tail : Bytes) (refined : Refined total mode p c limit (.ok q)) :
    Refined total mode p (c.append tail) limit (.ok {q with input := q.input ++ tail}) := by
  cases refined with
  | more inv wide normalized kept forward within short full input same =>
    rename_i d
    obtain ⟨k,eaten⟩ := input
    obtain ⟨j,le,drops⟩ := drop_within c.input k
    refine .more (inv_coder inv rfl) wide (normalize_append tail normalized)
      ⟨kept.prop,kept.tempBuf,kept.forward,kept.length,kept.behind⟩ forward within short full ⟨j,?_⟩ fun behind => ?_
    · simp only [Coder.append,List.drop_append_of_le_length le,eaten,drops]
    · rw [append_append,append_append]
      exact same (tail ++ behind)
  | ended fits wide normalized kept marked input same =>
    rename_i d
    obtain ⟨k,eaten⟩ := input
    obtain ⟨j,le,drops⟩ := drop_within c.input k
    refine .ended fits wide (normalize_append tail normalized)
      ⟨kept.prop,kept.tempBuf,kept.forward,kept.length,kept.behind⟩ marked ⟨j,?_⟩ fun behind => ?_
    · simp only [Coder.append,List.drop_append_of_le_length le,eaten,drops]
    · rw [append_append,append_append]
      exact same (tail ++ behind)

theorem appended_failed {f : Failure} (tail : Bytes) (refined : Refined total mode p c limit (.error f)) :
    Refined total mode p (c.append tail) limit (.error f) := by
  cases refined with
  | failed within stopped same =>
    refine .failed within stopped fun behind => ?_
    rw [append_append]
    exact same (tail ++ behind)

-- What is read from does not matter to what is decoded.
theorem rebuffered {buf : Bytes} (refined : Refined total mode {p with input := buf} c limit (.ok q)) :
    Refined total mode {p with tempBuf := []} c limit (.ok {q with tempBuf := []}) := by
  cases refined with
  | more inv wide normalized kept forward within short full input same =>
    exact .more ⟨inv.probs,inv.state,inv.fits,inv.place,inv.reps,inv.started⟩ wide normalized
      ⟨kept.prop,rfl,kept.forward,kept.length,kept.behind⟩ forward within short full input same
  | ended fits wide normalized kept marked input same =>
    exact .ended fits wide normalized ⟨kept.prop,rfl,kept.forward,kept.length,kept.behind⟩ marked input same

theorem rebuffered_failed {buf : Bytes} {f : Failure} (refined : Refined total mode {p with input := buf} c limit (.error f)) :
    Refined total mode {p with tempBuf := []} c limit (.error f) := by
  cases refined with
  | failed within stopped same => exact .failed within ⟨stopped.length,stopped.fits,stopped.behind,stopped.forward,stopped.out⟩ same

-- A decoder as a call leaves it: it has kept input only if a symbol lacks some.
structure Live (limit : Nat) (p : CLzmaDec) : Prop extends Steady limit p where
  short : p.remainLen < kMatchSpecLenStart
  full : p.remainLen ≠ 0 → p.dicPos = limit ∧ 0 < p.dicPos
  starved : p.tempBuf ≠ [] → next p.prop (lz p) {p.toCoder with input := p.tempBuf} = .error .starved

-- What a decoder reads next: what it has kept, then src.
def feed (p : CLzmaDec) (src : Bytes) : Coder := {p.toCoder with input := p.tempBuf ++ src}

inductive Round (limit : Nat) (mode : ELzmaFinishMode) (p : CLzmaDec) (src : Bytes) : Run (Option (CLzmaDec × Bytes)) → Prop
  | starved (failed : next p.prop (lz p) (feed p src) = .error .starved) (few : (p.tempBuf ++ src).length < lzmaRequiredInputMax) :
      Round limit mode p src (.ok none)
  | moved {q : CLzmaDec} {rest : Bytes}
      (refined : Refined limit mode {p with tempBuf := []} (feed p src) limit (.ok {q with tempBuf := [],input := rest})) (tidy : Tidy q)
      (empty : q.tempBuf = []) (suffix : rest <:+ src) : Round limit mode p src (.ok (some (q,rest)))
  | failed {f : Failure} (refined : Refined limit mode {p with tempBuf := []} (feed p src) limit (.error f)) :
      Round limit mode p src (.error f)

-- Where only an end marker may come, another symbol is an error.
theorem refuse_refines {symbol : Symbol} {d e : Coder} (steady : Steady limit p) (idle : p.remainLen = 0) (full : p.dicPos = limit)
    (more : c.code ≠ 0) (came : Came p.prop (lz p) c symbol e d) (kind : symbol.kind ≠ .match) :
    Refined limit .end {p with tempBuf := []} c limit (dataError p) := by
  have inv := steady.inv
  have quiet := quiet_of idle
  have length : (lz p).out.length = limit := by rw [idle_length inv quiet,full]
  have other : symbol ≠ .marker := fun same => kind (by rw [same]; rfl)
  refine .failed (s := lz p) full.le ⟨rfl,inv.fits,rfl,le_rfl,lz_idle quiet⟩ fun tail => ⟨d.append tail,?_⟩
  refine (plain_limit length.ge).trans ?_
  rw [atLimit_came (c := c.append tail) length more (came.append tail),if_neg other]

-- What a symbol was seen to be, where that was looked at.
theorem moves {buf tail src : Bytes} {reserve : Nat} {symbol : Symbol} {d e : Coder} (live : Live limit p) (idle : p.remainLen = 0)
    (whole : p.tempBuf ++ src = buf ++ tail) (came : Came p.prop (lz p) {p.toCoder with input := buf} symbol e d)
    (way : p.dicPos < limit ∨ (p.dicPos = limit ∧ mode = .end ∧ p.code ≠ 0 ∧ symbol.kind = .match))
    (reserved : lzmaRequiredInputMax ≤ reserve ∨ buf.length ≤ reserve) :
    (∃ f,decodeReal2 {p with input := buf} limit reserve = .error f ∧
        Refined limit mode {p with tempBuf := []} (feed p src) limit (.error f)) ∨
      ∃ q,decodeReal2 {p with input := buf} limit reserve = .ok q ∧ Tidy q ∧ q.tempBuf = p.tempBuf ∧ q.input <:+ buf ∧
        Refined limit mode {p with tempBuf := []} (feed p src) limit (.ok {q with tempBuf := [],input := q.input ++ tail}) := by
  have same : feed p src = Coder.append {p.toCoder with input := buf} tail := by simp only [feed,Coder.append,whole]
  obtain ⟨refined,tidy⟩ := decodeReal2_refines (live.toSteady.input buf) idle came way reserved
  rw [same]
  cases ran : decodeReal2 {p with input := buf} limit reserve with
  | error f =>
    rw [ran] at refined
    exact .inl ⟨f,rfl,appended_failed tail (rebuffered_failed refined)⟩
  | ok q =>
    rw [ran] at refined
    have left : q.tempBuf = p.tempBuf ∧ q.input <:+ buf := by
      cases refined with
      | more inv wide normalized kept forward within short full input same =>
        obtain ⟨k,rest⟩ := input
        rw [normalize_normal (tidy q ran).normal] at normalized
        cases normalized
        exact ⟨kept.tempBuf,by rw [rest]; exact List.drop_suffix k buf⟩
      | ended fits wide normalized kept marked input same =>
        obtain ⟨k,rest⟩ := input
        rw [normalize_normal (tidy q ran).normal] at normalized
        cases normalized
        exact ⟨kept.tempBuf,by rw [rest]; exact List.drop_suffix k buf⟩
    exact .inr ⟨q,rfl,tidy q ran,left.1,left.2,appended tail (rebuffered refined)⟩

theorem next_starved_append {prop : Props} {s : Lz} {d : Coder} {symbol : Symbol} {tail : Bytes}
    (starved : next prop s c = .error .starved) (ran : next prop s (c.append tail) = .ok (symbol,d)) : d.input.length ≤ tail.length := by
  obtain ⟨f,longer,normalized⟩ := next_parts ran
  cases shorter : exec s.out learn (readSymbol (s.view prop)) c with
  | error h =>
    simp only [next,shorter] at starved
    cases starved
    have first := exec_starved_append shorter longer
    have second := (normalize_length normalized).1
    omega
  | ok read =>
    obtain ⟨other,e⟩ := read
    rw [exec_append tail shorter] at longer
    cases longer
    cases halted : normalize e with
    | ok e => simp only [next,shorter,halted] at starved; cases starved
    | error h =>
      simp only [next,shorter,halted] at starved
      cases starved
      exact (starved_append halted normalized).le

theorem suffix_left {a b : Bytes} {n : Nat} {left : Bytes} (suffix : left <:+ a ++ b.take n) (short : left.length ≤ n) (le : n ≤ b.length) :
    left ++ b.drop n = b.drop (n-left.length) := by
  have taken : (b.take n).length = n := by rw [List.length_take,min_eq_left le]
  have inner : left = (b.take n).drop (n-left.length) := by
    rw [List.suffix_iff_eq_drop] at suffix
    refine suffix.trans ?_
    rw [List.length_append,taken,show a.length+n-left.length = a.length+(n-left.length) by omega,List.drop_append]
    simp only [Nat.add_sub_cancel_left]
    rw [List.drop_of_length_le (by omega),List.nil_append]
  conv_lhs => rw [inner]
  conv_rhs => rw [← List.take_append_drop n b]
  rw [List.drop_append_of_le_length (by omega)]

theorem kind_cases (symbol : Symbol) : symbol.kind = .lit ∨ symbol.kind = .match ∨ symbol.kind = .rep := by
  cases symbol
  · exact .inl rfl
  · exact .inr (.inr rfl)
  · exact .inr (.inr rfl)
  · exact .inr (.inl rfl)
  · exact .inr (.inl rfl)

section OneRound
variable {src : Bytes}

theorem refuse_round {buf tail : Bytes} {symbol : Symbol} {d e : Coder} (live : Live limit p) (idle : p.remainLen = 0)
    (way : p.dicPos < limit ∨ (p.dicPos = limit ∧ mode = .end ∧ p.code ≠ 0)) (whole : p.tempBuf ++ src = buf ++ tail)
    (came : Came p.prop (lz p) {p.toCoder with input := buf} symbol e d)
    (again : decide (limit ≤ p.dicPos) = true ∧ symbol.kind ≠ .match) : Round limit mode p src (dataError p) := by
  obtain ⟨full,other⟩ := again
  have full := of_decide_eq_true full
  obtain room | ⟨same,rfl,more⟩ := way
  · omega
  · have refused := refuse_refines (c := {p.toCoder with input := buf}) live.toSteady idle same more came other
    have whole : feed p src = Coder.append {p.toCoder with input := buf} tail := by simp only [feed,Coder.append,whole]
    refine .failed ?_
    rw [whole]
    exact appended_failed tail refused

-- A round straight from src.
theorem direct_round {symbol : Symbol} {d e : Coder} (live : Live limit p) (idle : p.remainLen = 0) (empty : p.tempBuf = [])
    (came : Came p.prop (lz p) {p.toCoder with input := src} symbol e d)
    (way : p.dicPos < limit ∨ (p.dicPos = limit ∧ mode = .end ∧ p.code ≠ 0 ∧ symbol.kind = .match))
    (reserved : lzmaRequiredInputMax ≤ reserve ∨ src.length ≤ reserve) :
    (∃ f,decodeReal2 {p with input := src} limit reserve = .error f ∧ Round limit mode p src (.error f)) ∨
      ∃ q,decodeReal2 {p with input := src} limit reserve = .ok q ∧ Round limit mode p src (.ok (some (q,q.input))) := by
  have whole : p.tempBuf ++ src = src ++ [] := by rw [empty,List.nil_append,List.append_nil]
  obtain ⟨f,ran,refined⟩ | ⟨q,ran,tidy,kept,suffix,refined⟩ := moves live idle whole came way reserved
  · exact .inl ⟨f,ran,.failed refined⟩
  · rw [List.append_nil] at refined
    exact .inr ⟨q,ran,.moved refined tidy (kept.trans empty) suffix⟩

theorem way_on {symbol : Symbol} (way : p.dicPos < limit ∨ (p.dicPos = limit ∧ mode = .end ∧ p.code ≠ 0))
    (fine : ¬(decide (limit ≤ p.dicPos) = true ∧ symbol.kind ≠ .match)) :
    p.dicPos < limit ∨ (p.dicPos = limit ∧ mode = .end ∧ p.code ≠ 0 ∧ symbol.kind = .match) := by
  obtain room | ⟨full,mark,more⟩ := way
  · exact .inl room
  · refine .inr ⟨full,mark,more,?_⟩
    by_contra other
    exact fine ⟨decide_eq_true full.ge,other⟩

-- What tempBuf is filled up with is more than the symbol leaves.
theorem left_of_look {symbol : Symbol} {n : Nat} {d e : Coder} (live : Live limit p) (some : p.tempBuf ≠ [])
    (came : Came p.prop (lz p) {p.toCoder with input := p.tempBuf ++ src.take n} symbol e d) : d.input.length ≤ n := by
  have starved := next_starved_append (c := {p.toCoder with input := p.tempBuf}) (live.starved some) came.next
  rw [List.length_take] at starved
  omega

theorem tempBuf_round {symbol : Symbol} {n : Nat} {d e : Coder} (live : Live limit p) (idle : p.remainLen = 0) (some : p.tempBuf ≠ [])
    (le : n ≤ src.length) (came : Came p.prop (lz p) {p.toCoder with input := p.tempBuf ++ src.take n} symbol e d)
    (way : p.dicPos < limit ∨ (p.dicPos = limit ∧ mode = .end ∧ p.code ≠ 0 ∧ symbol.kind = .match)) :
    (∃ f,decodeReal2 {p with input := p.tempBuf ++ src.take n} limit (p.tempBuf ++ src.take n).length = .error f ∧
        Round limit mode p src (.error f)) ∨
      ∃ q,decodeReal2 {p with input := p.tempBuf ++ src.take n} limit (p.tempBuf ++ src.take n).length = .ok q ∧
        q.input.length ≤ n ∧ Round limit mode p src (.ok (Option.some ({q with tempBuf := []},src.drop (n-q.input.length)))) := by
  have whole : p.tempBuf ++ src = p.tempBuf ++ src.take n ++ src.drop n := by rw [List.append_assoc,List.take_append_drop]
  have steady := live.toSteady.input (p.tempBuf ++ src.take n)
  obtain ⟨f,ran,refined⟩ | ⟨q,ran,tidy,-,suffix,refined⟩ := moves live idle whole came way (.inr le_rfl)
  · exact .inl ⟨f,ran,.failed refined⟩
  · have coder := decodeReal2_once steady.inv idle steady.normal came le_rfl ran
    have short : q.input.length ≤ n := by
      rw [coder]
      exact left_of_look live some came
    rw [suffix_left suffix short le] at refined
    exact .inr ⟨q,ran,short,.moved refined ⟨tidy.normal,tidy.strict⟩ rfl (List.drop_suffix _ _)⟩

-- So tempBuf never holds more than it has room for.
theorem tempBuf_few (live : Live limit p) (idle : p.remainLen = 0) (some : p.tempBuf ≠ []) :
    p.tempBuf.length < lzmaRequiredInputMax := by
  obtain ⟨symbol,e,d,came⟩ | ⟨-,few⟩ :=
    next_cases (c := {p.toCoder with input := p.tempBuf}) (idle_valid live.inv (quiet_of idle)) live.inv.probs live.normal
  · exact absurd (came.next.symm.trans (live.starved some)) (by simp)
  · exact few

theorem oneRound_direct (live : Live limit p) (idle : p.remainLen = 0)
    (way : p.dicPos < limit ∨ (p.dicPos = limit ∧ mode = .end ∧ p.code ≠ 0)) (empty : p.tempBuf = []) :
    Round limit mode p src (oneRound p limit src (decide (limit ≤ p.dicPos))) := by
  unfold oneRound
  rw [if_pos empty]
  have whole : p.tempBuf ++ src = src ++ [] := by rw [empty,List.nil_append,List.append_nil]
  have fed : feed p src = {p.toCoder with input := src} := by rw [feed,empty,List.nil_append]
  by_cases look : src.length < lzmaRequiredInputMax ∨ decide (limit ≤ p.dicPos) = true
  case pos =>
    rw [if_pos look]
    obtain ⟨symbol,e,d,came,tried⟩ | ⟨starved,few,tried⟩ := tryDummy_cases src live.inv idle live.normal
    · rw [tried]
      obtain kind | kind | kind := kind_cases symbol
      all_goals
        rw [kind]
        dsimp only
        split
        case isTrue again => exact refuse_round live idle way whole came (kind ▸ again)
        case isFalse fine =>
          obtain ⟨f,ran,round⟩ | ⟨q,ran,round⟩ := direct_round live idle empty came (way_on way (kind ▸ fine)) (.inr le_rfl)
          · rw [ran]
            exact round
          · rw [ran]
            exact round
    · rw [tried]
      refine .starved (by rw [fed]; exact starved) ?_
      rw [whole,List.append_nil]
      exact few
  case neg =>
    rw [if_neg look]
    obtain ⟨long,below⟩ := not_or.mp look
    have room : p.dicPos < limit := Nat.not_le.mp fun le => below (decide_eq_true le)
    obtain ⟨symbol,e,d,came⟩ | ⟨-,few⟩ :=
      next_cases (c := {p.toCoder with input := src}) (idle_valid live.inv (quiet_of idle)) live.inv.probs live.normal
    · obtain ⟨f,ran,round⟩ | ⟨q,ran,round⟩ := direct_round live idle empty came (.inl room) (.inl le_rfl)
      · rw [ran]
        exact round
      · rw [ran]
        exact round
    · exact absurd few long

theorem oneRound_temp (live : Live limit p) (idle : p.remainLen = 0)
    (way : p.dicPos < limit ∨ (p.dicPos = limit ∧ mode = .end ∧ p.code ≠ 0)) (filled : p.tempBuf ≠ []) :
    Round limit mode p src (oneRound p limit src (decide (limit ≤ p.dicPos))) := by
  unfold oneRound
  rw [if_neg filled]
  dsimp only
  generalize ahead : min (lzmaRequiredInputMax-p.tempBuf.length) src.length = n
  have le : n ≤ src.length := by omega
  have whole : p.tempBuf ++ src = p.tempBuf ++ src.take n ++ src.drop n := by rw [List.append_assoc,List.take_append_drop]
  have length : (p.tempBuf ++ src.take n).length = p.tempBuf.length+n := by rw [List.length_append,List.length_take,min_eq_left le]
  have kept := tempBuf_few live idle filled
  rw [if_neg (by omega)]
  have after : ∀ symbol e d,Came p.prop (lz p) {p.toCoder with input := p.tempBuf ++ src.take n} symbol e d →
      ¬(decide (limit ≤ p.dicPos) = true ∧ symbol.kind ≠ .match) → ∀ run,
      (∀ f,decodeReal2 {p with input := p.tempBuf ++ src.take n} limit (p.tempBuf ++ src.take n).length = .error f → run = .error f) →
      (∀ q,decodeReal2 {p with input := p.tempBuf ++ src.take n} limit (p.tempBuf ++ src.take n).length = .ok q → q.input.length ≤ n →
        run = .ok (some ({q with tempBuf := []},src.drop (n-q.input.length)))) → Round limit mode p src run := by
    intro symbol e d came fine run failed moved
    obtain ⟨f,ran,round⟩ | ⟨q,ran,short,round⟩ := tempBuf_round live idle filled le came (way_on way fine)
    · rw [failed f ran]
      exact round
    · rw [moved q ran short]
      exact round
  by_cases look : (p.tempBuf ++ src.take n).length < lzmaRequiredInputMax ∨ decide (limit ≤ p.dicPos) = true
  case pos =>
    rw [if_pos look]
    obtain ⟨symbol,e,d,came,tried⟩ | ⟨starved,few,tried⟩ :=
      tryDummy_cases (p.tempBuf ++ src.take n) live.inv idle live.normal
    · rw [tried]
      obtain kind | kind | kind := kind_cases symbol
      all_goals
        rw [kind]
        dsimp only
        split
        case isTrue again => exact refuse_round live idle way whole came (kind ▸ again)
        case isFalse fine =>
          refine after symbol e d came (kind ▸ fine) _ ?_ ?_
          · intro f ran
            rw [ran]
          · intro q ran short
            rw [ran]
            exact if_neg (Nat.not_lt.mpr short)
    · rw [tried]
      have all : src.take n = src := List.take_of_length_le (by omega)
      rw [all] at starved few
      exact .starved starved few
  case neg =>
    rw [if_neg look]
    obtain ⟨long,below⟩ := not_or.mp look
    obtain ⟨symbol,e,d,came⟩ | ⟨-,few⟩ :=
      next_cases (c := {p.toCoder with input := p.tempBuf ++ src.take n}) (idle_valid live.inv (quiet_of idle)) live.inv.probs live.normal
    · dsimp only
      rw [if_neg (fun both => below both.1)]
      refine after symbol e d came (fun both => below both.1) _ ?_ ?_
      · intro f ran
        rw [ran]
      · intro q ran short
        rw [ran]
        exact if_neg (Nat.not_lt.mpr short)
    · exact absurd few long

theorem oneRound_refines (live : Live limit p) (idle : p.remainLen = 0)
    (way : p.dicPos < limit ∨ (p.dicPos = limit ∧ mode = .end ∧ p.code ≠ 0)) :
    Round limit mode p src (oneRound p limit src (decide (limit ≤ p.dicPos))) := by
  by_cases empty : p.tempBuf = []
  case pos => exact oneRound_direct live idle way empty
  case neg => exact oneRound_temp live idle way empty

end OneRound

end Round

end ChuwiMinibook.LzmaRounds
