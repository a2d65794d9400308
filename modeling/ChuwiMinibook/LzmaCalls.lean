import ChuwiMinibook.LzmaRounds

namespace ChuwiMinibook.LzmaCalls
open ByteScan CodedBits LzmaSymbols LzmaBits LzmaDec LzmaPlain LzmaSteps LzmaRefinement LzmaLoops LzmaRounds
open Lz77 (extend)
open Coded (exec)

section Plain
variable {prop : Props} {limit : Nat} {mode : ELzmaFinishMode} {s t : Lz} {c d : Coder} {symbol : Symbol} {ending : Ending}

theorem next_length (ran : next prop s c = .ok (symbol,d)) : d.input.length ≤ c.input.length := by
  obtain ⟨e,read,normalized⟩ := next_parts ran
  exact (normalize_length normalized).1.trans (exec_length read)

theorem next_append (tail : Bytes) (ran : next prop s c = .ok (symbol,d)) : next prop s (c.append tail) = .ok (symbol,d.append tail) := by
  obtain ⟨e,read,normalized⟩ := next_parts ran
  simp only [next,exec_append tail read,normalize_append tail normalized]

-- How the plain decoder goes on from a symbol, or ends.
theorem plain_cases (prop : Props) (limit : Nat) (mode : ELzmaFinishMode) (s : Lz) (c : Coder) :
    (limit ≤ s.out.length ∧ plain prop limit mode s c = atLimit prop limit mode s c) ∨
      (s.out.length < limit ∧ ((∃ h,next prop s c = .error h ∧ plain prop limit mode s c = (s,c,.short)) ∨
        ∃ symbol d,next prop s c = .ok (symbol,d) ∧
          ((symbol = .marker ∧ plain prop limit mode s c = (s,d,.finished)) ∨
            (symbol ≠ .marker ∧ s.apply prop symbol = none ∧ plain prop limit mode s c = (s,d,.bad)) ∨
            ∃ t,symbol ≠ .marker ∧ s.apply prop symbol = some t ∧ plain prop limit mode s c = plain prop limit mode t d))) := by
  by_cases full : limit ≤ s.out.length
  case pos => exact .inl ⟨full,plain_limit full⟩
  case neg =>
    have room := Nat.not_le.mp full
    refine .inr ⟨room,?_⟩
    cases came : next prop s c with
    | error h => exact .inl ⟨h,rfl,plain_short room came⟩
    | ok r =>
      obtain ⟨symbol,d⟩ := r
      refine .inr ⟨symbol,d,rfl,?_⟩
      by_cases marked : symbol = .marker
      case pos =>
        subst marked
        exact .inl ⟨rfl,plain_marker room came⟩
      case neg =>
        cases applied : s.apply prop symbol with
        | none => exact .inr (.inl ⟨marked,rfl,plain_bad room came marked applied⟩)
        | some t => exact .inr (.inr ⟨t,marked,rfl,plain_step room came marked applied⟩)

theorem atLimit_shrinks (prop : Props) (limit : Nat) (mode : ELzmaFinishMode) (s : Lz) (c : Coder) :
    (atLimit prop limit mode s c).1 = s ∧ (atLimit prop limit mode s c).2.1.input.length ≤ c.input.length := by
  unfold atLimit
  split
  · exact ⟨rfl,le_rfl⟩
  · split
    · exact ⟨rfl,le_rfl⟩
    · split
      · exact ⟨rfl,le_rfl⟩
      · cases came : next prop s c with
        | error h => exact ⟨rfl,le_rfl⟩
        | ok r =>
          obtain ⟨symbol,d⟩ := r
          have shorter := next_length came
          cases symbol
          all_goals exact ⟨rfl,shorter⟩

theorem plain_shrinks (prop : Props) (limit : Nat) (mode : ELzmaFinishMode) (s : Lz) (c : Coder) :
    s.out.length ≤ (plain prop limit mode s c).1.out.length ∧
    (plain prop limit mode s c).2.1.input.length ≤ c.input.length := by
  induction n : limit-s.out.length using Nat.strongRecOn generalizing s c with
  | ind n ih =>
    obtain ⟨-,same⟩ | ⟨room,⟨h,-,same⟩ | ⟨symbol,d,came,⟨-,same⟩ | ⟨-,-,same⟩ | ⟨t,-,applied,same⟩⟩⟩ := plain_cases prop limit mode s c
    · have shrinks := atLimit_shrinks prop limit mode s c
      rw [same,shrinks.1]
      exact ⟨le_rfl,shrinks.2⟩
    · rw [same]
      exact ⟨le_rfl,le_rfl⟩
    · rw [same]
      exact ⟨le_rfl,next_length came⟩
    · rw [same]
      exact ⟨le_rfl,next_length came⟩
    · have grows := apply_grows applied
      have rest := ih (limit-t.out.length) (by omega) t d rfl
      rw [same]
      exact ⟨grows.le.trans rest.1,rest.2.trans (next_length came)⟩

theorem atLimit_append (tail : Bytes) (ran : atLimit prop limit mode s c = (t,d,ending)) (done : ending ≠ .short) :
    atLimit prop limit mode s (c.append tail) = (t,d.append tail,ending) := by
  unfold atLimit at ran ⊢
  split at ran
  case isTrue any => cases ran; rw [if_pos any]
  case isFalse any =>
    rw [if_neg any]
    split at ran
    case isTrue past => cases ran; rw [if_pos past]
    case isFalse past =>
      rw [if_neg past]
      split at ran
      case isTrue zero => cases ran; exact if_pos zero
      case isFalse more =>
        rw [if_neg (show ¬(c.append tail).code = 0 from more)]
        cases came : next prop s c with
        | error h =>
          simp only [came] at ran
          cases ran
          exact absurd rfl done
        | ok r =>
          obtain ⟨symbol,e⟩ := r
          simp only [came] at ran
          rw [next_append tail came]
          cases symbol
          all_goals
            cases ran
            rfl

-- A run that ends does not look at what follows.
theorem plain_append (tail : Bytes) (ran : plain prop limit mode s c = (t,d,ending)) (done : ending ≠ .short) :
    plain prop limit mode s (c.append tail) = (t,d.append tail,ending) := by
  induction n : limit-s.out.length using Nat.strongRecOn generalizing s c with
  | ind n ih =>
    obtain ⟨full,same⟩ | ⟨room,⟨h,-,same⟩ | ⟨symbol,e,came,⟨rfl,same⟩ | ⟨other,refused,same⟩ | ⟨u,other,applied,same⟩⟩⟩ :=
      plain_cases prop limit mode s c
    · rw [same] at ran
      rw [plain_limit full]
      exact atLimit_append tail ran done
    · rw [same] at ran
      cases ran
      exact absurd rfl done
    · rw [same] at ran
      cases ran
      exact plain_marker room (next_append tail came)
    · rw [same] at ran
      cases ran
      exact plain_bad room (next_append tail came) other refused
    · have grows := apply_grows applied
      rw [same] at ran
      rw [plain_step room (next_append tail came) other applied]
      exact ih (limit-u.out.length) (by omega) ran rfl

end Plain

-- What a caller has of a call: the dictionary, dicPos, srcLen and the status.
def observe (run : Run Decoded) : Except Failure (Bytes × Nat × Nat × ELzmaStatus) :=
  run.map fun d => (d.p.dic,d.p.dicPos,d.srcLen,d.status)

-- The output as far as the limit lets it be written.
def written (dic : Bytes) (limit : Nat) (s : Lz) : Bytes := s.out.take limit ++ dic.drop (min s.out.length limit)

def Ending.answer (dic : Bytes) (limit srcLen length : Nat) (s : Lz) (c : Coder) : Ending → Except Failure (Bytes × Nat × Nat × ELzmaStatus)
  | .full => .ok (written dic limit s,min s.out.length limit,srcLen+(length-c.input.length),
      if s.out.length ≤ limit ∧ c.code = 0 then .maybeFinishedWithoutMark else .notFinished)
  | .finished =>
    if c.code = 0 then .ok (written dic limit s,min s.out.length limit,srcLen+(length-c.input.length),.finishedWithMark)
    else .error (.failed szErrorData (written dic limit s) (min s.out.length limit))
  | .short => .ok (written dic limit s,min s.out.length limit,srcLen+length,.needsMoreInput)
  | .bad => .error (.failed szErrorData (written dic limit s) (min s.out.length limit))

-- What a call with length bytes of src answers, once srcLen bytes were taken.
def answer (dic : Bytes) (limit srcLen length : Nat) (r : Lz × Coder × Ending) : Except Failure (Bytes × Nat × Nat × ELzmaStatus) :=
  Ending.answer dic limit srcLen length r.1 r.2.1 r.2.2

theorem written_later {a b : Bytes} {limit k : Nat} {s : Lz} (same : a.drop k = b.drop k) (out : k ≤ s.out.length) (le : k ≤ limit) :
    written a limit s = written b limit s := by
  rw [written,written,drop_later (le_min out le) same]

theorem written_here {a b : Bytes} {limit k : Nat} {s : Lz} (same : a.drop k = b.drop k) (out : s.out.take limit = a.take k)
    (least : min s.out.length limit = k) : written b limit s = a := by
  rw [written,least,← same,out,List.take_append_drop]

-- An answer for what is left of src is one for all of it.
theorem answer_later {a b : Bytes} {limit n m length k : Nat} {r : Lz × Coder × Ending} (same : a.drop k = b.drop k)
    (out : k ≤ r.1.out.length) (le : k ≤ limit) (rest : m ≤ length) (input : r.2.2 = .full ∨ r.2.2 = .finished → r.2.1.input.length ≤ m) :
    answer a limit (n+(length-m)) m r = answer b limit n length r := by
  obtain ⟨s,d,ending⟩ := r
  have wrote := written_later (s := s) same out le
  have taken : ending = .full ∨ ending = .finished → n+(length-m)+(m-d.input.length) = n+(length-d.input.length) := by
    intro ends
    have fewer : d.input.length ≤ m := input ends
    omega
  have all : n+(length-m)+m = n+length := by omega
  cases ending with
  | full => simp only [answer,Ending.answer,wrote,taken (.inl rfl)]
  | finished => simp only [answer,Ending.answer,wrote,taken (.inr rfl)]
  | short => simp only [answer,Ending.answer,wrote,all]
  | bad => simp only [answer,Ending.answer,wrote]

section MainLoop
variable {limit : Nat} {mode : ELzmaFinishMode} {p : CLzmaDec} {src : Bytes}

-- A call that lacks input leaves a decoder that goes on where the whole would.
structure Resumes (limit : Nat) (mode : ELzmaFinishMode) (p : CLzmaDec) (src : Bytes) (q : CLzmaDec) : Prop where
  live : Live limit q
  idle : q.remainLen = 0
  way : q.dicPos < limit ∨ (q.dicPos = limit ∧ mode = .end ∧ q.code ≠ 0)
  future : ∀ tail,plain p.prop limit mode (lz p) ((feed p src).append tail) = plain q.prop limit mode (lz q) (feed q tail)
  forward : p.dicPos ≤ q.dicPos
  behind : q.dic.drop q.dicPos = p.dic.drop q.dicPos

def Answers (limit : Nat) (mode : ELzmaFinishMode) (p : CLzmaDec) (src : Bytes) (srcLen : Nat) (run : Run Decoded) : Prop :=
  observe run = answer p.dic limit srcLen src.length (plain p.prop limit mode (lz p) (feed p src)) ∧
    ∀ d,run = .ok d → d.status = .needsMoreInput → Resumes limit mode p src d.p

theorem lz_length (live : Live limit p) : (lz p).out.length = p.dicPos+p.remainLen := by
  by_cases idle : p.remainLen = 0
  case pos => rw [idle_length live.inv (quiet_of idle),idle,Nat.add_zero]
  case neg =>
    obtain ⟨-,pos⟩ := live.full idle
    obtain ⟨back,reach⟩ := live.inv.reps.1
    rw [lz,pending_of live.short,Lz77.extend_length back (by rw [take_length live.inv]; omega),take_length live.inv]

theorem lz_written (live : Live limit p) {dic : Bytes} (same : p.dic.drop p.dicPos = dic.drop p.dicPos) :
    written dic limit (lz p) = p.dic ∧ min (lz p).out.length limit = p.dicPos := by
  have length := lz_length live
  have within := live.within
  have least : min (lz p).out.length limit = p.dicPos := by
    rw [length]
    by_cases idle : p.remainLen = 0
    case pos => omega
    case neg =>
      have full := live.full idle
      omega
  refine ⟨written_here same ?_ least,least⟩
  by_cases idle : p.remainLen = 0
  case pos => rw [lz_idle (quiet_of idle),List.take_take,min_eq_right within]
  case neg =>
    rw [lz,← (live.full idle).1]
    have taken : (extend p.reps.rep0 (pending p) (p.dic.take p.dicPos)).take (p.dic.take p.dicPos).length = p.dic.take p.dicPos :=
      Lz77.extend_take
    rwa [take_length live.inv] at taken

theorem atLimit_full {prop : Props} {s : Lz} {c : Coder} (stop : mode = .any ∨ (s.out.length ≤ limit ∧ c.code = 0)) :
    atLimit prop limit mode s c = (s,c,.full) := by
  unfold atLimit
  by_cases any : mode = .any
  case pos => exact if_pos any
  case neg =>
    obtain ⟨le,zero⟩ := stop.resolve_left any
    rw [if_neg any,if_neg (by omega),if_pos zero]

-- Without room a call ends at once where it need not look for an end marker.
theorem stop_answers {n : Nat} {status : ELzmaStatus} (live : Live limit p) (full : limit ≤ p.dicPos)
    (stop : mode = .any ∨ (p.remainLen = 0 ∧ p.code = 0))
    (known : status = if p.remainLen = 0 ∧ p.code = 0 then .maybeFinishedWithoutMark else .notFinished) :
    Answers limit mode p src n (.ok ⟨p,n,status⟩) := by
  have length := lz_length live
  obtain ⟨wrote,least⟩ := lz_written live rfl
  have within := live.within
  have stopped : mode = .any ∨ ((lz p).out.length ≤ limit ∧ (feed p src).code = 0) :=
    stop.imp id fun ⟨idle,zero⟩ => ⟨by omega,zero⟩
  have zero : src.length-(feed p src).input.length = 0 := by
    simp only [feed,List.length_append]
    omega
  have same : ((lz p).out.length ≤ limit ∧ (feed p src).code = 0) ↔ (p.remainLen = 0 ∧ p.code = 0) := by
    rw [length]
    exact and_congr_left' (by omega)
  refine ⟨?_,fun d same need => ?_⟩
  · rw [plain_limit (by omega),atLimit_full stopped]
    simp only [answer,Ending.answer,wrote,least,zero,if_congr same rfl rfl,Nat.add_zero]
    rw [known]
    rfl
  · cases same
    simp only at need
    rw [need] at known
    split at known
    · cases known
    · cases known

theorem starved_plain {c : Coder} (live : Live limit p) (idle : p.remainLen = 0)
    (way : p.dicPos < limit ∨ (p.dicPos = limit ∧ mode = .end ∧ c.code ≠ 0)) (starved : next p.prop (lz p) c = .error .starved) :
    plain p.prop limit mode (lz p) c = (lz p,c,.short) := by
  have length := lz_length live
  obtain room | ⟨full,rfl,more⟩ := way
  · exact plain_short (by omega) starved
  · rw [plain_limit (by omega),atLimit,if_neg (by decide),if_neg (by omega),if_neg more,starved]

theorem keepInput_eq (few : (p.tempBuf ++ src).length < lzmaRequiredInputMax) :
    keepInput p src = .ok {p with tempBuf := p.tempBuf ++ src} := by
  have kept : (if p.tempBuf = [] then src else src.take (lzmaRequiredInputMax-p.tempBuf.length)) = src := by
    rw [List.length_append] at few
    by_cases empty : p.tempBuf = []
    case pos => rw [if_pos empty]
    case neg => rw [if_neg empty,List.take_of_length_le (by omega)]
  simp only [keepInput,kept]
  rw [if_neg few.not_gt]

theorem keepInput_answers {n : Nat} (live : Live limit p) (idle : p.remainLen = 0)
    (way : p.dicPos < limit ∨ (p.dicPos = limit ∧ mode = .end ∧ p.code ≠ 0))
    (starved : next p.prop (lz p) (feed p src) = .error .starved) :
    Answers limit mode p src n
      (.ok ⟨{p with tempBuf := p.tempBuf ++ src},n+((p.tempBuf ++ src).length-p.tempBuf.length),.needsMoreInput⟩) := by
  obtain ⟨wrote,least⟩ := lz_written live rfl
  have ended : plain p.prop limit mode (lz p) (feed p src) = (lz p,feed p src,.short) := starved_plain live idle way starved
  refine ⟨?_,fun d same need => ?_⟩
  · rw [ended]
    simp only [answer,Ending.answer,wrote,least,List.length_append,Nat.add_sub_cancel_left]
    rfl
  · cases same
    have steady : Steady limit {p with tempBuf := p.tempBuf ++ src} :=
      ⟨⟨live.inv.probs,live.inv.state,live.inv.fits,live.inv.place,live.inv.reps,live.inv.started⟩,live.normal,live.strict,live.within,
        live.fits,live.opens⟩
    exact ⟨⟨steady,live.short,live.full,fun _ => starved⟩,idle,way,fun tail => rfl,le_rfl,rfl⟩

theorem append_nil (c : Coder) : c.append [] = c := by simp only [Coder.append,List.append_nil]

theorem failed_answers {n : Nat} {f : Failure}
    (refined : Refined limit mode {p with tempBuf := []} (feed p src) limit (.error f)) : Answers limit mode p src n (.error f) := by
  cases refined with
  | failed within stopped same =>
    rename_i dic dicPos s
    obtain ⟨d,ended⟩ := same []
    rw [append_nil] at ended
    have length : s.out.length = dicPos := by
      rw [stopped.out,List.length_take,stopped.length,min_eq_left stopped.fits]
    have least : min s.out.length limit = dicPos := by rw [length,min_eq_left within]
    have wrote : written p.dic limit s = dic :=
      written_here stopped.behind (by rw [stopped.out,List.take_take,min_eq_right within]) least
    refine ⟨?_,fun d same => by cases same⟩
    rw [show plain p.prop limit mode (lz p) (feed p src) = (s,d,.bad) from ended]
    simp only [answer,Ending.answer,wrote,least]
    rfl

-- An end marker ends the call, with the code looked at.
theorem ended_answers {fuel n : Nat} {q : CLzmaDec} {rest : Bytes} (marked : q.remainLen = kMatchSpecLenStart) (within : q.dicPos ≤ limit)
    (behind : q.dic.drop q.dicPos = p.dic.drop q.dicPos) (fits : q.dicPos ≤ q.dic.length)
    (ended : plain p.prop limit mode (lz p) (feed p src) = (lz q,{q.toCoder with input := rest},.finished)) :
    Answers limit mode p src n (mainLoop limit mode (fuel+1) q rest (n+(src.length-rest.length))) := by
  have quiet : pending q = 0 := by rw [pending,marked]; decide
  have out := lz_idle quiet
  have length : (lz q).out.length = q.dicPos := by rw [out,List.length_take,min_eq_left fits]
  have least : min (lz q).out.length limit = q.dicPos := by rw [length,min_eq_left within]
  have wrote : written p.dic limit (lz q) = q.dic :=
    written_here behind (by rw [out,List.take_take,min_eq_right within]) least
  unfold Answers
  rw [ended]
  simp only [mainLoop,marked,if_true,answer,Ending.answer,wrote,least]
  by_cases zero : q.code = 0
  case pos =>
    simp only [zero,ne_eq,not_true_eq_false,if_true,if_false]
    refine ⟨rfl,fun d same need => ?_⟩
    cases same
    cases need
  case neg =>
    simp only [zero,ne_eq,not_false_eq_true,if_true,if_false]
    exact ⟨rfl,fun d same => by cases same⟩

theorem over_answers {n : Nat} (live : Live limit p) (full : limit ≤ p.dicPos) (some : p.remainLen ≠ 0) (mark : mode ≠ .any) :
    Answers limit mode p src n (dataError p) := by
  have length := lz_length live
  obtain ⟨wrote,least⟩ := lz_written live rfl
  refine ⟨?_,fun d same => by cases same⟩
  rw [plain_limit (by omega),atLimit,if_neg mark,if_pos (by omega)]
  simp only [answer,Ending.answer,wrote,least]
  rfl

theorem Answers.later {n : Nat} {q : CLzmaDec} {rest : Bytes} {run : Run Decoded} (forward : p.dicPos ≤ q.dicPos)
    (behind : q.dic.drop q.dicPos = p.dic.drop q.dicPos) (within : q.dicPos ≤ limit)
    (out : q.dicPos ≤ (lz q).out.length) (suffix : rest.length ≤ src.length) (empty : q.tempBuf = [])
    (same : ∀ tail,plain p.prop limit mode (lz p) ((feed p src).append tail) = plain q.prop limit mode (lz q) ((feed q rest).append tail))
    (answers : Answers limit mode q rest (n+(src.length-rest.length)) run) : Answers limit mode p src n run := by
  obtain ⟨observed,resumes⟩ := answers
  have here := same []
  rw [append_nil,append_nil] at here
  have shrinks := plain_shrinks q.prop limit mode (lz q) (feed q rest)
  have left : (feed q rest).input.length = rest.length := by simp only [feed,empty,List.nil_append]
  refine ⟨?_,fun d ran need => ?_⟩
  · rw [observed,here]
    exact answer_later behind (out.trans shrinks.1) within suffix fun _ => left ▸ shrinks.2
  · obtain ⟨live,idle,way,future,forward',behind'⟩ := resumes d ran need
    exact ⟨live,idle,way,fun tail => (same tail).trans (future tail),forward.trans forward',behind'.trans (drop_later forward' behind)⟩

theorem mainLoop_answers (mode : ELzmaFinishMode) (src : Bytes) (n : Nat) {fuel : Nat} (live : Live limit p) (enough : limit-p.dicPos+1 < fuel) :
    Answers limit mode p src n (mainLoop limit mode fuel p src n) := by
  induction fuel generalizing p src n with
  | zero => omega
  | succ fuel ih =>
    have marked : ¬p.remainLen = kMatchSpecLenStart := live.short.ne
    simp only [mainLoop,marked,if_false]
    by_cases done : limit ≤ p.dicPos ∧ p.remainLen = 0 ∧ p.code = 0
    case pos =>
      rw [if_pos done]
      exact stop_answers live done.1 (.inr done.2) (if_pos done.2).symm
    case neg =>
      rw [if_neg done]
      by_cases any : limit ≤ p.dicPos ∧ mode = .any
      case pos =>
        rw [if_pos any]
        exact stop_answers live any.1 (.inl any.2) (if_neg fun both => done ⟨any.1,both⟩).symm
      case neg =>
        rw [if_neg any]
        by_cases past : limit ≤ p.dicPos ∧ p.remainLen ≠ 0
        case pos =>
          rw [if_pos past]
          exact over_answers live past.1 past.2 fun same => any ⟨past.1,same⟩
        case neg =>
          rw [if_neg past]
          have idle : p.remainLen = 0 := by
            by_contra some
            exact past ⟨(live.full some).1.ge,some⟩
          have way : p.dicPos < limit ∨ (p.dicPos = limit ∧ mode = .end ∧ p.code ≠ 0) := by
            by_cases full : limit ≤ p.dicPos
            case pos =>
              refine .inr ⟨le_antisymm live.within full,?_,fun zero => done ⟨full,idle,zero⟩⟩
              cases mode
              · exact absurd ⟨full,rfl⟩ any
              · rfl
            case neg => exact .inl (Nat.not_le.mp full)
          have round : Round limit mode p src (oneRound p limit src (decide (limit ≤ p.dicPos))) := oneRound_refines live idle way
          cases ran : oneRound p limit src (decide (limit ≤ p.dicPos)) with
          | error f =>
            rw [ran] at round
            cases round with
            | failed refined => exact failed_answers refined
          | ok moved =>
            rw [ran] at round
            cases round with
            | starved failed few =>
              rw [keepInput_eq few]
              exact keepInput_answers live idle way failed
            | moved refined tidy empty suffix =>
              rename_i q rest
              have shorter := suffix.length_le
              cases refined with
              | more inv wide normalized kept forward within short full input same =>
                rw [normalize_normal (c := {q.toCoder with input := rest}) tidy.normal] at normalized
                cases normalized
                have fed : feed q rest = {q.toCoder with input := rest} := by rw [feed,empty,List.nil_append]
                have pos : 0 < q.dicPos := (Nat.zero_le _).trans_lt forward
                have steady : Steady limit q :=
                  ⟨⟨inv.probs,inv.state,inv.fits,inv.place,inv.reps,inv.started⟩,tidy.normal,tidy.strict short,within,
                    kept.length ▸ live.fits,fun none => absurd none pos.ne'⟩
                have live' : Live limit q := ⟨steady,short,fun some => ⟨full some,pos⟩,fun some => absurd empty some⟩
                have out : q.dicPos ≤ (lz q).out.length := by rw [lz_length live']; exact Nat.le_add_right _ _
                have room : p.dicPos < q.dicPos := forward
                have le : q.dicPos ≤ limit := within
                refine (ih rest _ live' (by omega)).later room.le kept.behind le out shorter empty fun tail => ?_
                rw [fed,show q.prop = p.prop from kept.prop]
                exact same tail
              | ended fits wide normalized kept marked input same =>
                rw [normalize_normal (c := {q.toCoder with input := rest}) tidy.normal] at normalized
                cases normalized
                have ended := same []
                rw [append_nil,append_nil] at ended
                obtain ⟨more,rfl⟩ : ∃ more,fuel = more+1 := ⟨fuel-1,by omega⟩
                exact ended_answers marked fits kept.behind (fits.trans (kept.length ▸ live.fits)) ended

end MainLoop

end ChuwiMinibook.LzmaCalls
