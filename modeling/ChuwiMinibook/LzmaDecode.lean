import ChuwiMinibook.LzmaCalls

namespace ChuwiMinibook.LzmaDecode
open ByteScan CodedBits LzmaSymbols LzmaBits LzmaDec LzmaPlain LzmaSteps LzmaRefinement LzmaLoops LzmaRounds LzmaCalls

-- A decoder that has not seen the five bytes that a stream begins with.
structure Starting (limit : Nat) (p : CLzmaDec) : Prop where
  remainLen : p.remainLen = kMatchSpecLenStart+2
  dicPos : p.dicPos = 0
  processedPos : p.processedPos = 0
  checkDicSize : p.checkDicSize = 0
  few : p.tempBuf.length < rcInitSize
  first : p.tempBuf.head?.getD 0 = 0
  fits : limit ≤ p.dic.length

-- A decoder as it is before a call: new, or left by one that lacked input.
inductive Resting (limit : Nat) (mode : ELzmaFinishMode) (p : CLzmaDec) : Prop where
  | starting (starting : Starting limit p)
  | live (live : Live limit p) (idle : p.remainLen = 0) (way : p.dicPos < limit ∨ (p.dicPos = limit ∧ mode = .end ∧ p.code ≠ 0))

-- The plain decoder from the beginning of a stream.
def opening (prop : Props) (limit : Nat) (mode : ELzmaFinishMode) (bytes : Bytes) : Lz × Coder × Ending :=
  if bytes.head?.getD 0 ≠ 0 then (Lz.initial,⟨0,0,[],bytes⟩,.bad)
  else if bytes.length < rcInitSize then (Lz.initial,⟨0,0,[],bytes⟩,.short)
  else plain prop limit mode Lz.initial (startCoder prop bytes)

-- What is to be decoded from src, and from what was kept before it.
def future (limit : Nat) (mode : ELzmaFinishMode) (p : CLzmaDec) (src : Bytes) : Lz × Coder × Ending :=
  if p.remainLen > kMatchSpecLenStart then opening p.prop limit mode (p.tempBuf ++ src)
  else plain p.prop limit mode (lz p) (feed p src)

theorem future_live {limit : Nat} {mode : ELzmaFinishMode} {p : CLzmaDec} (live : Live limit p) (src : Bytes) :
    future limit mode p src = plain p.prop limit mode (lz p) (feed p src) :=
  if_neg live.short.le.not_gt

section Start
variable {limit : Nat} {mode : ELzmaFinishMode} {p : CLzmaDec} {src : Bytes}

theorem future_starting (mode : ELzmaFinishMode) (starting : Starting limit p) (src : Bytes) :
    future limit mode p src = opening p.prop limit mode (p.tempBuf ++ src) :=
  if_pos (by rw [starting.remainLen]; exact Nat.lt_add_of_pos_right (by decide))

theorem take_taken (src : Bytes) (few : p.tempBuf.length < rcInitSize) :
    p.tempBuf ++ src.take (min (rcInitSize-p.tempBuf.length) src.length) = (p.tempBuf ++ src).take rcInitSize := by
  rw [List.take_append,List.take_of_length_le few.le]
  by_cases le : rcInitSize-p.tempBuf.length ≤ src.length
  case pos => rw [min_eq_left le]
  case neg => rw [min_eq_right (by omega),List.take_length,List.take_of_length_le (Nat.not_le.mp le).le]

theorem head_take {bytes : Bytes} : (bytes.take rcInitSize).head?.getD 0 = bytes.head?.getD 0 := by
  cases bytes <;> rfl

theorem startUp_eq (starting : Starting limit p) (tempBuf : Bytes) :
    startUp {p with tempBuf := tempBuf} = {p with
      code := startCode tempBuf,range := 4294967295,tempBuf := [],remainLen := 0
      probs := List.replicate (numProbs p.prop) Prob.half,reps := ⟨1,1,1,1⟩,state := 0} := by
  rw [startUp,if_pos (by rw [starting.remainLen]; exact Nat.lt_succ_self _)]

-- With five bytes the decoder is where the plain one begins.
theorem startUp_live (starting : Starting limit p) (tempBuf : Bytes) :
    Live limit (startUp {p with tempBuf := tempBuf}) ∧ (startUp {p with tempBuf := tempBuf}).remainLen = 0 ∧
      lz (startUp {p with tempBuf := tempBuf}) = Lz.initial := by
  rw [startUp_eq starting]
  obtain ⟨-,dicPos,processed,check,-,-,fits⟩ := starting
  have large := p.prop.dicSize_ge
  have prob : ∀ i,i < numProbs p.prop → (List.replicate (numProbs p.prop) Prob.half)[i]? = some Prob.half :=
    fun i inside => List.getElem?_replicate_of_lt inside
  have inside : isMatch < numProbs p.prop ∧ isRep < numProbs p.prop := by
    have low : isMatch < literal ∧ isRep < literal := by decide
    exact ⟨low.1.trans_le (Nat.le_add_right _ _),low.2.trans_le (Nat.le_add_right _ _)⟩
  have one : All (Reaches 0) ⟨1,1,1,1⟩ := ⟨⟨Nat.one_pos,le_rfl⟩,⟨Nat.one_pos,le_rfl⟩,⟨Nat.one_pos,le_rfl⟩,⟨Nat.one_pos,le_rfl⟩⟩
  have inv : Inv {p with
      code := startCode tempBuf,range := 4294967295,tempBuf := [],remainLen := 0
      probs := List.replicate (numProbs p.prop) Prob.half,reps := ⟨1,1,1,1⟩,state := 0} :=
    ⟨List.length_replicate,show 0 < kNumStates by decide,by simp only [dicPos]; exact Nat.zero_le _,
      .inl ⟨check,by simp only [processed,dicPos],by simp only [dicPos]; exact Nat.zero_le _⟩,by simp only [dicPos]; exact one,
      fun high => absurd high (show ¬kNumLitStates ≤ 0 by decide)⟩
  refine ⟨⟨⟨inv,⟨show topValue ≤ 4294967295 by decide,show 4294967295 < word by decide⟩,fun _ => ?_,?_,fits,fun _ => ⟨rfl,?_,rfl,prob _ inside.1,prob _ inside.2⟩⟩,?_,
    fun some => absurd rfl some,fun some => absurd rfl some⟩,rfl,?_⟩
  · simp only [dicPos]
    omega
  · simp only [dicPos]
    exact Nat.zero_le _
  · rw [lz_idle rfl]
    simp only [dicPos,List.take_zero]
  · exact show 0 < kMatchSpecLenStart by decide
  · rw [lz_eq rfl]
    simp only [dicPos,List.take_zero]
    rfl

theorem startCoder_append {bytes : Bytes} (prop : Props) (long : rcInitSize ≤ bytes.length) (tail : Bytes) :
    startCoder prop (bytes ++ tail) = (startCoder prop bytes).append tail := by
  simp only [rcInitSize] at long
  simp only [startCoder,Coder.append,List.take_append_of_le_length long,List.drop_append_of_le_length long]

theorem opening_started {prop : Props} {bytes : Bytes} (first : bytes.head?.getD 0 = 0) (long : rcInitSize ≤ bytes.length) :
    opening prop limit mode bytes = plain prop limit mode Lz.initial (startCoder prop bytes) := by
  rw [opening,if_neg (not_not_intro first),if_neg (Nat.not_lt.mpr long)]

end Start

section Call
variable {limit : Nat} {mode : ELzmaFinishMode} {p : CLzmaDec} {src : Bytes}

-- How the next call goes on from one that lacked input.
structure GoesOn (limit : Nat) (mode : ELzmaFinishMode) (p : CLzmaDec) (src : Bytes) (q : CLzmaDec) : Prop where
  resting : Resting limit mode q
  resumed : ∀ tail,future limit mode p (src ++ tail) = future limit mode q tail
  forward : p.dicPos ≤ q.dicPos
  behind : q.dic.drop q.dicPos = p.dic.drop q.dicPos

def Called (limit : Nat) (mode : ELzmaFinishMode) (p : CLzmaDec) (src : Bytes) (run : Run Decoded) : Prop :=
  observe run = answer p.dic limit 0 src.length (future limit mode p src) ∧
    ∀ d,run = .ok d → d.status = .needsMoreInput → GoesOn limit mode p src d.p

theorem writeRem_idle (idle : p.remainLen = 0) : writeRem p limit = .ok p := by
  rw [writeRem,if_neg (fun some => some.1 idle)]

theorem live_called (live : Live limit p) (idle : p.remainLen = 0) : Called limit mode p src (decodeToDic p limit src mode) := by
  have loop : decodeToDic p limit src mode = mainLoop limit mode (limit-p.dicPos+2) p src 0 := by
    rw [decodeToDic,if_neg live.short.le.not_gt,writeRem_idle idle]
  obtain ⟨observed,resumes⟩ := mainLoop_answers mode src 0 live (Nat.lt_succ_self (limit-p.dicPos+1))
  rw [loop]
  refine ⟨by rw [observed,future_live live],fun d ran need => ?_⟩
  have next := resumes d ran need
  refine ⟨.live next.live next.idle next.way,fun tail => ?_,next.forward,next.behind⟩
  rw [future_live live,future_live next.live,← next.future tail]
  simp only [feed,Coder.append,List.append_assoc]

section Starting
variable (starting : Starting limit p)
include starting

-- The first call takes what is missing of the five bytes that start the decoder.
theorem decodeToDic_starting : decodeToDic p limit src mode =
    if (p.tempBuf ++ src).head?.getD 0 ≠ 0 then dataError {p with tempBuf := (p.tempBuf ++ src).take rcInitSize}
    else if ((p.tempBuf ++ src).take rcInitSize).length < rcInitSize then
      .ok ⟨{p with tempBuf := (p.tempBuf ++ src).take rcInitSize},min (rcInitSize-p.tempBuf.length) src.length,.needsMoreInput⟩
    else
      match writeRem (startUp {p with tempBuf := (p.tempBuf ++ src).take rcInitSize}) limit with
      | .error f => .error f
      | .ok q => mainLoop limit mode (limit-q.dicPos+2) q (src.drop (min (rcInitSize-p.tempBuf.length) src.length))
          (min (rcInitSize-p.tempBuf.length) src.length) := by
  unfold decodeToDic
  rw [if_pos (by rw [starting.remainLen]; exact Nat.lt_add_of_pos_right (by decide))]
  dsimp only
  rewrite [take_taken src starting.few,head_take]
  rfl

theorem starting_refused (bad : (p.tempBuf ++ src).head?.getD 0 ≠ 0) :
    Called limit mode p src (decodeToDic p limit src mode) := by
  rw [decodeToDic_starting starting,if_pos bad]
  refine ⟨?_,fun d ran => by cases ran⟩
  rw [future_starting mode starting src,opening,if_pos bad]
  simp only [answer,Ending.answer,written,Lz.initial,List.take_nil,List.length_nil,Nat.zero_min,List.drop_zero,List.nil_append]
  simp only [observe,dataError,Except.map,starting.dicPos]

variable (first : (p.tempBuf ++ src).head?.getD 0 = 0)
include first

theorem starting_waits (short : (p.tempBuf ++ src).length < rcInitSize) :
    Called limit mode p src (decodeToDic p limit src mode) := by
  have all : (p.tempBuf ++ src).take rcInitSize = p.tempBuf ++ src := List.take_of_length_le short.le
  have taken : min (rcInitSize-p.tempBuf.length) src.length = src.length := by
    rw [List.length_append] at short
    omega
  rw [decodeToDic_starting starting,if_neg (not_not_intro first),all,if_pos short,taken]
  refine ⟨?_,fun d ran need => ?_⟩
  · rw [future_starting mode starting src,opening,if_neg (not_not_intro first),if_pos short]
    simp only [answer,Ending.answer,written,Lz.initial,List.take_nil,List.length_nil,Nat.zero_min,List.drop_zero,List.nil_append,
      Nat.zero_add]
    simp only [observe,Except.map,starting.dicPos]
  · cases ran
    have again : Starting limit {p with tempBuf := p.tempBuf ++ src} :=
      ⟨starting.remainLen,starting.dicPos,starting.processedPos,starting.checkDicSize,short,first,starting.fits⟩
    refine ⟨.starting again,fun tail => ?_,le_rfl,rfl⟩
    rw [future_starting mode starting,future_starting mode again,List.append_assoc]

theorem starting_runs (long : rcInitSize ≤ (p.tempBuf ++ src).length) :
    Called limit mode p src (decodeToDic p limit src mode) := by
  have few := starting.few
  have five : ¬((p.tempBuf ++ src).take rcInitSize).length < rcInitSize := by
    rw [List.length_take]
    omega
  obtain ⟨live,idle,initial⟩ := startUp_live starting ((p.tempBuf ++ src).take rcInitSize)
  have started := startUp_eq starting ((p.tempBuf ++ src).take rcInitSize)
  have taken : min (rcInitSize-p.tempBuf.length) src.length = rcInitSize-p.tempBuf.length := by
    rw [List.length_append] at long
    omega
  rw [decodeToDic_starting starting,if_neg (not_not_intro first),if_neg five]
  generalize startUp {p with tempBuf := (p.tempBuf ++ src).take rcInitSize} = q at live idle initial started
  rw [writeRem_idle idle,taken]
  generalize eaten : rcInitSize-p.tempBuf.length = n
  have le : n ≤ src.length := by omega
  have prop : q.prop = p.prop := by rw [started]
  have dic : q.dic = p.dic := by rw [started]
  have empty : q.tempBuf = [] := by rw [started]
  have fed : feed q (src.drop n) = startCoder p.prop (p.tempBuf ++ src) := by
    rw [started]
    simp only [feed,startCoder,List.nil_append]
    rw [← eaten,show 5 = rcInitSize from rfl,List.drop_append,List.drop_of_length_le few.le,List.nil_append]
  obtain ⟨observed,resumes⟩ :=
    mainLoop_answers mode (src.drop n) n live (Nat.lt_succ_self (limit-q.dicPos+1))
  have begun : ∀ tail,future limit mode p (src ++ tail) =
      plain q.prop limit mode (lz q) ((feed q (src.drop n)).append tail) := by
    intro tail
    have first' : (p.tempBuf ++ src ++ tail).head?.getD 0 = 0 := by
      rw [← head_take,List.take_append_of_le_length long,head_take]
      exact first
    rw [future_starting mode starting,← List.append_assoc,
      opening_started first' (by rw [List.length_append]; omega),startCoder_append p.prop long,fed,initial,prop]
  refine ⟨?_,fun d ran need => ?_⟩
  · have here := begun []
    rw [List.append_nil,append_nil] at here
    have shrinks := plain_shrinks q.prop limit mode (lz q) (feed q (src.drop n))
    have later : answer q.dic limit (0+(src.length-(src.drop n).length)) (src.drop n).length
        (plain q.prop limit mode (lz q) (feed q (src.drop n))) =
          answer p.dic limit 0 src.length (plain q.prop limit mode (lz q) (feed q (src.drop n))) :=
      answer_later (k := 0) (by rw [dic]) (Nat.zero_le _) (Nat.zero_le _) (by rw [List.length_drop]; omega)
        (fun _ => shrinks.2.trans (by rw [feed,empty,List.nil_append]))
    rw [observed,here,← later]
    congr 1
    rw [List.length_drop]
    omega
  · have next := resumes d ran need
    refine ⟨.live next.live next.idle next.way,fun tail => ?_,by rw [starting.dicPos]; exact Nat.zero_le _,by rw [next.behind,dic]⟩
    rw [begun,future_live next.live,← next.future tail]

end Starting

theorem starting_called (starting : Starting limit p) : Called limit mode p src (decodeToDic p limit src mode) := by
  by_cases first : (p.tempBuf ++ src).head?.getD 0 = 0
  case neg => exact starting_refused starting first
  case pos =>
    by_cases short : (p.tempBuf ++ src).length < rcInitSize
    case pos => exact starting_waits starting first short
    case neg => exact starting_runs starting first (Nat.not_lt.mp short)

theorem called (src : Bytes) (resting : Resting limit mode p) : Called limit mode p src (decodeToDic p limit src mode) := by
  cases resting with
  | starting starting => exact starting_called starting
  | live live idle way => exact live_called live idle

end Call

section Pieces
variable {limit : Nat} {mode : ELzmaFinishMode} {p : CLzmaDec}

-- One call after the other, each with the next piece of the input while it is asked for.
def decodePieces (limit : Nat) (mode : ELzmaFinishMode) : CLzmaDec → Nat → Bytes → List Bytes → Run Decoded
  | p,srcLen,src,[] =>
    match decodeToDic p limit src mode with
    | .error f => .error f
    | .ok d => .ok {d with srcLen := srcLen+d.srcLen}
  | p,srcLen,src,piece::pieces =>
    match decodeToDic p limit src mode with
    | .error f => .error f
    | .ok d =>
      if d.status = .needsMoreInput then decodePieces limit mode d.p (srcLen+d.srcLen) piece pieces
      else .ok {d with srcLen := srcLen+d.srcLen}

theorem opening_append {prop : Props} {bytes : Bytes} {s : Lz} {d : Coder} {ending : Ending} (tail : Bytes)
    (ran : opening prop limit mode bytes = (s,d,ending)) (done : ending ≠ .short) :
    opening prop limit mode (bytes ++ tail) = (s,d.append tail,ending) := by
  unfold opening at ran
  split at ran
  case isTrue bad =>
    cases ran
    have some : bytes ≠ [] := fun none => bad (by rw [none]; rfl)
    rw [opening,if_pos (by rw [List.head?_append_of_ne_nil _ some]; exact bad)]
    rfl
  case isFalse good =>
    split at ran
    case isTrue => cases ran; exact absurd rfl done
    case isFalse short =>
      have long := Nat.not_lt.mp short
      have some : bytes ≠ [] := fun none => by rw [none] at long; exact absurd long (by decide)
      have first : (bytes ++ tail).head?.getD 0 = 0 := by
        rw [List.head?_append_of_ne_nil _ some]
        exact not_not.mp good
      rw [opening_started first (by rw [List.length_append]; omega),startCoder_append prop long]
      exact plain_append tail ran done

theorem future_append {src : Bytes} {s : Lz} {d : Coder} {ending : Ending} (tail : Bytes)
    (ran : future limit mode p src = (s,d,ending)) (done : ending ≠ .short) :
    future limit mode p (src ++ tail) = (s,d.append tail,ending) := by
  unfold future at ran ⊢
  split at ran
  case isTrue fresh =>
    rw [if_pos fresh,← List.append_assoc]
    exact opening_append tail ran done
  case isFalse begun =>
    rw [if_neg begun,show feed p (src ++ tail) = (feed p src).append tail by simp only [feed,Coder.append,List.append_assoc]]
    exact plain_append tail ran done

theorem answer_append {dic : Bytes} {n length : Nat} {s : Lz} {d : Coder} {ending : Ending} (tail : Bytes) (done : ending ≠ .short) :
    answer dic limit n (length+tail.length) (s,d.append tail,ending) = answer dic limit n length (s,d,ending) := by
  have same : length+tail.length-(d.append tail).input.length = length-d.input.length := by
    simp only [Coder.append,List.length_append]
    omega
  cases ending with
  | full => simp only [answer,Ending.answer,same]; rfl
  | finished => simp only [answer,Ending.answer,same]; rfl
  | short => exact absurd rfl done
  | bad => rfl

def later (n : Nat) (o : Bytes × Nat × Nat × ELzmaStatus) : Bytes × Nat × Nat × ELzmaStatus := (o.1,o.2.1,n+o.2.2.1,o.2.2.2)

theorem answer_shift {dic : Bytes} {n length : Nat} (r : Lz × Coder × Ending) :
    answer dic limit n length r = (answer dic limit 0 length r).map (later n) := by
  obtain ⟨s,d,ending⟩ := r
  cases ending with
  | full => simp only [answer,Ending.answer,Except.map,later,Nat.zero_add]
  | finished =>
    simp only [answer,Ending.answer]
    split
    · simp only [Except.map,later,Nat.zero_add]
    · rfl
  | short => simp only [answer,Ending.answer,Except.map,later,Nat.zero_add]
  | bad => rfl

-- More input is asked for exactly where the plain decoder lacks some.
theorem answer_needs {dic : Bytes} {n length : Nat} {r : Lz × Coder × Ending} {o : Bytes × Nat × Nat × ELzmaStatus}
    (same : answer dic limit n length r = .ok o) : o.2.2.2 = .needsMoreInput ↔ r.2.2 = .short := by
  obtain ⟨s,d,ending⟩ := r
  cases ending with
  | full =>
    simp only [answer,Ending.answer,Except.ok.injEq] at same
    rw [← same]
    dsimp only
    split
    · exact ⟨fun same => (by cases same),fun same => (by cases same)⟩
    · exact ⟨fun same => (by cases same),fun same => (by cases same)⟩
  | finished =>
    simp only [answer,Ending.answer] at same
    split at same
    · cases same
      exact ⟨fun same => (by cases same),fun same => (by cases same)⟩
    · cases same
  | short =>
    cases same
    exact ⟨fun _ => rfl,fun _ => rfl⟩
  | bad => cases same

theorem future_out (resting : Resting limit mode p) (src : Bytes) :
    p.dicPos ≤ limit ∧ p.dicPos ≤ (future limit mode p src).1.out.length := by
  cases resting with
  | starting starting =>
    rw [starting.dicPos]
    exact ⟨Nat.zero_le _,Nat.zero_le _⟩
  | live live idle way =>
    have shrinks := plain_shrinks p.prop limit mode (lz p) (feed p src)
    rw [future_live live]
    exact ⟨live.within,(idle_length live.inv (quiet_of idle)).ge.trans shrinks.1⟩

theorem atLimit_next {prop : Props} {s : Lz} {c : Coder} (way : mode = .end ∧ c.code ≠ 0) (within : s.out.length ≤ limit)
    (ends : (atLimit prop limit mode s c).2.2 = .full ∨ (atLimit prop limit mode s c).2.2 = .finished) :
    ∃ symbol d,next prop s c = .ok (symbol,d) ∧ (atLimit prop limit mode s c).2.1 = d := by
  obtain ⟨rfl,more⟩ := way
  have looked : atLimit prop limit .end s c = atLimit prop limit .end s c := rfl
  conv_rhs at looked => rw [atLimit,if_neg (show ¬ELzmaFinishMode.end = .any by decide),if_neg (Nat.not_lt.mpr within),if_neg more]
  rw [looked] at ends ⊢
  cases came : next prop s c with
  | error h =>
    rw [came] at ends
    obtain ends | ends := ends
    · cases ends
    · cases ends
  | ok r =>
    obtain ⟨symbol,d⟩ := r
    refine ⟨symbol,d,rfl,?_⟩
    cases symbol
    all_goals rfl

-- A call that ends has taken all that was kept before it.
theorem future_input (resting : Resting limit mode p) (src : Bytes)
    (ends : (future limit mode p src).2.2 = .full ∨ (future limit mode p src).2.2 = .finished) :
    (future limit mode p src).2.1.input.length ≤ src.length := by
  cases resting with
  | starting starting =>
    rw [future_starting mode starting] at ends ⊢
    unfold opening at ends ⊢
    split
    case isTrue bad =>
      rw [if_pos bad] at ends
      obtain ends | ends := ends
      · cases ends
      · cases ends
    case isFalse good =>
      rw [if_neg good] at ends
      split
      case isTrue short =>
        rw [if_pos short] at ends
        obtain ends | ends := ends
        · cases ends
        · cases ends
      case isFalse =>
        have few := starting.few
        have shrinks := (plain_shrinks p.prop limit mode Lz.initial (startCoder p.prop (p.tempBuf ++ src))).2
        refine shrinks.trans ?_
        simp only [startCoder,List.length_drop,List.length_append]
        simp only [rcInitSize] at few
        omega
  | live live idle way =>
    rw [future_live live] at ends ⊢
    by_cases empty : p.tempBuf = []
    case pos =>
      have shrinks := (plain_shrinks p.prop limit mode (lz p) (feed p src)).2
      simp only [feed,empty,List.nil_append] at shrinks ⊢
      exact shrinks
    case neg =>
      have taken : ∀ symbol d,next p.prop (lz p) (feed p src) = .ok (symbol,d) → d.input.length ≤ src.length :=
        fun symbol d came => next_starved_append (c := {p.toCoder with input := p.tempBuf}) (live.starved empty) came
      have length := idle_length live.inv (quiet_of idle)
      obtain ⟨full,same⟩ | ⟨room,⟨h,-,same⟩ | ⟨symbol,d,came,⟨-,same⟩ | ⟨-,-,same⟩ | ⟨t,-,-,same⟩⟩⟩ :=
        plain_cases p.prop limit mode (lz p) (feed p src)
      · rw [same] at ends ⊢
        obtain ⟨symbol,d,came,left⟩ := atLimit_next (c := feed p src) ((way.resolve_left (by omega)).2) (length.le.trans live.within) ends
        rw [left]
        exact taken symbol d came
      · rw [same] at ends
        obtain ends | ends := ends
        · cases ends
        · cases ends
      · rw [same]
        exact taken symbol d came
      · rw [same]
        exact taken symbol d came
      · rw [same]
        exact (plain_shrinks p.prop limit mode t d).2.trans (taken symbol d came)

theorem pieces_answer {n : Nat} {src : Bytes} {pieces : List Bytes} (resting : Resting limit mode p) :
    observe (decodePieces limit mode p n src pieces) =
      answer p.dic limit n (src ++ pieces.flatten).length (future limit mode p (src ++ pieces.flatten)) := by
  induction pieces generalizing p n src with
  | nil =>
    obtain ⟨observed,-⟩ := called src resting
    rw [List.flatten_nil,List.append_nil,answer_shift,← observed]
    simp only [decodePieces]
    cases decodeToDic p limit src mode with
    | error f => rfl
    | ok d => rfl
  | cons piece pieces ih =>
    obtain ⟨observed,goes⟩ := called src resting
    obtain ⟨s,d,ending,same⟩ : ∃ s d ending,future limit mode p src = (s,d,ending) := ⟨_,_,_,rfl⟩
    have done : ending ≠ .short →
        answer p.dic limit n (src ++ (piece::pieces).flatten).length (future limit mode p (src ++ (piece::pieces).flatten)) =
          (observe (decodeToDic p limit src mode)).map (later n) := by
      intro done
      rw [future_append _ same done,List.length_append,answer_append _ done,answer_shift,observed,same]
    rw [same] at observed
    simp only [decodePieces]
    cases ran : decodeToDic p limit src mode with
    | error f =>
      rw [ran] at done observed
      refine (done fun short => ?_).symm
      subst short
      cases observed
    | ok out =>
      rw [ran] at done observed
      have needs := answer_needs observed.symm
      by_cases asked : out.status = .needsMoreInput
      case neg =>
        rw [done fun short => asked (needs.mpr short)]
        simp only [asked,if_false]
        rfl
      case pos =>
        obtain rfl : ending = .short := needs.mp asked
        have taken : out.srcLen = src.length := by
          simp only [observe,Except.map,answer,Ending.answer,Nat.zero_add,Except.ok.injEq,Prod.mk.injEq] at observed
          exact observed.2.2.1
        have next := goes out ran asked
        obtain ⟨within,reach⟩ := future_out next.resting (piece ++ pieces.flatten)
        simp only [asked,if_true]
        rw [ih next.resting,List.flatten_cons,next.resumed,taken]
        have length : (src ++ (piece ++ pieces.flatten)).length-(piece ++ pieces.flatten).length = src.length := by
          rw [List.length_append,Nat.add_sub_cancel]
        rw [← answer_later next.behind reach within (by simp only [List.length_append]; omega) (future_input next.resting _),
          length]

theorem fresh_resting (prop : Props) {dest : Bytes} (fits : limit ≤ dest.length) : Resting limit mode (fresh prop dest) :=
  .starting ⟨rfl,rfl,rfl,rfl,show 0 < rcInitSize by decide,rfl,fits⟩

-- However the input is cut up, the calls make of it what one call does.
theorem decodePieces_whole (mode : ELzmaFinishMode) (prop : Props) (dest behind src : Bytes) (pieces : List Bytes) :
    observe (decodePieces dest.length mode (fresh prop (dest ++ behind)) 0 src pieces) =
      observe (decodeToDic (fresh prop (dest ++ behind)) dest.length (src ++ pieces.flatten) mode) := by
  have resting : Resting dest.length mode (fresh prop (dest ++ behind)) :=
    fresh_resting prop (by rw [List.length_append]; exact Nat.le_add_right _ _)
  rw [pieces_answer resting,(called _ resting).1]

end Pieces

section Decode

theorem drop_min (dest : Bytes) (n : Nat) : dest.drop (min n dest.length) = dest.drop n := by
  by_cases le : n ≤ dest.length
  case pos => rw [min_eq_left le]
  case neg => rw [min_eq_right (by omega),List.drop_length,List.drop_of_length_le (by omega)]

theorem opening_short {prop : Props} {limit : Nat} {mode : ELzmaFinishMode} {bytes : Bytes} (bad : bytes.head?.getD 0 ≠ 0) :
    opening prop limit mode bytes = (Lz.initial,⟨0,0,[],bytes⟩,.bad) := by
  rw [opening,if_pos bad]

-- The result of LzmaDecode from what a caller has of its one call.
def result (answered : Except Failure (Bytes × Nat × Nat × ELzmaStatus)) : Option Result :=
  match answered with
  | .error .fault => none
  | .error (.failed code dic dicPos) => some ⟨code,dic,dicPos⟩
  | .ok o => some ⟨if o.2.2.2 = .needsMoreInput then szErrorInputEof else 0,o.1,o.2.1⟩

theorem result_answer (dest : Bytes) (n length : Nat) (s : Lz) (c : Coder) (ending : Ending) :
    result (answer dest dest.length n length (s,c,ending)) =
      some ⟨ending.code c,s.out.take dest.length ++ dest.drop s.out.length,min s.out.length dest.length⟩ := by
  rw [← drop_min dest s.out.length,← written]
  cases ending with
  | full =>
    simp only [answer,Ending.answer,result,Ending.code]
    split
    · rfl
    · rfl
  | finished =>
    simp only [answer,Ending.answer,Ending.code]
    split
    · rfl
    · rfl
  | short => rfl
  | bad => rfl

theorem lzmaDecode_short {dest src propData : Bytes} {mode : ELzmaFinishMode} (short : src.length < rcInitSize) :
    lzmaDecode dest src propData mode = some ⟨szErrorInputEof,dest,0⟩ :=
  if_pos short

theorem lzmaDecode_unknown {dest src propData : Bytes} {mode : ELzmaFinishMode} (long : ¬src.length < rcInitSize)
    (unknown : propsDecode propData = none) : lzmaDecode dest src propData mode = some ⟨szErrorUnsupported,dest,0⟩ := by
  rw [lzmaDecode,if_neg long,unknown]

theorem lzmaDecode_opening {dest src propData : Bytes} {mode : ELzmaFinishMode} {prop : Props} (long : ¬src.length < rcInitSize)
    (known : propsDecode propData = some prop) {s : Lz} {c : Coder} {ending : Ending}
    (ran : opening prop dest.length mode src = (s,c,ending)) :
    lzmaDecode dest src propData mode =
      some ⟨ending.code c,s.out.take dest.length ++ dest.drop s.out.length,min s.out.length dest.length⟩ := by
  have resting : Resting dest.length mode (fresh prop dest) := fresh_resting prop le_rfl
  obtain ⟨observed,-⟩ := called src resting
  have begun : future dest.length mode (fresh prop dest) src = (s,c,ending) := ran
  have seen : result (observe (decodeToDic (fresh prop dest) dest.length src mode)) =
      result (answer dest dest.length 0 src.length (s,c,ending)) := by rw [observed,begun]; rfl
  rw [← result_answer,← seen,lzmaDecode,if_neg long,known]
  dsimp only
  cases decodeToDic (fresh prop dest) dest.length src mode with
  | ok d => rfl
  | error f =>
    cases f with
    | fault => rfl
    | failed code dic dicPos => rfl

-- The decoder with its dictionary, its limits, its pending matches and its dry runs
-- gives what the plain decoder gives, and never leaves an array.
theorem lzmaDecode_plain (dest src propData : Bytes) (mode : ELzmaFinishMode) :
    lzmaDecode dest src propData mode = some (plainDecode dest src propData mode) := by
  unfold plainDecode
  by_cases short : src.length < rcInitSize
  case pos => rw [lzmaDecode_short short,if_pos short]
  case neg =>
    rw [if_neg short]
    cases known : propsDecode propData with
    | none => rw [lzmaDecode_unknown short known]
    | some prop =>
      by_cases first : src.head?.getD 0 = 0
      case neg =>
        rw [lzmaDecode_opening short known (opening_short first)]
        simp only [first,ne_eq,not_false_eq_true,if_true,Lz.initial,List.take_nil,List.length_nil,Nat.zero_min,List.drop_zero,
          List.nil_append]
        rfl
      case pos =>
        obtain ⟨s,c,ending,ran⟩ : ∃ s c ending,plain prop dest.length mode Lz.initial (startCoder prop src) = (s,c,ending) :=
          ⟨_,_,_,rfl⟩
        rw [lzmaDecode_opening short known ((opening_started first (Nat.not_lt.mp short)).trans ran)]
        simp only [first,ne_eq,not_true_eq_false,if_false,ran]

-- What is written is as long as destLen says, and does not depend on what stood there.
theorem lzmaDecode_frame (src propData : Bytes) (mode : ELzmaFinishMode) (n : Nat) :
    ∃ code out,out.length ≤ n ∧ ∀ dest : Bytes,dest.length = n →
      lzmaDecode dest src propData mode = some ⟨code,out ++ dest.drop out.length,out.length⟩ := by
  by_cases short : src.length < rcInitSize
  case pos => exact ⟨szErrorInputEof,[],Nat.zero_le n,fun dest _ => lzmaDecode_short short⟩
  case neg =>
    cases known : propsDecode propData with
    | none => exact ⟨szErrorUnsupported,[],Nat.zero_le n,fun dest _ => lzmaDecode_unknown short known⟩
    | some prop =>
      obtain ⟨s,c,ending,ran⟩ : ∃ s c ending,opening prop n mode src = (s,c,ending) := ⟨_,_,_,rfl⟩
      have length : (s.out.take n).length = min s.out.length n := by rw [List.length_take,min_comm]
      refine ⟨ending.code c,s.out.take n,by rw [length]; exact min_le_right _ _,fun dest same => ?_⟩
      subst same
      rw [lzmaDecode_opening short known ran,length,drop_min]

end Decode

section Dummy
variable {limit : Nat} {p : CLzmaDec}

-- The dry run tells what the next symbol is, or that the input ends within it, and a
-- symbol takes LZMA_REQUIRED_INPUT_MAX bytes at most.
theorem tryDummy_exact (live : Live limit p) (idle : p.remainLen = 0) (buf : Bytes) :
    (∃ symbol d n,next p.prop (lz p) {p.toCoder with input := buf} = .ok (symbol,d) ∧ tryDummy p buf = .ok symbol.kind ∧
        n ≤ lzmaRequiredInputMax ∧ d.input = buf.drop n) ∨
      (next p.prop (lz p) {p.toCoder with input := buf} = .error .starved ∧ tryDummy p buf = .ok .error ∧
        buf.length < lzmaRequiredInputMax) := by
  obtain ⟨symbol,e,d,came,tried⟩ | ⟨starved,few,tried⟩ := tryDummy_cases buf live.inv idle live.normal
  · obtain ⟨n,most,-,rest⟩ := came.few live.normal
    exact .inl ⟨symbol,d,n,came.next,tried,most,rest⟩
  · exact .inr ⟨starved,tried,few⟩

-- A decoder that has written one byte of the stream and waits for more.
theorem second_symbol : ∃ p : CLzmaDec,p.dicPos = 1 ∧ p.remainLen = 0 ∧ Live 2 p ∧
    tryDummy p [64] = .ok .match ∧ tryDummy p [] = .ok .error := by
  obtain ⟨prop,small⟩ : ∃ prop : Props,prop = ⟨0,0,0,65536,by decide,by decide,by decide,by decide,by decide⟩ := ⟨_,rfl⟩
  have resting : Resting 2 .any (fresh prop [0,0,7]) := fresh_resting prop (by decide)
  have facts : (decodeToDic (fresh prop [0,0,7]) 2 [0,48,200,0,0,0] .any).toOption.map (fun d =>
      (d.status,d.p.dicPos,d.p.remainLen,(tryDummy d.p [64]).toOption,(tryDummy d.p []).toOption)) =
        some (.needsMoreInput,1,0,some .match,some .error) := by
    subst small
    decide +kernel
  obtain ⟨-,goes⟩ := called [0,48,200,0,0,0] resting
  cases ran : decodeToDic (fresh prop [0,0,7]) 2 [0,48,200,0,0,0] .any with
  | error f =>
    rw [ran] at facts
    cases facts
  | ok d =>
    rw [ran] at facts
    simp only [Except.toOption,Option.map_some,Option.some.injEq,Prod.mk.injEq] at facts
    obtain ⟨status,written,idle,one,none⟩ := facts
    refine ⟨d.p,written,idle,?_,?_,?_⟩
    · cases (goes d ran status).resting with
      | starting starting => exact absurd (starting.dicPos.symm.trans written) (by decide)
      | live live => exact live
    · cases tried : tryDummy d.p [64] with
      | error f => rw [tried] at one; cases one
      | ok kind => rw [tried] at one; cases one; rfl
    · cases tried : tryDummy d.p [] with
      | error f => rw [tried] at none; cases none
      | ok kind => rw [tried] at none; cases none; rfl

theorem tryDummy_exact_second : ∃ p : CLzmaDec,p.dicPos = 1 ∧
    (∃ symbol d n,next p.prop (lz p) {p.toCoder with input := [64]} = .ok (symbol,d) ∧ symbol.kind = .match ∧
      tryDummy p [64] = .ok .match ∧ n ≤ lzmaRequiredInputMax ∧ d.input = [64].drop n) ∧
    next p.prop (lz p) {p.toCoder with input := []} = .error .starved ∧ tryDummy p [] = .ok .error := by
  obtain ⟨p,written,idle,live,one,none⟩ := second_symbol
  refine ⟨p,written,?_,?_⟩
  · obtain ⟨symbol,d,n,came,tried,most,rest⟩ | ⟨-,tried,-⟩ := tryDummy_exact live idle [64]
    · exact ⟨symbol,d,n,came,(Except.ok.inj (one.symm.trans tried)).symm,one,most,rest⟩
    · rw [one] at tried
      cases tried
  · obtain ⟨symbol,d,n,-,tried,-,-⟩ | ⟨starved,tried,-⟩ := tryDummy_exact live idle []
    · have kind : symbol.kind = .error := (Except.ok.inj (none.symm.trans tried)).symm
      obtain same | same | same := kind_cases symbol
      all_goals
        rw [same] at kind
        cases kind
    · exact ⟨starved,tried⟩
end Dummy

end ChuwiMinibook.LzmaDecode
