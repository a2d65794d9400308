import ChuwiMinibook.LzmaDecode
import ChuwiMinibook.RangeEncoding
import Mathlib.Data.Nat.Log

namespace ChuwiMinibook.LzmaEncoding
open ByteScan CodedBits RangeEncoding LzmaSymbols LzmaBits LzmaDec LzmaPlain LzmaSteps LzmaRefinement LzmaCalls LzmaDecode
open Lz77 (extend)
open Coded

-- Every value a field has room for has decisions that are read back as it.
section Fields
variable {window : Bytes}

theorem treeBits_yields {base n i t : Nat} (low : i*2^n ≤ t) (high : t < (i+1)*2^n) : Yields window (treeBits base n i) t := by
  induction n generalizing i with
  | zero =>
    obtain rfl : i = t := by omega
    exact .done i
  | succ n ih =>
    rw [pow_succ] at low high
    by_cases right : (i+i+1)*2^n ≤ t
    case pos => exact .bit true (ih right (by simp only [Bool.toNat_true]; nlinarith))
    case neg => exact .bit false (ih (by simp only [Bool.toNat_false]; nlinarith) (by simp only [Bool.toNat_false,Nat.add_zero]; omega))

theorem treeDecode_yields {base n value : Nat} (fits : value < 2^n) : Yields window (treeDecode base n) value := by
  refine .bind (treeBits_yields (t := 2^n+value) (by omega) (by omega)) ?_
  rw [Nat.add_sub_cancel_left]
  exact .done value

theorem matchedBits_yields {prob n matchByte offs symbol t : Nat} (low : symbol*2^n ≤ t) (high : t < (symbol+1)*2^n) :
    Yields window (matchedBits prob n matchByte offs symbol) t := by
  induction n generalizing matchByte offs symbol with
  | zero =>
    obtain rfl : symbol = t := by omega
    exact .done symbol
  | succ n ih =>
    rw [pow_succ] at low high
    by_cases right : (symbol+symbol+1)*2^n ≤ t
    case pos =>
      refine .bit true ?_
      rw [if_pos rfl]
      exact ih right (by nlinarith)
    case neg =>
      refine .bit false ?_
      rw [if_neg Bool.false_ne_true]
      exact ih (by nlinarith) (by omega)

-- The bits come with the lowest first.
theorem revBits_yields {base n i m value : Nat} (le : m ≤ i) (fits : value < 2^n) :
    Yields window (revBits base n i m) (i-m+m*value) := by
  induction n generalizing i m value with
  | zero =>
    obtain rfl : value = 0 := by omega
    exact .done (i-m)
  | succ n ih =>
    have half : value/2 < 2^n := by rw [pow_succ] at fits; omega
    obtain even | odd := Nat.mod_two_eq_zero_or_one value
    · refine .bit false ?_
      rw [if_neg Bool.false_ne_true]
      have same : i+m-(m+m)+(m+m)*(value/2) = i-m+m*value := by
        have whole : value = 2*(value/2) := by omega
        conv_rhs => rw [whole]
        rw [← Nat.mul_assoc,Nat.mul_comm m 2,Nat.two_mul]
        omega
      rw [← same]
      exact ih (by omega) half
    · refine .bit true ?_
      rw [if_pos rfl]
      have same : i+(m+m)-(m+m)+(m+m)*(value/2) = i-m+m*value := by
        have whole : value = 2*(value/2)+1 := by omega
        conv_rhs => rw [whole]
        rw [Nat.mul_add,← Nat.mul_assoc,Nat.mul_comm m 2,Nat.two_mul]
        omega
      rw [← same]
      exact ih (by omega) half

theorem directBits_yields {n distance t : Nat} (low : distance*2^n ≤ t) (high : t < (distance+1)*2^n) :
    Yields window (directBits n distance) t := by
  induction n generalizing distance with
  | zero =>
    obtain rfl : distance = t := by omega
    exact .done distance
  | succ n ih =>
    rw [pow_succ] at low high
    by_cases right : (distance*2+1)*2^n ≤ t
    case pos => exact .direct true (ih right (by simp only [Bool.toNat_true]; nlinarith))
    case neg => exact .direct false (ih (by simp only [Bool.toNat_false]; nlinarith) (by simp only [Bool.toNat_false,Nat.add_zero]; omega))

theorem alignBits_yields {value : Nat} (fits : value < 16) : Yields window alignBits value := by
  have yields : Yields window (revBits align 4 1 1) (1-1+1*value) := revBits_yields le_rfl fits
  rw [← alignBits_eq] at yields
  simpa only [Nat.sub_self,Nat.zero_add,Nat.one_mul] using yields

theorem lenBits_yields {prob posState len : Nat} (short : len < 272) : Yields window (lenBits prob posState) len := by
  unfold lenBits
  simp only [bind_eq,pure_eq,aBit,Coded.bind]
  by_cases low : len < 8
  case pos =>
    refine .bit false ?_
    rw [if_neg Bool.false_ne_true]
    refine .bind (treeBits_yields (t := len+8) (by omega) (by omega)) ?_
    rw [Nat.add_sub_cancel]
    exact .done len
  case neg =>
    refine .bit true ?_
    rw [if_pos rfl]
    by_cases mid : len < 16
    case pos =>
      refine .bit false ?_
      rw [if_neg Bool.false_ne_true]
      exact treeBits_yields (by omega) (by omega)
    case neg =>
      refine .bit true ?_
      rw [if_pos rfl]
      refine .bind (@treeDecode_yields _ _ _ (len-16) (by omega)) ?_
      rw [Nat.sub_add_cancel (by omega)]
      exact .done len

-- From 4 on a distance has the slot of its length and of the bit below its first.
theorem slot_exists {distance : Nat} (small : distance < 4294967296) (far : 4 ≤ distance) :
    ∃ slot,4 ≤ slot ∧ slot < 64 ∧ (2+slot % 2)*2^(slot/2-1) ≤ distance ∧ distance < (2+slot % 2+1)*2^(slot/2-1) := by
  have some : distance ≠ 0 := by omega
  obtain ⟨n,length⟩ : ∃ n,Nat.log 2 distance = n+1 :=
    ⟨Nat.log 2 distance-1,(Nat.sub_add_cancel (Nat.log_pos (by omega) (by omega))).symm⟩
  have least := Nat.pow_log_le_self 2 some
  have most := Nat.lt_pow_succ_log_self (b := 2) (by omega) distance
  rw [length] at least most
  have pos : 0 < 2^n := Nat.pow_pos (by omega)
  have longer : 1 ≤ n := by
    by_contra short
    obtain rfl : n = 0 := by omega
    rw [Nat.zero_add] at most
    omega
  have shorter : n < 31 := by
    have below : 2^(n+1) < 2^32 := least.trans_lt small
    have := (Nat.pow_lt_pow_iff_right (by omega : 1 < 2)).mp below
    omega
  rw [pow_succ] at least
  rw [pow_succ,pow_succ] at most
  by_cases upper : 3*2^n ≤ distance
  case pos =>
    refine ⟨2*n+3,by omega,by omega,?_⟩
    rw [show (2*n+3) % 2 = 1 by omega,show (2*n+3)/2-1 = n by omega]
    omega
  case neg =>
    refine ⟨2*n+2,by omega,by omega,?_⟩
    rw [show (2*n+2) % 2 = 0 by omega,show (2*n+2)/2-1 = n by omega]
    omega

-- The largest distance is what an end marker is written as.
def farSymbol (distance len : Nat) : Symbol := if distance = 4294967295 then .marker else .simple distance len

theorem readDistance_yields {distance len : Nat} (near : distance < 4294967296) :
    Yields window (readDistance len) (farSymbol distance len) := by
  unfold readDistance farSymbol
  simp only [bind_eq,pure_eq]
  by_cases low : distance < 4
  case pos =>
    have ordinary : distance ≠ 4294967295 := by omega
    rw [if_neg ordinary]
    refine .bind (@treeDecode_yields _ _ _ distance (by omega)) ?_
    rw [if_pos low]
    exact .done _
  case neg =>
    obtain ⟨slot,four,fits,above,below⟩ := slot_exists near (by omega)
    have far : ¬slot < 4 := by omega
    refine .bind (treeDecode_yields fits) ?_
    rw [if_neg far]
    by_cases short : slot < 14
    case pos =>
      have bits : 2^(slot/2-1) ≤ 2^5 := Nat.pow_le_pow_right (by omega) (by omega)
      have times : (2+slot % 2+1)*2^(slot/2-1) ≤ 4*2^5 := Nat.mul_le_mul (by omega) bits
      have ordinary : distance ≠ 4294967295 := by omega
      rw [if_pos short,if_neg ordinary]
      rw [Nat.succ_mul] at below
      have read : Yields window (revBits specPos (slot/2-1) ((2+slot % 2)*2^(slot/2-1)+1) 1) distance := by
        have yields : Yields window (revBits specPos (slot/2-1) ((2+slot % 2)*2^(slot/2-1)+1) 1)
            ((2+slot % 2)*2^(slot/2-1)+1-1+1*(distance-(2+slot % 2)*2^(slot/2-1))) :=
          revBits_yields (by omega) (by omega)
        rwa [Nat.add_sub_cancel,Nat.one_mul,Nat.add_sub_cancel' above] at yields
      exact .bind read (.done _)
    case neg =>
      rw [if_neg short]
      have scale : 2^(slot/2-1) = 2^(slot/2-1-4)*16 := by
        rw [show (16 : Nat) = 2^4 from rfl,← pow_add,Nat.sub_add_cancel (by omega)]
      rw [scale,← Nat.mul_assoc] at above below
      refine .bind (directBits_yields (t := distance/16) ((Nat.le_div_iff_mul_le (by omega)).mpr above)
        ((Nat.div_lt_iff_lt_mul (by omega)).mpr below)) (.bind (alignBits_yields (Nat.mod_lt distance (by omega))) ?_)
      have whole : distance/16*16+distance % 16 = distance := Nat.div_add_mod' distance 16
      rw [whole]
      split
      · exact .done _
      · exact .done _

theorem readRep_yields {v : View} {index len : Nat} (few : index ≤ 3) (short : len < 272) :
    Yields window (readRep v) (.rep index len) := by
  unfold readRep
  simp only [bind_eq,pure_eq,aBit,Coded.bind]
  by_cases first : index = 0
  case pos =>
    subst first
    refine .bit false ?_
    rw [if_neg Bool.false_ne_true]
    refine .bit true ?_
    rw [if_pos rfl]
    exact .bind (lenBits_yields short) (.done _)
  case neg =>
    refine .bit true ?_
    rw [if_pos rfl]
    by_cases second : index = 1
    case pos =>
      subst second
      refine .bit false ?_
      rw [if_neg Bool.false_ne_true]
      exact .bind (lenBits_yields short) (.done _)
    case neg =>
      refine .bit true ?_
      rw [if_pos rfl]
      refine .bit (decide (index = 3)) (.bind (lenBits_yields short) ?_)
      have same : (if decide (index = 3) = true then 3 else 2) = index := by
        simp only [decide_eq_true_eq]
        split <;> omega
      rw [same]
      exact .done _

theorem readRep_short {v : View} : Yields window (readRep v) .shortRep := by
  unfold readRep
  simp only [bind_eq,pure_eq,aBit,Coded.bind]
  refine .bit false ?_
  rw [if_neg Bool.false_ne_true]
  refine .bit false ?_
  rw [if_neg Bool.false_ne_true]
  exact .done _

theorem literalBits_yields {v : View} {prob symbol : Nat} (readable : Readable v) (size : v.dicBufSize ≤ window.length)
    (low : 256 ≤ symbol) (high : symbol < 512) : Yields window (literalBits v prob) symbol := by
  unfold literalBits
  split
  case isTrue => exact treeBits_yields (by omega) (by omega)
  case isFalse matched =>
    obtain ⟨pos,behind,fits⟩ := readable.matched (Nat.not_lt.mp matched)
    refine .load ?_ ?_ fun byte => matchedBits_yields (by omega) (by omega)
    · unfold matchedByte
      split <;> omega
    · unfold matchedByte
      split <;> omega

theorem readLiteral_yields {v : View} {symbol : Nat} (readable : Readable v) (size : v.dicBufSize ≤ window.length)
    (low : 256 ≤ symbol) (high : symbol < 512) : Yields window (readLiteral v) (.literal symbol) := by
  unfold readLiteral literalProb
  simp only [bind_eq,pure_eq]
  have bits : ∀ prob,Yields window ((literalBits v prob).bind fun symbol => .done (Symbol.literal symbol)) (Symbol.literal symbol) :=
    fun prob => .bind (literalBits_yields readable size low high) (.done _)
  split
  case isTrue started =>
    obtain ⟨pos,fits⟩ := readable.previous started
    refine .load ?_ ?_ fun byte => bits _
    · unfold previousByte
      split <;> omega
    · unfold previousByte
      split <;> omega
  case isFalse => exact bits _

-- A stream can say every proper symbol.
theorem readSymbol_yields {v : View} {symbol : Symbol} (readable : Readable v) (size : v.dicBufSize ≤ window.length)
    (proper : Proper symbol) : Yields window (readSymbol v) symbol := by
  rw [readSymbol_bits]
  cases symbol with
  | literal symbol =>
    refine .bit false ?_
    rw [if_neg Bool.false_ne_true]
    exact readLiteral_yields readable size proper.1 proper.2
  | shortRep =>
    refine .bit true (.bit true ?_)
    rw [if_pos rfl]
    exact readRep_short
  | rep index len =>
    refine .bit true (.bit true ?_)
    rw [if_pos rfl]
    exact readRep_yields proper.1 proper.2
  | simple distance len =>
    refine .bit true (.bit false ?_)
    rw [if_neg Bool.false_ne_true]
    have far : farSymbol distance len = .simple distance len := if_neg proper.1.ne
    rw [← far]
    exact .bind (lenBits_yields proper.2) (readDistance_yields (proper.1.trans (by omega)))
  | marker =>
    refine .bit true (.bit false ?_)
    rw [if_neg Bool.false_ne_true]
    have far : farSymbol 4294967295 0 = .marker := if_pos rfl
    rw [← far]
    exact .bind (lenBits_yields (show 0 < 272 by omega)) (readDistance_yields (by omega))

end Fields

-- An interval between two symbols.
structure Fresh (prop : Props) (e : Interval) : Prop where
  sound : e.Sound
  normal : topValue ≤ e.range
  probs : e.probs.length = numProbs prop

-- A decoder beside an interval that a stream is in.
theorem tracks_exists {prop : Props} {stream : Bytes} {e : Interval} (fresh : Fresh prop e) (contains : Contains stream e) :
    ∃ c,Tracks stream e c ∧ Normal c := by
  have bounds := contains.bounds
  refine ⟨⟨e.range,number (stream.take e.size)-e.low,e.probs,stream.drop e.size⟩,⟨rfl,rfl,rfl,?_⟩,fresh.normal,fresh.sound.high⟩
  dsimp only
  omega

-- The decoder beside it reads the symbol and is then beside what is left.
theorem next_yields {prop : Props} {s : Lz} {e : Interval} {symbol : Symbol} (valid : Valid s) (proper : Proper symbol)
    (fresh : Fresh prop e) :
    ∃ e',Fresh prop e' ∧ e'.size ≤ e.size+lzmaRequiredInputMax ∧ ∀ stream,Contains stream e' → Contains stream e ∧
      ∀ c,Tracks stream e c → Normal c → ∃ d,next prop s c = .ok (symbol,d) ∧ Tracks stream e' d ∧ Normal d := by
  have said : Yields s.out (readSymbol (s.view prop)) symbol := readSymbol_yields (readable valid) le_rfl proper
  obtain ⟨bits,yields⟩ := said
  have allowed := view_allowed prop valid
  rw [← fresh.probs] at allowed
  have encoded : ∃ e',narrow s.out learn (readSymbol (s.view prop)) (bits ++ []) e = some (symbol,[],e') ∧ e'.Sound ∧
      e'.probs.length = e.probs.length := follow_narrow (yields []) allowed fresh.sound
  obtain ⟨e',narrowed,sound,probs⟩ := encoded
  obtain ⟨sound',normal⟩ := sound.normalize
  have same : e'.normalize.probs = e'.probs := by
    unfold Interval.normalize
    split <;> rfl
  have reads : ∀ stream,Contains stream e'.normalize → Contains stream e ∧ ∀ c,Tracks stream e c → Normal c →
      ∃ d,next prop s c = .ok (symbol,d) ∧ Tracks stream e'.normalize d ∧ Normal d := by
    intro stream contains
    have before := contains.before_normalize
    refine ⟨narrow_contains narrowed before,fun c tracks wide => ?_⟩
    obtain ⟨d,ran,after,still⟩ := narrow_exec narrowed before tracks wide.wide
    obtain ⟨n,normalized,final,normal'⟩ := normalize_tracks after still contains
    exact ⟨n,by simp only [next,ran,normalized],final,normal'⟩
  refine ⟨e'.normalize,⟨sound',normal,by rw [same,probs,fresh.probs]⟩,?_,reads⟩
  -- a stream that ends with the symbol shows how many bytes it takes
  obtain ⟨outer,decodes⟩ := reads _ (contains_digits sound')
  obtain ⟨c,tracks,wide⟩ := tracks_exists fresh outer
  obtain ⟨d,came,tracks',-⟩ := decodes c tracks wide
  obtain ⟨f,came⟩ := next_came valid (by rw [tracks.probs,fresh.probs]) wide came
  obtain ⟨k,few,inside,rest⟩ := came.few wide
  have left := congrArg List.length rest
  rw [tracks'.input,tracks.input,List.length_drop,List.length_drop,List.length_drop,digits_length] at left
  rw [tracks.input,List.length_drop,digits_length] at inside
  omega

-- What a list of symbols stands for.
def expand (prop : Props) : Lz → List Symbol → Option Lz
  | s,[] => some s
  | s,symbol::symbols =>
    match s.apply prop symbol with
    | none => none
    | some t => expand prop t symbols

theorem copy_valid {s t : Lz} {len : Nat} (state : s.state < kNumStates) (reps : All (Reaches s.out.length) s.reps)
    (copied : s.copy len = some t) : Valid t := by
  unfold Lz.copy at copied
  split at copied
  case isFalse => cases copied
  case isTrue behind =>
    cases copied
    have length : (extend s.reps.rep0 len s.out).length = s.out.length+len := Lz77.extend_length behind.1 behind.2
    refine ⟨state,?_,fun _ => ?_⟩
    · rw [length]
      exact reps.mono fun rep => Reaches.mono (Nat.le_add_right _ _)
    · rw [length]
      omega

theorem apply_valid {prop : Props} {s t : Lz} {symbol : Symbol} (valid : Valid s) (applied : s.apply prop symbol = some t) : Valid t := by
  have states := states_lt s.state
  cases symbol with
  | literal symbol =>
    cases applied
    have length : (s.out ++ [symbol.toUInt8]).length = s.out.length+1 := List.length_append
    refine ⟨(literalState_lt valid.state).trans (by decide),?_,fun _ => by rw [length]; exact Nat.succ_pos _⟩
    rw [length]
    exact valid.reps.mono fun rep => Reaches.mono (Nat.le_succ _)
  | shortRep => exact copy_valid (s := {s with state := shortRepState s.state}) states.1 valid.reps applied
  | rep index len =>
    exact copy_valid (s := {s with reps := s.reps.choose index,state := repState s.state}) states.2.1 (all_choose valid.reps index) applied
  | simple distance len =>
    simp only [Lz.apply] at applied
    split at applied
    case isFalse => cases applied
    case isTrue near =>
      exact copy_valid (s := {s with reps := s.reps.push (distance+1),state := matchState s.state}) states.2.2
        (all_push valid.reps ⟨Nat.succ_pos _,(Nat.succ_le_of_lt near.1).trans (le_max_right _ _)⟩) applied
  | marker => cases applied

theorem expand_grows {prop : Props} {s t : Lz} {symbols : List Symbol} (expanded : expand prop s symbols = some t) :
    s.out.length ≤ t.out.length := by
  induction symbols generalizing s with
  | nil => cases expanded; exact le_rfl
  | cons symbol symbols ih =>
    cases applied : s.apply prop symbol with
    | none => simp only [expand,applied] at expanded; cases expanded
    | some u =>
      simp only [expand,applied] at expanded
      exact (apply_grows applied).le.trans (ih expanded)

section Run
variable {prop : Props} {t : Lz} {symbols : List Symbol}

theorem run_yields {s : Lz} {e : Interval} (valid : Valid s) (proper : ∀ symbol ∈ symbols,Proper symbol)
    (expanded : expand prop s symbols = some t) (fresh : Fresh prop e) :
    ∃ e',Fresh prop e' ∧ e'.size ≤ e.size+lzmaRequiredInputMax*symbols.length ∧ Valid t ∧ ∀ stream,Contains stream e' → Contains stream e ∧
      ∀ c,Tracks stream e c → Normal c → ∃ d,Tracks stream e' d ∧ Normal d ∧
        ∀ limit mode,t.out.length ≤ limit → plain prop limit mode s c = plain prop limit mode t d := by
  induction symbols generalizing s e with
  | nil =>
    cases expanded
    exact ⟨e,fresh,le_rfl,valid,fun stream contains => ⟨contains,fun c tracks normal => ⟨c,tracks,normal,fun _ _ _ => rfl⟩⟩⟩
  | cons symbol symbols ih =>
    cases applied : s.apply prop symbol with
    | none => simp only [expand,applied] at expanded; cases expanded
    | some u =>
      simp only [expand,applied] at expanded
      have other : symbol ≠ .marker := fun same => by rw [same] at applied; cases applied
      have grows := apply_grows applied
      have rest := expand_grows expanded
      obtain ⟨e₁,fresh₁,few,step⟩ := next_yields valid (proper symbol List.mem_cons_self) fresh
      obtain ⟨e₂,fresh₂,fewer,valid₂,run⟩ :=
        ih (apply_valid valid applied) (fun symbol member => proper symbol (List.mem_cons_of_mem _ member)) expanded fresh₁
      refine ⟨e₂,fresh₂,by rw [List.length_cons,Nat.mul_succ]; omega,valid₂,fun stream contains => ?_⟩
      obtain ⟨inner,later⟩ := run stream contains
      obtain ⟨outer,now⟩ := step stream inner
      refine ⟨outer,fun c tracks normal => ?_⟩
      obtain ⟨d,came,tracks',normal'⟩ := now c tracks normal
      obtain ⟨f,tracks'',normal'',same⟩ := later d tracks' normal'
      refine ⟨f,tracks'',normal'',fun limit mode fits => ?_⟩
      rw [plain_step (by omega) came other applied]
      exact same limit mode fits

def start (prop : Props) : Interval := ⟨0,4294967295,4,List.replicate (numProbs prop) Prob.half⟩

theorem start_fresh (prop : Props) : Fresh prop (start prop) := by
  refine ⟨⟨?_,?_,?_⟩,?_,List.length_replicate⟩
  · exact show 65536 ≤ 4294967295 by decide
  · exact show 4294967295 < word by decide
  · exact show 0+4294967295 ≤ 256^4 by decide
  · exact show topValue ≤ 4294967295 by decide

theorem start_tracks (prop : Props) (stream : Bytes) : Tracks stream (start prop) (startCoder prop (0::stream)) :=
  ⟨rfl,rfl,rfl,by
    simp only [startCoder,startCode,start,number,List.take_succ_cons,List.drop_succ_cons,List.drop_zero,List.take_take,Nat.add_zero]
    rfl⟩

theorem start_normal (prop : Props) (stream : Bytes) : Normal (startCoder prop stream) :=
  ⟨show topValue ≤ 4294967295 by decide,show 4294967295 < word by decide⟩

theorem initial_valid : Valid Lz.initial := by
  have one : Reaches 0 1 := ⟨Nat.one_pos,le_rfl⟩
  exact ⟨by decide,⟨one,one,one,one⟩,fun high => absurd high (by decide)⟩

theorem lzmaDecode_started {propData dest stream : Bytes} {mode : ELzmaFinishMode} (known : propsDecode propData = some prop)
    (long : 4 ≤ stream.length) {s : Lz} {c : Coder} {ending : Ending}
    (ran : plain prop dest.length mode Lz.initial (startCoder prop (0::stream)) = (s,c,ending)) :
    lzmaDecode dest (0::stream) propData mode =
      some ⟨ending.code c,s.out.take dest.length ++ dest.drop s.out.length,min s.out.length dest.length⟩ := by
  have five : ¬(0::stream).length < rcInitSize := by
    simp only [List.length_cons,rcInitSize]
    omega
  exact lzmaDecode_opening five known ((opening_started rfl (Nat.not_lt.mp five)).trans ran)

-- A stream, but for its first byte, that the decoder comes by to what is left to say.
structure Tells (prop : Props) (t : Lz) (stream : Bytes) : Prop where
  long : 4 ≤ stream.length
  comes : ∃ d,∀ limit mode,t.out.length ≤ limit → plain prop limit mode Lz.initial (startCoder prop (0::stream)) = plain prop limit mode t d

theorem Tells.decodes {propData dest stream : Bytes} (known : propsDecode propData = some prop) (tells : Tells prop t stream)
    (length : dest.length = t.out.length) : lzmaDecode dest (0::stream) propData .any = some ⟨0,t.out,t.out.length⟩ := by
  obtain ⟨d,same⟩ := tells.comes
  have ran := same dest.length .any length.ge
  rw [plain_limit length.le,atLimit_full (.inl rfl)] at ran
  rw [lzmaDecode_started known tells.long ran,length,List.take_length,Nat.min_self,← length,List.drop_length,List.append_nil,length]
  rfl

theorem symbols_said (proper : ∀ symbol ∈ symbols,Proper symbol) (expanded : expand prop Lz.initial symbols = some t) :
    ∃ e : Interval,e.Sound ∧ e.size ≤ 4+lzmaRequiredInputMax*symbols.length ∧ ∀ stream,Contains stream e → Tells prop t stream := by
  obtain ⟨e,fresh,few,-,run⟩ := run_yields initial_valid proper expanded (start_fresh prop)
  refine ⟨e,fresh.sound,few,fun stream contains => ?_⟩
  obtain ⟨outer,reads⟩ := run _ contains
  obtain ⟨d,-,-,same⟩ := reads _ (start_tracks prop _) (start_normal prop _)
  exact ⟨outer.long,d,same⟩

-- Whatever a list of symbols stands for, there is a stream that is decoded as it, with
-- LZMA_REQUIRED_INPUT_MAX bytes a symbol at most, and what comes behind it does not matter.
theorem lzmaDecode_unmarked {propData : Bytes} (known : propsDecode propData = some prop) (proper : ∀ symbol ∈ symbols,Proper symbol)
    (expanded : expand prop Lz.initial symbols = some t) :
    ∃ src : Bytes,src.length ≤ rcInitSize+lzmaRequiredInputMax*symbols.length ∧ ∀ dest tail : Bytes,dest.length = t.out.length →
      lzmaDecode dest (src ++ tail) propData .any = some ⟨0,t.out,t.out.length⟩ := by
  obtain ⟨e,sound,few,said⟩ := symbols_said proper expanded
  refine ⟨0::digits e.size e.low,?_,fun dest tail length => ?_⟩
  · rw [List.length_cons,digits_length]
    simp only [rcInitSize]
    omega
  · exact (said _ ((contains_digits sound).append tail)).decodes known length

-- The lower end itself leaves a code of 0.
theorem digits_code {e : Interval} {c : Coder} (sound : e.Sound) (tracks : Tracks (digits e.size e.low) e c) : c.code = 0 := by
  have code := tracks.code
  have low := sound.low
  have fits := sound.fits
  rw [List.take_of_length_le (by rw [digits_length]),number_digits (by omega)] at code
  omega

theorem marked_ending {limit : Nat} (mode : ELzmaFinishMode) {c d : Coder} (fits : t.out.length ≤ limit)
    (came : next prop t c = .ok (.marker,d)) (zero : d.code = 0) :
    ∃ f ending,plain prop limit mode t c = (t,f,ending) ∧ ending.code f = 0 := by
  by_cases room : t.out.length < limit
  case pos => exact ⟨d,.finished,plain_marker room came,if_pos zero⟩
  case neg =>
    have full : t.out.length = limit := by omega
    rw [plain_limit full.ge]
    by_cases done : mode = .any ∨ (t.out.length ≤ limit ∧ c.code = 0)
    case pos => exact ⟨c,.full,atLimit_full done,rfl⟩
    case neg =>
      obtain ⟨some,more⟩ := not_or.mp done
      have mark : mode = .end := by
        cases mode
        · exact absurd rfl some
        · rfl
      subst mark
      refine ⟨d,.finished,?_,if_pos zero⟩
      exact (LzmaLoops.atLimit_came full (fun zero => more ⟨fits,zero⟩) came).trans (by rw [if_pos rfl])

-- With an end marker behind it the stream may be decoded into any room, in both modes.
theorem lzmaDecode_marked {propData : Bytes} (known : propsDecode propData = some prop) (proper : ∀ symbol ∈ symbols,Proper symbol)
    (expanded : expand prop Lz.initial symbols = some t) :
    ∃ src : Bytes,src.length ≤ rcInitSize+lzmaRequiredInputMax*(symbols.length+1) ∧
      ∀ (dest : Bytes) (mode : ELzmaFinishMode),t.out.length ≤ dest.length →
        lzmaDecode dest src propData mode = some ⟨0,t.out ++ dest.drop t.out.length,t.out.length⟩ := by
  obtain ⟨e₁,fresh₁,few,valid,run⟩ := run_yields initial_valid proper expanded (start_fresh prop)
  have marker : Proper .marker := trivial
  obtain ⟨e₂,fresh₂,last₂,step⟩ := next_yields valid marker fresh₁
  refine ⟨0::digits e₂.size e₂.low,?_,fun dest mode fits => ?_⟩
  · rw [List.length_cons,digits_length,Nat.mul_succ]
    simp only [start,rcInitSize] at few ⊢
    omega
  obtain ⟨inner,last⟩ := step _ (contains_digits fresh₂.sound)
  obtain ⟨outer,reads⟩ := run _ inner
  obtain ⟨c,tracks,normal,same⟩ := reads _ (start_tracks prop _) (start_normal prop _)
  obtain ⟨d,came,tracks',-⟩ := last c tracks normal
  obtain ⟨f,ending,ends,code⟩ := marked_ending mode fits came (digits_code fresh₂.sound tracks')
  have ran := same dest.length mode fits
  rw [ends] at ran
  rw [lzmaDecode_started known outer.long ran,code,List.take_of_length_le fits,min_eq_left fits]

-- Bytes said one by one.
def literals (bytes : Bytes) : List Symbol := bytes.map fun byte => .literal (256+byte.toNat)

theorem literals_proper (bytes : Bytes) : ∀ symbol ∈ literals bytes,Proper symbol := by
  intro symbol member
  obtain ⟨byte,-,rfl⟩ := List.mem_map.mp member
  have small := byte.toNat_lt
  exact ⟨Nat.le_add_right _ _,by omega⟩

theorem literal_byte (byte : UInt8) : (256+byte.toNat).toUInt8 = byte := by
  rw [← UInt8.toNat_inj]
  have small := byte.toNat_lt
  simp only [Nat.toUInt8,UInt8.toNat_ofNat']
  omega

theorem literals_expand (prop : Props) (s : Lz) (bytes : Bytes) : ∃ t,expand prop s (literals bytes) = some t ∧ t.out = s.out ++ bytes := by
  induction bytes generalizing s with
  | nil => exact ⟨s,rfl,(List.append_nil _).symm⟩
  | cons byte bytes ih =>
    obtain ⟨t,expanded,out⟩ := ih {s with out := s.out ++ [byte],state := literalState s.state}
    refine ⟨t,?_,by rw [out,List.append_assoc]; rfl⟩
    rw [← expanded]
    change expand prop {s with out := s.out ++ [(256+byte.toNat).toUInt8],state := literalState s.state} (literals bytes) = _
    rw [literal_byte]

-- So any bytes have a stream.
theorem bytes_stream {propData : Bytes} (known : propsDecode propData = some prop) (bytes : Bytes) :
    ∃ stream : Bytes,4 ≤ stream.length ∧ stream.length ≤ 4+lzmaRequiredInputMax*bytes.length ∧
      ∀ dest : Bytes,dest.length = bytes.length → lzmaDecode dest (0::stream) propData .any = some ⟨0,bytes,bytes.length⟩ := by
  obtain ⟨t,expanded,out⟩ := literals_expand prop Lz.initial bytes
  obtain ⟨e,sound,few,said⟩ := symbols_said (literals_proper bytes) expanded
  have same : t.out = bytes := out
  have tells := said _ (contains_digits sound)
  rw [literals,List.length_map] at few
  exact ⟨_,tells.long,by rw [digits_length]; exact few,fun dest length => same ▸ tells.decodes known (by rw [same,length])⟩

-- Two literals, a match that overlaps itself and a byte repeated.
theorem sample_proper : ∀ symbol ∈ [.literal 321,.literal 322,.simple 1 3,.shortRep],Proper symbol :=
  List.forall_mem_cons.mpr ⟨⟨by decide,by decide⟩,List.forall_mem_cons.mpr ⟨⟨by decide,by decide⟩,List.forall_mem_cons.mpr
    ⟨⟨by decide,by decide⟩,List.forall_mem_cons.mpr ⟨trivial,fun _ none => by cases none⟩⟩⟩⟩

theorem lzmaDecode_unmarked_sample : ∃ src : Bytes,src.length ≤ 85 ∧ ∀ dest tail : Bytes,dest.length = 8 →
    lzmaDecode dest (src ++ tail) [93,0,16,0,0] .any = some ⟨0,[65,66,65,66,65,66,65,66],8⟩ :=
  lzmaDecode_unmarked (t := ⟨[65,66,65,66,65,66,65,66],⟨2,1,1,1⟩,11⟩) rfl sample_proper rfl

theorem lzmaDecode_marked_sample : ∃ src : Bytes,src.length ≤ 105 ∧ ∀ (dest : Bytes) (mode : ELzmaFinishMode),8 ≤ dest.length →
    lzmaDecode dest src [93,0,16,0,0] mode = some ⟨0,[65,66,65,66,65,66,65,66] ++ dest.drop 8,8⟩ :=
  lzmaDecode_marked (t := ⟨[65,66,65,66,65,66,65,66],⟨2,1,1,1⟩,11⟩) rfl sample_proper rfl

end Run

end ChuwiMinibook.LzmaEncoding
