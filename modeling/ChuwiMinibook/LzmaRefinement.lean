import ChuwiMinibook.LzmaSteps

namespace ChuwiMinibook.LzmaRefinement
open ByteScan CodedBits LzmaSymbols LzmaBits LzmaDec LzmaPlain LzmaSteps
open Lz77 (extend)
open Coded (exec)

-- checkDicSize is 0 until a dictionary's worth is written; then processedPos may wrap.
def Place (p : CLzmaDec) : Prop :=
  (p.checkDicSize = 0 ∧ p.processedPos = p.dicPos ∧ p.dicPos ≤ p.prop.dicSize) ∨
    (p.checkDicSize = p.prop.dicSize ∧ p.prop.dicSize ≤ p.dicPos ∧ p.processedPos = p.dicPos % word)

structure Inv (p : CLzmaDec) : Prop where
  probs : p.probs.length = numProbs p.prop
  state : p.state < kNumStates
  fits : p.dicPos ≤ p.dic.length
  place : Place p
  reps : All (Reaches p.dicPos) p.reps
  started : kNumLitStates ≤ p.state → 0 < p.dicPos

-- What is still to be written of the last match.
def pending (p : CLzmaDec) : Nat := if p.remainLen < kMatchSpecLenStart then p.remainLen else 0

def lz (p : CLzmaDec) : Lz := ⟨extend p.reps.rep0 (pending p) (p.dic.take p.dicPos),p.reps,p.state⟩

theorem take_length {p : CLzmaDec} (inv : Inv p) : (p.dic.take p.dicPos).length = p.dicPos := by
  rw [List.length_take,min_eq_left inv.fits]

theorem lz_idle {p : CLzmaDec} (idle : pending p = 0) : (lz p).out = p.dic.take p.dicPos := by
  rw [lz,idle]
  rfl

theorem lz_eq {p : CLzmaDec} (idle : pending p = 0) : lz p = ⟨p.dic.take p.dicPos,p.reps,p.state⟩ := by
  rw [lz,idle]
  rfl

theorem idle_length {p : CLzmaDec} (inv : Inv p) (idle : pending p = 0) : (lz p).out.length = p.dicPos := by
  rw [lz_idle idle,take_length inv]

theorem idle_valid {p : CLzmaDec} (inv : Inv p) (idle : pending p = 0) : Valid (lz p) where
  state := inv.state
  reps := by rw [idle_length inv idle]; exact inv.reps
  started := by rw [idle_length inv idle]; exact inv.started

theorem processed_mod {p : CLzmaDec} (inv : Inv p) {m : Nat} (dvd : m ∣ word) : p.processedPos % m = p.dicPos % m := by
  obtain ⟨-,same,-⟩ | ⟨-,-,same⟩ := inv.place
  · rw [same]
  · rw [same,Nat.mod_mod_of_dvd _ dvd]

theorem power_dvd {n : Nat} (le : n ≤ 32) : 2^n ∣ word := by
  rw [show word = 2^32 from rfl]
  exact Nat.pow_dvd_pow 2 le

theorem started_iff {p : CLzmaDec} (inv : Inv p) : p.processedPos ≠ 0 ∨ p.checkDicSize ≠ 0 ↔ 0 < p.dicPos := by
  have large := p.prop.dicSize_ge
  obtain ⟨check,same,-⟩ | ⟨check,le,-⟩ := inv.place
  · omega
  · omega

-- The fields read the same bits as everything that was decoded would.
theorem reads {p : CLzmaDec} (inv : Inv p) (idle : pending p = 0) :
    readSymbol p.view = readSymbol ((lz p).view p.prop) := by
  have length := idle_length inv idle
  have position : posState p.view = posState ((lz p).view p.prop) := by
    have pb_le := p.prop.pb_le
    simp only [posState,CLzmaDec.view,Lz.view,length]
    rw [processed_mod inv (power_dvd (by omega))]
  have offset : literalOffset p.view = literalOffset ((lz p).view p.prop) := by
    funext byte
    simp only [literalOffset,CLzmaDec.view,Lz.view,length]
    rw [Nat.add_mod,Nat.mul_mod,processed_mod inv dvd_rfl,← Nat.mul_mod,← Nat.add_mod]
  have started := started_iff inv
  have context : literalProb p.view (literalOffset p.view) = literalProb ((lz p).view p.prop) (literalOffset ((lz p).view p.prop)) := by
    rw [offset]
    unfold literalProb
    by_cases pos : 0 < p.dicPos
    case pos =>
      have here : previousByte p.view = previousByte ((lz p).view p.prop) := by
        simp only [previousByte,CLzmaDec.view,Lz.view,length,show ¬p.dicPos = 0 by omega,if_false]
      have left : p.view.processedPos ≠ 0 ∨ p.view.checkDicSize ≠ 0 := started.mpr pos
      have right : ((lz p).view p.prop).processedPos ≠ 0 ∨ ((lz p).view p.prop).checkDicSize ≠ 0 := by
        simp only [Lz.view,length]
        omega
      rw [if_pos left,if_pos right,here]
    case neg =>
      have left : ¬(p.view.processedPos ≠ 0 ∨ p.view.checkDicSize ≠ 0) := fun some => pos (started.mp some)
      have right : ¬(((lz p).view p.prop).processedPos ≠ 0 ∨ ((lz p).view p.prop).checkDicSize ≠ 0) := by
        simp only [Lz.view,length]
        omega
      rw [if_neg left,if_neg right]
  have bits : literalBits p.view = literalBits ((lz p).view p.prop) := by
    funext prob
    unfold literalBits
    by_cases low : p.state < kNumLitStates
    case pos => rw [if_pos (show p.view.state < kNumLitStates from low),if_pos (show ((lz p).view p.prop).state < kNumLitStates from low)]
    case neg =>
      have some := inv.started (Nat.not_lt.mp low)
      have reach := inv.reps.1.2
      have here : matchedByte p.view = matchedByte ((lz p).view p.prop) := by
        simp only [matchedByte,CLzmaDec.view,Lz.view,length,show ¬p.dicPos < p.reps.rep0 by omega,show (lz p).reps = p.reps from rfl,if_false]
      rw [if_neg (show ¬p.view.state < kNumLitStates from low),if_neg (show ¬((lz p).view p.prop).state < kNumLitStates from low),here]
  simp only [readSymbol,readLiteral,readRep,position,context,bits]
  rfl

-- The decoder's loop does not normalize between two symbols.
theorem real_reads {p : CLzmaDec} {c : Coder} (inv : Inv p) (idle : pending p = 0) (wide : Wide p.toCoder)
    (normalized : normalize p.toCoder = .ok c) :
    exec p.dic learn (readSymbol p.view) p.toCoder = exec (lz p).out learn (readSymbol ((lz p).view p.prop)) c := by
  have allowed := view_allowed p.prop (idle_valid inv idle)
  rw [reads inv idle]
  rw [exec_window allowed]
  · rw [readSymbol_bits]
    exact exec_normalize wide normalized
  · intro i inside
    rw [lz_idle idle] at inside ⊢
    rw [take_length inv] at inside
    rw [List.getElem?_take_of_lt inside]

theorem take_set {dic : Bytes} {i : Nat} {byte : UInt8} (inside : i < dic.length) :
    (dic.set i byte).take (i+1) = dic.take i ++ [byte] := by
  rw [List.take_succ_eq_append_getElem (by rw [List.length_set]; exact inside),List.getElem_set_self,List.take_set_of_le le_rfl]

-- A copy that does not run over the end appends to what stands before its target.
theorem copy_near (n : Nat) (dic : Bytes) {dist dest : Nat} (pos : 0 < dist) (behind : dist ≤ dest) (fits : dest+n ≤ dic.length) :
    copyBytes (· + 1) n (dest-dist) dest dic = some (extend dist n (dic.take dest) ++ dic.drop (dest+n)) := by
  induction n generalizing dest dic with
  | zero =>
    rw [Nat.add_zero]
    simp only [copyBytes,Lz77.extend_zero,List.take_append_drop]
  | succ n ih =>
    have source : dest-dist < dic.length := by omega
    have here : dest < dic.length := by omega
    have length : (dic.take dest).length = dest := by rw [List.length_take]; omega
    simp only [copyBytes,List.getElem?_eq_getElem source,here,if_true]
    have step := @ih (dic.set dest dic[dest-dist]) (dest+1) (by omega) (by rw [List.length_set]; omega)
    rw [show dest+1-dist = dest-dist+1 by omega] at step
    rw [step,take_set here,List.drop_set_of_lt (by omega),extend,length,List.getElem?_take_of_lt (by omega),
      List.getElem?_eq_getElem source,show dest+1+n = dest+(n+1) by omega]
    rfl

-- What a symbol that is written leaves: no more than the limit, nothing behind it.
structure Advanced (limit : Nat) (p q : CLzmaDec) : Prop where
  coder : q.toCoder = p.toCoder
  prop : q.prop = p.prop
  check : q.checkDicSize = p.checkDicSize
  forward : p.dicPos < q.dicPos
  within : q.dicPos ≤ limit
  short : q.remainLen < kMatchSpecLenStart
  full : q.remainLen ≠ 0 → q.dicPos = limit
  length : q.dic.length = p.dic.length
  behind : q.dic.drop q.dicPos = p.dic.drop q.dicPos
  tempBuf : q.tempBuf = p.tempBuf

theorem place_moves {p q : CLzmaDec} {n : Nat} (place : Place p) (prop : q.prop = p.prop) (check : q.checkDicSize = p.checkDicSize)
    (dicPos : q.dicPos = p.dicPos+n) (processedPos : q.processedPos = (p.processedPos+n) % word)
    (within : p.checkDicSize = 0 → q.dicPos ≤ p.prop.dicSize) : Place q := by
  have small := p.prop.dicSize_lt
  have large := p.prop.dicSize_ge
  unfold Place
  rw [prop,check,processedPos,dicPos]
  obtain ⟨zero,same,le⟩ | ⟨set,le,same⟩ := place
  · have bound := within zero
    rw [same,Nat.mod_eq_of_lt (by omega)]
    exact .inl ⟨zero,rfl,by omega⟩
  · rw [same,Nat.mod_add_mod]
    exact .inr ⟨set,by omega,rfl⟩

theorem pending_of {p : CLzmaDec} (short : p.remainLen < kMatchSpecLenStart) : pending p = p.remainLen := by
  rw [pending,if_pos short]

section Emit
variable {limit : Nat} {p : CLzmaDec}

theorem put_refines (byte : UInt8) {state : Nat} (inv : Inv p) (idle : p.remainLen = 0) (room : p.dicPos < limit)
    (fits : limit ≤ p.dic.length) (dicLimit : p.checkDicSize = 0 → limit ≤ p.prop.dicSize) (low : state < kNumStates) :
    ∃ q,put {p with processedPos := (p.processedPos+1) % word,state := state} byte = .ok q ∧
      lz q = {lz p with out := (lz p).out ++ [byte],state := state} ∧ Inv q ∧ Advanced limit p q := by
  have here : p.dicPos < p.dic.length := by omega
  have quiet : pending p = 0 := by rw [pending_of (by rw [idle]; decide),idle]
  let q := {p with processedPos := (p.processedPos+1) % word,state := state,dic := p.dic.set p.dicPos byte,dicPos := p.dicPos+1}
  have same : pending q = 0 := quiet
  refine ⟨q,?_,?_,?_,?_⟩
  · simp only [put,here,if_true]
    rfl
  · rw [lz,same,lz,quiet]
    simp only [Lz77.extend_zero,q,take_set here]
  · refine ⟨inv.probs,low,?_,?_,inv.reps.mono fun rep => Reaches.mono (Nat.le_succ _),fun _ => Nat.succ_pos _⟩
    · simp only [q,List.length_set]
      omega
    · refine place_moves (n := 1) inv.place rfl rfl rfl rfl fun zero => ?_
      have within := dicLimit zero
      simp only [q]
      omega
  · refine ⟨rfl,rfl,rfl,Nat.lt_succ_self _,room,?_,fun some => absurd idle some,List.length_set,?_,rfl⟩
    · rw [show q.remainLen = p.remainLen from rfl,idle]
      decide
    · exact List.drop_set_of_lt (Nat.lt_succ_self _)

theorem copyMatch_refines (len : Nat) (inv : Inv p) (pos : 0 < p.dicPos) (room : p.dicPos < limit)
    (fits : limit ≤ p.dic.length) (dicLimit : p.checkDicSize = 0 → limit ≤ p.prop.dicSize) (nonempty : 0 < len)
    (short : len < kMatchSpecLenStart) (idle : p.remainLen = 0) :
    ∃ q,copyMatch limit p len = .ok q ∧ (lz p).copy len = some (lz q) ∧ Inv q ∧ Advanced limit p q := by
  obtain ⟨back,reach⟩ := inv.reps.1
  have quiet : pending p = 0 := by rw [pending_of (by rw [idle]; decide),idle]
  have length := take_length inv
  have enough : ¬limit-p.dicPos = 0 := by omega
  have behind : p.reps.rep0 ≤ p.dicPos := by omega
  generalize cur : (if limit-p.dicPos < len then limit-p.dicPos else len) = curLen
  have bounds : 0 < curLen ∧ curLen ≤ len ∧ p.dicPos+curLen ≤ limit ∧ (len-curLen ≠ 0 → p.dicPos+curLen = limit) := by
    rw [← cur]
    split <;> omega
  obtain ⟨curPos,curLe,curFits,curFull⟩ := bounds
  have near : curLen ≤ p.dic.length-(p.dicPos-p.reps.rep0) := by omega
  have copied := copy_near curLen p.dic back behind (by omega)
  let out := extend p.reps.rep0 curLen (p.dic.take p.dicPos)
  have outLength : out.length = p.dicPos+curLen := by
    rw [Lz77.extend_length back (by rw [length]; exact behind),length]
  let q := {p with
    dic := out ++ p.dic.drop (p.dicPos+curLen),dicPos := p.dicPos+curLen
    processedPos := (p.processedPos+curLen) % word,remainLen := len-curLen}
  have rest : q.remainLen < kMatchSpecLenStart := by simp only [q]; omega
  have taken : q.dic.take q.dicPos = out := by
    simp only [q]
    rw [List.take_append_of_le_length (by omega),List.take_of_length_le (by omega)]
  have dropped : q.dic.drop q.dicPos = p.dic.drop q.dicPos := by
    simp only [q]
    rw [List.drop_append_of_le_length (by omega),List.drop_of_length_le (by omega),List.nil_append]
  have whole : q.dic.length = p.dic.length := by
    simp only [q,List.length_append,List.length_drop,outLength]
    omega
  refine ⟨q,?_,?_,?_,?_⟩
  · simp only [copyMatch,enough,behind,cur,near,if_true,if_false,copied]
    rfl
  · have valid : 0 < (lz p).reps.rep0 ∧ (lz p).reps.rep0 ≤ (lz p).out.length := by
      rw [lz_idle quiet,length]
      exact ⟨back,behind⟩
    have final : (lz q).out = extend p.reps.rep0 len (lz p).out := by
      rw [lz_idle quiet,show (lz q).out = extend p.reps.rep0 (pending q) (q.dic.take q.dicPos) from rfl,pending_of rest,taken]
      simp only [q,out,← Lz77.extend_add,Nat.add_sub_cancel' curLe]
    rw [Lz.copy,if_pos valid,show (lz p).reps.rep0 = p.reps.rep0 from rfl,← final]
    rfl
  · refine ⟨inv.probs,inv.state,by rw [whole]; simp only [q]; omega,?_,inv.reps.mono fun rep => Reaches.mono (Nat.le_add_right _ _),
      fun _ => Nat.add_pos_left pos _⟩
    refine place_moves (n := curLen) inv.place rfl rfl rfl rfl fun zero => ?_
    have within := dicLimit zero
    simp only [q]
    omega
  · exact ⟨rfl,rfl,rfl,by simp only [q]; omega,curFits,rest,curFull,whole,dropped,rfl⟩

theorem quiet_of (idle : p.remainLen = 0) : pending p = 0 := by rw [pending_of (by rw [idle]; decide),idle]

theorem lz_changed (idle : p.remainLen = 0) (reps : Reps) (state : Nat) :
    lz {p with reps := reps,state := state} = {lz p with reps := reps,state := state} := by
  have quiet := quiet_of idle
  have same : pending {p with reps := reps,state := state} = 0 := quiet
  simp only [lz,same,quiet,Lz77.extend_zero]

theorem inv_changed {reps : Reps} {state : Nat} (inv : Inv p) (all : All (Reaches p.dicPos) reps) (low : state < kNumStates)
    (started : 0 < p.dicPos) : Inv {p with reps := reps,state := state} :=
  ⟨inv.probs,low,inv.fits,inv.place,all,fun _ => started⟩

theorem Advanced.unchanged {q : CLzmaDec} {reps : Reps} {state : Nat}
    (advanced : Advanced limit {p with reps := reps,state := state} q) : Advanced limit p q :=
  ⟨advanced.coder,advanced.prop,advanced.check,advanced.forward,advanced.within,advanced.short,advanced.full,advanced.length,
    advanced.behind,advanced.tempBuf⟩

theorem states_lt (state : Nat) :
    shortRepState state < kNumStates ∧ repState state < kNumStates ∧ matchState state < kNumStates := by
  unfold shortRepState repState matchState kNumStates kNumLitStates
  refine ⟨?_,?_,?_⟩ <;> split <;> omega

-- The test of a distance is one against what was decoded and the dictionary's size.
theorem distance_test {distance : Nat} (inv : Inv p) :
    (if p.checkDicSize = 0 then p.processedPos else p.checkDicSize) ≤ distance ↔
      ¬(distance < p.dicPos ∧ distance < p.prop.dicSize) := by
  have large := p.prop.dicSize_ge
  obtain ⟨check,same,le⟩ | ⟨check,le,-⟩ := inv.place
  · rw [if_pos check,same]
    omega
  · rw [if_neg (by omega),check]
    omega

theorem emit_refines {symbol : Symbol} (inv : Inv p) (idle : p.remainLen = 0) (room : p.dicPos < limit)
    (fits : limit ≤ p.dic.length) (dicLimit : p.checkDicSize = 0 → limit ≤ p.prop.dicSize) (proper : Proper symbol)
    (opened : symbol.kind = .rep → 0 < p.dicPos) (other : symbol ≠ .marker) :
    (∃ q,emit limit p symbol = .ok q ∧ (lz p).apply p.prop symbol = some (lz q) ∧ Inv q ∧ Advanced limit p q) ∨
      (emit limit p symbol = .error (.failed szErrorData p.dic p.dicPos) ∧ (lz p).apply p.prop symbol = none) := by
  have quiet := quiet_of idle
  have length := idle_length inv quiet
  cases symbol with
  | marker => exact absurd rfl other
  | literal symbol =>
    have low : literalState p.state < kNumStates :=
      (literalState_lt inv.state).trans (by decide)
    obtain ⟨q,ran,same,inv',advanced⟩ := put_refines symbol.toUInt8 inv idle room fits dicLimit low
    exact .inl ⟨q,ran,congrArg some same.symm,inv',advanced⟩
  | shortRep =>
    have pos := opened rfl
    have reach := inv.reps.1
    have inside : p.dicPos-p.reps.rep0 < p.dic.length := by have fit := inv.fits; omega
    have behind : p.reps.rep0 ≤ p.dicPos := by have le := reach.2; omega
    obtain ⟨q,ran,same,inv',advanced⟩ := put_refines p.dic[p.dicPos-p.reps.rep0] inv idle room fits dicLimit (states_lt p.state).1
    have index : matchedByte p.view = ((p.dicPos-p.reps.rep0 : Nat) : Int) := by
      simp only [matchedByte,CLzmaDec.view,show ¬p.dicPos < p.reps.rep0 by omega,if_false]
      omega
    have found : peek p.dic (matchedByte p.view) = some p.dic[p.dicPos-p.reps.rep0] := by
      rw [index,peek,if_pos (by omega),Int.toNat_natCast,List.getElem?_eq_getElem inside]
    refine .inl ⟨q,?_,?_,inv',advanced⟩
    · simp only [emit,found]
      exact ran
    · have valid : 0 < p.reps.rep0 ∧ p.reps.rep0 ≤ (lz p).out.length := by
        rw [length]
        exact ⟨reach.1,behind⟩
      have byte : ((lz p).out[(lz p).out.length-p.reps.rep0]?).toList = [p.dic[p.dicPos-p.reps.rep0]] := by
        have before : p.dicPos-p.reps.rep0 < p.dicPos := by have back := reach.1; omega
        rw [length,lz_idle quiet,List.getElem?_take_of_lt before,List.getElem?_eq_getElem inside]
        rfl
      rw [same]
      refine (if_pos valid).trans ?_
      change some {lz p with out := extend p.reps.rep0 1 (lz p).out,state := shortRepState p.state} = _
      rw [extend,byte]
      rfl
  | rep index len =>
    have pos := opened rfl
    have inv' := inv_changed inv (all_choose inv.reps index) (states_lt p.state).2.1 pos
    obtain ⟨q,ran,same,after,advanced⟩ := copyMatch_refines (len+kMatchMinLen) inv' pos room fits dicLimit
      (by simp only [kMatchMinLen]; omega) (by have short := proper.2; simp only [kMatchMinLen,kMatchSpecLenStart]; omega) idle
    refine .inl ⟨q,ran,?_,after,advanced.unchanged⟩
    rw [lz_changed idle] at same
    exact same
  | simple distance len =>
    by_cases fine : distance < p.dicPos ∧ distance < p.prop.dicSize
    case pos =>
      have pos : 0 < p.dicPos := by omega
      have test : ¬(if p.checkDicSize = 0 then p.processedPos else p.checkDicSize) ≤ distance :=
        fun le => (distance_test inv).mp le fine
      have inv' := inv_changed inv (all_push inv.reps (show Reaches p.dicPos (distance+1) from ⟨Nat.succ_pos _,by omega⟩)) (states_lt p.state).2.2 pos
      obtain ⟨q,ran,same,after,advanced⟩ := copyMatch_refines (len+kMatchMinLen) inv' pos room fits dicLimit
        (by simp only [kMatchMinLen]; omega) (by have short := proper.2; simp only [kMatchMinLen,kMatchSpecLenStart]; omega) idle
      refine .inl ⟨q,?_,?_,after,advanced.unchanged⟩
      · simp only [emit,test,if_false]
        exact ran
      · rw [lz_changed idle] at same
        rw [Lz.apply,if_pos (by rw [length]; exact fine)]
        exact same
    case neg =>
      have test := (distance_test inv).mpr fine
      refine .inr ⟨?_,?_⟩
      · simp only [emit,test,if_true]
        rfl
      · rw [Lz.apply,if_neg (by rw [length]; exact fine)]

-- At the limit a match that is not an end marker is refused.
theorem emit_full {distance len : Nat} (full : p.dicPos = limit) :
    emit limit p (.simple distance len) = .error (.failed szErrorData p.dic p.dicPos) := by
  have none : limit-p.dicPos = 0 := by omega
  simp only [emit,copyMatch,none,if_true]
  exact ite_self _

end Emit

end ChuwiMinibook.LzmaRefinement
