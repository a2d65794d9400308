import ChuwiMinibook.LzmaDummy

namespace ChuwiMinibook.LzmaBits
open CodedBits LzmaSymbols
open Coded

-- What the fields have to satisfy for the bytes of the dictionary to be there.
structure Readable (v : View) : Prop where
  state : v.state < kNumStates
  previous : v.processedPos ≠ 0 ∨ v.checkDicSize ≠ 0 → 0 < v.dicPos ∧ v.dicPos ≤ v.dicBufSize
  matched : kNumLitStates ≤ v.state → 0 < v.rep0 ∧ v.rep0 ≤ v.dicPos ∧ v.dicPos ≤ v.dicBufSize

def Proper : Symbol → Prop
  | .literal symbol => 256 ≤ symbol ∧ symbol < 512
  | .shortRep => True
  | .rep index len => index ≤ 3 ∧ len < 272
  | .simple distance len => distance < 4294967295 ∧ len < 272
  | .marker => True

section Pieces
variable {contexts window : Nat} {s : Ledger} {post : Nat → Ledger → Prop}

-- The contexts of a tree below a node are those from the node's up to the limit.
theorem treeBits_allowed {base n i : Nat} (limit : Nat) (pos : 0 < i) (top : (i+1)*2^n ≤ 2*limit) (inside : base+limit ≤ contexts)
    (budget : n*bitCost ≤ s.budget) (fresh : ∀ j,base+i ≤ j → j < base+limit → ¬s.used j)
    (ends : ∀ a t,i*2^n ≤ a → a < (i+1)*2^n → t.budget = s.budget-n*bitCost →
      (∀ j,t.used j → s.used j ∨ (base+i ≤ j ∧ j < base+limit)) → post a t) :
    Allowed contexts window (treeBits base n i) s post := by
  induction n generalizing i s with
  | zero => exact ends i s (by omega) (by omega) (by omega) (fun j used => .inl used)
  | succ n ih =>
    have pow : 0 < 2^n := Nat.pow_pos (by omega)
    rw [pow_succ] at top
    rw [Nat.succ_mul] at budget
    have here : i < limit := by nlinarith
    refine ⟨by omega,fresh _ (by omega) (by omega),by omega,fun b => ?_⟩
    have bit : b.toNat ≤ 1 := Bool.toNat_le b
    refine ih (by omega) (by nlinarith) ?_ ?_ ?_
    · simp only [Ledger.pay]
      omega
    · rintro j low high (used | same)
      · exact fresh j (by omega) high used
      · omega
    · intro a t low high left within
      refine ends a t ?_ ?_ ?_ ?_
      · rw [pow_succ]; nlinarith
      · rw [pow_succ]; nlinarith
      · rw [left,Nat.succ_mul]
        simp only [Ledger.pay]
        omega
      · intro j used
        obtain (old | same) | new := within j used
        · exact .inl old
        · exact .inr (by omega)
        · exact .inr (by omega)

theorem treeDecode_allowed {base n : Nat} (limit : Nat) (top : 2^n = limit) (inside : base+limit ≤ contexts)
    (budget : n*bitCost ≤ s.budget) (fresh : ∀ j,base < j → j < base+limit → ¬s.used j)
    (ends : ∀ a t,a < limit → t.budget = s.budget-n*bitCost →
      (∀ j,t.used j → s.used j ∨ (base < j ∧ j < base+limit)) → post a t) :
    Allowed contexts window (treeDecode base n) s post := by
  simp only [treeDecode,bind_eq,pure_eq,allowed_bind]
  refine treeBits_allowed limit (by omega) (by omega) inside budget (fun j low => fresh j (by omega)) ?_
  intro a t low high left within
  exact ends _ t (by omega) left within

-- offs is 0 or 0x100 all the way.
def Offset (offs : Nat) : Prop := offs = 0 ∨ offs = 256

theorem and_offset {offs : Nat} (offset : Offset offs) (x : Nat) :
    (offs &&& x = 0 ∨ offs &&& x = offs) ∧ Offset (offs &&& x) ∧ Offset ((offs &&& x) ^^^ offs) := by
  obtain rfl | rfl := offset
  · rw [Nat.zero_and]
    exact ⟨.inl rfl,.inl rfl,.inl rfl⟩
  · rw [show 256 = 2^8 from rfl,Nat.two_pow_and]
    cases x.testBit 8
    case false => exact ⟨.inl rfl,.inl rfl,.inr rfl⟩
    case true => exact ⟨.inr rfl,.inr rfl,.inl rfl⟩

-- The three parts of a literal's table take one context for a length of symbol at most.
theorem matchedBits_allowed {prob n matchByte offs symbol : Nat} (pos : 0 < symbol) (top : (symbol+1)*2^n ≤ 512)
    (offset : Offset offs) (inside : prob+768 ≤ contexts) (budget : n*bitCost ≤ s.budget)
    (fresh : ∀ j,prob ≤ j → j < prob+768 → symbol ≤ (j-prob) % 256 → ¬s.used j)
    (ends : ∀ a t,symbol*2^n ≤ a → a < (symbol+1)*2^n → post a t) :
    Allowed contexts window (matchedBits prob n matchByte offs symbol) s post := by
  induction n generalizing symbol offs matchByte s with
  | zero => exact ends symbol s (by omega) (by omega)
  | succ n ih =>
    have pow : 0 < 2^n := Nat.pow_pos (by omega)
    rw [pow_succ] at top
    rw [Nat.succ_mul] at budget
    have small : symbol < 256 := by nlinarith
    obtain ⟨cleared,masked,flipped⟩ := and_offset offset (matchByte+matchByte)
    have row : (offs &&& (matchByte+matchByte))+offs+symbol < 768 ∧ ((offs &&& (matchByte+matchByte))+offs+symbol) % 256 = symbol := by
      obtain rfl | rfl := offset <;> obtain none | same := cleared <;> omega
    unfold matchedBits
    generalize offs &&& (matchByte+matchByte) = kept at *
    refine ⟨by omega,fresh _ (by omega) (by omega) (by omega),by omega,fun b => ?_⟩
    have paid : n*bitCost ≤ (s.pay (prob+(kept+offs+symbol))).budget := by
      simp only [Ledger.pay]
      omega
    have used : ∀ next,symbol < next → ∀ j,prob ≤ j → j < prob+768 → next ≤ (j-prob) % 256 →
        ¬(s.pay (prob+(kept+offs+symbol))).used j := by
      rintro next later j low high above (old | same)
      · exact fresh j low high (by omega) old
      · omega
    have tops : ∀ next,next ≤ symbol+symbol+1 → (next+1)*2^n ≤ 512 := by
      intro next le
      nlinarith
    cases b
    case false =>
      refine ih (by omega) (tops _ (by omega)) flipped paid (used _ (by omega)) fun a t low high => ends a t ?_ ?_
      · rw [pow_succ]; nlinarith
      · rw [pow_succ]; nlinarith
    case true =>
      refine ih (by omega) (tops _ (by omega)) masked paid (used _ (by omega)) fun a t low high => ends a t ?_ ?_
      · rw [pow_succ]; nlinarith
      · rw [pow_succ]; nlinarith

theorem revBits_allowed {base n i m : Nat} (limit : Nat) (pos : 0 < m) (some : 0 < limit) (top : i+m*2^n < limit+2*m) (inside : base+limit ≤ contexts)
    (budget : n*bitCost ≤ s.budget) (fresh : ∀ j,base+i ≤ j → j < base+limit → ¬s.used j)
    (ends : ∀ a t,a < limit → post a t) : Allowed contexts window (revBits base n i m) s post := by
  induction n generalizing i m s with
  | zero => exact ends _ s (by omega)
  | succ n ih =>
    have pow : 0 < 2^n := Nat.pow_pos (by omega)
    rw [pow_succ] at top
    rw [Nat.succ_mul] at budget
    have here : i < limit := by nlinarith
    refine ⟨by omega,fresh _ (by omega) (by omega),by omega,fun b => ?_⟩
    have paid : n*bitCost ≤ (s.pay (base+i)).budget := by
      simp only [Ledger.pay]
      omega
    have used : ∀ next,i < next → ∀ j,base+next ≤ j → j < base+limit → ¬(s.pay (base+i)).used j := by
      rintro next later j low high (old | same)
      · exact fresh j (by omega) high old
      · omega
    cases b
    case false => exact ih (by omega) (by nlinarith) paid (used _ (by omega))
    case true => exact ih (by omega) (by nlinarith) paid (used _ (by omega))

theorem directBits_allowed {n distance : Nat} (budget : n*directCost ≤ s.budget)
    (ends : ∀ a t,distance*2^n ≤ a → a < (distance+1)*2^n → t.budget = s.budget-n*directCost → t.used = s.used → post a t) :
    Allowed contexts window (directBits n distance) s post := by
  induction n generalizing distance s with
  | zero => exact ends distance s (by omega) (by omega) (by omega) rfl
  | succ n ih =>
    rw [Nat.succ_mul] at budget
    refine ⟨by omega,fun b => ?_⟩
    have bit : b.toNat ≤ 1 := Bool.toNat_le b
    refine ih ?_ ?_
    · simp only [Ledger.payDirect]
      omega
    · intro a t low high left same
      refine ends a t ?_ ?_ ?_ same
      · rw [pow_succ]; nlinarith
      · rw [pow_succ]; nlinarith
      · rw [left,Nat.succ_mul]
        simp only [Ledger.payDirect]
        omega

theorem alignBits_allowed (inside : align+16 ≤ contexts) (budget : 4*bitCost ≤ s.budget)
    (fresh : ∀ j,align < j → j < align+16 → ¬s.used j) (ends : ∀ a t,a < 16 → post a t) :
    Allowed contexts window alignBits s post := by
  rw [alignBits_eq]
  exact revBits_allowed 16 (by omega) (by omega) (by omega) inside budget (fun j low => fresh j (by omega)) ends

theorem aBit_allowed {i : Nat} {next : Bool → Ledger → Prop} (inside : i < contexts) (fresh : ¬s.used i)
    (budget : bitCost ≤ s.budget) (ends : ∀ b,next b (s.pay i)) : Allowed contexts window (aBit i) s next :=
  ⟨inside,fresh,budget,ends⟩

-- A length takes ten bits at most, from its own table.
theorem lenBits_allowed {prob ps : Nat} (row : ps % 16 = 0 ∧ ps < 256) (inside : prob+kNumLenProbs ≤ contexts)
    (budget : 10*bitCost ≤ s.budget) (fresh : ∀ j,prob ≤ j → j < prob+kNumLenProbs → ¬s.used j)
    (ends : ∀ a t,a < 272 → s.budget ≤ t.budget+10*bitCost →
      (∀ j,t.used j → s.used j ∨ (prob ≤ j ∧ j < prob+kNumLenProbs)) → post a t) :
    Allowed contexts window (lenBits prob ps) s post := by
  obtain ⟨aligned,low⟩ := row
  obtain ⟨lowAt,highAt,size,choiceAt,choice2At⟩ := lenTable
  simp only [lenBits,bind_eq,pure_eq,allowed_bind]
  refine aBit_allowed (by omega) (fresh _ (by omega) (by omega)) (by omega) fun choice => ?_
  cases choice
  case false =>
    simp only [Bool.false_eq_true,if_false,allowed_bind]
    refine treeBits_allowed 8 (by omega) (by omega) (by omega) (by simp only [Ledger.pay]; omega) ?_ ?_
    · rintro j above below (used | same)
      · exact fresh j (by omega) (by omega) used
      · omega
    · intro a t above below left within
      refine ends _ t (by omega) (by simp only [left,Ledger.pay]; omega) fun j used => ?_
      obtain (old | same) | new := within j used
      · exact .inl old
      · exact .inr (by omega)
      · exact .inr (by omega)
  case true =>
    simp only [if_true,allowed_bind]
    refine aBit_allowed (by omega) ?_ (by simp only [Ledger.pay]; omega) fun choice => ?_
    · rintro (used | same)
      · exact fresh _ (by omega) (by omega) used
      · omega
    cases choice
    case false =>
      simp only [Bool.false_eq_true,if_false]
      refine treeBits_allowed 8 (by omega) (by omega) (by omega) (by simp only [Ledger.pay]; omega) ?_ ?_
      · rintro j above below ((used | same) | same)
        · exact fresh j (by omega) (by omega) used
        · omega
        · omega
      · intro a t above below left within
        refine ends _ t (by omega) (by simp only [left,Ledger.pay]; omega) fun j used => ?_
        obtain ((old | same) | same) | new := within j used
        · exact .inl old
        · exact .inr (by omega)
        · exact .inr (by omega)
        · exact .inr (by omega)
    case true =>
      simp only [if_true,allowed_bind]
      refine treeDecode_allowed 256 byte_values (by omega) (by simp only [Ledger.pay]; omega) ?_ ?_
      · rintro j above below ((used | same) | same)
        · exact fresh j (by omega) (by omega) used
        · omega
        · omega
      · intro a t below left within
        refine ends _ t (by omega) (by simp only [left,Ledger.pay]; omega) fun j used => ?_
        obtain ((old | same) | same) | new := within j used
        · exact .inl old
        · exact .inr (by omega)
        · exact .inr (by omega)
        · exact .inr (by omega)

end Pieces

section Symbols
variable {contexts window : Nat} {s : Ledger}

theorem bit_direct : bitCost ≤ 6*directCost := by decide +kernel

-- Where the contexts of distances are.
def DistanceContext (j : Nat) : Prop := j < specPos+128 ∨ (align < j ∧ j < align+16) ∨ (posSlot ≤ j ∧ j < posSlot+256)

-- A distance takes ten modelled bits and 26 others, or eleven modelled ones.
theorem readDistance_allowed {len : Nat} (short : len < 272) (inside : literal ≤ contexts)
    (budget : 10*bitCost+26*directCost ≤ s.budget) (fresh : ∀ j,DistanceContext j → ¬s.used j) :
    Allowed contexts window (readDistance len) s (fun symbol _ => Proper symbol) := by
  obtain ⟨special,-,-,-,-,aligned,-,-,-,-,slots,last⟩ := layout
  have rates := bit_direct
  have state : (if len < 4 then len else 3) < 4 := by split <;> omega
  simp only [readDistance,bind_eq,pure_eq,allowed_bind]
  generalize (if len < 4 then len else 3) = lenState at state ⊢
  refine treeDecode_allowed 64 rfl (by omega) (by omega) (fun j low high => fresh j (.inr (.inr (by omega)))) ?_
  intro slot t small left within
  have later : ∀ j,(j < specPos+128 ∨ (align < j ∧ j < align+16)) → ¬t.used j := by
    intro j place used
    obtain old | new := within j used
    · exact fresh j (by obtain spec | tail := place; exacts [.inl spec,.inr (.inl tail)]) old
    · omega
  split
  case isTrue => exact ⟨by omega,short⟩
  case isFalse =>
    split
    case isTrue below =>
      have width : slot/2-1 ≤ 5 := by omega
      have scale : 2^(slot/2-1) ≤ 32 := Nat.pow_le_pow_right (by omega) width
      have rest : slot % 2 < 2 := Nat.mod_lt _ (by omega)
      have start : (2+slot % 2)*2^(slot/2-1) ≤ 3*32 := Nat.mul_le_mul (by omega) scale
      have paid : (slot/2-1)*bitCost ≤ 5*bitCost := Nat.mul_le_mul_right _ width
      simp only [allowed_bind]
      refine revBits_allowed 128 (by omega) (by omega) (by omega) (by omega) (by omega) ?_ ?_
      · intro j low high
        exact later j (.inl (by omega))
      · intro a t below
        exact ⟨by omega,short⟩
    case isFalse =>
      have rest : slot % 2 < 2 := Nat.mod_lt _ (by omega)
      have width : slot/2-1-4 ≤ 26 := by omega
      have scale : 2^(slot/2-1-4) ≤ 67108864 := Nat.pow_le_pow_right (by omega) width
      have paid : (slot/2-1-4)*directCost ≤ 26*directCost := Nat.mul_le_mul_right _ width
      simp only [allowed_bind]
      refine directBits_allowed (by omega) ?_
      intro distance u low high left' same
      refine alignBits_allowed (by omega) ?_ ?_ ?_
      · rw [left',left]
        omega
      · intro j above below
        rw [same]
        exact later j (.inr ⟨above,below⟩)
      · intro i v small
        split
        case isTrue => trivial
        case isFalse other =>
          refine ⟨?_,short⟩
          have top : (2+slot % 2+1)*2^(slot/2-1-4) ≤ 4*67108864 := Nat.mul_le_mul (by omega) scale
          omega

theorem posState_row (v : View) : posState v % 16 = 0 ∧ posState v < 256 := by
  have pb_le := v.prop.pb_le
  have small := Nat.mod_lt v.processedPos (Nat.pow_pos (show 0 < 2 by omega) : 0 < 2^v.prop.pb)
  have scale : 2^v.prop.pb ≤ 2^4 := Nat.pow_le_pow_right (by omega) pb_le
  unfold posState
  omega

theorem literalOffset_le (v : View) (byte : UInt8) : literalOffset v byte+768 ≤ 768*2^(v.prop.lc+v.prop.lp) := by
  have lc_le := v.prop.lc_le
  have limit := byte.toNat_lt
  have small := Nat.mod_lt v.processedPos (Nat.pow_pos (show 0 < 2 by omega) : 0 < 2^v.prop.lp)
  have scale : 2^(8-v.prop.lc)*2^v.prop.lc = 256 := by rw [← pow_add,Nat.sub_add_cancel lc_le,byte_values]
  have quotient : byte.toNat/2^(8-v.prop.lc) < 2^v.prop.lc :=
    (Nat.div_lt_iff_lt_mul (Nat.pow_pos (by omega))).mpr (by rw [Nat.mul_comm,scale]; exact limit)
  have rows : (v.processedPos % 2^v.prop.lp+1)*2^v.prop.lc ≤ 2^v.prop.lp*2^v.prop.lc := Nat.mul_le_mul_right _ small
  rw [← LzmaDummy.dummyOffset_eq,dummyOffset,Nat.shiftLeft_eq,Nat.shiftRight_eq_div_pow,pow_add,Nat.mul_comm (2^v.prop.lc)]
  nlinarith

theorem readLiteral_allowed {v : View} (readable : Readable v) (inside : numProbs v.prop ≤ contexts)
    (buffer : v.dicBufSize ≤ window) (budget : 8*bitCost ≤ s.budget) (fresh : ∀ j,literal ≤ j → ¬s.used j) :
    Allowed contexts window (readLiteral v) s (fun symbol _ => Proper symbol) := by
  simp only [readLiteral,bind_eq,pure_eq,allowed_bind]
  have table : Allowed contexts window (literalProb v (literalOffset v)) s
      (fun prob t => t = s ∧ literal ≤ prob ∧ prob+768 ≤ contexts) := by
    unfold literalProb
    unfold numProbs at inside
    split
    case isTrue started =>
      obtain ⟨pos,fits⟩ := readable.previous started
      refine ⟨?_,?_,fun byte => ⟨rfl,by omega,?_⟩⟩
      · unfold previousByte
        split <;> omega
      · unfold previousByte
        split <;> omega
      · have offset := literalOffset_le v byte
        omega
    case isFalse =>
      have pow : 0 < 2^(v.prop.lc+v.prop.lp) := Nat.pow_pos (by omega)
      exact ⟨rfl,le_rfl,(Nat.add_le_add_left (Nat.le_mul_of_pos_right 768 pow) _).trans inside⟩
  refine table.mono fun prob t which => ?_
  obtain ⟨rfl,above,below⟩ := which
  unfold literalBits
  split
  case isTrue =>
    refine treeBits_allowed 256 (by omega) (by omega) (by omega) budget (fun j low _ => fresh j (by omega)) ?_
    intro a u low high _ _
    exact ⟨by omega,by omega⟩
  case isFalse matched =>
    obtain ⟨pos,behind,fits⟩ := readable.matched (Nat.not_lt.mp matched)
    refine ⟨?_,?_,fun byte => ?_⟩
    · unfold matchedByte
      split <;> omega
    · unfold matchedByte
      split <;> omega
    · refine matchedBits_allowed (by omega) (by omega) (.inr rfl) below budget (fun j low _ _ => fresh j (by omega)) ?_
      intro a u low high
      exact ⟨by omega,by omega⟩

-- Where the contexts behind the bit for a repeated match are.
def RepContext (j : Nat) : Prop := (isRep0Long ≤ j ∧ j < lenCoder) ∨ (isRepG0 ≤ j ∧ j < posSlot)

theorem readRep_allowed {v : View} (readable : Readable v) (inside : literal ≤ contexts) (budget : 13*bitCost ≤ s.budget)
    (fresh : ∀ j,RepContext j → ¬s.used j) : Allowed contexts window (readRep v) s (fun symbol _ => Proper symbol) := by
  obtain ⟨-,long,rep,simple,-,-,-,g0,g1,g2,slots,last⟩ := layout
  obtain ⟨-,-,size,-,-⟩ := lenTable
  have row := posState_row v
  have small := readable.state
  simp only [kNumStates] at small
  simp only [readRep,bind_eq,pure_eq,allowed_bind]
  refine aBit_allowed (by omega) (fresh _ (.inr (by omega))) (by omega) fun b => ?_
  cases b
  case false =>
    simp only [Bool.false_eq_true,if_false,allowed_bind]
    refine aBit_allowed (by omega) ?_ (by simp only [Ledger.pay]; omega) fun b => ?_
    · rintro (used | same)
      · exact fresh _ (.inl (by omega)) used
      · omega
    cases b
    case false => trivial
    case true =>
      simp only [if_true,allowed_bind]
      refine lenBits_allowed row (by omega) (by simp only [Ledger.pay]; omega) ?_ (fun a t low _ _ => ⟨by omega,low⟩)
      rintro j low high ((used | same) | same)
      · exact fresh j (.inl (by omega)) used
      · omega
      · omega
  case true =>
    simp only [if_true,allowed_bind]
    refine aBit_allowed (by omega) ?_ (by simp only [Ledger.pay]; omega) fun b => ?_
    · rintro (used | same)
      · exact fresh _ (.inr (by omega)) used
      · omega
    cases b
    case false =>
      simp only [Bool.false_eq_true,if_false,allowed_bind]
      refine lenBits_allowed row (by omega) (by simp only [Ledger.pay]; omega) ?_ (fun a t low _ _ => ⟨by omega,low⟩)
      rintro j low high ((used | same) | same)
      · exact fresh j (.inl (by omega)) used
      · omega
      · omega
    case true =>
      simp only [if_true,allowed_bind]
      refine aBit_allowed (by omega) ?_ (by simp only [Ledger.pay]; omega) fun b => ?_
      · rintro ((used | same) | same)
        · exact fresh _ (.inr (by omega)) used
        · omega
        · omega
      · refine lenBits_allowed row (by omega) (by simp only [Ledger.pay]; omega) ?_ (fun a t low _ _ => ⟨by split <;> omega,low⟩)
        rintro j low high (((used | same) | same) | same)
        · exact fresh j (.inl (by omega)) used
        · omega
        · omega
        · omega

-- LZMA_REQUIRED_INPUT_MAX counts these: 22 modelled bits and 26 others.
def symbolBudget : Nat := 22*bitCost+26*directCost

-- A symbol stays within the model and the dictionary, uses no context twice, and
-- spends its budget at most.
theorem readSymbol_allowed {v : View} (readable : Readable v) (inside : numProbs v.prop ≤ contexts)
    (buffer : v.dicBufSize ≤ window) (budget : symbolBudget ≤ s.budget) (fresh : ∀ j,¬s.used j) :
    Allowed contexts window (readSymbol v) s (fun symbol _ => Proper symbol) := by
  obtain ⟨special,long,rep,simple,found,aligned,again,g0,-,-,slots,last⟩ := layout
  obtain ⟨-,-,size,-,-⟩ := lenTable
  have row := posState_row v
  have small := readable.state
  have base : literal ≤ contexts := (Nat.le_add_right _ _).trans inside
  simp only [kNumStates] at small
  simp only [symbolBudget] at budget
  simp only [readSymbol,bind_eq,allowed_bind]
  refine aBit_allowed (by omega) (fresh _) (by omega) fun b => ?_
  cases b
  case false =>
    simp only [Bool.false_eq_true,if_false]
    refine readLiteral_allowed readable inside buffer (by simp only [Ledger.pay]; omega) ?_
    rintro j low (used | same)
    · exact fresh j used
    · omega
  case true =>
    simp only [if_true,allowed_bind]
    refine aBit_allowed (by omega) ?_ (by simp only [Ledger.pay]; omega) fun b => ?_
    · rintro (used | same)
      · exact fresh _ used
      · omega
    cases b
    case true =>
      simp only [if_true]
      refine readRep_allowed readable base (by simp only [Ledger.pay]; omega) ?_
      rintro j place ((used | same) | same)
      · exact fresh j used
      · unfold RepContext at place; omega
      · unfold RepContext at place; omega
    case false =>
      simp only [Bool.false_eq_true,if_false,allowed_bind]
      refine lenBits_allowed row (by omega) (by simp only [Ledger.pay]; omega) ?_ ?_
      · rintro j low high ((used | same) | same)
        · exact fresh j used
        · omega
        · omega
      · intro len t short left within
        refine readDistance_allowed short base (by simp only [Ledger.pay] at left; omega) ?_
        intro j place used
        obtain ((old | same) | same) | table := within j used
        · exact fresh j old
        · unfold DistanceContext at place; omega
        · unfold DistanceContext at place; omega
        · unfold DistanceContext at place; omega

end Symbols
end ChuwiMinibook.LzmaBits
