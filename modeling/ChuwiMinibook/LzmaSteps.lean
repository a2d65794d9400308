import ChuwiMinibook.LzmaPlain

namespace ChuwiMinibook.LzmaSteps
open ByteScan CodedBits LzmaSymbols LzmaBits LzmaDec LzmaPlain
open Lz77 (extend)
open Coded (exec Leaves leaves_bind leaves_all exec_leaves)

def All (q : Nat → Prop) (reps : Reps) : Prop := q reps.rep0 ∧ q reps.rep1 ∧ q reps.rep2 ∧ q reps.rep3

theorem all_choose {q : Nat → Prop} {reps : Reps} (all : All q reps) (index : Nat) : All q (reps.choose index) := by
  obtain ⟨h0,h1,h2,h3⟩ := all
  match index with
  | 0 => exact ⟨h0,h1,h2,h3⟩
  | 1 => exact ⟨h1,h0,h2,h3⟩
  | 2 => exact ⟨h2,h0,h1,h3⟩
  | n+3 => exact ⟨h3,h0,h1,h2⟩

theorem all_push {q : Nat → Prop} {reps : Reps} {distance : Nat} (all : All q reps) (here : q distance) :
    All q (reps.push distance) :=
  ⟨here,all.1,all.2.1,all.2.2.1⟩

theorem All.mono {q r : Nat → Prop} {reps : Reps} (weaken : ∀ rep,q rep → r rep) (all : All q reps) : All r reps :=
  ⟨weaken _ all.1,weaken _ all.2.1,weaken _ all.2.2.1,weaken _ all.2.2.2⟩

-- Distances reach into what there is, and are 1 before there is anything.
def Reaches (size rep : Nat) : Prop := 0 < rep ∧ rep ≤ max 1 size

theorem Reaches.mono {small large rep : Nat} (le : small ≤ large) (reaches : Reaches small rep) : Reaches large rep :=
  ⟨reaches.1,reaches.2.trans (max_le_max_left 1 le)⟩

structure Valid (s : Lz) : Prop where
  state : s.state < kNumStates
  reps : All (Reaches s.out.length) s.reps
  started : kNumLitStates ≤ s.state → 0 < s.out.length

theorem literalState_lt {state : Nat} (low : state < kNumStates) : literalState state < kNumLitStates := by
  simp only [kNumStates] at low
  unfold literalState kNumLitStates
  split
  · omega
  · split
    · omega
    · split <;> omega

theorem readable {prop : Props} {s : Lz} (valid : Valid s) : Readable (s.view prop) where
  state := valid.state
  previous := by
    intro some
    simp only [Lz.view] at some ⊢
    omega
  matched := by
    intro high
    obtain ⟨pos,reach⟩ := valid.reps.1
    have some := valid.started high
    simp only [Lz.view]
    omega

def ledger : Ledger := ⟨symbolBudget,fun _ => False⟩

theorem view_allowed (prop : Props) {s : Lz} (valid : Valid s) :
    (readSymbol (s.view prop)).Allowed (numProbs prop) s.out.length ledger (fun symbol _ => Proper symbol) :=
  readSymbol_allowed (readable valid) le_rfl le_rfl le_rfl (fun _ => id)

theorem budget_bytes : symbolBudget ≤ 800*20 ∧ 800+symbolBudget ≤ 800*21 := by decide +kernel

-- The two parts of a symbol that came: its bits, and the normalization behind them.
structure Came (prop : Props) (s : Lz) (c : Coder) (symbol : Symbol) (e d : Coder) : Prop where
  ran : exec s.out learn (readSymbol (s.view prop)) c = .ok (symbol,e)
  normalized : normalize e = .ok d
  wide : Wide e
  proper : Proper symbol
  probs : e.probs.length = c.probs.length
  paid : Paid c e symbolBudget

theorem Came.normal {prop : Props} {s : Lz} {c d e : Coder} {symbol : Symbol} (came : Came prop s c symbol e d) : Normal d :=
  normalize_wide came.wide came.normalized

theorem Came.next {prop : Props} {s : Lz} {c d e : Coder} {symbol : Symbol} (came : Came prop s c symbol e d) :
    next prop s c = .ok (symbol,d) := by
  simp only [LzmaPlain.next,came.ran,came.normalized]

theorem Came.append {prop : Props} {s : Lz} {c d e : Coder} {symbol : Symbol} (came : Came prop s c symbol e d) (tail : Bytes) :
    LzmaPlain.next prop s (c.append tail) = .ok (symbol,d.append tail) := by
  simp only [LzmaPlain.next,exec_append tail came.ran,normalize_append tail came.normalized]

theorem Came.length {prop : Props} {s : Lz} {c d e : Coder} {symbol : Symbol} (came : Came prop s c symbol e d) :
    d.probs.length = c.probs.length := by
  rw [normalize_probs came.normalized,came.probs]

-- A symbol and the normalization behind it take 20 bytes at most.
theorem Came.few {prop : Props} {s : Lz} {c d e : Coder} {symbol : Symbol} (came : Came prop s c symbol e d) (normal : Normal c) :
    ∃ k ≤ lzmaRequiredInputMax,k ≤ c.input.length ∧ d.input = c.input.drop k := by
  have whole := (came.paid.trans (normalize_paid came.normalized)).more (n := symbolBudget) (by omega)
  obtain ⟨k,few,inside,rest⟩ := whole.few normal came.normal.wide budget_bytes.2
  exact ⟨k,Nat.lt_succ_iff.mp few,inside,rest⟩

-- A symbol comes, or there are less than 20 bytes left.
theorem next_cases {prop : Props} {s : Lz} {c : Coder} (valid : Valid s) (probs : c.probs.length = numProbs prop)
    (normal : Normal c) :
    (∃ symbol e d,Came prop s c symbol e d) ∨
      (next prop s c = .error .starved ∧ c.input.length < lzmaRequiredInputMax) := by
  have allowed := view_allowed prop valid
  rw [← probs] at allowed
  obtain ⟨symbol,e,t,ran,left⟩ | ⟨ran,exhausted⟩ := exec_allowed learn allowed normal.wide
  · have spent := left.paid
    have within := left.within
    cases normalized : normalize e with
    | error h =>
      obtain ⟨rfl,narrow,empty⟩ := normalize_error normalized
      have exhausted : Exhausted ledger c := Exhausted.earlier spent (by omega) (.here (s := t) narrow empty)
      exact .inr ⟨by simp only [next,ran,normalized],exhausted.few normal budget_bytes.1⟩
    | ok d =>
      exact .inl ⟨symbol,e,d,ran,normalized,left.wide,left.result,left.probs,spent.more (by simp only [ledger]; omega)⟩
  · exact .inr ⟨by simp only [next,ran],exhausted.few normal budget_bytes.1⟩

theorem next_came {prop : Props} {s : Lz} {c d : Coder} {symbol : Symbol} (valid : Valid s)
    (probs : c.probs.length = numProbs prop) (normal : Normal c) (given : next prop s c = .ok (symbol,d)) :
    ∃ e,Came prop s c symbol e d := by
  obtain ⟨other,e,f,came⟩ | ⟨failed,-⟩ := next_cases valid probs normal
  · have same := came.next
    rw [given] at same
    cases same
    exact ⟨e,came⟩
  · rw [given] at failed
    cases failed

section Kinds

theorem readLiteral_kind (v : View) : (readLiteral v).Leaves fun symbol => symbol.kind = .lit := by
  simp only [readLiteral,Coded.bind_eq,Coded.pure_eq,leaves_bind]
  exact leaves_all (fun _ => leaves_all (fun _ => rfl) _) _

theorem readDistance_kind (len : Nat) : (readDistance len).Leaves fun symbol => symbol.kind = .match := by
  simp only [readDistance,Coded.bind_eq,Coded.pure_eq,leaves_bind]
  refine leaves_all (fun slot => ?_) _
  split
  case isTrue => rfl
  case isFalse =>
    split
    case isTrue => exact leaves_bind.mpr (leaves_all (fun _ => rfl) _)
    case isFalse =>
      refine leaves_bind.mpr (leaves_all (fun _ => leaves_bind.mpr (leaves_all (fun _ => ?_) _)) _)
      split <;> rfl

theorem readRep_kind (v : View) : (readRep v).Leaves fun symbol => symbol.kind = .rep := by
  simp only [readRep,Coded.bind_eq,Coded.pure_eq,leaves_bind]
  refine leaves_all (fun g0 => ?_) _
  cases g0
  case false =>
    simp only [Bool.false_eq_true,if_false,leaves_bind]
    refine leaves_all (fun long => ?_) _
    cases long
    case false => rfl
    case true => exact leaves_bind.mpr (leaves_all (fun _ => rfl) _)
  case true =>
    simp only [if_true,leaves_bind]
    refine leaves_all (fun g1 => ?_) _
    cases g1
    case false => exact leaves_bind.mpr (leaves_all (fun _ => rfl) _)
    case true =>
      simp only [if_true,leaves_bind]
      exact leaves_all (fun _ => leaves_all (fun _ => rfl) _) _

-- The two bits that a symbol's kind takes.
theorem readSymbol_bits (v : View) : readSymbol v = .bit (isMatch+posState v+v.state) fun found =>
    if found then .bit (isRep+v.state) fun again =>
      if again then readRep v else (lenBits lenCoder (posState v)).bind readDistance
    else readLiteral v := by
  simp only [readSymbol,Coded.bind_eq,Coded.aBit,Coded.bind]

-- A coder and a state that no symbol has changed yet.
structure Opening (s : Lz) (c : Coder) : Prop where
  state : s.state = 0
  empty : s.out = []
  range : c.range = 4294967295
  isMatch : c.probs[isMatch]? = some Prob.half
  isRep : c.probs[isRep]? = some Prob.half

-- kBadRepCode is where the first symbol begins to be a repeated match.
theorem opening_kind {prop : Props} {s : Lz} {c d : Coder} {symbol : Symbol} (opening : Opening s c)
    (ran : (readSymbol (s.view prop)).exec s.out learn c = .ok (symbol,d)) :
    symbol.kind = .rep ↔ kBadRepCode ≤ c.code := by
  obtain ⟨state,empty,range,matchAt,repAt⟩ := opening
  have first : LzmaSymbols.isMatch+posState (s.view prop)+(s.view prop).state = LzmaSymbols.isMatch := by
    simp only [Lz.view,posState,state,empty,List.length_nil,Nat.zero_mod,Nat.zero_mul,Nat.add_zero]
  have second : LzmaSymbols.isRep+(s.view prop).state = LzmaSymbols.isRep := by
    simp only [Lz.view,state,Nat.add_zero]
  have normal : Normal c := ⟨by rw [range]; decide,by rw [range]; decide⟩
  have low : bound c Prob.half = 2147482624 := by rw [bound,range]; rfl
  rw [readSymbol_bits,first,second,exec_bit normal matchAt] at ran
  by_cases below : c.code < 2147482624
  case pos =>
    have decision : (split Prob.half c).1 = false := by simp only [split,low,below,if_true]
    rw [decision] at ran
    have kind := exec_leaves (readLiteral_kind _) ran
    rw [kind]
    simp only [kBadRepCode]
    exact ⟨fun same => (by cases same),fun high => by omega⟩
  case neg =>
    have halves : split Prob.half c = (true,{c with range := 2147484671,code := c.code-2147482624}) := by
      simp only [split,low,below,if_false,range]
    rw [halves] at ran
    simp only [if_true] at ran
    have other : LzmaSymbols.isMatch ≠ LzmaSymbols.isRep := by decide
    rw [exec_bit (p := Prob.half) ⟨by simp only [topValue]; omega,by simp only [word]; omega⟩
      (by simp only [List.getElem?_set_ne other,repAt])] at ran
    generalize later : ({c with range := 2147484671,code := c.code-2147482624,probs := c.probs.set LzmaSymbols.isMatch (learn Prob.half true)} : Coder) = e at ran
    have bound' : bound e Prob.half = 1073741824 := by
      rw [← later]
      simp only [bound]
      rfl
    have code : e.code = c.code-2147482624 := by rw [← later]
    by_cases match' : e.code < 1073741824
    case pos =>
      have decision : (split Prob.half e).1 = false := by simp only [split,bound',match',if_true]
      rw [decision] at ran
      have kind := exec_leaves (q := fun symbol => symbol.kind = .match)
        (leaves_bind.mpr (leaves_all (fun len => readDistance_kind len) _)) ran
      rw [kind]
      simp only [kBadRepCode]
      exact ⟨fun same => (by cases same),fun high => by omega⟩
    case neg =>
      have decision : (split Prob.half e).1 = true := by simp only [split,bound',match',if_false]
      rw [decision] at ran
      have kind := exec_leaves (readRep_kind _) ran
      rw [kind]
      simp only [kBadRepCode]
      exact ⟨fun _ => by omega,fun _ => trivial⟩

end Kinds

end ChuwiMinibook.LzmaSteps
