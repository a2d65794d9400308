import ChuwiMinibook.ConditionTables
import ChuwiMinibook.SlotForms

namespace ChuwiMinibook.ApctSlots
open ByteScan Scan GddvTables GddvReads GddvLoops GddvEncoding

-- The slots of a condition set, an operator behind every slot but the last. A slot
-- behind a FOR is a time slot. What a slot looks like is left to the version.
structure Kind (σ : Type) where
  bytes : σ → Bytes
  made : Int → σ → Nat → Nat → Nat → Condition
  comparison : σ → Nat
  time : σ → Nat

abbrev Tail (σ : Type) := List (UInt64 × σ)

def lasts (operation : UInt64) : Bool := decide (operation.toNat % 256 = operationFor)

section Sets
variable {σ : Type} (k : Kind σ)

def tailBytes (rest : Tail σ) : Bytes := rest.flatMap (fun slot => number slot.1.toNat++k.bytes slot.2)

-- The conditions of a set, from the slot whose operator comes next unless that is a
-- time slot. A time slot is the time of the condition in front of it and no
-- condition itself.
def conditions (target : Int) : Option σ → Tail σ → List Condition
  | none,[] => []
  | some s,[] => [k.made target s 0 0 0]
  | none,(operation,t)::rest => if lasts operation then conditions target none rest else conditions target (some t) rest
  | some s,(operation,t)::rest =>
    if lasts operation then
      k.made target s operation.toNat (k.comparison t) (k.time t)::conditions target none rest
    else k.made target s operation.toNat 0 0::conditions target (some t) rest

-- What parse_apct makes of it: behind a time slot the operator is skipped, whatever
-- it is, and a condition follows.
def taken (target : Int) : σ → Tail σ → List Condition
  | s,[] => [k.made target s 0 0 0]
  | s,[(operation,t)] =>
    if lasts operation then [k.made target s operation.toNat (k.comparison t) (k.time t)]
    else [k.made target s operation.toNat 0 0,k.made target t 0 0 0]
  | s,(operation,t)::(skipped,next)::rest =>
    if lasts operation then k.made target s operation.toNat (k.comparison t) (k.time t)::taken target next rest
    else k.made target s operation.toNat 0 0::taken target t ((skipped,next)::rest)

-- Whether that ends with a time slot, behind which an operator is skipped that is
-- not there.
def late : Tail σ → Bool
  | [] => false
  | [(operation,_)] => lasts operation
  | (operation,_)::(skipped,next)::rest => if lasts operation then late rest else late ((skipped,next)::rest)

-- The last slot is no time slot and no operator behind a time slot is FOR.
def Plain (rest : Tail σ) : Prop :=
  (∀ slot ∈ rest.getLast?,lasts slot.1 = false) ∧ rest.IsChain (fun a b => ¬(lasts a.1 = true ∧ lasts b.1 = true))

instance (rest : Tail σ) : Decidable (Plain rest) := inferInstanceAs (Decidable (_ ∧ _))

theorem length_after_time (target : Int) (s : σ) (rest : Tail σ) :
    (conditions k target (some s) rest).length = (conditions k target none rest).length+1 := by
  cases rest with
  | nil => rfl
  | cons slot rest =>
    obtain ⟨operation,t⟩ := slot
    simp only [conditions]
    split <;> rfl

theorem length_taken (target : Int) (s : σ) (rest : Tail σ) :
    (conditions k target (some s) rest).length ≤ (taken k target s rest).length := by
  fun_induction taken k target s rest with
  | case1 s => exact Nat.le_refl _
  | case2 s operation t isFor => simp [conditions,isFor]
  | case3 s operation t other => simp [conditions,other]
  | case4 s operation t skipped next rest isFor ih =>
    rw [conditions,if_pos isFor,conditions]
    split
    · have more := length_after_time k target next rest
      simp only [List.length_cons] at ih ⊢
      omega
    · simpa using ih
  | case5 s operation t skipped next rest other ih =>
    rw [conditions,if_neg other]
    simpa using ih

omit k in
theorem plain_other {operation : UInt64} {t : σ} {b : UInt64 × σ} {rest : Tail σ} (other : ¬lasts operation = true) :
    Plain ((operation,t)::b::rest) ↔ Plain (b::rest) := by
  simp [Plain,other]

omit k in
theorem plain_time {operation skipped : UInt64} {t next : σ} {rest : Tail σ} (isFor : lasts operation = true) :
    Plain ((operation,t)::(skipped,next)::rest) ↔ lasts skipped = false ∧ Plain rest := by
  cases again : lasts skipped with
  | true => simp [Plain,isFor,again]
  | false =>
    cases rest with
    | nil => simp [Plain,again]
    | cons b rest => simp [Plain,again]

-- Both defects show: the reading is late, or one condition too long.
theorem plain_iff (target : Int) (s : σ) (rest : Tail σ) :
    Plain rest ↔ late rest = false ∧ taken k target s rest = conditions k target (some s) rest := by
  fun_induction taken k target s rest with
  | case1 s => simp [Plain,late,conditions]
  | case2 s operation t isFor => simp [Plain,late,isFor]
  | case3 s operation t other => simp [Plain,late,conditions,other]
  | case4 s operation t skipped next rest isFor ih =>
    rw [conditions,if_pos isFor,conditions,late,if_pos isFor,plain_time isFor,List.cons.injEq]
    cases again : lasts skipped with
    | true =>
      -- the code takes the second time slot for a condition
      have more := length_after_time k target next rest
      have least := length_taken k target next rest
      simp only [if_true,true_and,reduceCtorEq,false_and,false_iff]
      rintro ⟨-,same⟩
      rw [same] at least
      omega
    | false => simpa using ih
  | case5 s operation t skipped next rest other ih =>
    rw [conditions,if_neg other,late,if_neg other,List.cons.injEq,plain_other other]
    simpa using ih

end Sets

section Rows
variable {σ : Type} {k : Kind σ} {v : Bytes} (small : v.length < 2147483648) {target len : Int}
  (room : (v.length : Int) ≤ len) {head : Parse (Nat → Nat → Nat → Condition)} {timePart : Parse (Nat × Nat)}
  (heads : ∀ (i : Nat) s,Stands v i (k.bytes s) → Yields v head i (k.made target s) (i+(k.bytes s).length : Nat) id)
  (times : ∀ (i : Nat) s,Stands v i (k.bytes s) →
    Yields v timePart i (k.comparison s,k.time s) (toInt (i+(k.bytes s).length+12 : Nat)) id)
  (content : ∀ s,k.bytes s ≠ [])
include room heads content

-- The check in front of a slot and the slot.
theorem passes_head {β : Type} {i : Nat} {s : σ} (rest : (Nat → Nat → Nat → Condition) → Parse β)
    (stands : Stands v i (k.bytes s)) :
    Passes v (do
      let offset ← position
      if offset ≥ len then .throw
      else do
        let made ← head
        rest made) i
    (rest (k.made target s)) (i+(k.bytes s).length : Nat) := by
  have inside := stands.1
  have positive := List.length_pos_iff.mpr (content s)
  refine passes_after (⟨rfl,rfl⟩ : Yields v position i (i : Int) i id) ?_
  rw [if_neg (by omega)]
  refine passes_after (heads i s stands) ?_
  exact passes_refl v _ _

include small

-- A slot and its operator, in front of what the operator decides.
theorem passes_operator (timePart : Parse (Nat × Nat)) (left : Nat) {s t : σ} {operation : UInt64} {rest : Tail σ} {i : Nat}
    (stands : Stands v i (k.bytes s++tailBytes k ((operation,t)::rest))) (set : List Condition) :
    Passes v (slotsBy len head timePart (left+1+1) set) i
      (if operation.toNat % 256 = operationFor then do
        let (timeComparison,time) ← timePart
        slotsBy len head timePart left (set++[k.made target s operation.toNat timeComparison time])
      else slotsBy len head timePart (left+1) (set++[k.made target s operation.toNat 0 0]))
      (i+(k.bytes s).length+12 : Nat) := by
  rw [slotsBy]
  refine (passes_head room heads content _ stands.left).trans ?_
  have operator := stands.right
  rw [tailBytes,List.flatMap_cons,List.append_assoc] at operator
  refine passes_after (yields_getUint64 small operator.left operation.toNat_lt) ?_
  exact passes_refl v _ _

include times

-- A late reading ends twelve bytes behind the set.
theorem yields_row {s : σ} {rest : Tail σ} {i : Nat} (stands : Stands v i (k.bytes s++tailBytes k rest)) (set : List Condition) :
    Yields v (slotsBy len head timePart (rest.length+1) set) i (set++taken k target s rest)
      (if late rest then toInt (i+(k.bytes s++tailBytes k rest).length+12 : Nat) else (i+(k.bytes s++tailBytes k rest).length : Nat))
      id := by
  fun_induction taken k target s rest generalizing i set with
  | case1 s =>
    rw [tailBytes,List.flatMap_nil,List.append_nil] at stands ⊢
    rw [List.length_nil,slotsBy]
    refine (passes_head room heads content _ stands).yields ?_
    exact yields_done v _ _
  | case2 s operation t isFor =>
    have operator := passes_operator small room heads content timePart 0 stands set
    rw [if_pos (of_decide_eq_true isFor)] at operator
    have time := stands.right
    rw [tailBytes,List.flatMap_cons,List.append_assoc] at time
    have size : i+(k.bytes s++tailBytes k [(operation,t)]).length+12 = i+(k.bytes s).length+12+(k.bytes t).length+12 := by
      simp only [tailBytes,List.flatMap_cons,List.flatMap_nil,List.append_nil,List.length_append,length_number]
      omega
    rw [late,if_pos isFor,size]
    refine operator.yields ?_
    refine yields_after (times _ t (after_number time).left) ?_
    dsimp only
    rw [slotsBy]
    exact yields_done v _ _
  | case3 s operation t other =>
    have operator := passes_operator small room heads content timePart 0 stands set
    rw [if_neg (fun same => other (decide_eq_true same))] at operator
    have last := stands.right
    rw [tailBytes,List.flatMap_cons,List.append_assoc] at last
    have size : i+(k.bytes s++tailBytes k [(operation,t)]).length = i+(k.bytes s).length+12+(k.bytes t).length := by
      simp only [tailBytes,List.flatMap_cons,List.flatMap_nil,List.append_nil,List.length_append,length_number]
      omega
    rw [late,if_neg other,size]
    refine operator.yields ?_
    rw [slotsBy]
    refine (passes_head room heads content _ (after_number last).left).yields ?_
    rw [pure_eq,List.append_assoc,List.singleton_append]
    exact yields_done v _ _
  | case4 s operation t skipped next rest isFor ih =>
    have operator := passes_operator small room heads content timePart (rest.length+1) stands set
    rw [if_pos (of_decide_eq_true isFor)] at operator
    have time := stands.right
    rw [tailBytes,List.flatMap_cons,List.append_assoc] at time
    have behind := (after_number time).right
    rw [List.flatMap_cons,List.append_assoc] at behind
    dsimp only at behind
    have later := ih (after_number behind) (set++[k.made target s operation.toNat (k.comparison t) (k.time t)])
    have fits : i+(k.bytes s).length+12+(k.bytes t).length+12+(k.bytes next++tailBytes k rest).length ≤ v.length :=
      (after_number behind).1
    have size : i+(k.bytes s++tailBytes k ((operation,t)::(skipped,next)::rest)).length =
        i+(k.bytes s).length+12+(k.bytes t).length+12+(k.bytes next++tailBytes k rest).length := by
      simp only [tailBytes,List.flatMap_cons,List.length_append,length_number]
      omega
    rw [late,if_pos isFor,size]
    rw [List.append_assoc,List.singleton_append] at later
    refine operator.yields ?_
    refine yields_after (times _ t (after_number time).left) ?_
    rw [toInt_small (by omega) (by omega)]
    exact later
  | case5 s operation t skipped next rest other ih =>
    have operator := passes_operator small room heads content timePart (rest.length+1) stands set
    rw [if_neg (fun same => other (decide_eq_true same))] at operator
    have behind := stands.right
    rw [tailBytes,List.flatMap_cons,List.append_assoc] at behind
    have later := ih (after_number behind) (set++[k.made target s operation.toNat 0 0])
    have size : i+(k.bytes s++tailBytes k ((operation,t)::(skipped,next)::rest)).length =
        i+(k.bytes s).length+12+(k.bytes t++tailBytes k ((skipped,next)::rest)).length := by
      simp only [tailBytes,List.flatMap_cons,List.length_append,length_number]
      omega
    rw [late,if_neg other,size]
    rw [List.append_assoc,List.singleton_append] at later
    exact operator.yields later

end Rows

end ChuwiMinibook.ApctSlots
