import ChuwiMinibook.ByteRuns

namespace ChuwiMinibook.ByteScan.Scan
variable {τ β ρ : Type}

-- Where the cursor stands each time a loop looks at its bound.
def heads (v : Bytes) (len : Int) (body : β → Scan τ β) : Nat → β → Int → List Int
  | 0,_,_ => []
  | fuel+1,acc,i => i::(if i < len then
      match exec v (body acc) i with
      | .ok (next,j) => heads v len body fuel next j
      | .error _ => []
    else [])

-- Where records that stand one behind the other start, and where the last one ends.
def boundaries (encoded : ρ → Bytes) : Nat → List ρ → List Int
  | i,[] => [(i : Int)]
  | i,x::rest => (i : Int)::boundaries encoded (i+(encoded x).length) rest

theorem head_heads (v : Bytes) (len : Int) (body : β → Scan τ β) (fuel : Nat) (acc : β) (i : Int) :
    (heads v len body (fuel+1) acc i).head? = some i := rfl

theorem head_boundaries (encoded : ρ → Bytes) (i : Nat) (records : List ρ) :
    (boundaries encoded i records).head? = some (i : Int) := by
  cases records <;> rfl

-- A loop comes to every boundary exactly when no record is read past its end.
theorem heads_boundaries_iff {v : Bytes} {encoded : ρ → Bytes} {next : β → ρ → β} {change : ρ → τ → τ} {late : ρ → Prop}
    [DecidablePred late] {body : β → Scan τ β} {len : Int} {records : List ρ}
    (each : ∀ x ∈ records,¬late x → ∀ acc (i : Nat),Stands v i (encoded x) →
      Yields v (body acc) i (next acc x) (i+(encoded x).length : Nat) (change x))
    (past : ∀ x ∈ records,late x → ∀ acc (i : Nat),Stands v i (encoded x) →
      ∀ a j,exec v (body acc) i = .ok (a,j) → j ≠ (i+(encoded x).length : Nat))
    (content : ∀ x ∈ records,encoded x ≠ []) {fuel : Nat} (enough : records.length < fuel) (acc : β) {i : Nat}
    (stands : Stands v i (records.flatMap encoded)) (stop : len = (i+(records.flatMap encoded).length : Nat)) :
    heads v len body fuel acc i = boundaries encoded i records ↔ ∀ x ∈ records,¬late x := by
  induction records generalizing fuel acc i with
  | nil =>
    obtain ⟨fuel,rfl⟩ := Nat.exists_eq_succ_of_ne_zero (Nat.ne_of_gt enough)
    have ended : ¬(i : Int) < len := Int.not_lt.mpr (Int.le_of_eq stop)
    simp [heads,boundaries,ended]
  | cons x rest ih =>
    obtain ⟨fuel,rfl⟩ := Nat.exists_eq_succ_of_ne_zero (Nat.ne_of_gt (Nat.zero_lt_of_lt enough))
    rw [List.flatMap_cons] at stands stop
    rw [List.length_append] at stop
    have positive := List.length_pos_iff.mpr (content x List.mem_cons_self)
    have below : (i : Int) < len := by omega
    have remaining := fun acc => ih (fun y listed => each y (List.mem_cons_of_mem _ listed))
      (fun y listed => past y (List.mem_cons_of_mem _ listed))
      (fun y listed => content y (List.mem_cons_of_mem _ listed)) (Nat.lt_of_succ_lt_succ enough) acc
      stands.right (by omega)
    rw [heads,if_pos below,boundaries,List.cons.injEq,List.forall_mem_cons]
    constructor
    · rintro ⟨-,tail⟩
      cases ran : exec v (body acc) i with
      | error s =>
        rw [ran] at tail
        have none := head_boundaries encoded (i+(encoded x).length) rest
        rw [← tail] at none
        cases none
      | ok result =>
        obtain ⟨a,j⟩ := result
        rw [ran] at tail
        obtain ⟨fuel,rfl⟩ := Nat.exists_eq_succ_of_ne_zero (Nat.ne_of_gt (Nat.zero_lt_of_lt (Nat.lt_of_succ_lt_succ enough)))
        have first := head_boundaries encoded (i+(encoded x).length) rest
        rw [← tail,head_heads,Option.some.injEq] at first
        have onTime : ¬late x := fun late => past x List.mem_cons_self late acc i stands.left a j ran first
        have exact := (each x List.mem_cons_self onTime acc i stands.left).1
        rw [ran,Except.ok.injEq,Prod.mk.injEq] at exact
        rw [exact.1,exact.2] at tail
        exact ⟨onTime,(remaining _).mp tail⟩
    · rintro ⟨onTime,later⟩
      refine ⟨rfl,?_⟩
      rw [(each x List.mem_cons_self onTime acc i stands.left).1]
      exact (remaining _).mpr later

end ChuwiMinibook.ByteScan.Scan
