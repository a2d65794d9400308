import ChuwiMinibook.ByteScan
import Mathlib.Data.List.TakeDrop

namespace ChuwiMinibook.ByteScan

-- Bytes that stand at a place of a buffer, and what scans over known bytes return.
def Stands (v : Bytes) (i : Nat) (b : Bytes) : Prop := i+b.length ≤ v.length ∧ (v.drop i).take b.length = b

theorem stands_whole (v : Bytes) : Stands v 0 v := ⟨by simp,by simp⟩

theorem stands_append {v a b : Bytes} {i : Nat} :
    Stands v i (a++b) ↔ Stands v i a ∧ Stands v (i+a.length) b := by
  unfold Stands
  rw [List.length_append,List.take_add,List.drop_drop]
  constructor
  · intro given
    obtain ⟨room,same⟩ := given
    have parts := List.append_inj same (by rw [List.length_take,List.length_drop]; omega)
    exact ⟨⟨by omega,parts.1⟩,by omega,parts.2⟩
  · intro given
    obtain ⟨⟨_,first⟩,room,second⟩ := given
    exact ⟨by omega,by rw [first,second]⟩

theorem Stands.left {v a b : Bytes} {i : Nat} (stands : Stands v i (a++b)) : Stands v i a := (stands_append.mp stands).1

theorem Stands.right {v a b : Bytes} {i : Nat} (stands : Stands v i (a++b)) : Stands v (i+a.length) b :=
  (stands_append.mp stands).2

theorem Stands.inside {v b : Bytes} {i : Nat} (stands : Stands v i b) : Inside v i b.length := by
  have room := stands.1
  exact ⟨by omega,by omega⟩

theorem Stands.bytes {v b : Bytes} {i : Nat} (stands : Stands v i b) : bytesAt v i b.length = b := stands.2

theorem Stands.rest {v b : Bytes} {i : Nat} (stands : Stands v i b) : v.drop i = b++v.drop (i+b.length) := by
  rw [← List.drop_drop,← congrArg (· ++ _) stands.2]
  exact (List.take_append_drop b.length (v.drop i)).symm

theorem takeWhile_before_zero {b : Bytes} (zero : 0 ∈ b) (rest : Bytes) :
    (b++rest).takeWhile (· ≠ 0) = b.takeWhile (· ≠ 0) := by
  induction b with
  | nil => cases zero
  | cons first more ih =>
    rw [List.cons_append,List.takeWhile_cons,List.takeWhile_cons]
    by_cases ended : first = 0
    · simp [ended]
    · rcases List.mem_cons.mp zero with same | later
      · exact absurd same.symm ended
      · rw [ih later]

-- A text ends at the first zero of the bytes that stand there.
theorem Stands.text {v b : Bytes} {i : Nat} (stands : Stands v i b) (zero : 0 ∈ b) :
    Terminated v i ∧ textAt v i = b.takeWhile (· ≠ 0) := by
  refine ⟨⟨by omega,?_⟩,?_⟩
  · rw [Int.toNat_natCast,stands.rest]
    exact List.mem_append_left _ zero
  · rw [textAt,Int.toNat_natCast,stands.rest,takeWhile_before_zero zero]

namespace Scan
variable {τ α β : Type}

attribute [local simp] effect

theorem effect_bind (v : Bytes) (p : Scan τ α) (f : α → Scan τ β) (i : Int) :
    effect v (p.bind f) i = match exec v p i with
      | .ok (a,j) => effect v (f a) j ∘ effect v p i
      | .error _ => effect v p i := by
  induction p generalizing i with
  | done a => rfl
  | throw => rfl
  | hang => rfl
  | read j n next ih =>
    simp only [bind,exec,effect]
    split
    · exact ih _ i
    · rfl
  | text j next ih =>
    simp only [bind,exec,effect]
    split
    · exact ih _ i
    · rfl
  | cursor next ih => exact ih i i
  | seek j next ih => exact ih j
  | push write next ih =>
    simp only [bind,exec,effect,ih]
    split <;> rfl

-- A run that returns a value, moves the cursor and makes a change.
def Yields (v : Bytes) (p : Scan τ α) (i : Int) (a : α) (j : Int) (change : τ → τ) : Prop :=
  exec v p i = .ok (a,j) ∧ effect v p i = change

def Throws (v : Bytes) (p : Scan τ α) (i : Int) : Prop := exec v p i = .error .thrown

theorem yields_done (v : Bytes) (a : α) (i : Int) : Yields v (.done a : Scan τ α) i a i id := ⟨rfl,rfl⟩

theorem yields_write (v : Bytes) (change : τ → τ) (i : Int) : Yields v (write change) i () i change := ⟨rfl,rfl⟩

theorem yields_bind {v : Bytes} {p : Scan τ α} {f : α → Scan τ β} {i j k : Int} {a : α} {b : β} {first second : τ → τ}
    (now : Yields v p i a j first) (later : Yields v (f a) j b k second) :
    Yields v (p.bind f) i b k (second ∘ first) := by
  refine ⟨?_,?_⟩
  · rw [exec_bind,now.1]
    exact later.1
  · rw [effect_bind,now.1]
    exact congrArg₂ (· ∘ ·) later.2 now.2

-- A part that changes nothing in front of the rest.
theorem yields_after {v : Bytes} {p : Scan τ α} {f : α → Scan τ β} {i j k : Int} {a : α} {b : β} {change : τ → τ}
    (now : Yields v p i a j id) (later : Yields v (f a) j b k change) : Yields v (p.bind f) i b k change :=
  yields_bind now later

theorem throws_bind {v : Bytes} {p : Scan τ α} {f : α → Scan τ β} {i : Int} (now : Throws v p i) :
    Throws v (p.bind f) i := by
  rw [Throws,exec_bind,now]

theorem throws_after {v : Bytes} {p : Scan τ α} {f : α → Scan τ β} {i j : Int} {a : α} {change : τ → τ}
    (now : Yields v p i a j change) (later : Throws v (f a) j) : Throws v (p.bind f) i := by
  rw [Throws,exec_bind,now.1]
  exact later

-- A run that goes on as another one does from another place.
def Passes (v : Bytes) (p : Scan τ α) (i : Int) (q : Scan τ α) (j : Int) : Prop :=
  exec v p i = exec v q j ∧ effect v p i = effect v q j

theorem passes_after {v : Bytes} {p : Scan τ α} {f : α → Scan τ β} {i j k : Int} {a : α} {q : Scan τ β}
    (now : Yields v p i a j id) (later : Passes v (f a) j q k) : Passes v (p.bind f) i q k := by
  refine ⟨?_,?_⟩
  · rw [exec_bind,now.1]
    exact later.1
  · rw [effect_bind,now.1,now.2]
    exact later.2

theorem passes_refl (v : Bytes) (p : Scan τ α) (i : Int) : Passes v p i p i := ⟨rfl,rfl⟩

theorem Passes.trans {v : Bytes} {p q r : Scan τ α} {i j k : Int} (first : Passes v p i q j) (second : Passes v q j r k) :
    Passes v p i r k :=
  ⟨first.1.trans second.1,first.2.trans second.2⟩

theorem Passes.yields {v : Bytes} {p q : Scan τ α} {i j k : Int} {a : α} {change : τ → τ} (passes : Passes v p i q j)
    (later : Yields v q j a k change) : Yields v p i a k change :=
  ⟨passes.1.trans later.1,passes.2.trans later.2⟩

theorem Passes.throws {v : Bytes} {p q : Scan τ α} {i j : Int} (passes : Passes v p i q j) (later : Throws v q j) :
    Throws v p i :=
  passes.1.trans later

theorem yields_run {v : Bytes} {p : Scan τ α} {a : α} {j : Int} {change : τ → τ} (yields : Yields v p 0 a j change) :
    run v p = ⟨change,.ok a⟩ := by
  rw [run,yields.1,yields.2]
  rfl

theorem throws_run {v : Bytes} {p : Scan τ α} (throws : Throws v p 0) : (run v p).result = .error .thrown := by
  rw [run,throws]
  rfl

theorem yields_read {v b : Bytes} {i : Nat} (stands : Stands v i b) (j : Int) :
    Yields v (.read i b.length .done : Scan τ Bytes) j b j id := by
  refine ⟨?_,?_⟩
  · rw [exec,if_pos stands.inside,stands.bytes]
    rfl
  · rw [effect,if_pos stands.inside,stands.bytes]
    rfl

theorem yields_word {v b : Bytes} {i : Nat} (stands : Stands v i b) (j : Int) :
    Yields v (word i b.length : Scan τ Nat) j (little b) j id := by
  refine ⟨?_,?_⟩
  · rw [word,exec,if_pos stands.inside,stands.bytes]
    rfl
  · rw [word,effect,if_pos stands.inside,stands.bytes]
    rfl

theorem yields_cString {v b : Bytes} {i : Nat} (stands : Stands v i b) (zero : 0 ∈ b) (j : Int) :
    Yields v (cString i : Scan τ Bytes) j (b.takeWhile (· ≠ 0)) j id := by
  obtain ⟨ended,same⟩ := stands.text zero
  refine ⟨?_,?_⟩
  · rw [cString,exec,if_pos ended,same]
    rfl
  · rw [cString,effect,if_pos ended]
    rfl

-- A loop over records that stand one behind the other up to its bound.
theorem yields_whileBelow {ρ : Type} {v : Bytes} {encoded : ρ → Bytes} {next : β → ρ → β} {change : ρ → τ → τ}
    {body : β → Scan τ β} {len : Int} {records : List ρ}
    (each : ∀ x ∈ records,∀ acc (i : Nat),Stands v i (encoded x) →
      Yields v (body acc) i (next acc x) (i+(encoded x).length : Nat) (change x))
    (content : ∀ x ∈ records,encoded x ≠ []) {fuel : Nat} (enough : records.length < fuel) (acc : β) {i : Nat}
    (stands : Stands v i (records.flatMap encoded)) (stop : len = (i+(records.flatMap encoded).length : Nat)) :
    Yields v (whileBelow len body fuel acc) i (records.foldl next acc) len
      (fun g => records.foldl (fun g x => change x g) g) := by
  induction records generalizing fuel acc i with
  | nil =>
    cases fuel with
    | zero => cases enough
    | succ fuel =>
      have ended : len = i := stop
      rw [ended]
      exact ⟨by simp [whileBelow,exec],by simp [whileBelow,effect]; rfl⟩
  | cons x rest ih =>
    cases fuel with
    | zero => cases enough
    | succ fuel =>
      rw [List.flatMap_cons] at stands stop
      rw [List.length_append] at stop
      have positive := List.length_pos_iff.mpr (content x List.mem_cons_self)
      have below : (i : Int) < len := by omega
      have first := each x List.mem_cons_self acc i stands.left
      have later := ih (fun y listed => each y (List.mem_cons_of_mem _ listed))
        (fun y listed => content y (List.mem_cons_of_mem _ listed)) (Nat.lt_of_succ_lt_succ enough) (next acc x)
        stands.right (by omega)
      have both := yields_bind first later
      refine ⟨?_,?_⟩
      · rw [whileBelow,exec,if_pos below]
        exact both.1
      · rw [whileBelow,effect,if_pos below]
        exact both.2

-- A loop that appends one value for each record appends them all.
theorem foldl_keep {ρ γ : Type} (put : List γ → τ → τ) (none : ∀ g,put [] g = g)
    (more : ∀ y ys g,put ys (put [y] g) = put (y::ys) g) (kept : ρ → γ) (records : List ρ) (g : τ) :
    records.foldl (fun g x => put [kept x] g) g = put (records.map kept) g := by
  induction records generalizing g with
  | nil => exact (none g).symm
  | cons x rest ih => rw [List.foldl_cons,ih,more,List.map_cons]

-- A loop throws at the first record that does.
theorem throws_whileBelow {ρ : Type} {v : Bytes} {encoded : ρ → Bytes} {next : β → ρ → β} {change : ρ → τ → τ}
    {body : β → Scan τ β} {len : Int} {records : List ρ} {bad : ρ → Prop} [DecidablePred bad]
    (each : ∀ x ∈ records,¬bad x → ∀ acc (i : Nat),Stands v i (encoded x) →
      Yields v (body acc) i (next acc x) (i+(encoded x).length : Nat) (change x))
    (fails : ∀ x ∈ records,bad x → ∀ acc (i : Nat),Stands v i (encoded x) → Throws v (body acc) i)
    (content : ∀ x ∈ records,encoded x ≠ []) {fuel : Nat} (enough : records.length < fuel) (acc : β) {i : Nat}
    (stands : Stands v i (records.flatMap encoded)) (stop : len = (i+(records.flatMap encoded).length : Nat))
    (wrong : ∃ x ∈ records,bad x) : Throws v (whileBelow len body fuel acc) i := by
  induction records generalizing fuel acc i with
  | nil =>
    obtain ⟨x,listed,-⟩ := wrong
    cases listed
  | cons x rest ih =>
    cases fuel with
    | zero => cases enough
    | succ fuel =>
      rw [List.flatMap_cons] at stands stop
      rw [List.length_append] at stop
      have positive := List.length_pos_iff.mpr (content x List.mem_cons_self)
      have below : (i : Int) < len := by omega
      rw [Throws,whileBelow,exec,if_pos below]
      by_cases here : bad x
      · exact throws_bind (fails x List.mem_cons_self here acc i stands.left)
      · refine throws_after (each x List.mem_cons_self here acc i stands.left) ?_
        refine ih (fun y listed => each y (List.mem_cons_of_mem _ listed))
          (fun y listed => fails y (List.mem_cons_of_mem _ listed))
          (fun y listed => content y (List.mem_cons_of_mem _ listed)) (Nat.lt_of_succ_lt_succ enough) _ stands.right
          (by omega) ?_
        obtain ⟨y,listed,wrong⟩ := wrong
        rcases List.mem_cons.mp listed with rfl | later
        · exact absurd wrong here
        · exact ⟨y,later,wrong⟩

-- Every write of the program keeps I, and what the program returns satisfies Q.
def Obeys (I : τ → Prop) (Q : α → Prop) : Scan τ α → Prop
  | .done a => Q a
  | .throw => True
  | .hang => True
  | .read _ _ next => ∀ b,Obeys I Q (next b)
  | .text _ next => ∀ b,Obeys I Q (next b)
  | .cursor next => ∀ i,Obeys I Q (next i)
  | .seek _ next => Obeys I Q next
  | .push write next => (∀ g,I g → I (write g)) ∧ Obeys I Q next

section Obeys
variable {I : τ → Prop} {Q : α → Prop} {R : β → Prop}

theorem obeys_bind {p : Scan τ α} {f : α → Scan τ β} (first : Obeys I Q p) (rest : ∀ a,Q a → Obeys I R (f a)) :
    Obeys I R (p.bind f) := by
  induction p with
  | done a => exact rest a first
  | throw => trivial
  | hang => trivial
  | read i n next ih => exact fun b => ih b (first b)
  | text i next ih => exact fun b => ih b (first b)
  | cursor next ih => exact fun i => ih i (first i)
  | seek i next ih => exact ih first
  | push write next ih => exact ⟨first.1,ih first.2⟩

theorem obeys_any {p : Scan τ α} {f : α → Scan τ β} (first : Obeys I (fun _ => True) p) (rest : ∀ a,Obeys I R (f a)) :
    Obeys I R (p.bind f) :=
  obeys_bind first fun a _ => rest a

theorem obeys_ite {c : Prop} [Decidable c] {p q : Scan τ α} :
    Obeys I Q (if c then p else q) ↔ (c → Obeys I Q p) ∧ (¬c → Obeys I Q q) := by
  by_cases held : c <;> simp [held]

theorem obeys_returns {p : Scan τ α} (obeys : Obeys I Q p) {v : Bytes} {i j : Int} {a : α}
    (finished : exec v p i = .ok (a,j)) : Q a := by
  induction p generalizing i with
  | done b =>
    cases finished
    exact obeys
  | throw => cases finished
  | hang => cases finished
  | read k n next ih =>
    simp only [exec] at finished
    split at finished
    · exact ih _ (obeys _) finished
    · cases finished
  | text k next ih =>
    simp only [exec] at finished
    split at finished
    · exact ih _ (obeys _) finished
    · cases finished
  | cursor next ih => exact ih i (obeys i) finished
  | seek k next ih => exact ih obeys finished
  | push write next ih => exact ih obeys.2 finished

theorem obeys_effect {p : Scan τ α} (obeys : Obeys I Q p) (v : Bytes) (i : Int) {g : τ} (kept : I g) :
    I (effect v p i g) := by
  induction p generalizing i g with
  | done b => exact kept
  | throw => exact kept
  | hang => exact kept
  | read k n next ih =>
    simp only [effect]
    split
    · exact ih _ (obeys _) i kept
    · exact kept
  | text k next ih =>
    simp only [effect]
    split
    · exact ih _ (obeys _) i kept
    · exact kept
  | cursor next ih => exact ih i (obeys i) i kept
  | seek k next ih => exact ih obeys k kept
  | push write next ih => exact ih obeys.2 i (obeys.1 g kept)

theorem obeys_whileBelow {body : β → Scan τ β} (each : ∀ acc,R acc → Obeys I R (body acc)) (len : Int) (fuel : Nat)
    {acc : β} (start : R acc) : Obeys I R (whileBelow len body fuel acc) := by
  induction fuel generalizing acc with
  | zero => exact trivial
  | succ fuel ih =>
    intro i
    dsimp only
    split
    · exact obeys_bind (each acc start) fun next kept => ih kept
    · exact start

end Obeys

end Scan
end ChuwiMinibook.ByteScan
