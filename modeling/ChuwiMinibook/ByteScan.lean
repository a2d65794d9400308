import Mathlib.Data.List.Basic
import Mathlib.Data.Int.Basic

namespace ChuwiMinibook.ByteScan

-- Programs that walk over a byte buffer with a cursor. A read outside the buffer
-- ends the run as a fault; nothing is assumed about what it would have returned.
abbrev Bytes := List UInt8

inductive Stop where
  | thrown | fault | hang
deriving DecidableEq

def Inside (v : Bytes) (i : Int) (n : Nat) : Prop := 0 ≤ i ∧ i + n ≤ v.length

instance (v : Bytes) (i : Int) (n : Nat) : Decidable (Inside v i n) := inferInstanceAs (Decidable (_ ∧ _))

def bytesAt (v : Bytes) (i : Int) (n : Nat) : Bytes := (v.drop i.toNat).take n

-- A text ends at the first zero at or behind its start.
def Terminated (v : Bytes) (i : Int) : Prop := 0 ≤ i ∧ 0 ∈ v.drop i.toNat

instance (v : Bytes) (i : Int) : Decidable (Terminated v i) := inferInstanceAs (Decidable (_ ∧ _))

def textAt (v : Bytes) (i : Int) : Bytes := (v.drop i.toNat).takeWhile (· ≠ 0)

def little : Bytes → Nat
  | [] => 0
  | b::rest => b.toNat + 256*little rest

-- What a run leaves: the writes it made, also before a stop, and its result.
structure Outcome (τ α : Type) where
  effect : τ → τ
  result : Except Stop α

inductive Scan (τ α : Type) : Type where
  | done (a : α)
  | throw
  | hang
  | read (i : Int) (n : Nat) (next : Bytes → Scan τ α)
  | text (i : Int) (next : Bytes → Scan τ α)
  | cursor (next : Int → Scan τ α)
  | seek (i : Int) (next : Scan τ α)
  | push (write : τ → τ) (next : Scan τ α)

namespace Scan
variable {τ α β : Type}

def bind : Scan τ α → (α → Scan τ β) → Scan τ β
  | .done a,f => f a
  | .throw,_ => .throw
  | .hang,_ => .hang
  | .read i n next,f => .read i n (fun b => (next b).bind f)
  | .text i next,f => .text i (fun b => (next b).bind f)
  | .cursor next,f => .cursor (fun i => (next i).bind f)
  | .seek i next,f => .seek i (next.bind f)
  | .push write next,f => .push write (next.bind f)

instance : Monad (Scan τ) where
  pure := .done
  bind := Scan.bind

@[simp] theorem pure_eq (a : α) : (pure a : Scan τ α) = .done a := rfl

@[simp] theorem bind_eq (p : Scan τ α) (f : α → Scan τ β) : p >>= f = p.bind f := rfl

theorem bind_assoc {γ : Type} (p : Scan τ α) (f : α → Scan τ β) (g : β → Scan τ γ) :
    (p.bind f).bind g = p.bind fun a => (f a).bind g := by
  induction p with
  | done a => rfl
  | throw => rfl
  | hang => rfl
  | read i n next ih => simp only [bind,ih]
  | text i next ih => simp only [bind,ih]
  | cursor next ih => simp only [bind,ih]
  | seek i next ih => simp only [bind,ih]
  | push write next ih => simp only [bind,ih]

theorem ite_bind {c : Prop} [Decidable c] (p q : Scan τ α) (f : α → Scan τ β) :
    (if c then p else q).bind f = if c then p.bind f else q.bind f := by
  split <;> rfl

def word (i : Int) (n : Nat) : Scan τ Nat := .read i n (fun b => .done (little b))
def position : Scan τ Int := .cursor .done
def moveTo (i : Int) : Scan τ Unit := .seek i (.done ())
def write (f : τ → τ) : Scan τ Unit := .push f (.done ())
def cString (i : Int) : Scan τ Bytes := .text i .done

-- while (cursor < len)
def whileBelow (len : Int) (body : β → Scan τ β) : Nat → β → Scan τ β
  | 0,_ => .hang
  | fuel+1,acc => .cursor (fun i => if i < len then (body acc).bind (whileBelow len body fuel) else .done acc)

def exec (v : Bytes) : Scan τ α → Int → Except Stop (α × Int)
  | .done a,i => .ok (a,i)
  | .throw,_ => .error .thrown
  | .hang,_ => .error .hang
  | .read j n next,i => if Inside v j n then exec v (next (bytesAt v j n)) i else .error .fault
  | .text j next,i => if Terminated v j then exec v (next (textAt v j)) i else .error .fault
  | .cursor next,i => exec v (next i) i
  | .seek j next,_ => exec v next j
  | .push _ next,i => exec v next i

def effect (v : Bytes) : Scan τ α → Int → τ → τ
  | .done _,_ => id
  | .throw,_ => id
  | .hang,_ => id
  | .read j n next,i => if Inside v j n then effect v (next (bytesAt v j n)) i else id
  | .text j next,i => if Terminated v j then effect v (next (textAt v j)) i else id
  | .cursor next,i => effect v (next i) i
  | .seek j next,_ => effect v next j
  | .push write next,i => effect v next i ∘ write

def run (v : Bytes) (p : Scan τ α) : Outcome τ α := ⟨effect v p 0,(exec v p 0).map (·.1)⟩

-- A demand on the accesses of a run: what it reads, where its texts start and
-- how its cursor moves.
structure Demand where
  read : Int → Nat → Prop
  text : Int → Prop
  seek : Int → Int → Prop

def Along (v : Bytes) (d : Demand) : Scan τ α → Int → Prop
  | .done _,_ => True
  | .throw,_ => True
  | .hang,_ => True
  | .read j n next,i => d.read j n ∧ (Inside v j n → Along v d (next (bytesAt v j n)) i)
  | .text j next,i => d.text j ∧ (Terminated v j → Along v d (next (textAt v j)) i)
  | .cursor next,i => Along v d (next i) i
  | .seek j next,i => d.seek i j ∧ Along v d next j
  | .push _ next,i => Along v d next i

attribute [local simp] bind exec Along

-- Every field and every terminator the run comes to lies inside the buffer.
def fits (v : Bytes) : Demand := ⟨Inside v,Terminated v,fun _ _ => True⟩

-- The cursor never moves back.
def forward : Demand := ⟨fun _ _ => True,fun _ => True,(· ≤ ·)⟩

theorem exec_bind (v : Bytes) (p : Scan τ α) (f : α → Scan τ β) (i : Int) :
    exec v (p.bind f) i = match exec v p i with
      | .ok (a,j) => exec v (f a) j
      | .error s => .error s := by
  induction p generalizing i with
  | done a => rfl
  | throw => rfl
  | hang => rfl
  | read j n next ih =>
    simp only [bind,exec]
    split
    · exact ih _ i
    · rfl
  | text j next ih =>
    simp only [bind,exec]
    split
    · exact ih _ i
    · rfl
  | cursor next ih => exact ih i i
  | seek j next ih => exact ih j
  | push write next ih => exact ih i

theorem along_bind {v : Bytes} {d : Demand} {p : Scan τ α} {f : α → Scan τ β} {i : Int} :
    Along v d (p.bind f) i ↔ Along v d p i ∧ ∀ a j,exec v p i = .ok (a,j) → Along v d (f a) j := by
  induction p generalizing i with
  | done a => simp [bind,Along,exec]
  | throw => simp [bind,Along,exec]
  | hang => simp [bind,Along,exec]
  | read j n next ih =>
    simp only [bind,Along,exec]
    by_cases inside : Inside v j n
    · simp [inside,ih,and_assoc]
    · simp [inside]
  | text j next ih =>
    simp only [bind,Along,exec]
    by_cases ended : Terminated v j
    · simp [ended,ih,and_assoc]
    · simp [ended]
  | cursor next ih => exact ih i
  | seek j next ih =>
    simp only [bind,Along,exec,ih,and_assoc]
  | push write next ih => exact ih

-- A run faults exactly when an access it comes to does not fit.
theorem exec_fault_iff {v : Bytes} {p : Scan τ α} {i : Int} :
    exec v p i = .error .fault ↔ ¬ Along v (fits v) p i := by
  induction p generalizing i with
  | done a => simp [Along,exec]
  | throw => simp [Along,exec]
  | hang => simp [Along,exec]
  | read j n next ih =>
    have law : (fits v).read j n = Inside v j n := rfl
    simp only [Along,exec,law]
    by_cases inside : Inside v j n
    · simp [inside,ih]
    · simp [inside]
  | text j next ih =>
    have law : (fits v).text j = Terminated v j := rfl
    simp only [Along,exec,law]
    by_cases ended : Terminated v j
    · simp [ended,ih]
    · simp [ended]
  | cursor next ih => exact ih i
  | seek j next ih =>
    have law : (fits v).seek i j = True := rfl
    simp only [Along,exec,law,true_and]
    exact ih
  | push write next ih => exact ih

theorem map_stop {r : Except Stop α} {g : α → β} {s : Stop} : r.map g = .error s ↔ r = .error s := by
  cases r <;> simp [Except.map]

theorem run_fault_iff {v : Bytes} {p : Scan τ α} : (run v p).result = .error .fault ↔ ¬ Along v (fits v) p 0 :=
  map_stop.trans exec_fault_iff

theorem exec_advances {v : Bytes} {p : Scan τ α} {i : Int} (onward : Along v forward p i) {a : α} {j : Int}
    (finished : exec v p i = .ok (a,j)) : i ≤ j := by
  induction p generalizing i with
  | done b =>
    simp only [exec,Except.ok.injEq,Prod.mk.injEq] at finished
    exact Int.le_of_eq finished.2
  | throw => cases finished
  | hang => cases finished
  | read k n next ih =>
    simp only [exec] at finished
    split at finished
    · rename_i inside
      exact ih _ (onward.2 inside) finished
    · cases finished
  | text k next ih =>
    simp only [exec] at finished
    split at finished
    · rename_i ended
      exact ih _ (onward.2 ended) finished
    · cases finished
  | cursor next ih => exact ih i onward finished
  | seek k next ih =>
    have moved : i ≤ k := onward.1
    exact Int.le_trans moved (ih onward.2 finished)
  | push write next ih => exact ih onward finished

def Ends (v : Bytes) (p : Scan τ α) (i : Int) : Prop := exec v p i ≠ .error .hang

-- Programs without a loop end.
def Straight : Scan τ α → Prop
  | .done _ => True
  | .throw => True
  | .hang => False
  | .read _ _ next => ∀ b,Straight (next b)
  | .text _ next => ∀ b,Straight (next b)
  | .cursor next => ∀ i,Straight (next i)
  | .seek _ next => Straight next
  | .push _ next => Straight next

theorem straight_ends {v : Bytes} {p : Scan τ α} (straight : Straight p) (i : Int) : Ends v p i := by
  unfold Ends
  induction p generalizing i with
  | done a => simp [exec]
  | throw => simp [exec]
  | hang => cases straight
  | read j n next ih =>
    simp only [exec]
    split
    · exact ih _ (straight _) i
    · simp
  | text j next ih =>
    simp only [exec]
    split
    · exact ih _ (straight _) i
    · simp
  | cursor next ih => exact ih i (straight i) i
  | seek j next ih => exact ih straight j
  | push write next ih => exact ih straight i

theorem straight_bind {p : Scan τ α} {f : α → Scan τ β} (first : Straight p) (rest : ∀ a,Straight (f a)) :
    Straight (p.bind f) := by
  induction p with
  | done a => exact rest a
  | throw => exact first
  | hang => exact first
  | read j n next ih => exact fun b => ih b (first b)
  | text j next ih => exact fun b => ih b (first b)
  | cursor next ih => exact fun i => ih i (first i)
  | seek j next ih => exact ih first
  | push write next ih => exact ih first

theorem ends_bind {v : Bytes} {p : Scan τ α} {f : α → Scan τ β} {i : Int} (onward : Along v forward (p.bind f) i)
    (straight : Straight p) (rest : ∀ a j,i ≤ j → Along v forward (f a) j → Ends v (f a) j) : Ends v (p.bind f) i := by
  obtain ⟨first,later⟩ := along_bind.mp onward
  unfold Ends
  rw [exec_bind]
  cases ran : exec v p i with
  | error s =>
    intro hung
    cases hung
    exact straight_ends straight i ran
  | ok result => exact rest result.1 result.2 (exec_advances first ran) (later _ _ ran)

-- Programs whose runs leave the cursor ahead of where it was.
def Moves (p : Scan τ α) : Prop :=
  ∀ v i,Along v forward p i → ∀ a j,exec v p i = .ok (a,j) → i < j

theorem moves_bind {p : Scan τ α} (f : α → Scan τ β) (moves : Moves p) : Moves (p.bind f) := by
  intro v i onward b k finished
  obtain ⟨first,later⟩ := along_bind.mp onward
  rw [exec_bind] at finished
  cases ran : exec v p i with
  | error s =>
    rw [ran] at finished
    cases finished
  | ok result =>
    rw [ran] at finished
    have ahead := moves v i first result.1 result.2 ran
    exact Int.lt_of_lt_of_le ahead (exec_advances (later _ _ ran) finished)

-- A loop over records that move the cursor ahead ends.
theorem whileBelow_ends {v : Bytes} {len : Int} {body : β → Scan τ β} (moves : ∀ acc,Moves (body acc))
    (straight : ∀ acc,Straight (body acc)) (fuel : Nat) (acc : β) (i : Int) (enough : (len-i).toNat < fuel)
    (onward : Along v forward (whileBelow len body fuel acc) i) : Ends v (whileBelow len body fuel acc) i := by
  unfold Ends
  induction fuel generalizing acc i with
  | zero => cases enough
  | succ fuel ih =>
    simp only [whileBelow,exec,Along] at onward ⊢
    by_cases below : i < len
    · rw [if_pos below] at onward ⊢
      obtain ⟨first,rest⟩ := along_bind.mp onward
      rw [exec_bind]
      cases ran : exec v (body acc) i with
      | error s =>
        intro hung
        cases hung
        exact straight_ends (straight acc) i ran
      | ok result =>
        obtain ⟨next,j⟩ := result
        have moved := moves acc v i first next j ran
        exact ih next j (by omega) (rest next j ran)
    · rw [if_neg below]
      intro hung
      cases hung

theorem straight_done (a : α) : Straight (.done a : Scan τ α) := trivial

theorem straight_throw : Straight (.throw : Scan τ α) := trivial

theorem straight_word (i : Int) (n : Nat) : Straight (word i n : Scan τ Nat) := fun _ => trivial

theorem straight_position : Straight (position : Scan τ Int) := fun _ => trivial

theorem straight_moveTo (i : Int) : Straight (moveTo i : Scan τ Unit) := trivial

theorem straight_write (f : τ → τ) : Straight (write f) := trivial

theorem straight_cString (i : Int) : Straight (cString i : Scan τ Bytes) := fun _ => trivial

theorem straight_read (i : Int) (n : Nat) : Straight (.read i n .done : Scan τ Bytes) := fun _ => trivial

theorem straight_ite {c : Prop} [Decidable c] {p q : Scan τ α} (yes : Straight p) (no : Straight q) :
    Straight (if c then p else q) := by
  split
  · exact yes
  · exact no

theorem ends_ite {v : Bytes} {c : Prop} [Decidable c] {p q : Scan τ α} {i : Int}
    (onward : Along v forward (if c then p else q) i) (yes : Along v forward p i → Ends v p i)
    (no : Along v forward q i → Ends v q i) : Ends v (if c then p else q) i := by
  split
  · rename_i holds
    rw [if_pos holds] at onward
    exact yes onward
  · rename_i fails
    rw [if_neg fails] at onward
    exact no onward

-- Programs branch on what they read; the predicates over them are taken apart
-- by their laws only.
attribute [irreducible] Straight Along Ends

end Scan
end ChuwiMinibook.ByteScan
