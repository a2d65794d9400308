import ChuwiMinibook.ByteRuns

namespace ChuwiMinibook.ByteScan.Scan
variable {τ α β : Type}

-- Every write of the program is of one kind, whatever it reads.
def Writes (W : (τ → τ) → Prop) : Scan τ α → Prop
  | .done _ => True
  | .throw => True
  | .hang => True
  | .read _ _ next => ∀ b,Writes W (next b)
  | .text _ next => ∀ b,Writes W (next b)
  | .cursor next => ∀ i,Writes W (next i)
  | .seek _ next => Writes W next
  | .push write next => W write ∧ Writes W next

-- What writes of one kind add up to.
inductive Made (W : (τ → τ) → Prop) : (τ → τ) → Prop
  | nothing : Made W id
  | more {write f : τ → τ} (kind : W write) (made : Made W f) : Made W (write ∘ f)

section Kinds
variable {W : (τ → τ) → Prop}

theorem Made.comp {f g : τ → τ} (later : Made W f) (first : Made W g) : Made W (f ∘ g) := by
  induction later with
  | nothing => exact first
  | @more write f kind _ ih =>
    have step : Made W (write ∘ (f ∘ g)) := .more kind ih
    exact step

theorem Made.one {write : τ → τ} (kind : W write) : Made W write := Made.more (f := id) kind .nothing

theorem writes_bind {p : Scan τ α} {f : α → Scan τ β} (first : Writes W p) (rest : ∀ a,Writes W (f a)) :
    Writes W (p.bind f) := by
  induction p with
  | done a => exact rest a
  | throw => trivial
  | hang => trivial
  | read i n next ih => exact fun b => ih b (first b)
  | text i next ih => exact fun b => ih b (first b)
  | cursor next ih => exact fun i => ih i (first i)
  | seek i next ih => exact ih first
  | push write next ih => exact ⟨first.1,ih first.2⟩

theorem writes_ite {c : Prop} [Decidable c] {p q : Scan τ α} (yes : Writes W p) (no : Writes W q) :
    Writes W (if c then p else q) := by
  split
  · exact yes
  · exact no

theorem writes_write {write : τ → τ} (kind : W write) : Writes W (Scan.write write) := ⟨kind,trivial⟩

theorem writes_whileBelow {body : β → Scan τ β} (each : ∀ acc,Writes W (body acc)) (len : Int) (fuel : Nat) (acc : β) :
    Writes W (whileBelow len body fuel acc) := by
  induction fuel generalizing acc with
  | zero => trivial
  | succ fuel ih =>
    intro i
    exact writes_ite (writes_bind (each acc) ih) trivial

theorem made_effect {p : Scan τ α} (writes : Writes W p) (v : Bytes) (i : Int) : Made W (effect v p i) := by
  induction p generalizing i with
  | done a => exact .nothing
  | throw => exact .nothing
  | hang => exact .nothing
  | read j n next ih =>
    simp only [effect]
    split
    · exact ih _ (writes _) i
    · exact .nothing
  | text j next ih =>
    simp only [effect]
    split
    · exact ih _ (writes _) i
    · exact .nothing
  | cursor next ih => exact ih i (writes i) i
  | seek j next ih => exact ih writes j
  | push write next ih => exact (ih writes.2 i).comp (.one writes.1)

theorem writes_done (a : α) : Writes W (.done a : Scan τ α) := trivial

theorem writes_throw : Writes W (.throw : Scan τ α) := trivial

theorem writes_hang : Writes W (.hang : Scan τ α) := trivial

end Kinds

-- Programs that write nothing.
abbrev Still (p : Scan τ α) : Prop := ∀ W,Writes W p

theorem still_bind {p : Scan τ α} {f : α → Scan τ β} (first : Still p) (rest : ∀ a,Still (f a)) : Still (p.bind f) :=
  fun W => writes_bind (first W) fun a => rest a W

theorem still_ite {c : Prop} [Decidable c] {p q : Scan τ α} (yes : Still p) (no : Still q) : Still (if c then p else q) :=
  fun W => writes_ite (yes W) (no W)

theorem writes_after {W : (τ → τ) → Prop} {p : Scan τ α} {f : α → Scan τ β} (first : Still p)
    (rest : ∀ a,Writes W (f a)) : Writes W (p.bind f) :=
  writes_bind (first W) rest

theorem still_done (a : α) : Still (.done a : Scan τ α) := fun _ => trivial

theorem still_throw : Still (.throw : Scan τ α) := fun _ => trivial

theorem still_word (i : Int) (n : Nat) : Still (word i n : Scan τ Nat) := fun _ _ => trivial

theorem still_read (i : Int) (n : Nat) : Still (.read i n .done : Scan τ Bytes) := fun _ _ => trivial

theorem still_cString (i : Int) : Still (cString i : Scan τ Bytes) := fun _ _ => trivial

theorem still_position : Still (position : Scan τ Int) := fun _ _ => trivial

theorem still_moveTo (i : Int) : Still (moveTo i : Scan τ Unit) := fun _ => trivial

attribute [irreducible] Writes

end ChuwiMinibook.ByteScan.Scan
