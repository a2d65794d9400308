import ChuwiMinibook.GddvTables

namespace ChuwiMinibook.ApctSlots
open ByteScan Scan GddvTables

-- The loop over the slots of a set, from what reads a slot up to its operator and
-- what reads a time slot.
def slotsBy (len : Int) (head : Parse (Nat → Nat → Nat → Condition)) (timePart : Parse (Nat × Nat)) :
    Nat → List Condition → Parse (List Condition)
  | 0,set => return set
  | left+1,set => do
    let offset ← position
    if offset ≥ len then .throw
    else
      let made ← head
      match left with
      | 0 => return set ++ [made 0 0 0]
      | rest+1 =>
        let operation ← getUint64
        if operation % 256 = operationFor then
          let (timeComparison,time) ← timePart
          slotsBy len head timePart rest (set ++ [made operation timeComparison time])
        else slotsBy len head timePart (rest+1) (set ++ [made operation 0 0])

def head1 (target : Int) : Parse (Nat → Nat → Nat → Condition) := do
  let condition ← getUint64
  let comparison ← getUint64
  let argument ← getUint64
  return slot target condition "" comparison argument

def timePart1 : Parse (Nat × Nat) := do
  skip 12
  let timeComparison ← getUint64
  let time ← getUint64
  skip 12
  return (timeComparison,time)

def head2 (target : Int) (reserved : Parse Unit) : Parse (Nat → Nat → Nat → Condition) := do
  let condition ← getUint64
  let device ← getText
  reserved
  let comparison ← getUint64
  let argument ← getUint64
  return slot target condition device comparison argument

theorem slots1_by (len target : Int) (left : Nat) (set : List Condition) :
    slots1 len target left set = slotsBy len (head1 target) timePart1 left set := by
  induction left using Nat.strong_induction_on generalizing set with
  | _ left ih =>
    cases left with
    | zero => rw [slots1,slotsBy]
    | succ left =>
      rw [slots1,slotsBy]
      cases left with
      | zero => simp only [head1,bind_eq,pure_eq,Scan.bind_assoc,Scan.bind]
      | succ rest =>
        simp only [head1,timePart1,bind_eq,pure_eq,Scan.bind_assoc,Scan.bind,ih rest (by omega),ih (rest+1) (by omega)]

theorem slots2_by (len target : Int) (reserved : Parse Unit) (timePart : Parse (Nat × Nat)) (left : Nat)
    (set : List Condition) :
    slots2 len target reserved timePart left set = slotsBy len (head2 target reserved) timePart left set := by
  induction left using Nat.strong_induction_on generalizing set with
  | _ left ih =>
    cases left with
    | zero => rw [slots2,slotsBy]
    | succ left =>
      rw [slots2,slotsBy]
      cases left with
      | zero => simp only [head2,bind_eq,pure_eq,Scan.bind_assoc,Scan.bind]
      | succ rest =>
        simp only [head2,bind_eq,pure_eq,Scan.bind_assoc,Scan.bind,ih rest (by omega),ih (rest+1) (by omega)]

end ChuwiMinibook.ApctSlots
