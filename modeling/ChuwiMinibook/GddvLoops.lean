import ChuwiMinibook.GddvParser
import ChuwiMinibook.SlotForms

namespace ChuwiMinibook.GddvLoops
open ByteScan Scan GddvTables GddvParser
open ApctSlots (slotsBy slots1_by slots2_by)

theorem toInt_small {x : Int} (low : -2147483648 ≤ x) (high : x < 2147483648) : toInt x = x := by
  unfold toInt Int.bmod
  dsimp only
  split <;> omega

theorem toInt_kept_iff (n : Nat) : toInt n = n ↔ n < 2147483648 := by
  constructor
  · intro same
    have bound : toInt n ≤ 2147483647 := by
      unfold toInt
      have := Int.bmod_lt (x := n) (m := 4294967296) (by decide)
      omega
    omega
  · intro small
    exact toInt_small (by omega) (by omega)

theorem toInt_le_nat (n : Nat) : toInt n ≤ n := by
  unfold toInt Int.bmod
  dsimp only
  split <;> omega

theorem toInt_moved {n : Int} (i : Int) (ahead : 0 < n) (near : n < 4294967296) : toInt (i+n) ≠ i := by
  unfold toInt Int.bmod
  dsimp only
  split <;> omega

theorem straight_getUint64 : Straight getUint64 := by
  refine straight_bind straight_position fun offset => straight_bind (straight_word _ _) fun type => ?_
  split
  · exact straight_throw
  · exact straight_bind (straight_moveTo _) fun _ => straight_bind straight_position fun _ =>
      straight_bind (straight_word _ _) fun _ => straight_bind (straight_moveTo _) fun _ => straight_done _

theorem straight_getString : Straight getString := by
  refine straight_bind straight_position fun offset => straight_bind (straight_word _ _) fun type => ?_
  split
  · exact straight_throw
  · exact straight_bind (straight_moveTo _) fun _ => straight_bind straight_position fun _ =>
      straight_bind (straight_word _ _) fun _ => straight_bind (straight_moveTo _) fun _ =>
      straight_bind straight_position fun _ => straight_bind (straight_moveTo _) fun _ => straight_done _

theorem straight_getText : Straight getText :=
  straight_bind straight_getString fun _ => straight_bind (straight_cString _) fun _ => straight_done _

theorem straight_getInt : Straight getInt := straight_bind straight_getUint64 fun _ => straight_done _

theorem straight_skip (n : Int) : Straight (skip n) :=
  straight_bind straight_position fun _ => straight_moveTo _

-- Both getters start by stepping over a tag, which no wrapped addition undoes.
theorem moves_tagged {α : Type} (tag : Nat) (rest : Int → Parse α) :
    Moves (position.bind fun offset => (word offset 4).bind fun type =>
      if type ≠ tag then .throw else (moveTo (toInt (offset+4))).bind fun _ => rest offset) := by
  intro v i onward a j finished
  simp only [position,word,moveTo,Scan.bind,exec,Along] at onward finished
  split at finished
  · rename_i inside
    have onward := onward.2 inside
    split at finished
    · cases finished
    · rename_i right
      rw [if_neg right,Along] at onward
      have step : i ≤ toInt (i+4) := onward.1
      have ahead := exec_advances onward.2 finished
      have moved := toInt_moved (n := 4) i (by decide) (by decide)
      omega
  · cases finished

theorem moves_getUint64 : Moves getUint64 := moves_tagged 4 _

theorem moves_getString : Moves getString := moves_tagged 8 _

theorem moves_getText : Moves getText := moves_bind _ moves_getString

theorem moves_getInt : Moves getInt := moves_bind _ moves_getUint64

theorem straight_appcRecord (u : Unit) : Straight (appcRecord u) :=
  straight_bind straight_getUint64 fun _ => straight_bind straight_getText fun _ =>
    straight_bind straight_getText fun _ => straight_bind straight_getInt fun _ =>
    straight_bind straight_getInt fun _ => straight_write _

theorem straight_targetRecord (keep : Nat → String → String → Nat → String → String → Vault → Vault) (u : Unit) :
    Straight (targetRecord keep u) :=
  straight_bind straight_getUint64 fun _ => straight_bind straight_getText fun _ =>
    straight_bind straight_getText fun _ => straight_bind straight_getUint64 fun _ =>
    straight_bind straight_getText fun _ => straight_bind straight_getText fun _ => straight_write _

theorem straight_slotsBy (len : Int) {head : Parse (Nat → Nat → Nat → Condition)} {timePart : Parse (Nat × Nat)}
    (headStraight : Straight head) (timeStraight : Straight timePart) (left : Nat) (set : List Condition) :
    Straight (slotsBy len head timePart left set) := by
  induction left using Nat.strong_induction_on generalizing set with
  | _ left ih =>
    match left with
    | 0 =>
      unfold slotsBy
      exact straight_done _
    | left+1 =>
      unfold slotsBy
      refine straight_bind straight_position fun _ => ?_
      split
      · exact straight_throw
      · refine straight_bind headStraight fun _ => ?_
        cases left with
        | zero => exact straight_done _
        | succ rest =>
          refine straight_bind straight_getUint64 fun _ => ?_
          split
          · exact straight_bind timeStraight fun _ => ih rest (by omega) _
          · exact ih (rest+1) (by omega) _

theorem straight_slots1 (len target : Int) (left : Nat) (set : List Condition) :
    Straight (slots1 len target left set) := by
  rw [slots1_by]
  refine straight_slotsBy len ?_ ?_ left set
  · exact straight_bind straight_getUint64 fun _ => straight_bind straight_getUint64 fun _ =>
      straight_bind straight_getUint64 fun _ => straight_done _
  · exact straight_bind (straight_skip _) fun _ => straight_bind straight_getUint64 fun _ =>
      straight_bind straight_getUint64 fun _ => straight_bind (straight_skip _) fun _ => straight_done _

theorem straight_slots2 (len target : Int) {reserved : Parse Unit} {timePart : Parse (Nat × Nat)}
    (reservedStraight : Straight reserved) (timeStraight : Straight timePart) (left : Nat) (set : List Condition) :
    Straight (slots2 len target reserved timePart left set) := by
  rw [slots2_by]
  refine straight_slotsBy len ?_ timeStraight left set
  exact straight_bind straight_getUint64 fun _ => straight_bind straight_getText fun _ =>
    straight_bind reservedStraight fun _ => straight_bind straight_getUint64 fun _ =>
    straight_bind straight_getUint64 fun _ => straight_done _

theorem straight_apctTimePart : Straight apctTimePart :=
  straight_bind (straight_skip _) fun _ => straight_bind straight_getString fun _ =>
    straight_bind (straight_skip _) fun _ => straight_bind straight_getUint64 fun _ =>
    straight_bind straight_getUint64 fun _ => straight_bind (straight_skip _) fun _ => straight_done _

theorem straight_pbctTimePart : Straight pbctTimePart :=
  straight_bind straight_getUint64 fun _ => straight_bind straight_getUint64 fun _ =>
    straight_bind straight_getUint64 fun _ => straight_bind straight_getUint64 fun _ => straight_done _

theorem straight_apctRecord1 (len : Int) (u : Unit) : Straight (apctRecord1 len u) := by
  refine straight_bind straight_getUint64 fun _ => straight_ite straight_throw ?_
  exact straight_bind (straight_slots1 _ _ _ _) fun _ => straight_write _

theorem straight_apctRecord2 (len : Int) (u : Unit) : Straight (apctRecord2 len u) := by
  refine straight_bind straight_getUint64 fun _ => straight_ite straight_throw ?_
  exact straight_bind straight_getUint64 fun _ =>
    straight_bind (straight_slots2 _ _ (straight_skip _) straight_apctTimePart _ _) fun _ => straight_write _

theorem straight_pbctRecord1 (len : Int) (u : Unit) : Straight (pbctRecord1 len u) := by
  refine straight_bind straight_getUint64 fun _ => straight_ite straight_throw ?_
  exact straight_bind (straight_slots1 _ _ _ _) fun _ => straight_write _

theorem straight_pbctRecord2 (len : Int) (u : Unit) : Straight (pbctRecord2 len u) := by
  have reserved : Straight pbctReserved := straight_bind straight_getUint64 fun _ => straight_done _
  refine straight_bind straight_getUint64 fun _ => straight_ite straight_throw ?_
  exact straight_bind straight_getUint64 fun _ =>
    straight_bind (straight_slots2 _ _ reserved straight_pbctTimePart _ _) fun _ => straight_write _

theorem straight_psvLimit : Straight psvLimit := by
  refine straight_bind (straight_bind straight_position fun _ => straight_word _ _) fun _ => ?_
  split
  · exact straight_getText
  · exact straight_bind straight_getUint64 fun _ => straight_done _

theorem straight_psvtRecord (psvs : List Psv) : Straight (psvtRecord psvs) :=
  straight_bind straight_getText fun _ => straight_bind straight_getText fun _ =>
    straight_bind straight_getInt fun _ => straight_bind straight_getInt fun _ =>
    straight_bind straight_getInt fun _ => straight_bind straight_getInt fun _ =>
    straight_bind straight_getInt fun _ => straight_bind straight_psvLimit fun _ =>
    straight_bind straight_getInt fun _ => straight_bind straight_getInt fun _ =>
    straight_bind straight_getInt fun _ => straight_bind (straight_skip _) fun _ => straight_done _

theorem straight_vsptRecord (u : Unit) : Straight (vsptRecord u) :=
  straight_bind straight_getInt fun _ => straight_bind straight_getUint64 fun _ => straight_write _

theorem straight_vsctRecord (u : Unit) : Straight (vsctRecord u) :=
  straight_bind straight_getText fun _ => straight_bind straight_getInt fun _ =>
    straight_bind straight_getInt fun _ => straight_bind straight_getInt fun _ =>
    straight_bind straight_getInt fun _ => straight_bind straight_getInt fun _ =>
    straight_bind straight_getInt fun _ => straight_write _

theorem straight_itmtRest (version : Int) : Straight (itmtRest version) := by
  unfold itmtRest
  split
  · exact straight_bind straight_getUint64 fun _ => straight_bind straight_getText fun _ =>
      straight_bind straight_getUint64 fun _ => straight_bind straight_getUint64 fun _ => straight_done _
  · exact straight_skip _

theorem straight_itmtRecord (version : Int) (entries : List ItmtEntry) : Straight (itmtRecord version entries) :=
  straight_bind straight_getText fun _ => straight_bind straight_getInt fun _ =>
    straight_bind straight_getText fun _ => straight_bind straight_getText fun _ =>
    straight_bind straight_getText fun _ => straight_bind (straight_itmtRest _) fun _ => straight_done _

theorem straight_trtRecord (u : Unit) : Straight (trtRecord u) :=
  straight_bind straight_getText fun _ => straight_bind straight_getText fun _ =>
    straight_bind straight_getInt fun _ => straight_bind straight_getInt fun _ =>
    straight_bind straight_getInt fun _ => straight_bind straight_getInt fun _ =>
    straight_bind straight_getInt fun _ => straight_bind straight_getInt fun _ => straight_done _

section Tables
variable {v : Bytes} {fuel : Nat} (enough : v.length < fuel)

theorem ends_straight {α : Type} {p : Parse α} {i : Int} (straight : Straight p) (_ : Along v forward p i) :
    Ends v p i := straight_ends straight i

theorem ends_then {α β : Type} {p : Parse α} {f : α → Parse β} {i : Int} (onward : Along v forward (p.bind f) i)
    (first : Along v forward p i → Ends v p i) (straight : ∀ a,Straight (f a)) : Ends v (p.bind f) i := by
  have ended := first (along_bind.mp onward).1
  unfold Ends at ended ⊢
  rw [exec_bind]
  split
  · rename_i a j _
    have later := straight_ends (v := v) (straight a) j
    unfold Ends at later
    exact later
  · rename_i s stopped
    intro hung
    cases hung
    exact ended stopped

include enough in
theorem loop_ends {β : Type} {body : β → Parse β} (moves : ∀ acc,Moves (body acc))
    (straight : ∀ acc,Straight (body acc)) (acc : β) {i : Int} (start : 0 ≤ i)
    (onward : Along v forward (whileBelow (toInt v.length) body fuel acc) i) :
    Ends v (whileBelow (toInt v.length) body fuel acc) i := by
  have short := toInt_le_nat v.length
  exact whileBelow_ends moves straight fuel acc i (by omega) onward

include enough in
theorem appc_ends (onward : Along v forward (parseAppc fuel (toInt v.length)) 0) :
    Ends v (parseAppc fuel (toInt v.length)) 0 := by
  refine ends_bind onward (straight_word _ _) fun first j start onward => ?_
  refine ends_ite onward (ends_straight (straight_done _)) fun onward => ?_
  refine ends_bind onward straight_getUint64 fun version k later onward => ?_
  refine ends_ite onward (ends_straight (straight_done _)) fun onward => ?_
  exact loop_ends enough (fun _ => moves_bind _ moves_getUint64) straight_appcRecord () (Int.le_trans start later) onward

include enough in
theorem pbat_ends (onward : Along v forward (parsePbat fuel (toInt v.length)) 0) :
    Ends v (parsePbat fuel (toInt v.length)) 0 := by
  refine ends_bind onward straight_getUint64 fun version j start onward => ?_
  refine ends_ite onward (ends_straight straight_throw) fun onward => ?_
  exact loop_ends enough (fun _ => moves_bind _ moves_getUint64) (straight_targetRecord _) () start onward

include enough in
theorem apat_ends (onward : Along v forward (parseApat fuel (toInt v.length)) 0) :
    Ends v (parseApat fuel (toInt v.length)) 0 := by
  refine ends_bind onward straight_getUint64 fun version j start onward => ?_
  refine ends_ite onward (ends_straight straight_throw) fun onward => ?_
  exact loop_ends enough (fun _ => moves_bind _ moves_getUint64) (straight_targetRecord _) () start onward

include enough in
theorem apct_ends (onward : Along v forward (parseApct fuel (toInt v.length)) 0) :
    Ends v (parseApct fuel (toInt v.length)) 0 := by
  refine ends_bind onward straight_getUint64 fun version j start onward => ?_
  refine ends_ite onward (fun onward => ?_) fun onward => ?_
  · exact loop_ends enough (fun _ => moves_bind _ moves_getUint64) (straight_apctRecord1 _) () start onward
  · refine ends_ite onward (fun onward => ?_) (ends_straight straight_throw)
    exact loop_ends enough (fun _ => moves_bind _ moves_getUint64) (straight_apctRecord2 _) () start onward

include enough in
theorem pbct_ends (onward : Along v forward (parsePbct fuel (toInt v.length)) 0) :
    Ends v (parsePbct fuel (toInt v.length)) 0 := by
  refine ends_bind onward straight_getUint64 fun version j start onward => ?_
  refine ends_ite onward (fun onward => ?_) fun onward => ?_
  · exact loop_ends enough (fun _ => moves_bind _ moves_getUint64) (straight_pbctRecord1 _) () start onward
  · refine ends_ite onward (fun onward => ?_) (ends_straight straight_throw)
    exact loop_ends enough (fun _ => moves_bind _ moves_getUint64) (straight_pbctRecord2 _) () start onward

include enough in
theorem psvt_ends (name : Option Bytes) (onward : Along v forward (parsePsvt fuel name (toInt v.length)) 0) :
    Ends v (parsePsvt fuel name (toInt v.length)) 0 := by
  refine ends_bind onward straight_getInt fun version j start onward => ?_
  refine ends_ite onward (ends_straight straight_throw) fun onward => ?_
  exact ends_then onward (loop_ends enough (fun _ => moves_bind _ moves_getText) straight_psvtRecord [] start)
    fun _ => straight_write _

include enough in
theorem itmt_ends (name : Option Bytes) (onward : Along v forward (parseItmt fuel name (toInt v.length)) 0) :
    Ends v (parseItmt fuel name (toInt v.length)) 0 := by
  refine ends_bind onward straight_getInt fun version j start onward => ?_
  refine ends_ite onward (ends_straight (straight_done _)) fun onward => ?_
  exact ends_then onward (loop_ends enough (fun _ => moves_bind _ moves_getText) (straight_itmtRecord version) [] start)
    fun _ => straight_write _

include enough in
theorem vspt_ends (onward : Along v forward (parseVspt fuel (toInt v.length)) 0) :
    Ends v (parseVspt fuel (toInt v.length)) 0 := by
  refine ends_bind onward straight_getInt fun version j start onward => ?_
  refine ends_ite onward (ends_straight (straight_done _)) fun onward => ?_
  exact loop_ends enough (fun _ => moves_bind _ moves_getInt) straight_vsptRecord () start onward

include enough in
theorem vsct_ends (name : Option Bytes) (onward : Along v forward (parseVsct fuel name (toInt v.length)) 0) :
    Ends v (parseVsct fuel name (toInt v.length)) 0 := by
  refine ends_bind onward (straight_write _) fun _ _ first onward => ?_
  refine ends_bind onward straight_getInt fun version j start onward => ?_
  refine ends_ite onward (ends_straight (straight_done _)) fun onward => ?_
  exact loop_ends enough (fun _ => moves_bind _ moves_getText) straight_vsctRecord () (Int.le_trans first start) onward

include enough in
theorem trt_ends (onward : Along v forward (parseTrt fuel (toInt v.length)) 0) :
    Ends v (parseTrt fuel (toInt v.length)) 0 :=
  loop_ends enough (fun _ => moves_bind _ moves_getText) straight_trtRecord () (le_refl 0) onward

theorem itmt3Entries_ends {len : Int} (entries : List ItmtEntry) {i : Int} (room : (len-i).toNat < fuel) :
    Ends v (itmt3Entries len fuel entries) i := by
  unfold Ends
  induction fuel generalizing entries i with
  | zero => cases room
  | succ fuel ih =>
    unfold itmt3Entries
    simp only [position,bind_eq,Scan.bind,exec]
    by_cases below : i < len
    · by_cases short : len-i < 296
      · simp [below,short,exec]
      · simp only [below,short,if_true,if_false,cString,word,moveTo,Scan.bind,exec]
        split
        · split
          · split
            · split
              · exact ih _ (by omega)
              · simp
            · simp
          · simp
        · simp
    · simp [below,exec]

include enough in
theorem itmt3_ends (name : Option Bytes) (sized : v.length < 4294967296) :
    Ends v (parseItmt3 fuel name (toInt v.length)) 0 := by
  have length : toInt v.length % 4294967296 = v.length := by
    unfold toInt Int.bmod
    dsimp only
    split <;> omega
  unfold parseItmt3
  dsimp only
  rw [length]
  split
  · exact straight_ends (straight_done _) 0
  · unfold Ends
    simp only [moveTo,bind_eq,Scan.bind,exec]
    split
    · simp [exec]
    · rw [exec_bind]
      have entries : Ends v (itmt3Entries v.length fuel []) 12 := itmt3Entries_ends [] (by omega)
      unfold Ends at entries
      split
      · split
        · simp [exec]
        · simp [write,exec]
      · rename_i s stopped
        intro hung
        cases hung
        exact entries stopped

theorem idspEntries_ends {length i : Int} (room : (length-i).toNat < fuel)
    (onward : Along v forward (idspEntries length fuel) i) : Ends v (idspEntries length fuel) i := by
  unfold Ends
  induction fuel generalizing i with
  | zero => cases room
  | succ fuel ih =>
    unfold idspEntries at onward ⊢
    simp only [position,bind_eq,Scan.bind,exec,Along] at onward ⊢
    by_cases below : i < length
    · by_cases short : length-i < 28
      · simp [below,short,exec]
      · simp only [below,short,if_true,if_false,word,Scan.bind,exec,Along] at onward ⊢
        split
        · rename_i inside
          have onward := onward.2 inside
          split
          · simp [exec]
          · rename_i seven
            simp only [seven,if_false,moveTo,write,Scan.bind,exec,Along] at onward ⊢
            split
            · rename_i lengthInside
              have onward := onward.2.2 lengthInside
              split
              · rename_i contentInside
                have onward := (onward.2.2 contentInside)
                have ahead : i+12 ≤ toInt (i+12+toInt ↑(little (bytesAt v (i+4) 4))) := onward.1
                exact ih (by omega) onward.2
              · simp
            · simp
        · simp
    · simp [below,exec]

theorem ppcc_straight (name : Bytes) (len : Int) : Straight (parsePpcc name len) :=
  straight_bind (straight_word _ _) fun _ => straight_bind (straight_word _ _) fun _ =>
    straight_bind (straight_word _ _) fun _ => straight_bind (straight_word _ _) fun _ =>
    straight_bind (straight_word _ _) fun _ => straight_ite (straight_done _)
      (straight_bind (straight_word _ _) fun _ => straight_bind (straight_word _ _) fun _ =>
        straight_bind (straight_word _ _) fun _ => straight_bind (straight_word _ _) fun _ =>
        straight_bind (straight_word _ _) fun _ => straight_write _)

theorem tripPoint_straight (name point : Bytes) : Straight (parseTripPoint name point) :=
  straight_bind (straight_word _ _) fun _ => straight_write _

include enough in
theorem value_ends (path : KeyPath) (sized : v.length < 4294967296)
    (onward : Along v forward (parseValue fuel path (toInt v.length)) 0) :
    Ends v (parseValue fuel path (toInt v.length)) 0 := by
  unfold parseValue at onward ⊢
  cases type : path.type with
  | none =>
    simp only
    exact straight_ends (straight_done _) 0
  | some type =>
    simp only [type] at onward ⊢
    refine ends_ite onward (fun _ => ?_) fun onward => ?_
    · cases path.name with
      | none => exact straight_ends (straight_done _) 0
      | some name => exact straight_ends (ppcc_straight _ _) 0
    refine ends_ite onward (psvt_ends enough _) fun onward => ?_
    refine ends_ite onward (appc_ends enough) fun onward => ?_
    refine ends_ite onward (apct_ends enough) fun onward => ?_
    refine ends_ite onward (pbat_ends enough) fun onward => ?_
    refine ends_ite onward (pbct_ends enough) fun onward => ?_
    refine ends_ite onward (apat_ends enough) fun onward => ?_
    refine ends_ite onward (fun _ => itmt3_ends enough _ sized) fun onward => ?_
    refine ends_ite onward (itmt_ends enough _) fun onward => ?_
    refine ends_ite onward (fun onward => ?_) fun onward => ?_
    · cases name : path.name with
      | none => exact straight_ends (straight_done _) 0
      | some name' =>
        simp only [name] at onward
        have short := toInt_le_nat v.length
        exact idspEntries_ends (by omega) onward
    refine ends_ite onward (fun _ => ?_) fun onward => ?_
    · split
      · exact straight_ends (tripPoint_straight _ _) 0
      · exact straight_ends (straight_done _) 0
    refine ends_ite onward (trt_ends enough) fun onward => ?_
    refine ends_ite onward (vsct_ends enough _) fun onward => ?_
    exact ends_ite onward (vspt_ends enough) (ends_straight (straight_done _))

end Tables

end ChuwiMinibook.GddvLoops
