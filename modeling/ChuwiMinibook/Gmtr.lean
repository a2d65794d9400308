import ChuwiMinibook.Binary32
import ChuwiMinibook.GLibText
import ChuwiMinibook.Mxc6655

namespace ChuwiMinibook.Gmtr
open GLib Binary32

-- The part of the private data that load_gmtr writes: the calibration matrices, of signed
-- bytes, and the thresholds in degrees.
structure Calibration where
  cal1 : Fin 9 → Int
  cal2 : Fin 9 → Int
  tabletThresh : ℚ
  laptopThresh : ℚ
  minAngle : ℚ

def gint8 (v : Nat) : Int := (BitVec.ofNat 8 v).toInt

-- What a read of /proc/acpi/call gives after the command is written: none when one of
-- the two fails.
def acpiCallRead (response : Option (List Char)) (bufSize : Nat) : Option (List Char) :=
  match response with
  | none => none
  | some text =>
    let buf := text.take (bufSize-1)
    if buf = [] then none else some buf

def parseAcpiPackage (buf : List Char) (maxValues : Nat) : List Nat :=
  match cString buf with
  | '{' :: copy =>
    let elements := gStrsplit [',',' '] (copy.takeWhile (· ≠ '}'))
    ((elements.filter (· ≠ [])).map gAsciiStrtoull).take maxValues
  | _ => []

def threshold (value : Option Nat) (old : ℚ) : ℚ :=
  match value with
  | some v => if 0 < v then float v else old
  | none => old

def applyGmtrValues (c : Calibration) (values : List Nat) : Calibration where
  cal1 i := match values[i.val]? with
    | some v => gint8 v
    | none => c.cal1 i
  cal2 i := match values[9+i.val]? with
    | some v => gint8 v
    | none => c.cal2 i
  tabletThresh := threshold values[18]? c.tabletThresh
  laptopThresh := threshold values[19]? c.laptopThresh
  minAngle := threshold values[20]? c.minAngle

def withDefaults (c : Calibration) : Calibration := { c with tabletThresh := 185,laptopThresh := 175,minAngle := 30 }

def loadGmtr (c : Calibration) (response : Option (List Char)) : Calibration×Bool :=
  let c := withDefaults c
  match acpiCallRead response 4096 with
  | none => (c,false)
  | some buf =>
    let values := parseAcpiPackage buf 32
    if values.length < 18 then (c,false) else (applyGmtrValues c values,true)

-- The values a call yields: none when it fails.
def received (response : Option (List Char)) : Option (List Nat) :=
  (acpiCallRead response 4096).map (parseAcpiPackage · 32)

def package (texts : List (List Char)) (after : List Char) : List Char :=
  '{' :: [',',' '].intercalate texts ++ '}' :: after

theorem mem_intercalate {delimiter : List Char} {texts : List (List Char)} {c : Char}
    (among : c ∈ delimiter.intercalate texts) : c ∈ delimiter ∨ ∃ text ∈ texts,c ∈ text := by
  induction texts with
  | nil => simp at among
  | cons text texts ih =>
    cases texts with
    | nil => exact .inr ⟨text,List.mem_cons_self,by simpa using among⟩
    | cons next texts =>
      rw [List.intercalate_cons_cons,List.mem_append,List.mem_append] at among
      rcases among with (here | between) | later
      · exact .inr ⟨text,List.mem_cons_self,here⟩
      · exact .inl between
      · rcases ih later with between | ⟨other,present,inside⟩
        · exact .inl between
        · exact .inr ⟨other,List.mem_cons_of_mem _ present,inside⟩

section
variable {values : List Nat} {texts : List (List Char)}

theorem printed_of_mem (printed : List.Forall₂ Printed values texts) {text : List Char} (present : text ∈ texts) :
    ∃ v,Printed v text := by
  induction printed with
  | nil => cases present
  | cons head tail ih =>
    rcases List.mem_cons.mp present with same | later
    · exact ⟨_,same ▸ head⟩
    · exact ih later

theorem texts_without {c : Char} (printed : List.Forall₂ Printed values texts) (letter : c ≠ 'x')
    (lower : c.toLower = c) (other : ∀ d < 16,Nat.digitChar d ≠ c) : ∀ text ∈ texts,c ∉ text := by
  intro text present
  obtain ⟨v,shape⟩ := printed_of_mem printed present
  exact printed_without shape letter lower other

theorem joined_without {c : Char} (printed : List.Forall₂ Printed values texts) (letter : c ≠ 'x')
    (lower : c.toLower = c) (other : ∀ d < 16,Nat.digitChar d ≠ c) (apart : c ∉ [',',' ']) :
    ∀ d ∈ [',',' '].intercalate texts,d ≠ c := by
  intro d among same
  subst same
  rcases mem_intercalate among with between | ⟨text,present,inside⟩
  · exact apart between
  · exact texts_without printed letter lower other text present inside

theorem strtoull_texts (printed : List.Forall₂ Printed values texts) (words : ∀ v ∈ values,v < 2^64) :
    texts.map gAsciiStrtoull = values := by
  induction printed with
  | nil => rfl
  | cons head tail ih =>
    rw [List.map_cons,strtoull_printed (words _ List.mem_cons_self) head,
      ih (fun v present => words v (List.mem_cons_of_mem _ present))]

-- What stands between the braces is split and read back; the rest is not looked at.
theorem parse_package (printed : List.Forall₂ Printed values texts) (words : ∀ v ∈ values,v < 2^64)
    (after : List Char) (maxValues : Nat) : parseAcpiPackage (package texts after) maxValues = values.take maxValues := by
  have noNul := joined_without (c := '\x00') printed (by decide) (by decide) (by decide) (by decide)
  have noBrace := joined_without (c := '}') printed (by decide) (by decide) (by decide) (by decide)
  have whole : cString (package texts after) = '{' :: ([',',' '].intercalate texts ++ '}' :: cString after) := by
    rw [cString,package,List.cons_append,List.takeWhile_cons_of_pos (by decide),
      List.takeWhile_append_of_pos (by simpa using noNul),List.takeWhile_cons_of_pos (by decide)]
    rfl
  have inner : ([',',' '].intercalate texts ++ '}' :: cString after).takeWhile (· ≠ '}') = [',',' '].intercalate texts := by
    rw [List.takeWhile_append_of_pos (by simpa using noBrace),List.takeWhile_cons_of_neg (by decide),List.append_nil]
  have filled : ∀ text ∈ texts,text ≠ [] := by
    intro text present
    obtain ⟨v,shape⟩ := printed_of_mem printed present
    exact printed_nonempty shape
  have pieces : gStrsplit [',',' '] ([',',' '].intercalate texts) = texts :=
    strsplit_intercalate (texts_without printed (by decide) (by decide) (by decide)) filled
  rw [parseAcpiPackage,whole]
  simp only [inner,pieces]
  rw [List.filter_eq_self.mpr (by simpa using filled),strtoull_texts printed words]

theorem received_package (printed : List.Forall₂ Printed values texts) (words : ∀ v ∈ values,v < 2^64)
    (few : values.length ≤ 32) {after : List Char} (small : (package texts after).length < 4096) :
    received (some (package texts after)) = some values := by
  have whole : (package texts after).take 4095 = package texts after := List.take_of_length_le (by omega)
  have nonempty : package texts after ≠ [] := List.cons_ne_nil _ _
  simp only [received,acpiCallRead,whole,if_neg nonempty,Option.map_some,parse_package printed words,
    List.take_of_length_le few]

end

section
variable {c : Calibration} {response : Option (List Char)} {values : List Nat}

theorem loadGmtr_received (c : Calibration) (response : Option (List Char)) :
    loadGmtr c response = match received response with
      | none => (withDefaults c,false)
      | some values =>
        if values.length < 18 then (withDefaults c,false) else (applyGmtrValues (withDefaults c) values,true) := by
  rw [loadGmtr,received]
  cases acpiCallRead response 4096 <;> rfl

theorem loadGmtr_short (short : ∀ values,received response = some values → values.length < 18) :
    loadGmtr c response = (withDefaults c,false) := by
  rw [loadGmtr_received]
  cases got : received response with
  | none => rfl
  | some values => exact if_pos (short values got)

theorem loadGmtr_full (got : received response = some values) (enough : 18 ≤ values.length) :
    loadGmtr c response = (applyGmtrValues (withDefaults c) values,true) := by
  rw [loadGmtr_received,got]
  exact if_neg (by omega)

theorem apply_matrices (enough : 18 ≤ values.length) (i : Fin 9) :
    (applyGmtrValues c values).cal1 i = gint8 (values.getD i 0) ∧
    (applyGmtrValues c values).cal2 i = gint8 (values.getD (9+i) 0) := by
  have first : i.val < values.length := by omega
  have second : 9+i.val < values.length := by omega
  constructor
  · simp [applyGmtrValues,List.getElem?_eq_getElem first]
  · simp [applyGmtrValues,List.getElem?_eq_getElem second]

-- A threshold is the value it had, or the float of a positive value in the list.
def FromList (old : ℚ) (values : List Nat) (new : ℚ) : Prop :=
  new = old ∨ ∃ v ∈ values,0 < v ∧ new = float v

theorem threshold_from (values : List Nat) (i : Nat) (old : ℚ) : FromList old values (threshold values[i]? old) := by
  cases got : values[i]? with
  | none => exact .inl rfl
  | some v =>
    by_cases positive : 0 < v
    · exact .inr ⟨v,List.mem_of_getElem? got,positive,if_pos positive⟩
    · exact .inl (if_neg positive)

-- A value of at most 24 bits is kept as it is.
theorem fromList_small {old new : ℚ} (listed : FromList old values new) (small : ∀ v ∈ values,v < 2^24) :
    new = old ∨ ∃ v ∈ values,0 < v ∧ new = v := by
  rcases listed with same | ⟨v,present,positive,stored⟩
  · exact .inl same
  · have bits : |(v : Int)| < 2^24 := by
      have bound := small v present
      rw [abs_of_nonneg (Int.natCast_nonneg v)]
      exact_mod_cast bound
    exact .inr ⟨v,present,positive,stored.trans (by exact_mod_cast float_int bits)⟩

-- What a call leaves in the private data, whatever it answers.
structure Loads (c : Calibration) (response : Option (List Char)) : Prop where
  kept : (∀ values,received response = some values → values.length < 18) →
    (loadGmtr c response).1.cal1 = c.cal1 ∧ (loadGmtr c response).1.cal2 = c.cal2 ∧ (loadGmtr c response).2 = false
  filled : ∀ values,received response = some values → 18 ≤ values.length →
    (∀ i : Fin 9,(loadGmtr c response).1.cal1 i = gint8 (values.getD i 0) ∧
      (loadGmtr c response).1.cal2 i = gint8 (values.getD (9+i) 0)) ∧ (loadGmtr c response).2 = true
  tablet : FromList 185 ((received response).getD []) (loadGmtr c response).1.tabletThresh
  laptop : FromList 175 ((received response).getD []) (loadGmtr c response).1.laptopThresh
  smallest : FromList 30 ((received response).getD []) (loadGmtr c response).1.minAngle

theorem loads (c : Calibration) (response : Option (List Char)) : Loads c response := by
  by_cases short : ∀ values,received response = some values → values.length < 18
  · have left := loadGmtr_short (c := c) short
    refine ⟨fun _ => by rw [left]; exact ⟨rfl,rfl,rfl⟩,?_,?_,?_,?_⟩
    · intro values got enough
      have few := short values got
      omega
    all_goals rw [left]; exact .inl rfl
  · obtain ⟨values,got,enough⟩ : ∃ values,received response = some values ∧ 18 ≤ values.length := by
      by_contra none
      exact short (fun values got => by
        by_contra enough
        exact none ⟨values,got,by omega⟩)
    have left := loadGmtr_full (c := c) got enough
    refine ⟨fun few => absurd few short,?_,?_,?_,?_⟩
    · intro other same _
      obtain rfl : values = other := by simpa [got] using same
      rw [left]
      exact ⟨apply_matrices enough,rfl⟩
    all_goals
      rw [left,got]
      exact threshold_from values _ _

end

-- A package printed by the firmware is read back value for value, and every answer leaves
-- the matrices as they were or fills both.
theorem gmtr_package (c : Calibration) (response : Option (List Char)) {values : List Nat} {texts : List (List Char)}
    (after : List Char) (few : values.length ≤ 32) (words : ∀ v ∈ values,v < 2^64)
    (printed : List.Forall₂ Printed values texts) :
    parseAcpiPackage (package texts after) 32 = values ∧
    ((package texts after).length < 4096 → received (some (package texts after)) = some values) ∧
    Loads c response := by
  refine ⟨?_,received_package printed words few,loads c response⟩
  rw [parse_package printed words,List.take_of_length_le few]

-- mxc6655_open starts from zeroed data with the matrices of the DSDT.
def initial : Calibration where
  cal1 i := [1,0,0,0,1,0,0,0,1].getD i.val 0
  cal2 i := [1,0,0,0,-1,0,0,0,-1].getD i.val 0
  tabletThresh := 0
  laptopThresh := 0
  minAngle := 0

-- Both matrices and the thresholds, one of them left out and one entry in hexadecimal.
def answered : List Nat := [1,0,0,0,255,0,0,0,1,1,0,0,0,129,0,0,0,255,190,0,40]

def answer : String := "{1, 0, 0, 0, 0xFf, 0, 0, 0, 1, 1, 0, 0, 0, 129, 0, 0, 0, 255, 190, 0, 40} and more"

theorem gmtr_package_signed :
    parseAcpiPackage answer.toList 32 = answered ∧ received (some answer.toList) = some answered ∧ Loads initial (some answer.toList) ∧
      (loadGmtr initial (some answer.toList)).2 = true ∧ (loadGmtr initial (some answer.toList)).1.cal1 4 = -1 ∧
      (loadGmtr initial (some answer.toList)).1.cal2 4 = -127 := by
  have printed : List.Forall₂ Printed answered
      [['1'],['0'],['0'],['0'],['0','x','F','f'],['0'],['0'],['0'],['1'],['1'],['0'],['0'],['0'],['1','2','9'],['0'],['0'],['0'],
        ['2','5','5'],['1','9','0'],['0'],['4','0']] := by
    unfold answered
    repeat' apply List.Forall₂.cons
    all_goals first | exact .nil | exact .inl rfl | exact .inr ⟨0,['F','f'],rfl,by decide⟩
  obtain ⟨read,got,loads⟩ := gmtr_package initial (some answer.toList) " and more".toList (by decide) (by decide) printed
  change parseAcpiPackage answer.toList 32 = _ at read
  have whole : received (some answer.toList) = some answered := got (by decide)
  obtain ⟨filled,done⟩ := loads.filled answered whole (by decide)
  exact ⟨read,whole,loads,done,(filled 4).1.trans (by decide),(filled 4).2.trans (by decide)⟩

theorem zeros_printed (n : Nat) : List.Forall₂ Printed (List.replicate n 0) (List.replicate n ['0']) := by
  induction n with
  | zero => exact .nil
  | succ n ih => exact .cons (.inl rfl) ih

-- Eighteen zeros name no threshold, and the zero that was there becomes the default.
theorem default_stored :
    received (some (package (List.replicate 18 ['0']) [])) = some (List.replicate 18 0) ∧
    (loadGmtr initial (some (package (List.replicate 18 ['0']) []))).2 = true ∧ initial.tabletThresh = 0 ∧
    (loadGmtr initial (some (package (List.replicate 18 ['0']) []))).1.tabletThresh = 185 ∧
    185 ∉ List.replicate 18 0 := by
  have got : received (some (package (List.replicate 18 ['0']) [])) = some (List.replicate 18 0) :=
    received_package (zeros_printed 18) (by decide) (by decide) (by decide)
  have left := loadGmtr_full (c := initial) got (by decide)
  rw [left]
  exact ⟨got,rfl,rfl,rfl,by decide⟩

section
open Mxc6655
variable {K Filter Hinge : Type}

-- The setup that the driver opens with after the call.
def calibrated (cast : ℚ → K) (response : Option (List Char)) (setup : Setup K Filter Hinge) : Setup K Filter Hinge :=
  let c := (loadGmtr initial response).1
  { setup with
    cal1 := List.ofFn c.cal1
    cal2 := List.ofFn c.cal2
    tabletThresh := cast c.tabletThresh
    laptopThresh := cast c.laptopThresh
    minAngle := cast c.minAngle }

-- Without a usable answer the driver runs on the matrices and thresholds of the DSDT.
theorem opened_defaults {cast : ℚ → K} {response : Option (List Char)} {setup : Setup K Filter Hinge}
    {d : Device K Filter Hinge} (opened : mxc6655Open (calibrated cast response setup) = .ok d)
    (short : ∀ values,received response = some values → values.length < 18) :
    d.cal1 = [1,0,0,0,1,0,0,0,1] ∧ d.cal2 = [1,0,0,0,-1,0,0,0,-1] ∧ d.tabletThresh = cast 185 ∧
    d.laptopThresh = cast 175 ∧ d.minAngle = cast 30 := by
  obtain ⟨t,found,made⟩ := open_ok opened
  rw [made,calibrated,loadGmtr_short short]
  unfold setupLidWatch
  repeat' split
  all_goals exact ⟨rfl,rfl,rfl,rfl,rfl⟩

end

end ChuwiMinibook.Gmtr
