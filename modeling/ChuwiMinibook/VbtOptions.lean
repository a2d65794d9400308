import ChuwiMinibook.StdString
import ChuwiMinibook.Vbt

namespace ChuwiMinibook.Vbt
open StdString

inductive Opt
  | clock | hz | rotation | panelOn | panelOff | blOn | blOff | cycle
deriving DecidableEq

-- What getopt_long returns: an option with its text, or something it does not know.
inductive Arg
  | opt (o : Opt) (text : String)
  | unknown

namespace PatchOpts

def set (opts : PatchOpts) (o : Opt) (v : Int) : PatchOpts :=
  match o with
  | .clock => {opts with clock := v}
  | .hz => {opts with hz := v}
  | .rotation => {opts with rotation := v}
  | .panelOn => {opts with panelOn := v}
  | .panelOff => {opts with panelOff := v}
  | .blOn => {opts with blOn := v}
  | .blOff => {opts with blOff := v}
  | .cycle => {opts with cycle := v}

def get (opts : PatchOpts) : Opt → Int
  | .clock => opts.clock
  | .hz => opts.hz
  | .rotation => opts.rotation
  | .panelOn => opts.panelOn
  | .panelOff => opts.panelOff
  | .blOn => opts.blOn
  | .blOff => opts.blOff
  | .cycle => opts.cycle

end PatchOpts

def parseFrom (opts : PatchOpts) : List Arg → Option PatchOpts
  | [] => some opts
  | .opt o text::rest => parseFrom (opts.set o (atoi text)) rest
  | .unknown::_ => none

-- parse_args behind the input file; none is its way to the usage text.
def parseArgs (args : List Arg) (output : Bool) : Option PatchOpts :=
  (parseFrom ⟨-1,-1,-1,-1,-1,-1,-1,-1,false⟩ args).map (fun opts => {opts with output := output})

-- The test that has_patches makes of an option.
def Accepted : Opt → Int → Prop
  | .clock,v => 0 < v
  | .hz,v => 0 < v
  | _,v => 0 ≤ v

theorem hasPatches_iff (opts : PatchOpts) : hasPatches opts = true ↔ ∃ o,Accepted o (opts.get o) := by
  unfold hasPatches
  rw [decide_eq_true_iff]
  constructor
  · rintro (h | h | h | h | h | h | h | h)
    · exact ⟨.clock,h⟩
    · exact ⟨.hz,h⟩
    · exact ⟨.rotation,h⟩
    · exact ⟨.panelOn,h⟩
    · exact ⟨.panelOff,h⟩
    · exact ⟨.blOn,h⟩
    · exact ⟨.blOff,h⟩
    · exact ⟨.cycle,h⟩
  · rintro ⟨o,accepted⟩
    cases o <;> simp_all [Accepted,PatchOpts.get]

-- The number an option asks for: that of its last text, and -1 without one.
def wanted (args : List Arg) (o : Opt) : Int :=
  args.foldl (fun w arg =>
    match arg with
    | .opt o' text => if o' = o then leadingNumber text else w
    | .unknown => w) (-1)

theorem get_set (opts : PatchOpts) (o o' : Opt) (v : Int) :
    (opts.set o v).get o' = if o = o' then v else opts.get o' := by
  cases o <;> cases o' <;> rfl

theorem parseFrom_get {args : List Arg} {opts parsed : PatchOpts} {o : Opt} {w : Int}
    (ran : parseFrom opts args = some parsed) (before : opts.get o = longToInt w) :
    parsed.get o = longToInt (args.foldl (fun w arg =>
      match arg with
      | .opt o' text => if o' = o then leadingNumber text else w
      | .unknown => w) w) := by
  induction args generalizing opts w with
  | nil =>
    cases ran
    exact before
  | cons arg rest ih =>
    cases arg with
    | unknown => cases ran
    | opt o' text =>
      have next : (opts.set o' (atoi text)).get o = longToInt (if o' = o then leadingNumber text else w) := by
        rw [get_set]
        by_cases same : o' = o
        · simp [same,atoi]
        · simpa [same] using before
      exact ih ran next

-- Every option is the number asked for, cut down to an int.
theorem parseArgs_get {args : List Arg} {output : Bool} {opts : PatchOpts} (parsed : parseArgs args output = some opts)
    (o : Opt) : opts.get o = longToInt (wanted args o) := by
  obtain ⟨before,ran,rfl⟩ := Option.map_eq_some_iff.mp parsed
  have start : PatchOpts.get ⟨-1,-1,-1,-1,-1,-1,-1,-1,false⟩ o = longToInt (-1) := by cases o <;> rfl
  have value := parseFrom_get ran start
  unfold wanted
  rw [← value]
  cases o <;> rfl

-- The cast to int in remainders.
theorem longToInt_mod (v : Int) :
    longToInt v =
      if max (-9223372036854775808) (min v 9223372036854775807)%4294967296 < 2147483648 then
        max (-9223372036854775808) (min v 9223372036854775807)%4294967296
      else max (-9223372036854775808) (min v 9223372036854775807)%4294967296-4294967296 := by
  unfold longToInt
  rw [BitVec.toInt_ofInt,Int.bmod_def]
  rfl

theorem longToInt_range (v : Int) : -2147483648 ≤ longToInt v ∧ longToInt v < 2147483648 := by
  rw [longToInt_mod]
  split <;> omega

theorem longToInt_same {v : Int} (low : -2147483648 ≤ v) (high : v < 2147483648) : longToInt v = v := by
  rw [longToInt_mod]
  split <;> omega

-- A number that is cut down to something positive: its excess is a whole word.
theorem longToInt_excess {v : Int} (positive : 0 ≤ longToInt v) (small : v < longToInt v+4294967296) :
    v < 0 ∨ longToInt v = v := by
  rw [longToInt_mod] at *
  split at positive <;> split at small <;> omega

end ChuwiMinibook.Vbt
