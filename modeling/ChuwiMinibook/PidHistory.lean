import ChuwiMinibook.Pid
import Mathlib.Data.Rat.Floor
import Mathlib.Tactic.Ring
import Mathlib.Tactic.FieldSimp
import Mathlib.Tactic.Linarith

namespace ChuwiMinibook.PidHistory

-- The calls of a controller so far, the newest first.
structure Sample where
  now : Int
  error : Int
deriving DecidableEq

-- The sum of e*dt.
def area : List Sample → Int
  | s::s'::rest => s.error*(s.now - s'.now) + area (s'::rest)
  | _ => 0

-- The error of the first call.
def first : List Sample → Int
  | [] => 0
  | [s] => s.error
  | _::rest => first rest

def slope : List Sample → ℚ
  | s::s'::_ => if s.now = s'.now then 0 else (s.error - s'.error : ℚ)/(s.now - s'.now : ℚ)
  | _ => 0

-- The output of a PID controller whose integral part starts at the value that makes
-- the first output 0.
def exactOutput (kp ki kd : ℚ) (h : List Sample) : ℚ :=
  match h with
  | [] => 0
  | s::_ => kp*s.error + ki*(area h - kp*first h/ki) + kd*slope h

-- The controller holds what its history says.
structure Tracks (kp ki kd : ℚ) (h : List Sample) (p : Pid) : Prop where
  gains : p.kp = kp ∧ p.ki = ki ∧ p.kd = kd
  last : match h with
    | [] => p.lastTime = 0
    | s::_ => p.lastTime = s.now ∧ s.now ≠ 0 ∧ p.lastErr = s.error ∧ p.errSum = (area h - kp*first h/ki : ℚ)

theorem tracks_retarget {kp ki kd : ℚ} {h : List Sample} {p : Pid} (tracks : Tracks kp ki kd h p) (temp : Nat) :
    Tracks kp ki kd h (p.setTargetTemp temp) := by
  obtain ⟨gains,last⟩ := tracks
  exact ⟨gains,last⟩

def sampleOf (p : Pid) (now : Int) (temp : Nat) : Sample := ⟨now,toInt ((temp : Int) - p.targetTemp)⟩

theorem compute_first {kp ki kd : ℚ} {p : Pid} (integrates : ki ≠ 0) (tracks : Tracks kp ki kd [] p) (now : Int) (temp : Nat) :
    p.compute now temp 0 =
      ({p with
          lastTime := now
          errSum := -kp*(sampleOf p now temp).error/ki
          lastErr := (sampleOf p now temp).error},0) := by
  obtain ⟨⟨one,two,three⟩,last⟩ := tracks
  have fresh : p.lastTime = 0 := last
  have begun (error : ℚ) : p.begin now error 0 = {p with lastTime := now,errSum := -kp*error/ki} := by
    unfold Pid.begin
    rw [if_pos fresh,one,two,if_pos integrates]
    simp
  unfold Pid.compute
  dsimp only [sampleOf]
  rw [begun]
  dsimp only
  rw [one,two,three,sub_self,if_neg (by simp)]
  ext <;> simp
  field_simp
  ring

theorem compute_later {kp ki kd : ℚ} {s : Sample} {rest : List Sample} {p : Pid} (tracks : Tracks kp ki kd (s::rest) p)
    (now : Int) (temp : Nat) :
    p.compute now temp 0 =
      ({p with
          lastTime := now
          errSum := p.errSum + (sampleOf p now temp).error*(now - s.now : ℚ)
          lastErr := (sampleOf p now temp).error},
        kp*(sampleOf p now temp).error + ki*(p.errSum + (sampleOf p now temp).error*(now - s.now : ℚ)) +
          kd*slope (sampleOf p now temp::s::rest)) := by
  obtain ⟨⟨one,two,three⟩,lastTime,running,lastErr,_⟩ := tracks
  have begun (error : ℚ) : p.begin now error 0 = p := if_neg (lastTime ▸ running)
  unfold Pid.compute
  dsimp only [sampleOf,slope]
  rw [begun]
  rw [one,two,three,lastTime,lastErr]
  by_cases still : now = s.now
  · rw [if_neg (by simp [still]),if_pos still]
    push_cast
    rfl
  · rw [if_pos (by omega),if_neg still]
    push_cast
    rfl

-- One call of the controller: its output is the exact one for the longer history.
theorem compute_tracks {kp ki kd : ℚ} {h : List Sample} {p : Pid} (integrates : ki ≠ 0) (tracks : Tracks kp ki kd h p)
    {now : Int} (clock : now ≠ 0) (temp : Nat) :
    (p.compute now temp 0).2 = exactOutput kp ki kd (sampleOf p now temp::h) ∧
      Tracks kp ki kd (sampleOf p now temp::h) (p.compute now temp 0).1 := by
  cases h with
  | nil =>
    rw [compute_first integrates tracks]
    refine ⟨?_,tracks.gains,rfl,clock,rfl,?_⟩
    · simp only [exactOutput,area,first,slope]
      field_simp
      simp
    · simp only [area,first]
      push_cast
      ring
  | cons s rest =>
    obtain ⟨_,_,_,sum⟩ := tracks.last
    have longer : p.errSum + (sampleOf p now temp).error*(now - s.now : ℚ) =
        area (sampleOf p now temp::s::rest) - kp*first (sampleOf p now temp::s::rest)/ki := by
      rw [sum]
      simp only [area,first,sampleOf]
      push_cast
      ring
    rw [compute_later tracks,longer]
    exact ⟨rfl,tracks.gains,rfl,clock,rfl,rfl⟩

section Truncation

theorem truncate_nonneg {q : ℚ} (positive : 0 ≤ q) : Pid.truncate q = ⌊q⌋ := by
  unfold Pid.truncate
  rw [Int.tdiv_eq_ediv_of_nonneg (Rat.num_nonneg.mpr positive),Rat.floor_def']

theorem truncate_neg (q : ℚ) : Pid.truncate (-q) = -Pid.truncate q := by
  unfold Pid.truncate
  rw [Rat.num_neg_eq_neg_num,Rat.den_neg_eq_den,Int.neg_tdiv]

theorem truncate_le {q : ℚ} {n : Int} (positive : 0 ≤ n) : Pid.truncate q ≤ n ↔ q < n+1 := by
  rcases le_total 0 q with up | down
  · rw [truncate_nonneg up,← Int.lt_add_one_iff,Int.floor_lt]
    push_cast
    rfl
  · have below : Pid.truncate q ≤ 0 := by
      have floor := Int.floor_nonneg.mpr (neg_nonneg.mpr down)
      rw [← truncate_nonneg (neg_nonneg.mpr down),truncate_neg] at floor
      omega
    have bound : (0 : ℚ) ≤ n := by exact_mod_cast positive
    exact iff_of_true (below.trans positive) (by linarith)

theorem le_truncate {q : ℚ} {n : Int} (negative : n ≤ 0) : n ≤ Pid.truncate q ↔ (n-1 : ℚ) < q := by
  have mirrored := truncate_le (q := -q) (n := -n) (by omega)
  rw [truncate_neg] at mirrored
  constructor
  · intro above
    have bound := mirrored.mp (by omega)
    push_cast at bound
    linarith
  · intro above
    have bound := mirrored.mpr (by push_cast; linarith)
    omega

end Truncation

end ChuwiMinibook.PidHistory
