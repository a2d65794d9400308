import ChuwiMinibook.LzmaSymbols

namespace ChuwiMinibook.LzmaDummy
open CodedBits LzmaSymbols
open Coded
variable {α β : Type}

-- The bits of a program without its result.
def erase (p : Coded α) : Coded Unit := p.bind fun _ => .done ()

theorem bind_erase (p : Coded α) (q : Coded β) : p.bind (fun _ => q) = (erase p).bind fun _ => q := by
  rw [erase,bind_assoc]
  rfl

theorem erase_bind (p : Coded α) (f : α → Coded β) : erase (p.bind f) = p.bind fun a => erase (f a) := by
  rw [erase,bind_assoc]
  rfl

-- What follows a tree may depend on what a tree can give only.
theorem treeBits_congr {base n i : Nat} {f g : Nat → Coded β}
    (same : ∀ a,i*2^n ≤ a → a < (i+1)*2^n → f a = g a) : (treeBits base n i).bind f = (treeBits base n i).bind g := by
  induction n generalizing i with
  | zero => exact same i (by omega) (by omega)
  | succ n ih =>
    simp only [treeBits,Coded.bind]
    congr 1
    funext b
    refine ih fun a low high => same a ?_ ?_
    · rw [pow_succ]
      cases b
      case false => simp only [Bool.toNat_false] at low; nlinarith
      case true => simp only [Bool.toNat_true] at low; nlinarith
    · rw [pow_succ]
      cases b
      case false => simp only [Bool.toNat_false] at high; nlinarith
      case true => simp only [Bool.toNat_true] at high; nlinarith

theorem revBits_shift (base offset n i m : Nat) :
    erase (revBits base n (offset+i) m) = erase (revBits (base+offset) n i m) := by
  induction n generalizing i m with
  | zero => rfl
  | succ n ih =>
    simp only [revBits,erase,Coded.bind,Nat.add_assoc]
    congr 1
    funext b
    cases b
    case false => exact ih (i+m) (m+m)
    case true => exact ih (i+(m+m)) (m+m)

theorem directBits_start (n distance other : Nat) : erase (directBits n distance) = erase (directBits n other) := by
  induction n generalizing distance other with
  | zero => rfl
  | succ n ih =>
    simp only [directBits,erase,Coded.bind]
    congr 1
    funext b
    exact ih _ _

theorem dummyLen_eq (prob posState : Nat) : dummyLen prob posState = lenBits prob posState := by
  unfold dummyLen lenBits treeDecode
  simp only [bind_eq,pure_eq,bind_assoc,Coded.bind]
  congr 1
  funext choice
  cases choice
  case false => rfl
  case true =>
    simp only [if_true]
    congr 1
    funext choice
    cases choice
    case true => rfl
    case false =>
      simp only [Bool.false_eq_true,if_false]
      have same : ((treeBits (prob+lenLow+posState+8) 3 1).bind fun a => Coded.done (a-2^3+8)) =
          (treeBits (prob+lenLow+posState+8) 3 1).bind Coded.done :=
        treeBits_congr (fun a low _ => congrArg Coded.done (by omega))
      exact same.trans (bind_done _)

-- Taking the low lp+8 bits without the low 8-lc of them is a division.
theorem masked (value lp lc : Nat) (lc_le : lc ≤ 8) :
    (value &&& (256 <<< lp)-(256 >>> lc)) <<< lc = value % 2^(lp+8)/2^(8-lc)*256 := by
  have scale : 2^(8-lc)*2^lc = 256 := by rw [← pow_add,Nat.sub_add_cancel lc_le,byte_values]
  have upper : 256 <<< lp = 2^(8-lc)*2^(lp+lc) := by
    rw [Nat.shiftLeft_eq,pow_add,Nat.mul_comm (2^lp),← Nat.mul_assoc,scale]
  have lower : 256 >>> lc = 2^(8-lc) := by
    rw [Nat.shiftRight_eq_div_pow]
    exact Nat.div_eq_of_eq_mul_left (Nat.pow_pos (by omega)) scale.symm
  have mask : 2^(8-lc)*2^(lp+lc)-2^(8-lc) = (2^(lp+lc)-1) <<< (8-lc) := by
    rw [Nat.shiftLeft_eq,Nat.sub_mul,Nat.one_mul,Nat.mul_comm]
  have cut : value &&& (2^(lp+lc)-1) <<< (8-lc) = ((value/2^(8-lc)) % 2^(lp+lc)) <<< (8-lc) := by
    rw [← Nat.and_two_pow_sub_one_eq_mod]
    refine Nat.eq_of_testBit_eq fun i => ?_
    simp only [Nat.testBit_and,Nat.testBit_shiftLeft,Nat.testBit_div_two_pow]
    by_cases above : i ≥ 8-lc
    · simp [above,Nat.sub_add_cancel above]
    · simp [above]
  rw [upper,lower,mask,cut,Nat.shiftLeft_eq,Nat.shiftLeft_eq,Nat.mul_assoc,scale,← Nat.mod_mul_right_div_self,← pow_add,
    show 8-lc+(lp+lc) = lp+8 by omega]

theorem dummyOffset_eq (v : View) (byte : UInt8) : dummyOffset v byte = literalOffset v byte := by
  have lc_le := v.prop.lc_le
  have lp_le := v.prop.lp_le
  have limit := byte.toNat_lt
  have dvd : 2^(v.prop.lp+8) ∣ word := by
    rw [show word = 2^32 from rfl]
    exact Nat.pow_dvd_pow 2 (by omega)
  have low : (v.processedPos*256+byte.toNat) % 2^(v.prop.lp+8) = v.processedPos % 2^v.prop.lp*256+byte.toNat := by
    have whole := Nat.div_add_mod v.processedPos (2^v.prop.lp)
    have small := Nat.mod_lt v.processedPos (Nat.pow_pos (show 0 < 2 by omega) : 0 < 2^v.prop.lp)
    have parts : v.processedPos*256+byte.toNat =
        v.processedPos % 2^v.prop.lp*256+byte.toNat+2^v.prop.lp*256*(v.processedPos/2^v.prop.lp) := by
      conv_lhs => rw [← whole]
      ring
    rw [pow_add,byte_values,parts,Nat.add_mul_mod_self_left,Nat.mod_eq_of_lt (by omega)]
  have scale : 2^(8-v.prop.lc)*2^v.prop.lc = 256 := by rw [← pow_add,Nat.sub_add_cancel lc_le,byte_values]
  have divided : (v.processedPos % 2^v.prop.lp*256+byte.toNat)/2^(8-v.prop.lc) =
      v.processedPos % 2^v.prop.lp*2^v.prop.lc+byte.toNat/2^(8-v.prop.lc) := by
    rw [← scale,Nat.mul_comm (2^(8-v.prop.lc)),← Nat.mul_assoc,Nat.mul_comm _ (2^(8-v.prop.lc)),
      Nat.mul_add_div (Nat.pow_pos (by omega))]
  unfold dummyOffset literalOffset lpMask
  rw [masked _ _ _ lc_le,Nat.mod_mod_of_dvd _ dvd,low,divided,Nat.shiftLeft_eq,Nat.shiftRight_eq_div_pow]
  ring

theorem dummyDistance_eq (len : Nat) : dummyDistance len = erase (readDistance len) := by
  have context : (if len < 3 then len else 3) = if len < 4 then len else 3 := by split <;> split <;> omega
  unfold dummyDistance readDistance
  simp only [bind_eq,pure_eq,erase_bind,context]
  congr 1
  funext slot
  split
  case isTrue => rfl
  case isFalse =>
    split
    case isTrue =>
      rw [erase_bind,Nat.mul_comm]
      exact (revBits_shift specPos _ _ 1 1).symm
    case isFalse =>
      rw [bind_erase,directBits_start _ 0 (2+slot % 2),← bind_erase]
      rw [erase_bind]
      congr 1
      funext distance
      rw [erase_bind]
      have leaves : ∀ i,erase (if distance*16+i = 4294967295 then Coded.done Symbol.marker
          else Coded.done (Symbol.simple (distance*16+i) len)) = Coded.done () := by
        intro i
        split <;> rfl
      simp only [leaves,alignBits_eq]

-- Every symbol that readDistance gives is a match.
theorem readDistance_kind (len : Nat) :
    (readDistance len).bind (fun symbol => .done symbol.kind) = (readDistance len).bind fun _ => .done .match := by
  unfold readDistance
  simp only [bind_eq,pure_eq,Coded.bind_assoc]
  congr 1
  funext slot
  split
  case isTrue => rfl
  case isFalse =>
    split
    case isTrue => simp only [Coded.bind_assoc]; rfl
    case isFalse =>
      simp only [Coded.bind_assoc,ite_bind,Coded.bind,Symbol.kind,ite_self]

theorem dummyRep_eq (v : View) : dummyRep v = (readRep v).bind fun symbol => .done symbol.kind := by
  unfold dummyRep readRep
  simp only [bind_eq,pure_eq,Coded.bind_assoc,dummyLen_eq]
  congr 1
  funext g0
  cases g0
  case false =>
    simp only [Bool.false_eq_true,if_false,Coded.bind_assoc]
    congr 1
    funext long
    cases long
    case false => rfl
    case true => simp only [if_true,Coded.bind_assoc]; rfl
  case true =>
    simp only [if_true,Coded.bind_assoc]
    congr 1
    funext g1
    cases g1
    case false => simp only [Bool.false_eq_true,if_false,Coded.bind_assoc]; rfl
    case true => simp only [if_true,Coded.bind_assoc]; rfl

-- LzmaDec_TryDummy asks for the same bits as the decoder and names the symbol's kind.
theorem dummySymbol_eq (v : View) : dummySymbol v = (readSymbol v).bind fun symbol => .done symbol.kind := by
  unfold dummySymbol readSymbol
  simp only [bind_eq,pure_eq,Coded.bind_assoc,dummyLen_eq]
  congr 1
  funext found
  cases found
  case false =>
    have same : literalProb v (dummyOffset v) = literalProb v (literalOffset v) := by
      congr 1
      funext byte
      exact dummyOffset_eq v byte
    simp only [Bool.false_eq_true,if_false,readLiteral,bind_eq,pure_eq,Coded.bind_assoc,Coded.bind,same]
    rfl
  case true =>
    simp only [if_true,Coded.bind_assoc]
    congr 1
    funext again
    cases again
    case true => exact dummyRep_eq v
    case false =>
      simp only [Bool.false_eq_true,if_false,Coded.bind_assoc,dummyDistance_eq]
      congr 1
      funext len
      rw [readDistance_kind]
      exact (bind_erase _ _).symm

end ChuwiMinibook.LzmaDummy
