import BudokaiRuntime.Foundations.ByteLanes
import Mathlib.Data.Option.NAry

-- C++ shifts of an unsigned word by an int, and the rotates and masks made of them.
namespace BudokaiRuntime.UnsignedShifts
open ByteLanes

-- `none`: the count is negative or not below the width, and the shift has no result.
def shiftLeft (v : BitVec w) (n : Int) : Option (BitVec w) :=
  if 0 ≤ n ∧ n < w then some (v <<< n.toNat) else none

def shiftRight (v : BitVec w) (n : Int) : Option (BitVec w) :=
  if 0 ≤ n ∧ n < w then some (v >>> n.toNat) else none

-- Bits mb to me counted from the most significant one, round the end when mb > me.
def inField (mb me i : Nat) : Bool := if mb ≤ me then mb ≤ i && i ≤ me else mb ≤ i || i ≤ me

def field (w mb me : Nat) : BitVec w := ofBits fun k => inField mb me (w-1-k)

section Shifts
variable (v : BitVec w) {n : Int} {k : Nat}

theorem shiftLeft_inside (place : n = k) (inside : k < w) : shiftLeft v n = some (v <<< k) := by
  subst place
  rw [shiftLeft,if_pos ⟨Int.natCast_nonneg k,Int.ofNat_lt.mpr inside⟩,Int.toNat_natCast]

theorem shiftRight_inside (place : n = k) (inside : k < w) : shiftRight v n = some (v >>> k) := by
  subst place
  rw [shiftRight,if_pos ⟨Int.natCast_nonneg k,Int.ofNat_lt.mpr inside⟩,Int.toNat_natCast]

theorem shiftRight_whole (place : n = w) : shiftRight v n = none :=
  if_neg fun inside => absurd inside.2 (by omega)

-- The two parts of a rotate have complementary counts, and one of them is the width
-- when the other is 0.
theorem rotate_parts {m : Int} (place : n = k) (rest : m = w-k) (inside : k < w) (turned : k ≠ 0) :
    Option.map₂ (· ||| ·) (shiftLeft v n) (shiftRight v m) = some (v.rotateLeft k) := by
  rw [shiftLeft_inside v place inside,shiftRight_inside v (k:=w-k) (by omega) (by omega),BitVec.rotateLeft_def,
    Nat.mod_eq_of_lt inside]
  rfl

theorem rotate_whole (rest : n = w) (left : Option (BitVec w)) :
    Option.map₂ (· ||| ·) left (shiftRight v n) = none := by
  rw [shiftRight_whole v rest,Option.map₂_none_right]
end Shifts

section Fields
variable {w mb me : Nat}

theorem ones_right (k : Nat) : (BitVec.allOnes w >>> mb).getLsbD k = decide (k+mb < w) := by
  rw [BitVec.getLsbD_ushiftRight,BitVec.getLsbD_allOnes,Nat.add_comm]

theorem ones_left (k : Nat) (inside : k < w) : (BitVec.allOnes w <<< n).getLsbD k = decide (n ≤ k) := by
  have below : k-n < w := by omega
  have order : (!decide (k < n)) = decide (n ≤ k) := by rw [← decide_not,decide_eq_decide,Nat.not_lt]
  rw [BitVec.getLsbD_shiftLeft,BitVec.getLsbD_allOnes,decide_eq_true inside,decide_eq_true below,order,
    Bool.true_and,Bool.and_true]

theorem field_bit (k : Nat) (inside : k < w) : (field w mb me).getLsbD k = inField mb me (w-1-k) :=
  getLsbD_ofBits _ k inside

theorem field_meet (order : mb ≤ me) : BitVec.allOnes w >>> mb &&& BitVec.allOnes w <<< (w-1-me) = field w mb me := by
  apply BitVec.eq_of_getLsbD_eq
  intro k inside
  rw [BitVec.getLsbD_and,ones_right,ones_left k inside,field_bit k inside,inField,if_pos order]
  have left : k+mb < w ↔ mb ≤ w-1-k := by omega
  have right : w-1-me ≤ k ↔ w-1-k ≤ me := by omega
  simp only [left,right]

theorem field_wrap (order : me < mb) : BitVec.allOnes w >>> mb ||| BitVec.allOnes w <<< (w-1-me) = field w mb me := by
  apply BitVec.eq_of_getLsbD_eq
  intro k inside
  rw [BitVec.getLsbD_or,ones_right,ones_left k inside,field_bit k inside,inField,if_neg (by omega)]
  have left : k+mb < w ↔ mb ≤ w-1-k := by omega
  have right : w-1-me ≤ k ↔ w-1-k ≤ me := by omega
  simp only [left,right]
end Fields

end BudokaiRuntime.UnsignedShifts
