import Mathlib.Data.Int.Basic
import Mathlib.Data.BitVec
import Mathlib.Tactic.Linarith

-- C++20 arithmetic in a signed type of `w` bits, kept beside the exact values.
namespace BudokaiRuntime.SignedArithmetic

def Fits (w : Nat) (z : Int) : Prop := -2^(w-1) ≤ z ∧ z < 2^(w-1)

instance (w : Nat) (z : Int) : Decidable (Fits w z) := inferInstanceAs (Decidable (_ ∧ _))

theorem toInt_fits [NeZero w] (v : BitVec w) : Fits w v.toInt := ⟨BitVec.le_toInt v,BitVec.toInt_lt⟩

theorem fits_toInt [NeZero w] (fits : Fits w z) : (BitVec.ofInt w z).toInt = z :=
  BitVec.toInt_ofInt_eq_self (Nat.pos_of_neZero w) fits.1 fits.2

-- An overflowing sum or product has no result.
def checked (w : Nat) (z : Int) : Option (BitVec w) := if Fits w z then some (BitVec.ofInt w z) else none

theorem checked_fits (fits : Fits w z) : checked w z = some (BitVec.ofInt w z) := if_pos fits

theorem fits_quotient (n : Nat) (fits : Fits w z) : Fits w (z / 2^n) := by
  have bound : (0 : Int) < 2^(w-1) := Int.pow_pos (by decide)
  have unit : (1 : Int) ≤ 2^n := Int.pow_pos (by decide)
  obtain ⟨low,high⟩ := fits
  constructor
  · exact Int.le_ediv_of_mul_le (by omega) (by nlinarith)
  · exact Int.ediv_lt_of_lt_mul (by omega) (by nlinarith)

theorem fits_snoc (rs : List Int) (z : Int) : (∀ r ∈ rs ++ [z], Fits w r) ↔ (∀ r ∈ rs, Fits w r) ∧ Fits w z := by
  rw [List.forall_mem_append,List.forall_mem_singleton]

theorem shiftLeft_ofInt (z : Int) (n : Nat) : BitVec.ofInt w z <<< n = BitVec.ofInt w (z * 2^n) := by
  have power : BitVec.twoPow w n = BitVec.ofInt w (2^n) := by
    apply BitVec.eq_of_toNat_eq
    have cast : (2^n : Int) = ((2^n : Nat) : Int) := by push_cast; rfl
    rw [cast,BitVec.ofInt_natCast,BitVec.toNat_ofNat,BitVec.toNat_twoPow]
  rw [BitVec.shiftLeft_eq_mul_twoPow,power,BitVec.ofInt_mul]

-- `exact` is the mathematical value, `results` are those of the operations made for it and
-- `word` is what the language gives, `none` where it leaves the result open.
structure Signed (w : Nat) where
  exact : Int
  results : List Int
  word : Option (BitVec w)
  sound : (∀ r ∈ results, Fits w r) → Fits w exact ∧ word = some (BitVec.ofInt w exact)

section Operations
variable [NeZero w] (x y : Signed w)

-- Every intermediate result is the mathematical one and fits.
def Signed.Exact : Prop := ∀ r ∈ x.results, Fits w r

def Signed.of (v : BitVec w) : Signed w where
  exact := v.toInt
  results := []
  word := some v
  sound _ := ⟨toInt_fits v,by rw [BitVec.ofInt_toInt]⟩

def Signed.binary (f : Int → Int → Int) : Signed w where
  exact := f x.exact y.exact
  results := x.results ++ y.results ++ [f x.exact y.exact]
  word := x.word.bind fun a => y.word.bind fun b => checked w (f a.toInt b.toInt)
  sound fits := by
    have own : Fits w (f x.exact y.exact) := fits _ (by simp)
    obtain ⟨left,a⟩ := x.sound fun r member => fits r (by simp [member])
    obtain ⟨right,b⟩ := y.sound fun r member => fits r (by simp [member])
    refine ⟨own,?_⟩
    rw [a,b,Option.bind_some,Option.bind_some,fits_toInt left,fits_toInt right,checked_fits own]

def Signed.add : Signed w := x.binary y (· + ·)
def Signed.mul : Signed w := x.binary y (· * ·)

-- Since C++20 a left shift is taken modulo 2^w.
def Signed.shl (n : Nat) : Signed w where
  exact := x.exact * 2^n
  results := x.results ++ [x.exact * 2^n]
  word := x.word.map fun v : BitVec w => v <<< n
  sound fits := by
    have own : Fits w (x.exact * 2^n) := fits _ (by simp)
    obtain ⟨_,a⟩ := x.sound fun r member => fits r (by simp [member])
    refine ⟨own,?_⟩
    rw [a,Option.map_some,shiftLeft_ofInt]

def Signed.shr (n : Nat) : Signed w where
  exact := x.exact / 2^n
  results := x.results ++ [x.exact / 2^n]
  word := x.word.map fun v => v.sshiftRight n
  sound fits := by
    have own : Fits w (x.exact / 2^n) := fits _ (by simp)
    obtain ⟨whole,a⟩ := x.sound fun r member => fits r (by simp [member])
    refine ⟨own,?_⟩
    rw [a,Option.map_some]
    have value := BitVec.toInt_sshiftRight (x:=BitVec.ofInt w x.exact) (n:=n)
    rw [fits_toInt whole,Int.shiftRight_eq_div_pow,Nat.cast_pow,Nat.cast_ofNat] at value
    exact congrArg some (BitVec.eq_of_toInt_eq (value.trans (fits_toInt own).symm))

@[simp] theorem exact_of (v : BitVec w) : (Signed.of v).Exact := fun _ member => nomatch member

theorem exact_binary (f : Int → Int → Int) :
    (x.binary y f).Exact ↔ (x.Exact ∧ y.Exact) ∧ Fits w (f x.exact y.exact) := by
  unfold Signed.Exact Signed.binary
  rw [fits_snoc,List.forall_mem_append]

theorem exact_shr (n : Nat) : (x.shr n).Exact ↔ x.Exact := by
  refine (fits_snoc _ _).trans (and_iff_left_of_imp fun before => ?_)
  exact fits_quotient n (x.sound before).1
end Operations

theorem exact_shl (x : Signed w) (n : Nat) : (x.shl n).Exact ↔ x.Exact ∧ Fits w (x.exact * 2^n) := fits_snoc _ _

end BudokaiRuntime.SignedArithmetic
