import Mathlib.Algebra.Order.Ring.Nat
import Mathlib.Data.Nat.Log

-- Single-precision numbers as bit patterns: their order, minimum and maximum, and the
-- conversions to and from integers. Nothing here rounds.
namespace BudokaiRuntime.Binary32

abbrev F32 : Type := BitVec 32

def magnitude (x : F32) : Nat := (x.setWidth 31).toNat

-- The order of the numbers; a NaN has no place in it.
def rank (x : F32) : Option Int :=
  if 0x7F800000 < magnitude x then none else some (if x.msb then -magnitude x else magnitude x)

def fgt (a b : F32) : Bool :=
  match rank a,rank b with
  | some p,some q => q < p
  | _,_ => false

def fge (a b : F32) : Bool :=
  match rank a,rank b with
  | some p,some q => q ≤ p
  | _,_ => false

def feq (a b : F32) : Bool :=
  match rank a,rank b with
  | some p,some q => p = q
  | _,_ => false

-- A NaN gives way to the other operand.
def fmaxf (a b : F32) : F32 :=
  match rank a,rank b with
  | none,_ => b
  | some _,none => a
  | some p,some q => if p < q then b else a

def fminf (a b : F32) : F32 :=
  match rank a,rank b with
  | none,_ => b
  | some _,none => a
  | some p,some q => if q < p then b else a

-- The integer part of a magnitude: a significand of 24 bits, scaled.
def whole (mag : Nat) : Nat :=
  let e := mag / 2^23
  let m := mag % 2^23 + 2^23
  if 150 ≤ e then m * 2^(e-150) else m / 2^(150-e)

-- `(int)x`, `none` where C leaves it undefined.
def to_int (x : F32) : Option Int :=
  if magnitude x < 0x4F000000 ∨ x = 0xCF000000 then
    some (if x.msb then -whole (magnitude x) else whole (magnitude x))
  else none

-- `(float)n` for an n below 2^23, where it is exact.
def of_nat (n : Nat) : F32 :=
  if n = 0 then 0 else BitVec.ofNat 32 ((126 + n.log2)*2^23 + n*2^(23-n.log2))

example : of_nat 1280 = 0x44A00000 ∧ to_int 0x449FE000 = some 1279 ∧ to_int 0xBFC00000 = some (-1) := by decide

section Conversions
variable {a x y : F32} {k mag mag' : Nat} {n : Int}

theorem rank_some (number : rank x = some p) : p = if x.msb then -(magnitude x : Int) else magnitude x := by
  unfold rank at number
  split at number
  · cases number
  · exact (Option.some.inj number).symm

theorem whole_low (small : mag / 2^23 < 150) : whole mag = (mag % 2^23 + 2^23) / 2^(150 - mag/2^23) :=
  if_neg (Nat.not_le.mpr small)

theorem whole_high (large : 150 ≤ mag / 2^23) : whole mag = (mag % 2^23 + 2^23) * 2^(mag/2^23 - 150) := if_pos large

theorem whole_below (mag : Nat) : whole mag < 2^(mag/2^23 - 126) := by
  have fraction : mag % 2^23 < 2^23 := Nat.mod_lt mag (by decide)
  by_cases large : 150 ≤ mag / 2^23
  · rw [whole_high large]
    have shift : mag/2^23 - 126 = 24 + (mag/2^23 - 150) := by omega
    rw [shift,Nat.pow_add]
    exact Nat.mul_lt_mul_of_pos_right (by omega) (Nat.two_pow_pos _)
  · rw [whole_low (by omega)]
    refine Nat.div_lt_of_lt_mul ?_
    have reach : 2^24 ≤ 2^(150 - mag/2^23) * 2^(mag/2^23 - 126) := by
      rw [← Nat.pow_add]
      exact Nat.pow_le_pow_right (by decide) (by omega)
    omega

theorem whole_above (normal : 127 ≤ mag / 2^23) : 2^(mag/2^23 - 127) ≤ whole mag := by
  by_cases large : 150 ≤ mag / 2^23
  · rw [whole_high large]
    have shift : mag/2^23 - 127 = 23 + (mag/2^23 - 150) := by omega
    rw [shift,Nat.pow_add]
    exact Nat.mul_le_mul_right _ (by omega)
  · rw [whole_low (by omega),Nat.le_div_iff_mul_le (Nat.two_pow_pos _),← Nat.pow_add]
    have exact_ : mag/2^23 - 127 + (150 - mag/2^23) = 23 := by omega
    rw [exact_]
    exact Nat.le_add_left _ _

theorem whole_mono (order : mag ≤ mag') : whole mag ≤ whole mag' := by
  have exponents : mag / 2^23 ≤ mag' / 2^23 := Nat.div_le_div_right order
  rcases Nat.eq_or_lt_of_le exponents with same | less
  · have fractions : mag % 2^23 ≤ mag' % 2^23 := by omega
    unfold whole
    dsimp only
    rw [same]
    split
    · exact Nat.mul_le_mul_right _ (by omega)
    · exact Nat.div_le_div_right (by omega)
  · have low := whole_below mag
    by_cases normal : 127 ≤ mag' / 2^23
    · have high := whole_above normal
      have between : 2^(mag/2^23 - 126) ≤ 2^(mag'/2^23 - 127) := Nat.pow_le_pow_right (by decide) (by omega)
      omega
    · have zero : mag/2^23 - 126 = 0 := by omega
      rw [zero] at low
      omega

theorem significand (positive : 0 < k) (small : k < 2^23) : k.log2 < 23 ∧ 2^23 ≤ k*2^(23-k.log2) ∧ k*2^(23-k.log2) < 2^24 := by
  have log := (Nat.log2_lt (Nat.pos_iff_ne_zero.mp positive)).mpr small
  have below : 2^k.log2 ≤ k := Nat.log2_self_le (Nat.pos_iff_ne_zero.mp positive)
  have above : k < 2^(k.log2+1) := Nat.lt_log2_self
  have low : 2^k.log2 * 2^(23-k.log2) = 2^23 := by rw [← Nat.pow_add,Nat.add_sub_cancel' (by omega)]
  have high : 2^(k.log2+1) * 2^(23-k.log2) = 2^24 := by
    rw [Nat.pow_succ',Nat.mul_assoc,low]
    rfl
  refine ⟨log,?_,?_⟩
  · rw [← low]
    exact Nat.mul_le_mul_right _ below
  · rw [← high]
    exact Nat.mul_lt_mul_of_pos_right above (Nat.two_pow_pos _)

theorem of_nat_magnitude (positive : 0 < k) (small : k < 2^23) :
    magnitude (of_nat k) = (126 + k.log2)*2^23 + k*2^(23-k.log2) ∧ (of_nat k).msb = false := by
  obtain ⟨log,_,high⟩ := significand positive small
  rw [of_nat,if_neg (Nat.pos_iff_ne_zero.mp positive),magnitude,BitVec.toNat_setWidth,BitVec.msb_eq_decide,
    BitVec.toNat_ofNat,decide_eq_false_iff_not]
  omega

theorem whole_of_nat (small : k < 2^23) : whole (magnitude (of_nat k)) = k := by
  rcases Nat.eq_zero_or_pos k with rfl | positive
  · rfl
  · obtain ⟨log,low,high⟩ := significand positive small
    have size := (of_nat_magnitude positive small).1
    have exponent : magnitude (of_nat k) / 2^23 = 127 + k.log2 := by omega
    have fraction : magnitude (of_nat k) % 2^23 + 2^23 = k*2^(23-k.log2) := by omega
    have shift : 150 - (127 + k.log2) = 23 - k.log2 := by omega
    rw [whole_low (by omega),exponent,fraction,shift]
    exact Nat.mul_div_cancel k (Nat.two_pow_pos _)

theorem of_nat_number (small : k < 2^23) : rank (of_nat k) = some (magnitude (of_nat k)) ∧ (of_nat k).msb = false := by
  rcases Nat.eq_zero_or_pos k with rfl | positive
  · exact ⟨rfl,rfl⟩
  · obtain ⟨log,_,high⟩ := significand positive small
    obtain ⟨size,sign⟩ := of_nat_magnitude positive small
    rw [rank,if_neg (by omega),sign]
    exact ⟨rfl,rfl⟩

theorem to_int_some (converted : to_int x = some n) :
    magnitude x ≤ 0x4F000000 ∧ n = if x.msb then -(whole (magnitude x) : Int) else whole (magnitude x) := by
  unfold to_int at converted
  split at converted
  · rename_i inside
    refine ⟨?_,(Option.some.inj converted).symm⟩
    rcases inside with less | rfl
    · exact less.le
    · exact Nat.le_refl _
  · cases converted

theorem fmaxf_zero (a : F32) : fmaxf 0 a = 0 ∨ fmaxf 0 a = a ∧ ∃ q, rank a = some q ∧ 0 < q := by
  have zero : rank 0 = some 0 := rfl
  unfold fmaxf
  rw [zero]
  cases number : rank a with
  | none => exact .inl rfl
  | some q =>
      dsimp only
      split
      · rename_i positive
        exact .inr ⟨rfl,q,rfl,positive⟩
      · exact .inl rfl

theorem to_int_max (converted : to_int (fmaxf 0 a) = some n) : 0 ≤ n := by
  obtain ⟨_,value⟩ := to_int_some converted
  have sign : (fmaxf 0 a).msb = false := by
    rcases fmaxf_zero a with zero | ⟨kept,q,number,positive⟩
    · rw [zero]
      rfl
    · rw [kept]
      refine Bool.eq_false_iff.mpr fun negative => ?_
      have place := rank_some number
      rw [if_pos negative] at place
      omega
  rw [sign] at value
  simp only [Bool.false_eq_true,if_false] at value
  omega

theorem fminf_below (number : rank a = some p) (b : F32) : ∃ q, rank (fminf a b) = some q ∧ q ≤ p := by
  unfold fminf
  rw [number]
  cases other : rank b with
  | none => exact ⟨p,number,Int.le_refl p⟩
  | some q =>
      dsimp only
      split
      · rename_i less
        exact ⟨q,other,less.le⟩
      · exact ⟨p,number,Int.le_refl p⟩

theorem to_int_min (small : k < 2^23) (converted : to_int (fminf (of_nat k) a) = some n) : n ≤ k := by
  obtain ⟨_,value⟩ := to_int_some converted
  obtain ⟨q,number,order⟩ := fminf_below (of_nat_number small).1 a
  have place := rank_some number
  cases sign : (fminf (of_nat k) a).msb with
  | true =>
      rw [sign] at value
      simp only [if_true] at value
      omega
  | false =>
      rw [sign] at value place
      simp only [Bool.false_eq_true,if_false] at value place
      have below : whole (magnitude (fminf (of_nat k) a)) ≤ whole (magnitude (of_nat k)) := whole_mono (by omega)
      rw [whole_of_nat small] at below
      omega
end Conversions

end BudokaiRuntime.Binary32
