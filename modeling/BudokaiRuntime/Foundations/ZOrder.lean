import Mathlib.Data.Fintype.Card
import Mathlib.Data.Fintype.Prod
import Mathlib.Data.Nat.Bitwise

-- Numbers that take their even bits from one coordinate and their odd bits from another.
namespace BudokaiRuntime.ZOrder

structure Interleaved (bits n x y : Nat) : Prop where
  below : n < 2^(2*bits)
  bit : ∀ i < 2*bits, n.testBit i = if i % 2 = 0 then x.testBit (i/2) else y.testBit (i/2)

section Bits
variable {bits n x y : Nat}

theorem even_bit (z : Interleaved bits n x y) (k : Nat) (inside : k < bits) : n.testBit (2*k) = x.testBit k := by
  have half : 2*k/2 = k := by omega
  rw [z.bit (2*k) (by omega),if_pos (Nat.mul_mod_right 2 k),half]

theorem odd_bit (z : Interleaved bits n x y) (k : Nat) (inside : k < bits) : n.testBit (2*k+1) = y.testBit k := by
  have half : (2*k+1)/2 = k := by omega
  rw [z.bit (2*k+1) (by omega),if_neg (by omega),half]

theorem high_bit {v w : Nat} (small : v < 2^w) (k : Nat) (above : w ≤ k) : v.testBit k = false :=
  Nat.testBit_lt_two_pow (small.trans_le (Nat.pow_le_pow_right (by decide) above))

theorem eq_of_low_bits {v w : Nat} (vs : v < 2^bits) (ws : w < 2^bits)
    (same : ∀ k < bits, v.testBit k = w.testBit k) : v = w := by
  refine Nat.eq_of_testBit_eq fun k => ?_
  by_cases low : k < bits
  · exact same k low
  · rw [high_bit vs k (by omega),high_bit ws k (by omega)]

theorem interleaved_inj {x' y' : Nat} (z : Interleaved bits n x y) (z' : Interleaved bits n x' y')
    (xs : x < 2^bits) (ys : y < 2^bits) (xs' : x' < 2^bits) (ys' : y' < 2^bits) : x = x' ∧ y = y' :=
  ⟨eq_of_low_bits xs xs' fun k low => (even_bit z k low).symm.trans (even_bit z' k low),
    eq_of_low_bits ys ys' fun k low => (odd_bit z k low).symm.trans (odd_bit z' k low)⟩

theorem interleaved_lt (z : Interleaved bits n x y) (shape : a = b ∨ a = b+1) (xs : x < 2^a) (ys : y < 2^b) :
    n < 2^(a+b) := by
  refine Nat.lt_pow_two_of_testBit _ fun i above => ?_
  by_cases inside : i < 2*bits
  · rw [z.bit i inside]
    by_cases even : i % 2 = 0
    · rw [if_pos even]
      exact high_bit xs (i/2) (by omega)
    · rw [if_neg even]
      exact high_bit ys (i/2) (by omega)
  · exact high_bit z.below i (by omega)

theorem row_corner (z : Interleaved bits n (2^k) y) (inside : k < bits) : 2^(2*k) ≤ n := by
  refine Nat.ge_two_pow_of_testBit ?_
  rw [even_bit z k inside,Nat.testBit_two_pow_self]

theorem column_corner (z : Interleaved bits n x (2^k)) (inside : k < bits) : 2^(2*k+1) ≤ n := by
  refine Nat.ge_two_pow_of_testBit ?_
  rw [odd_bit z k inside,Nat.testBit_two_pow_self]

theorem highest_difference {v w : Nat} (less : v < w) :
    ∃ d, v.testBit d = false ∧ w.testBit d = true ∧ ∀ k, d < k → v.testBit k = w.testBit k := by
  have differ : v ^^^ w ≠ 0 := fun none => less.ne (Nat.xor_eq_zero_iff.mp none)
  obtain ⟨d,found,last⟩ := Nat.exists_most_significant_bit differ
  have above : ∀ k, d < k → v.testBit k = w.testBit k := by
    intro k beyond
    have equal := last k beyond
    rwa [Nat.testBit_xor,bne_eq_false_iff_eq] at equal
  rw [Nat.testBit_xor] at found
  cases left : v.testBit d with
  | false =>
      rw [left,Bool.false_xor] at found
      exact ⟨d,left,found,above⟩
  | true =>
      -- Then w would be the smaller one.
      have right : w.testBit d = false := by rwa [left,Bool.true_xor,Bool.not_eq_true'] at found
      have more := Nat.lt_of_testBit d right left fun k beyond => (above k beyond).symm
      omega

-- Numbers are ordered by the highest place in which the coordinates differ.
theorem interleaved_ordered {x' y' : Nat} (z : Interleaved bits n x y) (z' : Interleaved bits n' x' y') (p : Nat)
    (off : n.testBit p = false) (on : n'.testBit p = true)
    (above : ∀ k, p < k → if k % 2 = 0 then x.testBit (k/2) = x'.testBit (k/2) else y.testBit (k/2) = y'.testBit (k/2)) :
    n < n' := by
  refine Nat.lt_of_testBit p off on fun k beyond => ?_
  have same := above k beyond
  by_cases low : k < 2*bits
  · rw [z.bit k low,z'.bit k low]
    by_cases even : k % 2 = 0
    · rw [if_pos even] at same
      rw [if_pos even,if_pos even,same]
    · rw [if_neg even] at same
      rw [if_neg even,if_neg even,same]
  · rw [high_bit z.below k (by omega),high_bit z'.below k (by omega)]

theorem set_inside {v d : Nat} (small : v < 2^bits) (on : v.testBit d = true) : d < bits := by
  by_contra outside
  rw [high_bit small d (by omega)] at on
  cases on

theorem interleaved_row {x' : Nat} (z : Interleaved bits n x y) (z' : Interleaved bits n' x' y) (small : x' < 2^bits)
    (less : x < x') : n < n' := by
  obtain ⟨d,off,on,above⟩ := highest_difference less
  have inside := set_inside small on
  refine interleaved_ordered z z' (2*d) ((even_bit z d inside).trans off) ((even_bit z' d inside).trans on) ?_
  intro k beyond
  split
  · exact above (k/2) (by omega)
  · rfl

theorem interleaved_column {y' : Nat} (z : Interleaved bits n x y) (z' : Interleaved bits n' x y') (small : y' < 2^bits)
    (less : y < y') : n < n' := by
  obtain ⟨d,off,on,above⟩ := highest_difference less
  have inside := set_inside small on
  refine interleaved_ordered z z' (2*d+1) ((odd_bit z d inside).trans off) ((odd_bit z' d inside).trans on) ?_
  intro k beyond
  split
  · rfl
  · exact above (k/2) (by omega)

end Bits

-- A numbering of w by h places that stays below w*h and never repeats uses every number.
theorem numbering_onto (w h : Nat) (index : Nat → Nat → Nat) (inside : ∀ x < w, ∀ y < h, index x y < w*h)
    (distinct : ∀ x < w, ∀ y < h, ∀ x' < w, ∀ y' < h, index x y = index x' y' → x = x' ∧ y = y') :
    ∀ i < w*h, ∃ x < w, ∃ y < h, index x y = i := by
  let place : Fin w × Fin h → Fin (w*h) := fun p => ⟨index p.1 p.2,inside p.1 p.1.isLt p.2 p.2.isLt⟩
  have injective : Function.Injective place := by
    intro p q same
    have equal : (place p).val = (place q).val := by rw [same]
    obtain ⟨one,two⟩ := distinct p.1 p.1.isLt p.2 p.2.isLt q.1 q.1.isLt q.2 q.2.isLt equal
    exact Prod.ext (Fin.ext one) (Fin.ext two)
  have bijective : Function.Bijective place :=
    (Fintype.bijective_iff_injective_and_card place).mpr ⟨injective,by simp⟩
  intro i bound
  obtain ⟨p,same⟩ := bijective.surjective ⟨i,bound⟩
  exact ⟨p.1,p.1.isLt,p.2,p.2.isLt,congrArg Fin.val same⟩

end BudokaiRuntime.ZOrder
