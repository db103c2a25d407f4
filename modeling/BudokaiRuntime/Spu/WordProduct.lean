import Mathlib.Algebra.BigOperators.Group.List.Basic
import Mathlib.Data.BitVec
import Mathlib.Tactic.LinearCombination
import BudokaiRuntime.Spu.Multiword

-- The 32-bit product from its 16-bit parts.
namespace BudokaiRuntime.Spu

-- Registers added up by `a` in any order and grouping.
inductive Summed (fpu : HostFpu) : List SpuReg → SpuReg → Prop where
  | single : Summed fpu [r] r
  | add : Summed fpu xs x → Summed fpu ys y → Leaves fpu (.rr .a) x y t s → Summed fpu (xs++ys) s

section Parts
variable (fpu : HostFpu) (a b t : SpuReg)

theorem leaves_mpy : Leaves fpu (.rr .mpy) a b t
    (.ofWords fun i => Isa.product (Isa.right (a.word i)) (Isa.right (b.word i))) := by
  refine leaves_rr .mpy 0x78808083 (by decide) nofun ?_
  rintro insn s rfl rfl rfl
  rfl

theorem leaves_mpyu : Leaves fpu (.rr .mpyu) a b t
    (.ofWords fun i => Isa.productU (Isa.right (a.word i)) (Isa.right (b.word i))) := by
  refine leaves_rr .mpyu 0x79808083 (by decide) nofun ?_
  rintro insn s rfl rfl rfl
  rfl

theorem leaves_mpyh : Leaves fpu (.rr .mpyh) a b t
    (.ofWords fun i => Isa.product (Isa.left (a.word i)) (Isa.right (b.word i)) <<< 16) := by
  refine leaves_rr .mpyh 0x78A08083 (by decide) nofun ?_
  rintro insn s rfl rfl rfl
  rfl

theorem leaves_mpya : Leaves fpu (.rrr .mpya) a b t
    (.ofWords fun i => Isa.product (Isa.right (a.word i)) (Isa.right (b.word i)) + t.word i) := by
  refine leaves_rrr .mpya 0xC0008083 (by decide) ?_
  rintro insn s rfl rfl rfl
  rfl
end Parts

section Products
variable (x y : BitVec 16) (a b : BitVec 32)

-- Sign and zero extension agree once the upper half is shifted out.
theorem extend_shifted : x.signExtend 32 * BitVec.twoPow 32 16 = x.setWidth 32 * BitVec.twoPow 32 16 := by
  rw [BitVec.mul_twoPow_eq_shiftLeft,BitVec.mul_twoPow_eq_shiftLeft]
  apply BitVec.eq_of_getLsbD_eq
  intro i inside
  by_cases low : i < 16
  · simp [low]
  · have field : i-16 < 16 := by omega
    rw [BitVec.getLsbD_shiftLeft,BitVec.getLsbD_shiftLeft,BitVec.getLsbD_signExtend,BitVec.getLsbD_setWidth,
      if_pos field]

theorem product_shifted : Isa.product x y <<< 16 = x.setWidth 32 * y.setWidth 32 * BitVec.twoPow 32 16 := by
  rw [← product_eq,BitVec.shiftLeft_eq_mul_twoPow]
  linear_combination y.signExtend 32 * extend_shifted x + x.setWidth 32 * extend_shifted y

theorem word_halves : a = (Isa.left a).setWidth 32 * BitVec.twoPow 32 16 + (Isa.right a).setWidth 32 := by
  have whole := a.isLt
  rw [left_eq,right_eq,BitVec.mul_twoPow_eq_shiftLeft]
  apply BitVec.eq_of_toNat_eq
  simp only [BitVec.toNat_add,BitVec.toNat_shiftLeft,BitVec.toNat_setWidth,BitVec.toNat_ushiftRight,
    Nat.shiftLeft_eq,Nat.shiftRight_eq_div_pow]
  omega

-- The product of the upper halves is shifted out, and so is every sign.
theorem product_from_halves :
    Isa.product (Isa.left a) (Isa.right b) <<< 16 + Isa.product (Isa.left b) (Isa.right a) <<< 16 +
      Isa.productU (Isa.right a) (Isa.right b) = a * b := by
  have out : BitVec.twoPow 32 16 * BitVec.twoPow 32 16 = 0 := by decide
  rw [product_shifted,product_shifted,← productU_eq]
  linear_combination -b * word_halves a -
    ((Isa.left a).setWidth 32 * BitVec.twoPow 32 16 + (Isa.right a).setWidth 32) * word_halves b -
    (Isa.left a).setWidth 32 * (Isa.left b).setWidth 32 * out
end Products

theorem summed_word (summed : Summed fpu parts s) (i : Fin 4) : s.word i = (parts.map fun r => r.word i).sum := by
  induction summed with
  | single => simp
  | @add xs x ys y t s _ _ sum left right =>
      cases sum.unique (leaves_a fpu x y t)
      rw [word_ofWords,left,right,List.map_append,List.sum_append]

theorem multiply_idiom (fpu : HostFpu) (a b t u v : SpuReg) :
    (∃ p q m, Leaves fpu (.rr .mpyh) a b t p ∧ Leaves fpu (.rr .mpyh) b a u q ∧ Leaves fpu (.rr .mpyu) a b v m ∧
      (∃ s, Summed fpu [p,q,m] s) ∧
      ∀ parts s, parts.Perm [p,q,m] → Summed fpu parts s → ∀ i, s.word i = a.word i * b.word i) ∧
    ∀ c, ∃ p r, Leaves fpu (.rr .mpy) a b t p ∧ Leaves fpu (.rrr .mpya) a b c r ∧
      ∀ i, r.word i = p.word i + c.word i := by
  constructor
  · refine ⟨_,_,_,leaves_mpyh fpu a b t,leaves_mpyh fpu b a u,leaves_mpyu fpu a b v,?_,?_⟩
    · exact ⟨_,.add (.add .single .single (leaves_a fpu _ _ .zero)) .single (leaves_a fpu _ _ .zero)⟩
    · intro parts s order summed i
      rw [summed_word summed i,(order.map _).sum_eq]
      simp only [List.map_cons,List.map_nil,List.sum_cons,List.sum_nil,word_ofWords]
      rw [← product_from_halves (a.word i) (b.word i)]
      ring
  · intro c
    refine ⟨_,_,leaves_mpy fpu a b t,leaves_mpya fpu a b c,?_⟩
    intro i
    simp only [word_ofWords]

-- 0x8001FFFF times 0xFFFF8000 in every lane.
theorem multiply_idiom_negative :
    ∃ p q m s, Leaves hostFpu (.rr .mpyh) (.ofWords fun _ => 0x8001FFFF) (.ofWords fun _ => 0xFFFF8000) .zero p ∧
      Leaves hostFpu (.rr .mpyh) (.ofWords fun _ => 0xFFFF8000) (.ofWords fun _ => 0x8001FFFF) .zero q ∧
      Leaves hostFpu (.rr .mpyu) (.ofWords fun _ => 0x8001FFFF) (.ofWords fun _ => 0xFFFF8000) .zero m ∧
      Summed hostFpu [p,q,m] s ∧ ∀ i, s.word i = (SpuReg.ofWords fun _ => 0x8001FFFF).word i *
        (SpuReg.ofWords fun _ => 0xFFFF8000).word i := by
  obtain ⟨p,q,m,high,other,low,⟨s,summed⟩,product⟩ :=
    (multiply_idiom hostFpu (.ofWords fun _ => 0x8001FFFF) (.ofWords fun _ => 0xFFFF8000) .zero .zero .zero).1
  exact ⟨p,q,m,s,high,other,low,summed,product _ s (List.Perm.refl _) summed⟩

end BudokaiRuntime.Spu
