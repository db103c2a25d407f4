import BudokaiRuntime.Spu.Encoding
import BudokaiRuntime.Spu.Execute

-- Element by element: what the interpreter computes for one lane is what the
-- architecture prescribes for it.
namespace BudokaiRuntime.Spu

section Masks
theorem mask_w_eq (b : Bool) : mask_w b = Isa.allIf 32 b := by cases b <;> rfl
theorem mask_h_eq (b : Bool) : mask_h b = Isa.allIf 16 b := by cases b <;> rfl
theorem mask_b_eq (b : Bool) : mask_b b = Isa.allIf 8 b := by cases b <;> rfl

theorem beq_decide (x y : BitVec w) : (x == y) = decide (x = y) := by by_cases equal : x = y <;> simp [equal]
theorem slt_decide (x y : BitVec w) : x.slt y = decide (x.toInt < y.toInt) := rfl
theorem ult_decide (x y : BitVec w) : x.ult y = decide (x.toNat < y.toNat) := rfl

theorem bit_test (s : BitVec 32) (k : Nat) : (s >>> k &&& 1 != 0) = s.getLsbD k := by
  have one : (1 : BitVec 32) = BitVec.twoPow 32 0 := rfl
  rw [one,BitVec.and_twoPow,BitVec.getLsbD_ushiftRight,Nat.add_zero]
  cases s.getLsbD k <;> rfl

-- Element i of n mask elements is governed by bit 32-n+i of the word.
theorem select_bit (v : BitVec 32) (n i : Nat) (fits : n ≤ 32) (inside : i < n) :
    v.getLsbD (n-1-i) = v.getMsbD (32-n+i) := by
  have place : 32-1-(32-n+i) = n-1-i := by omega
  rw [BitVec.getMsbD_eq_getLsbD,place,decide_eq_true (by omega),Bool.true_and]

theorem select_imm (v : BitVec 16) (k : Fin 16) : (v.setWidth 32).getLsbD (15-k.val) = v.getMsbD k := by
  rw [BitVec.getMsbD_eq_getLsbD,BitVec.getLsbD_setWidth,decide_eq_true k.isLt,
    decide_eq_true (by omega : 15-k.val < 32)]
end Masks

theorem ilhu_eq (v : BitVec 16) : v.setWidth 32 <<< 16 = v ++ 0#16 := by
  apply BitVec.eq_of_getLsbD_eq
  intro i bound
  rw [BitVec.getLsbD_shiftLeft,BitVec.getLsbD_setWidth,BitVec.getLsbD_append,decide_eq_true bound]
  by_cases low : i < 16
  · simp [low]
  · simp [low,show i-16 < 32 by omega]

section Carries
variable (x y : BitVec 32)

theorem carry_of (n : BitVec 64) (small : n.toNat < 2^33) :
    (n >>> 32).setWidth 32 = Isa.carry n.toNat := by
  apply BitVec.eq_of_toNat_eq
  rw [BitVec.toNat_setWidth,BitVec.toNat_ushiftRight,Nat.shiftRight_eq_div_pow,Isa.carry]
  split <;> simp <;> omega

theorem cg_eq : ((x.setWidth 64 + y.setWidth 64) >>> 32).setWidth 32 = Isa.carry (x.toNat + y.toNat) := by
  have sum : (x.setWidth 64 + y.setWidth 64).toNat = x.toNat + y.toNat := by
    simp only [BitVec.toNat_add,BitVec.toNat_setWidth]; omega
  rw [carry_of _ (by omega),sum]

theorem low_bit (c : BitVec 32) : (c &&& 1).toNat = c.toNat % 2 := by
  rw [BitVec.toNat_and]
  exact Nat.and_one_is_mod _

theorem cgx_eq (c : BitVec 32) :
    ((x.setWidth 64 + y.setWidth 64 + (c &&& 1).setWidth 64) >>> 32).setWidth 32 =
      Isa.carry (x.toNat + y.toNat + c.toNat % 2) := by
  have sum : (x.setWidth 64 + y.setWidth 64 + (c &&& 1).setWidth 64).toNat =
      x.toNat + y.toNat + c.toNat % 2 := by
    simp only [BitVec.toNat_add,BitVec.toNat_setWidth,low_bit]; omega
  rw [carry_of _ (by omega),sum]

theorem bg_eq : (if x ≤ y then 1 else 0 : BitVec 32) = if x.toNat ≤ y.toNat then 1 else 0 := rfl

-- Carry out of RB + ~RA + borrow, read as a comparison.
theorem bgx_eq (c : BitVec 32) : Isa.carry (y.toNat + (~~~x).toNat + c.toNat % 2) =
      if c.getLsbD 0 then if x.toNat ≤ y.toNat then 1 else 0
      else if x.toNat < y.toNat then 1 else 0 := by
  rw [Isa.carry,BitVec.toNat_not]
  have borrow : c.getLsbD 0 = decide (c.toNat % 2 = 1) := by simp [BitVec.getLsbD,Nat.testBit_zero]
  rw [borrow]
  by_cases odd : c.toNat % 2 = 1
  · simp only [odd,decide_true,if_true]
    congr 1
    apply propext
    omega
  · have even : c.toNat % 2 = 0 := by omega
    simp only [even,Nat.add_zero,decide_false,Bool.false_eq_true,if_false,Nat.zero_ne_one]
    congr 1
    apply propext
    omega
end Carries

section Bytes
variable (x y : BitVec 8)

theorem absdb_eq :
    BitVec.ofInt 8 (if (x.toNat : Int) - y.toNat < 0 then -((x.toNat : Int) - y.toNat)
      else (x.toNat : Int) - y.toNat) =
      if x.toNat < y.toNat then y - x else x - y := by
  apply BitVec.eq_of_toInt_eq
  simp only [BitVec.toInt_ofInt]
  by_cases less : x.toNat < y.toNat
  · rw [if_pos (by omega),if_pos less,BitVec.toInt_eq_toNat_bmod,BitVec.toNat_sub_of_le (by
      rw [BitVec.le_def]; omega)]
    congr 1
    omega
  · rw [if_neg (by omega),if_neg less,BitVec.toInt_eq_toNat_bmod,BitVec.toNat_sub_of_le (by
      rw [BitVec.le_def]; omega)]
    congr 1
    omega

theorem avgb_eq : ((x.setWidth 32 + y.setWidth 32 + 1) >>> 1).setWidth 8 =
    BitVec.ofNat 8 ((x.toNat + y.toNat + 1)/2) := by
  apply BitVec.eq_of_toNat_eq
  have one : (1 : BitVec 32).toNat = 1 := rfl
  simp only [BitVec.toNat_setWidth,BitVec.toNat_ushiftRight,BitVec.toNat_add,BitVec.toNat_ofNat,one,
    Nat.shiftRight_eq_div_pow]
  omega

theorem low_byte (h : BitVec 16) : (h &&& 0xFF).setWidth 8 = h.setWidth 8 := by
  have ones : (0xFF : BitVec 16) = (BitVec.allOnes 8).setWidth 16 := rfl
  rw [ones,BitVec.setWidth_and,BitVec.setWidth_setWidth_of_le _ (by decide),BitVec.setWidth_eq,
    BitVec.and_allOnes]
end Bytes

section Counts
theorem clz_test (x : BitVec 32) (m : Nat) (inside : m < 32) :
    x <<< (31-m) &&& 0x80000000 = 0 ↔ x.getLsbD m = false := by
  have top : (0x80000000 : BitVec 32) = BitVec.twoPow 32 31 := rfl
  have place : 31-(31-m) = m := by omega
  have upper : ¬ 31 < 31-m := by omega
  rw [top,BitVec.and_twoPow,BitVec.getLsbD_shiftLeft,place,decide_eq_false upper]
  cases x.getLsbD m with
  | true => simp
  | false => simp

-- Round `31-m` of the loop looks at bit m.
theorem clzLoop_eq (x : BitVec 32) (m : Nat) (inside : m < 32) :
    BitVec.ofNat 32 (clzLoop (m+1) (x <<< (31-m)) (31-m)) = x.clzAuxRec m := by
  induction m with
  | zero =>
      rw [BitVec.clzAuxRec_zero]
      simp only [clzLoop,clz_test x 0 inside]
      cases x.getLsbD 0 <;> rfl
  | succ m ih =>
      rw [BitVec.clzAuxRec_succ,clzLoop]
      simp only [clz_test x (m+1) inside]
      cases x.getLsbD (m+1) with
      | true => rfl
      | false =>
          have next : 31-(m+1)+1 = 31-m := by omega
          simp only [if_true,← BitVec.shiftLeft_add,next]
          exact ih (by omega)

theorem clz_w_eq (x : BitVec 32) : clz_w x = x.clz := by
  unfold clz_w
  split
  · rename_i zero; subst zero; decide
  · have rounds := clzLoop_eq x 31 (by decide)
    rwa [Nat.sub_self,BitVec.shiftLeft_zero] at rounds

theorem cntb_eq (x : BitVec 8) : BitVec.ofNat 8 (cntLoop 8 x 0) = x.cpop := by
  revert x
  decide
end Counts

section Products
theorem right_eq (v : BitVec 32) : Isa.right v = v.setWidth 16 := by
  rw [Isa.right,bits_eq]
  rfl

theorem left_eq (v : BitVec 32) : Isa.left v = (v >>> 16).setWidth 16 := by rw [Isa.left,bits_eq]

theorem and_half (v : BitVec 32) : v &&& 0xFFFF = (v.setWidth 16).setWidth 32 := and_lowOnes v 16

theorem s16_right (v : BitVec 32) : s16 (v &&& 0xFFFF) = (Isa.right v).signExtend 32 := by
  rw [s16,right_eq,and_half]
  simp

theorem s16_left (v : BitVec 32) : s16 (v >>> 16) = (Isa.left v).signExtend 32 := by rw [s16,left_eq]
theorem word_right (v : BitVec 32) : v &&& 0xFFFF = (Isa.right v).setWidth 32 := by rw [right_eq,and_half]
theorem word_left (v : BitVec 32) : v >>> 16 = (Isa.left v).setWidth 32 := by
  rw [left_eq]
  apply BitVec.eq_of_toNat_eq
  simp only [BitVec.toNat_setWidth,BitVec.toNat_ushiftRight,Nat.shiftRight_eq_div_pow]
  omega

theorem product_eq (x y : BitVec 16) : x.signExtend 32 * y.signExtend 32 = Isa.product x y :=
  (BitVec.ofInt_mul _ _).symm

theorem productU_eq (x y : BitVec 16) : x.setWidth 32 * y.setWidth 32 = Isa.productU x y := by
  apply BitVec.eq_of_toNat_eq
  rw [BitVec.toNat_mul,Isa.productU,BitVec.toNat_ofNat,BitVec.toNat_setWidth_of_le (by decide),
    BitVec.toNat_setWidth_of_le (by decide)]

theorem imm16 (i : BitVec 10) : (i.signExtend 32).setWidth 16 = i.signExtend 16 := by
  apply BitVec.eq_of_getLsbD_eq
  intro j bound
  rw [BitVec.getLsbD_setWidth,BitVec.getLsbD_signExtend,BitVec.getLsbD_signExtend]
  simp only [bound,show j < 32 by omega,decide_true,Bool.true_and]

theorem imm8 (i : BitVec 10) : (i.signExtend 32).setWidth 8 = i.setWidth 8 := by
  apply BitVec.eq_of_getLsbD_eq
  intro j bound
  rw [BitVec.getLsbD_setWidth,BitVec.getLsbD_signExtend,BitVec.getLsbD_setWidth]
  simp only [show j < 10 by omega,show j < 32 by omega,decide_true,Bool.true_and,if_true]

theorem mpyi_eq (v : BitVec 16) (i : BitVec 10) :
    v.signExtend 32 * i.signExtend 32 = Isa.product v (i.signExtend 16) := by
  rw [Isa.product,BitVec.toInt_signExtend_of_le (by decide),BitVec.ofInt_mul]
  rfl

theorem mpyui_eq (v : BitVec 16) (i : BitVec 10) :
    v.setWidth 32 * (i.signExtend 32 &&& 0xFFFF) = Isa.productU v (i.signExtend 16) := by
  rw [and_half,imm16,productU_eq]

theorem mpys_eq (v : BitVec 32) : v.sshiftRight 16 = (Isa.left v).signExtend 32 := by
  rw [left_eq]
  apply BitVec.eq_of_getLsbD_eq
  intro j bound
  have top : ((v >>> 16).setWidth 16).msb = v.msb := by
    rw [BitVec.msb_setWidth,BitVec.getLsbD_ushiftRight,BitVec.msb_eq_getLsbD_last]
    rfl
  rw [BitVec.getLsbD_sshiftRight,BitVec.getLsbD_signExtend,top,BitVec.getLsbD_setWidth,
    BitVec.getLsbD_ushiftRight]
  by_cases low : j < 16
  · have inside : 16+j < 32 := by omega
    simp only [low,inside,bound,Nat.not_le.mpr bound,decide_true,decide_false,Bool.not_false,
      Bool.true_and,if_true]
  · have outside : ¬ 16+j < 32 := by omega
    simp only [low,outside,bound,Nat.not_le.mpr bound,decide_true,decide_false,Bool.not_false,
      Bool.true_and,if_false]
end Products

section Shifts
theorem count_toNat (n : BitVec 32) (k : Nat) (fits : k ≤ 32) : (n &&& lowOnes k).toNat = n.toNat % 2^k := by
  rw [and_lowOnes,BitVec.toNat_setWidth_of_le fits,BitVec.toNat_setWidth]

variable (v : BitVec 32)

theorem rot_w_eq (s : BitVec 32) (small : s.toNat < 32) : rot_w v s = v.rotateLeft s.toNat := by
  unfold rot_w
  rw [BitVec.rotateLeft_def,Nat.mod_eq_of_lt small]
  split
  · rfl
  · rename_i zero
    have none : s = 0 := Decidable.not_not.mp zero
    subst none
    show v = v <<< 0 ||| v >>> 32
    rw [BitVec.shiftLeft_zero,BitVec.ushiftRight_eq_zero (Nat.le_refl 32),BitVec.or_zero]

theorem shr_w_eq (s : BitVec 32) : shr_w v s = v >>> s.toNat := by
  unfold shr_w
  split
  · rfl
  · rename_i large
    have beyond : 32 ≤ s.toNat := Nat.not_lt.mp large
    exact (BitVec.ushiftRight_eq_zero beyond).symm

theorem shl_w_eq (s : BitVec 32) : shl_w v s = v <<< s.toNat := by
  unfold shl_w
  split
  · rfl
  · rename_i large
    have beyond : 32 ≤ s.toNat := Nat.not_lt.mp large
    exact (BitVec.shiftLeft_eq_zero beyond).symm

-- From 31 on an arithmetic right shift leaves only copies of the sign.
theorem sshiftRight_saturated (x : BitVec (w+1)) (n : Nat) (large : w ≤ n) : x.sshiftRight n = x.sshiftRight w := by
  apply BitVec.eq_of_getLsbD_eq
  intro j bound
  have sign : ∀ m, w ≤ m → (if m+j < w+1 then x.getLsbD (m+j) else x.msb) = x.msb := by
    intro m atLeast
    split
    · have last : m+j = w+1-1 := by omega
      rw [last,BitVec.msb_eq_getLsbD_last]
    · rfl
  rw [BitVec.getLsbD_sshiftRight,BitVec.getLsbD_sshiftRight,sign n large,sign w (Nat.le_refl w)]

theorem sar_w_eq (s : BitVec 32) : sar_w v s = v.sshiftRight s.toNat := by
  unfold sar_w
  split
  · rename_i large
    have beyond : 31 < s.toNat := large
    exact (sshiftRight_saturated v s.toNat (by omega)).symm
  · rfl

variable (h : BitVec 16)

theorem rot_h_eq (s : BitVec 32) (small : s.toNat < 16) : rot_h h s = h.rotateLeft s.toNat := by
  unfold rot_h
  rw [BitVec.rotateLeft_def,Nat.mod_eq_of_lt small]
  apply BitVec.eq_of_getLsbD_eq
  intro j bound
  split
  · simp only [BitVec.getLsbD_setWidth,BitVec.getLsbD_or,BitVec.getLsbD_shiftLeft,
      BitVec.getLsbD_ushiftRight,bound,show j < 32 by omega,decide_true,Bool.true_and]
    by_cases below : j < s.toNat
    · simp [below,show 16-s.toNat+j < 32 by omega]
    · simp [below,show j-s.toNat < 32 by omega,show 16-s.toNat+j < 32 by omega]
  · rename_i zero
    have none : s = 0 := Decidable.not_not.mp zero
    subst none
    show ((h.setWidth 32).setWidth 16).getLsbD j = (h <<< 0 ||| h >>> 16).getLsbD j
    rw [BitVec.shiftLeft_zero,BitVec.ushiftRight_eq_zero (Nat.le_refl 16),BitVec.or_zero]
    simp

theorem shr_h_eq (s : BitVec 32) : shr_h h s = h >>> s.toNat := by
  unfold shr_h
  apply BitVec.eq_of_toNat_eq
  split
  · simp only [BitVec.toNat_setWidth,BitVec.toNat_ushiftRight,Nat.shiftRight_eq_div_pow]
    have := Nat.div_le_self h.toNat (2^s.toNat)
    rw [Nat.mod_eq_of_lt (by omega : h.toNat < 2^32),Nat.mod_eq_of_lt (by omega)]
  · rename_i large
    have beyond : 16 ≤ s.toNat := Nat.not_lt.mp large
    rw [BitVec.ushiftRight_eq_zero beyond]
    rfl

theorem shl_h_eq (s : BitVec 32) : shl_h h s = h <<< s.toNat := by
  unfold shl_h
  split
  · apply BitVec.eq_of_getLsbD_eq
    intro j bound
    simp only [BitVec.getLsbD_setWidth,BitVec.getLsbD_shiftLeft,bound,show j < 32 by omega,
      show j-s.toNat < 32 by omega,decide_true,Bool.true_and]
  · rename_i large
    have beyond : 16 ≤ s.toNat := Nat.not_lt.mp large
    rw [BitVec.shiftLeft_eq_zero beyond]
    rfl

theorem sar_h_eq (s : BitVec 32) : sar_h h s = h.sshiftRight s.toNat := by
  have widened : ∀ n, ((h.signExtend 32).sshiftRight n).setWidth 16 = h.sshiftRight n := by
    intro n
    apply BitVec.eq_of_getLsbD_eq
    intro j bound
    have top : (h.signExtend 32).msb = h.msb := by rw [BitVec.msb_signExtend]; simp
    have low16 : ¬ 16 ≤ j := by omega
    have low32 : ¬ 32 ≤ j := by omega
    rw [BitVec.getLsbD_setWidth,BitVec.getLsbD_sshiftRight,BitVec.getLsbD_sshiftRight,
      BitVec.getLsbD_signExtend,top]
    by_cases wide : n+j < 32
    · simp [wide,bound,low16,low32]
    · simp [wide,bound,low16,low32,show ¬ n+j < 16 by omega]
  unfold sar_h
  rw [widened]
  split
  · rename_i large
    have beyond : 15 < s.toNat := large
    exact (sshiftRight_saturated h s.toNat (by omega)).symm
  · rfl
end Shifts

section ShiftCounts
-- The count is reduced modulo a power of two before the shift; the low seven bits
-- of an immediate are the same however it is extended.
theorem imm_low (i : BitVec 7) (k : Nat) (fits : k ≤ 7) :
    (i.setWidth 32).setWidth k = (i.signExtend 32).setWidth k := by
  apply BitVec.eq_of_getLsbD_eq
  intro j bound
  have low : j < 7 := by omega
  have word : j < 32 := by omega
  rw [BitVec.getLsbD_setWidth,BitVec.getLsbD_setWidth,BitVec.getLsbD_setWidth,BitVec.getLsbD_signExtend]
  simp only [low,word,decide_true,Bool.true_and,if_true]

theorem imm_count (i : BitVec 7) (k : Nat) (fits : k ≤ 7) :
    i.setWidth 32 &&& lowOnes k = i.signExtend 32 &&& lowOnes k := by
  rw [and_lowOnes,and_lowOnes,imm_low i k fits]

theorem zero_minus (n : BitVec 32) : 0 - n = -n := BitVec.zero_sub n
theorem imm_negated (i : BitVec 7) (k : Nat) (fits : k ≤ 7) :
    (0 - i.setWidth 32) &&& lowOnes k = (0 - i.signExtend 32) &&& lowOnes k := by
  have narrow : k ≤ 32 := by omega
  rw [and_lowOnes,and_lowOnes,zero_minus,zero_minus,BitVec.setWidth_neg_of_le narrow,
    BitVec.setWidth_neg_of_le narrow,imm_low i k fits]

theorem negated_toNat (n : BitVec 32) (k : Nat) (fits : k ≤ 32) :
    ((0 - n) &&& lowOnes k).toNat = (-n).toNat % 2^k := by
  rw [zero_minus,count_toNat _ k fits]

variable (x n : BitVec 32) (h : BitVec 16) (m : BitVec 16)

theorem rot_eq : rot_w x (n &&& 31) = Isa.rot x n := by
  have count : (n &&& 31).toNat = n.toNat % 32 := count_toNat n 5 (by decide)
  rw [rot_w_eq x _ (by omega),count,Isa.rot]

theorem rotm_eq : shr_w x ((0 - n) &&& 63) = Isa.rotm x n := by
  have count : ((0 - n) &&& 63).toNat = (-n).toNat % 64 := negated_toNat n 6 (by decide)
  rw [shr_w_eq,count,Isa.rotm]

theorem rotma_eq : sar_w x ((0 - n) &&& 63) = Isa.rotma x n := by
  have count : ((0 - n) &&& 63).toNat = (-n).toNat % 64 := negated_toNat n 6 (by decide)
  rw [sar_w_eq,count,Isa.rotma]

theorem shl_eq : shl_w x (n &&& 63) = Isa.shl x n := by
  have count : (n &&& 63).toNat = n.toNat % 64 := count_toNat n 6 (by decide)
  rw [shl_w_eq,count,Isa.shl]

theorem roth_eq : rot_h h (n &&& 15) = Isa.rot h n := by
  have count : (n &&& 15).toNat = n.toNat % 16 := count_toNat n 4 (by decide)
  rw [rot_h_eq h _ (by omega),count,Isa.rot]

theorem rothm_eq : shr_h h ((0 - n) &&& 31) = Isa.rotm h n := by
  have count : ((0 - n) &&& 31).toNat = (-n).toNat % 32 := negated_toNat n 5 (by decide)
  rw [shr_h_eq,count,Isa.rotm]

theorem rotmah_eq : sar_h h ((0 - n) &&& 31) = Isa.rotma h n := by
  have count : ((0 - n) &&& 31).toNat = (-n).toNat % 32 := negated_toNat n 5 (by decide)
  rw [sar_h_eq,count,Isa.rotma]

theorem shlh_eq : shl_h h (n &&& 31) = Isa.shl h n := by
  have count : (n &&& 31).toNat = n.toNat % 32 := count_toNat n 5 (by decide)
  rw [shl_h_eq,count,Isa.shl]

theorem rot_half : Isa.rot h (m.setWidth 32) = Isa.rot h m := by
  rw [Isa.rot,Isa.rot,BitVec.toNat_setWidth_of_le (by decide)]

theorem shl_half : Isa.shl h (m.setWidth 32) = Isa.shl h m := by
  rw [Isa.shl,Isa.shl,BitVec.toNat_setWidth_of_le (by decide)]

theorem negated_half : (-m.setWidth 32).toNat % (2*16) = (-m).toNat % (2*16) := by
  rw [BitVec.toNat_neg,BitVec.toNat_neg,BitVec.toNat_setWidth_of_le (by decide)]
  omega

theorem rotm_half : Isa.rotm h (m.setWidth 32) = Isa.rotm h m := by
  rw [Isa.rotm,Isa.rotm,negated_half]

theorem rotma_half : Isa.rotma h (m.setWidth 32) = Isa.rotma h m := by
  rw [Isa.rotma,Isa.rotma,negated_half]
end ShiftCounts

end BudokaiRuntime.Spu
