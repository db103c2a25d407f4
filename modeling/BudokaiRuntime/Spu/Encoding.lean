import BudokaiRuntime.Spu.Fields
import BudokaiRuntime.Spu.Isa

-- The interpreter's instruction fields and decoding stages against the
-- architecture's bit numbering.
namespace BudokaiRuntime.Spu

def lowOnes (k : Nat) : BitVec 32 := (BitVec.allOnes k).setWidth 32

theorem getLsbD_lowOnes (k i : Nat) : (lowOnes k).getLsbD i = (decide (i < 32) && decide (i < k)) := by
  simp [lowOnes]

theorem and_lowOnes (v : BitVec 32) (k : Nat) : v &&& lowOnes k = (v.setWidth k).setWidth 32 := by
  apply BitVec.eq_of_getLsbD_eq
  intro i bound
  simp only [BitVec.getLsbD_and,getLsbD_lowOnes,BitVec.getLsbD_setWidth,bound,decide_true,Bool.true_and]
  exact Bool.and_comm _ _

-- Sign extension as the macros write it: test the top bit of the masked field and
-- set everything above.
theorem sign_ext_mask (v : BitVec 32) (k : Nat) (some_bits : 0 < k) (fits : k ≤ 32) :
    (if (v &&& lowOnes k) &&& BitVec.twoPow 32 (k-1) ≠ 0 then (v &&& lowOnes k) ||| BitVec.allOnes 32 <<< k
      else v &&& lowOnes k) = (v.setWidth k).signExtend 32 := by
  have top : (v.setWidth k).msb = v.getLsbD (k-1) := by rw [BitVec.msb_setWidth,decide_eq_true some_bits]; rfl
  have test : (v &&& lowOnes k) &&& BitVec.twoPow 32 (k-1) ≠ 0 ↔ v.getLsbD (k-1) = true := by
    have nonzero : BitVec.twoPow 32 (k-1) ≠ 0 := by
      intro zero
      have bit := congrArg (·.getLsbD (k-1)) zero
      simp [BitVec.getLsbD_twoPow] at bit
      omega
    have inside : k-1 < 32 := by omega
    have below : k-1 < k := by omega
    rw [BitVec.and_twoPow,BitVec.getLsbD_and,getLsbD_lowOnes,decide_eq_true inside,decide_eq_true below]
    cases v.getLsbD (k-1) with
    | true => simpa using nonzero
    | false => simp
  apply BitVec.eq_of_getLsbD_eq
  intro i bound
  rw [BitVec.getLsbD_signExtend,top,decide_eq_true bound,BitVec.getLsbD_setWidth]
  by_cases sign : v.getLsbD (k-1) = true
  · rw [if_pos (test.mpr sign),BitVec.getLsbD_or,BitVec.getLsbD_and,getLsbD_lowOnes,
      BitVec.getLsbD_shiftLeft,BitVec.getLsbD_allOnes,sign]
    by_cases low : i < k
    · simp only [low,bound,decide_true,Bool.and_true,Bool.true_and,Bool.not_true,Bool.false_and,
        Bool.or_false,if_true]
    · have outside : i-k < 32 := by omega
      simp only [low,bound,outside,decide_true,decide_false,Bool.and_true,Bool.and_false,Bool.false_or,
        Bool.not_false,if_false]
  · rw [if_neg (mt test.mp sign),BitVec.getLsbD_and,getLsbD_lowOnes,eq_false_of_ne_true sign]
    by_cases low : i < k
    · simp only [low,bound,decide_true,Bool.and_true,Bool.true_and,if_true]
    · simp only [low,decide_false,Bool.and_false,if_false]

theorem sign_ext10_eq (v : BitVec 32) : sign_ext10 (v &&& 0x3FF) = (v.setWidth 10).signExtend 32 :=
  sign_ext_mask v 10 (by decide) (by decide)

theorem sign_ext16_eq (v : BitVec 32) : sign_ext16 (v &&& 0xFFFF) = (v.setWidth 16).signExtend 32 :=
  sign_ext_mask v 16 (by decide) (by decide)

theorem bits_eq (v : BitVec 32) (first last : Nat) :
    Isa.bits v first last = (v >>> (31-last)).setWidth (last-first+1) := by
  apply BitVec.eq_of_toNat_eq
  simp [Isa.bits]

theorem regField_eq (v : BitVec 32) : regField v = (v.setWidth 7).toFin := by
  apply Fin.ext
  show (v &&& lowOnes 7).toNat = (v.setWidth 7).toNat
  rw [and_lowOnes,BitVec.toNat_setWidth_of_le (by decide)]

section Fields
variable (insn : BitVec 32)

theorem F_RT_eq : F_RT insn = Isa.RT insn := by
  rw [F_RT,regField_eq,Isa.RT,bits_eq]; rfl

theorem F_RA_eq : F_RA insn = Isa.RA insn := by
  rw [F_RA,regField_eq,Isa.RA,bits_eq]

theorem F_RB_eq : F_RB insn = Isa.RB insn := by
  rw [F_RB,regField_eq,Isa.RB,bits_eq]

theorem F_RC_eq : F_RC insn = Isa.RT4 insn := by
  rw [F_RC,regField_eq,Isa.RT4,bits_eq]

theorem F_I7_eq : F_I7 insn = (Isa.I7 insn).setWidth 32 := by
  rw [Isa.I7,bits_eq]
  exact and_lowOnes (insn >>> 14) 7

theorem F_I10_eq : F_I10 insn = (Isa.I10 insn).signExtend 32 := by
  rw [Isa.I10,bits_eq]
  exact sign_ext10_eq (insn >>> 14)

theorem F_I16_eq : F_I16 insn = (Isa.I16 insn).signExtend 32 := by
  rw [Isa.I16,bits_eq]
  exact sign_ext16_eq (insn >>> 7)

theorem F_I16U_eq : F_I16U insn = (Isa.I16 insn).setWidth 32 := by
  rw [Isa.I16,bits_eq]
  exact and_lowOnes (insn >>> 7) 16

theorem F_I18_eq : F_I18 insn = (Isa.I18 insn).setWidth 32 := by
  rw [Isa.I18,bits_eq]
  exact and_lowOnes (insn >>> 7) 18
end Fields

-- Every stage of the decoder looks only at leading bits of the top eleven.
def opcode11 (insn : BitVec 32) : Nat := insn.toNat / 2^21

theorem leading_bits (insn : BitVec 32) (w : Nat) (low : 0 < w) (high : w ≤ 11) :
    (Isa.bits insn 0 (w-1)).toNat = opcode11 insn / 2^(11-w) := by
  have size := insn.isLt
  have split : 2^21 * 2^(11-w) = 2^(32-w) := by rw [← Nat.pow_add]; congr 1; omega
  have shift : 31-(w-1) = 32-w := by omega
  have width : w-1-0+1 = w := by omega
  have small : insn.toNat / 2^(32-w) < 2^w := by
    apply Nat.div_lt_of_lt_mul
    rwa [← Nat.pow_add,show 32-w+w = 32 by omega]
  simp only [Isa.bits,BitVec.extractLsb'_toNat,shift,Nat.shiftRight_eq_div_pow,width]
  rw [Nat.mod_eq_of_lt small,opcode11,Nat.div_div_eq_div_mul,split]

theorem leading_field (insn : BitVec 32) (w : Nat) (low : 0 < w) (high : w ≤ 11) :
    (insn >>> (32-w) &&& lowOnes w).toNat = opcode11 insn / 2^(11-w) := by
  rw [and_lowOnes,BitVec.toNat_setWidth_of_le (by omega),← leading_bits insn w low high]
  simp [Isa.bits,show 31-(w-1) = 32-w by omega,show w-1+1 = w by omega]

section Decoding
variable (insn : BitVec 32)

theorem F_OP4_leading : (F_OP4 insn).toNat = opcode11 insn / 128 := leading_field insn 4 (by decide) (by decide)
theorem F_OP7_leading : (F_OP7 insn).toNat = opcode11 insn / 16 := leading_field insn 7 (by decide) (by decide)
theorem F_OP8_leading : (F_OP8 insn).toNat = opcode11 insn / 8 := leading_field insn 8 (by decide) (by decide)
theorem F_OP9_leading : (F_OP9 insn).toNat = opcode11 insn / 4 := leading_field insn 9 (by decide) (by decide)
theorem F_OP11_leading : (F_OP11 insn).toNat = opcode11 insn := by
  have whole := leading_field insn 11 (by decide) (by decide)
  rwa [Nat.sub_self,Nat.pow_zero,Nat.div_one] at whole
end Decoding

theorem decode_rrr_opcode (op : Rrr) (encoded : Isa.rrr_opcode op = some v) :
    8 ≤ v ∧ decode_rrr v = some op := by
  cases op <;> cases encoded <;> decide

theorem decode_ri18_opcode (op : Ri18) (encoded : Isa.ri18_opcode op = some v) :
    v/8 < 8 ∧ decode_ri18 v = some op := by
  cases op <;> cases encoded <;> decide

theorem decode_ri16_opcode (op : Ri16) (encoded : Isa.ri16_opcode op = some v) :
    v/32 < 8 ∧ decode_ri18 (v/4) = none ∧ decode_ri16 v = some op := by
  cases op <;> cases encoded <;> decide

-- The nine-bit stage sees one more bit than the RI10 opcode fixes.
theorem decode_ri10_opcode (op : Ri10) (encoded : Isa.ri10_opcode op = some v) :
    v/16 < 8 ∧ decode_ri18 (v/2) = none ∧ decode_ri16 (v*2) = none ∧ decode_ri16 (v*2+1) = none ∧
      decode_ri10 v = some op := by
  cases op <;> cases encoded <;> decide

theorem decode_rr_opcode (op : Rr) (encoded : Isa.rr_opcode op = some v) :
    v/128 < 8 ∧ decode_ri18 (v/16) = none ∧ decode_ri16 (v/4) = none ∧ decode_ri10 (v/8) = none ∧
      decode_chan v = none ∧ decode_rr v = some op := by
  cases op <;> cases encoded <;> decide

theorem spu_decode_encoded (op : SpuOp) (encoded : Isa.Encodes insn op) : spu_decode insn = op := by
  have lead4 := leading_bits insn 4 (by decide) (by decide)
  have lead7 := leading_bits insn 7 (by decide) (by decide)
  have lead8 := leading_bits insn 8 (by decide) (by decide)
  have lead9 := leading_bits insn 9 (by decide) (by decide)
  have lead11 := leading_bits insn 11 (by decide) (by decide)
  simp only [Nat.reduceSub,Nat.reducePow,Nat.div_one] at lead4 lead7 lead8 lead9 lead11
  unfold spu_decode
  simp only [F_OP4_leading,F_OP7_leading,F_OP8_leading,F_OP9_leading,F_OP11_leading]
  cases op with
  | rrr op =>
      obtain ⟨high,stage⟩ := decode_rrr_opcode op encoded
      rw [lead4] at high stage
      simp only [if_pos high,stage]
  | ri18 op =>
      obtain ⟨low,stage⟩ := decode_ri18_opcode op encoded
      rw [lead7,Nat.div_div_eq_div_mul] at low
      rw [lead7] at stage
      simp only [if_neg (Nat.not_le.mpr low),stage]
  | ri16 op =>
      obtain ⟨low,stage7,stage⟩ := decode_ri16_opcode op encoded
      rw [lead9,Nat.div_div_eq_div_mul] at low stage7
      rw [lead9] at stage
      simp only [if_neg (Nat.not_le.mpr low),stage7,stage]
  | ri10 op =>
      obtain ⟨low,stage7,even,odd,stage⟩ := decode_ri10_opcode op encoded
      rw [lead8,Nat.div_div_eq_div_mul] at low stage7
      rw [lead8] at stage even odd
      have stage9 : decode_ri16 (opcode11 insn/4) = none := by
        rcases (show opcode11 insn/4 = opcode11 insn/8*2 ∨ opcode11 insn/4 = opcode11 insn/8*2+1 by omega)
          with here | here
        · rw [here]; exact even
        · rw [here]; exact odd
      simp only [if_neg (Nat.not_le.mpr low),stage7,stage9,stage]
  | rr op =>
      obtain ⟨low,stage7,stage9,stage8,channel,stage⟩ := decode_rr_opcode op encoded
      rw [lead11] at low stage7 stage9 stage8 channel stage
      simp only [if_neg (Nat.not_le.mpr low),stage7,stage9,stage8,channel,stage]
  | chan op => cases encoded
  | unknown => cases encoded

end BudokaiRuntime.Spu
