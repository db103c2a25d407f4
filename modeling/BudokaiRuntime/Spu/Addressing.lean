import BudokaiRuntime.Spu.Encoding

-- Local store addresses: masking as reduction modulo the local store, and the
-- aligned quadword an address names.
namespace BudokaiRuntime.Spu

theorem ls_mask_ones : LS_MASK = lowOnes 18 := rfl

theorem and_ls_mask_toNat (addr : BitVec 32) : (addr &&& LS_MASK).toNat = addr.toNat % SPU_LS_SIZE := by
  rw [ls_mask_ones,and_lowOnes,BitVec.toNat_setWidth_of_le (by decide),BitVec.toNat_setWidth]

theorem and_ls_mask_idem (addr : BitVec 32) : addr &&& LS_MASK &&& LS_MASK = addr &&& LS_MASK := by
  rw [BitVec.and_assoc,BitVec.and_self]

theorem masked_add (addr offset : BitVec 32) :
    ((addr &&& LS_MASK) + offset) &&& LS_MASK = (addr + offset) &&& LS_MASK := by
  apply BitVec.eq_of_toNat_eq
  simp only [and_ls_mask_toNat,BitVec.toNat_add]
  have size : SPU_LS_SIZE = 2^18 := by decide
  rw [size]
  omega

theorem and_field_toNat (v : BitVec 32) (m k : Nat) (fits : m+k ≤ 32) :
    (v &&& BitVec.ofNat 32 ((2^m-1)*2^k)).toNat = v.toNat % 2^(m+k) / 2^k * 2^k := by
  have small : (2^m-1)*2^k < 2^32 := by
    have wide : (2:Nat)^(m+k) ≤ 2^32 := Nat.pow_le_pow_right (by decide) fits
    have split : (2:Nat)^m*2^k = 2^(m+k) := (Nat.pow_add 2 m k).symm
    have positive := Nat.two_pow_pos m
    have less : (2^m-1)*2^k < 2^m*2^k := Nat.mul_lt_mul_of_pos_right (by omega) (Nat.two_pow_pos k)
    omega
  rw [BitVec.toNat_and,BitVec.toNat_ofNat,Nat.mod_eq_of_lt small]
  apply Nat.eq_of_testBit_eq
  intro i
  simp only [Nat.testBit_and,Nat.testBit_mul_two_pow,Nat.testBit_two_pow_sub_one,
    Nat.testBit_div_two_pow,Nat.testBit_mod_two_pow]
  by_cases low : k ≤ i
  · have place : i-k+k = i := by omega
    by_cases high : i < m+k
    · simp [low,place,high,show i-k < m by omega]
    · simp [place,high,show ¬ i-k < m by omega]
  · simp [low]

theorem and_quad_mask_toNat (addr : BitVec 32) :
    (addr &&& (LS_MASK &&& ~~~15#32)).toNat = addr.toNat % SPU_LS_SIZE / 16 * 16 :=
  and_field_toNat addr 14 4 (by decide)

theorem lsQuad_eq (addr : BitVec 32) (k : Fin 16) : lsQuad addr k = Isa.quadPlace addr k := by
  apply Fin.ext
  simp only [lsQuad,Isa.quadPlace,and_quad_mask_toNat]

-- Masking an effective address before the access changes nothing.
theorem lsQuad_masked (addr : BitVec 32) (k : Fin 16) :
    lsQuad (addr &&& LS_MASK &&& ~~~15#32) k = Isa.quadPlace addr k := by
  rw [← lsQuad_eq]
  apply Fin.ext
  simp only [lsQuad]
  rw [BitVec.and_assoc addr,BitVec.and_assoc addr,BitVec.and_self]

theorem ls_read128_masked (ls : LocalStore) (addr : BitVec 32) :
    ls_read128 ls (addr &&& LS_MASK &&& ~~~15#32) = Isa.load ls addr := by
  simp only [ls_read128,Isa.load,lsQuad_masked]

theorem ls_write128_masked (ls : LocalStore) (addr : BitVec 32) (r : SpuReg) :
    ls_write128 ls (addr &&& LS_MASK &&& ~~~15#32) r = Isa.store ls addr r := by
  funext i
  simp only [ls_write128,Isa.store,LocalStore.splice,lsQuad_masked,Isa.quadPlace]
  by_cases here : i.val/16 = addr.toNat % SPU_LS_SIZE / 16
  · have inside : addr.toNat % SPU_LS_SIZE / 16 * 16 + 0 ≤ i.val ∧
        i.val < addr.toNat % SPU_LS_SIZE / 16 * 16 + 0 + 16 := by omega
    have offset : i.val - (addr.toNat % SPU_LS_SIZE / 16 * 16 + 0) = i.val % 16 := by omega
    simp only [Fin.val_zero,inside,and_self,dite_true,if_pos here,offset]
  · have outside : ¬ (addr.toNat % SPU_LS_SIZE / 16 * 16 + 0 ≤ i.val ∧
        i.val < addr.toNat % SPU_LS_SIZE / 16 * 16 + 0 + 16) := by omega
    simp only [Fin.val_zero,outside,dite_false,if_neg here]

-- Immediates scaled to bytes: shifting after the extension or appending zeros before it.
theorem scaled_imm (v : BitVec n) (k : Nat) (positive : 0 < n) (fits : n+k ≤ 32) :
    v.signExtend 32 <<< k = (v ++ 0#k).signExtend 32 := by
  apply BitVec.eq_of_getLsbD_eq
  intro i bound
  have some_bits : ¬ n = 0 := by omega
  rw [BitVec.getLsbD_shiftLeft,BitVec.getLsbD_signExtend,BitVec.getLsbD_signExtend,BitVec.msb_append,
    BitVec.getLsbD_append,if_neg some_bits,decide_eq_true bound]
  by_cases low : i < k
  · simp [low,show i < n+k by omega]
  · by_cases within : i < n+k
    · simp [low,within,show i-k < 32 by omega,show i-k < n by omega]
    · simp [low,within,show i-k < 32 by omega,show ¬ i-k < n by omega]

-- The absolute forms extend with zeros instead; the mask hides the difference.
theorem absolute_imm (v : BitVec 16) : v.setWidth 32 <<< 2 &&& LS_MASK = (v ++ 0#2).signExtend 32 &&& LS_MASK := by
  rw [ls_mask_ones]
  apply BitVec.eq_of_getLsbD_eq
  intro i bound
  rw [BitVec.getLsbD_and,BitVec.getLsbD_and,getLsbD_lowOnes,BitVec.getLsbD_shiftLeft,BitVec.getLsbD_setWidth,
    BitVec.getLsbD_signExtend,BitVec.getLsbD_append]
  by_cases within : i < 18
  · by_cases low : i < 2
    · simp [low,within,bound]
    · simp [low,within,bound,show i-2 < 32 by omega]
  · simp [within]

end BudokaiRuntime.Spu
