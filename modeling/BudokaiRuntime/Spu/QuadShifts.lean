import BudokaiRuntime.Spu.Results

-- The byte and bit stages of a quadword shift compose to one shift of the whole count.
namespace BudokaiRuntime.Spu

-- byteOp and then bitOp on its result, whatever the destinations held before.
def Shifts (fpu : HostFpu) (byteOp bitOp : Rr) (v byteCount bitCount r : SpuReg) : Prop :=
  ∃ m, (∀ t, Leaves fpu (.rr byteOp) v byteCount t m) ∧ ∀ t, Leaves fpu (.rr bitOp) m bitCount t r

section Counts
variable (v : BitVec 128)

theorem getLsbD_rotate (k i : Nat) (inside : i < 128) :
    (v.rotateLeft k).getLsbD i = v.getLsbD ((i + 128 - k % 128) % 128) := by
  have small : k % 128 < 128 := Nat.mod_lt _ (by decide)
  rw [BitVec.getLsbD_rotateLeft]
  by_cases wraps : i < k % 128
  · have place : (i + 128 - k % 128) % 128 = 128 - k % 128 + i := by omega
    rw [place,decide_eq_true wraps]
    rfl
  · have place : (i + 128 - k % 128) % 128 = i - k % 128 := by omega
    rw [place,decide_eq_false wraps,decide_eq_true inside]
    rfl

theorem rotate_twice (m k : Nat) : (v.rotateLeft m).rotateLeft k = v.rotateLeft (m+k) := by
  apply BitVec.eq_of_getLsbD_eq
  intro i inside
  have back : (i + 128 - k % 128) % 128 < 128 := Nat.mod_lt _ (by decide)
  have place : ((i + 128 - k % 128) % 128 + 128 - m % 128) % 128 = (i + 128 - (m+k) % 128) % 128 := by omega
  rw [getLsbD_rotate _ k i inside,getLsbD_rotate _ m _ back,getLsbD_rotate _ (m+k) i inside,place]

theorem rotate_count (n : Nat) : (v.rotateLeft (8*(n/8 % 16))).rotateLeft (n % 8) = v.rotateLeft (n % 128) := by
  have whole : 8*(n/8 % 16) + n % 8 = n % 128 := by omega
  rw [rotate_twice,whole]

theorem left_count (n : Nat) (short : n < 256) :
    v <<< (8*(n/8 % 32)) <<< (n % 8) = BitVec.ofNat 128 (v.toNat*2^n) := by
  have whole : 8*(n/8 % 32) + n % 8 = n := by omega
  rw [← BitVec.shiftLeft_add,whole]
  apply BitVec.eq_of_toNat_eq
  rw [BitVec.toNat_shiftLeft,Nat.shiftLeft_eq,BitVec.toNat_ofNat]

-- The byte count is negated after the shift by three, the bit count before the mask.
theorem right_count (n : BitVec 32) (short : n.toNat < 256) :
    v >>> (8*((32 - (7-n).toNat/8 % 32) % 32)) >>> ((- -n).toNat % 8) = BitVec.ofNat 128 (v.toNat/2^n.toNat) := by
  have negated : (7-n).toNat = (2^32 - n.toNat + 7) % 2^32 := BitVec.toNat_sub 7 n
  have whole : 8*((32 - (7-n).toNat/8 % 32) % 32) + n.toNat % 8 = n.toNat := by omega
  have fits : v.toNat/2^n.toNat < 2^128 := Nat.lt_of_le_of_lt (Nat.div_le_self _ _) v.isLt
  rw [BitVec.neg_neg,← BitVec.shiftRight_add,whole]
  apply BitVec.eq_of_toNat_eq
  rw [BitVec.toNat_ushiftRight,Nat.shiftRight_eq_div_pow,BitVec.toNat_ofNat,Nat.mod_eq_of_lt fits]
end Counts

section Stages
variable (fpu : HostFpu) (a b t : SpuReg)

theorem leaves_rotqbybi :
    Leaves fpu (.rr .rotqbybi) a b t (.ofQuad (a.quad.rotateLeft (8*((b.word 0).toNat/8 % 16)))) := by
  refine leaves_rr .rotqbybi 0x39808083 (by decide) nofun ?_
  rintro insn s rfl rfl rfl
  rfl

theorem leaves_rotqbi : Leaves fpu (.rr .rotqbi) a b t (.ofQuad (a.quad.rotateLeft ((b.word 0).toNat % 8))) := by
  refine leaves_rr .rotqbi 0x3B008083 (by decide) nofun ?_
  rintro insn s rfl rfl rfl
  rfl

theorem leaves_shlqbybi : Leaves fpu (.rr .shlqbybi) a b t (.ofQuad (a.quad <<< (8*((b.word 0).toNat/8 % 32)))) := by
  refine leaves_rr .shlqbybi 0x39E08083 (by decide) nofun ?_
  rintro insn s rfl rfl rfl
  rfl

theorem leaves_shlqbi : Leaves fpu (.rr .shlqbi) a b t (.ofQuad (a.quad <<< ((b.word 0).toNat % 8))) := by
  refine leaves_rr .shlqbi 0x3B608083 (by decide) nofun ?_
  rintro insn s rfl rfl rfl
  rfl

theorem leaves_rotqmbybi : Leaves fpu (.rr .rotqmbybi) a b t
    (.ofQuad (a.quad >>> (8*((32 - (b.word 0).toNat/8 % 32) % 32)))) := by
  refine leaves_rr .rotqmbybi 0x39A08083 (by decide) nofun ?_
  rintro insn s rfl rfl rfl
  rfl

theorem leaves_rotqmbi : Leaves fpu (.rr .rotqmbi) a b t (.ofQuad (a.quad >>> ((-b.word 0).toNat % 8))) := by
  refine leaves_rr .rotqmbi 0x3B208083 (by decide) nofun ?_
  rintro insn s rfl rfl rfl
  rfl
end Stages

theorem quad_shift_idioms (fpu : HostFpu) (v b c : SpuReg) (n : BitVec 32) :
    (b.word 0 = n → c.word 0 = n →
      Shifts fpu .rotqbybi .rotqbi v b c (.ofQuad (v.quad.rotateLeft (n.toNat % 128)))) ∧
    (b.word 0 = n → c.word 0 = n → n.toNat < 256 →
      Shifts fpu .shlqbybi .shlqbi v b c (.ofQuad (BitVec.ofNat 128 (v.quad.toNat*2^n.toNat)))) ∧
    (b.word 0 = 7-n → c.word 0 = -n → n.toNat < 256 →
      Shifts fpu .rotqmbybi .rotqmbi v b c (.ofQuad (BitVec.ofNat 128 (v.quad.toNat/2^n.toNat)))) := by
  refine ⟨?_,?_,?_⟩
  · intro bytes bits
    refine ⟨_,leaves_rotqbybi fpu v b,?_⟩
    intro t
    have stage := leaves_rotqbi fpu (.ofQuad (v.quad.rotateLeft (8*((b.word 0).toNat/8 % 16)))) c t
    rw [quad_ofQuad,bits,bytes,rotate_count] at stage
    rw [bytes]
    exact stage
  · intro bytes bits short
    refine ⟨_,leaves_shlqbybi fpu v b,?_⟩
    intro t
    have stage := leaves_shlqbi fpu (.ofQuad (v.quad <<< (8*((b.word 0).toNat/8 % 32)))) c t
    rw [quad_ofQuad,bits,bytes,left_count _ _ short] at stage
    rw [bytes]
    exact stage
  · intro bytes bits short
    refine ⟨_,leaves_rotqmbybi fpu v b,?_⟩
    intro t
    have stage := leaves_rotqmbi fpu (.ofQuad (v.quad >>> (8*((32 - (b.word 0).toNat/8 % 32) % 32)))) c t
    rw [quad_ofQuad,bits,bytes,right_count _ n short] at stage
    rw [bytes]
    exact stage

-- The register 1 by 12 bits: counts 12 for the left shifts, -5 and -12 for the right shift.
theorem quad_shift_idioms_twelve :
    Shifts hostFpu .rotqbybi .rotqbi (.ofQuad 1) (.ofWords fun _ => 12) (.ofWords fun _ => 12)
      (.ofQuad ((SpuReg.ofQuad 1).quad.rotateLeft ((12 : BitVec 32).toNat % 128))) ∧
    Shifts hostFpu .shlqbybi .shlqbi (.ofQuad 1) (.ofWords fun _ => 12) (.ofWords fun _ => 12)
      (.ofQuad (BitVec.ofNat 128 ((SpuReg.ofQuad 1).quad.toNat*2^(12 : BitVec 32).toNat))) ∧
    Shifts hostFpu .rotqmbybi .rotqmbi (.ofQuad 1) (.ofWords fun _ => 7-12) (.ofWords fun _ => -12)
      (.ofQuad (BitVec.ofNat 128 ((SpuReg.ofQuad 1).quad.toNat/2^(12 : BitVec 32).toNat))) :=
  ⟨(quad_shift_idioms hostFpu (.ofQuad 1) (.ofWords fun _ => 12) (.ofWords fun _ => 12) 12).1
      (word_ofWords _ _) (word_ofWords _ _),
    (quad_shift_idioms hostFpu (.ofQuad 1) (.ofWords fun _ => 12) (.ofWords fun _ => 12) 12).2.1
      (word_ofWords _ _) (word_ofWords _ _) (by decide),
    (quad_shift_idioms hostFpu (.ofQuad 1) (.ofWords fun _ => 7-12) (.ofWords fun _ => -12) 12).2.2
      (word_ofWords _ _) (word_ofWords _ _) (by decide)⟩

end BudokaiRuntime.Spu
