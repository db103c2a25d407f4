import Mathlib.Algebra.Order.Ring.Nat

namespace BudokaiRuntime.Spu

-- The host's float and double arithmetic on bit patterns. It is a parameter of the
-- interpreter: no result below depends on how the host rounds.
structure HostFpu where
  fadd : BitVec 32 → BitVec 32 → BitVec 32
  fsub : BitVec 32 → BitVec 32 → BitVec 32
  fmul : BitVec 32 → BitVec 32 → BitVec 32
  fdiv : BitVec 32 → BitVec 32 → BitVec 32
  fabs : BitVec 32 → BitVec 32
  fsqrt : BitVec 32 → BitVec 32
  feq : BitVec 32 → BitVec 32 → Bool
  fgt : BitVec 32 → BitVec 32 → Bool
  dadd : BitVec 64 → BitVec 64 → BitVec 64
  dsub : BitVec 64 → BitVec 64 → BitVec 64
  dmul : BitVec 64 → BitVec 64 → BitVec 64
  dneg : BitVec 64 → BitVec 64
  dabs : BitVec 64 → BitVec 64
  deq : BitVec 64 → BitVec 64 → Bool
  dgt : BitVec 64 → BitVec 64 → Bool
  dge : BitVec 64 → BitVec 64 → Bool
  -- ldexp(1.0, e)
  ldexp1 : Int → BitVec 64
  f2d : BitVec 32 → BitVec 64
  d2f : BitVec 64 → BitVec 32
  -- (double)(int32_t), (double)(uint32_t) and the truncating casts back
  i2d : BitVec 32 → BitVec 64
  u2d : BitVec 32 → BitVec 64
  d2i : BitVec 64 → BitVec 32
  d2u : BitVec 64 → BitVec 32

-- The IEEE arithmetic of an actual host.
def hostFpu : HostFpu where
  fadd x y := (Float32.ofBits ⟨x⟩ + Float32.ofBits ⟨y⟩).toBits.toBitVec
  fsub x y := (Float32.ofBits ⟨x⟩ - Float32.ofBits ⟨y⟩).toBits.toBitVec
  fmul x y := (Float32.ofBits ⟨x⟩ * Float32.ofBits ⟨y⟩).toBits.toBitVec
  fdiv x y := (Float32.ofBits ⟨x⟩ / Float32.ofBits ⟨y⟩).toBits.toBitVec
  fabs x := (Float32.ofBits ⟨x⟩).abs.toBits.toBitVec
  fsqrt x := (Float32.ofBits ⟨x⟩).sqrt.toBits.toBitVec
  feq x y := Float32.ofBits ⟨x⟩ == Float32.ofBits ⟨y⟩
  fgt x y := Float32.ofBits ⟨y⟩ < Float32.ofBits ⟨x⟩
  dadd x y := (Float.ofBits ⟨x⟩ + Float.ofBits ⟨y⟩).toBits.toBitVec
  dsub x y := (Float.ofBits ⟨x⟩ - Float.ofBits ⟨y⟩).toBits.toBitVec
  dmul x y := (Float.ofBits ⟨x⟩ * Float.ofBits ⟨y⟩).toBits.toBitVec
  dneg x := (-Float.ofBits ⟨x⟩).toBits.toBitVec
  dabs x := (Float.ofBits ⟨x⟩).abs.toBits.toBitVec
  deq x y := Float.ofBits ⟨x⟩ == Float.ofBits ⟨y⟩
  dgt x y := Float.ofBits ⟨y⟩ < Float.ofBits ⟨x⟩
  dge x y := Float.ofBits ⟨y⟩ ≤ Float.ofBits ⟨x⟩
  ldexp1 e := (Float.scaleB 1 e).toBits.toBitVec
  f2d x := (Float32.ofBits ⟨x⟩).toFloat.toBits.toBitVec
  d2f x := (Float.ofBits ⟨x⟩).toFloat32.toBits.toBitVec
  i2d x := (Float.ofInt x.toInt).toBits.toBitVec
  u2d x := (Float.ofNat x.toNat).toBits.toBitVec
  d2i x := (Float.ofBits ⟨x⟩).toInt32.toBitVec
  d2u x := (Float.ofBits ⟨x⟩).toUInt32.toBitVec

end BudokaiRuntime.Spu
