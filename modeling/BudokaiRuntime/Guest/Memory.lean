import Mathlib.Algebra.Order.Ring.Nat

namespace BudokaiRuntime.Guest

-- The fixed index types (doublewords, words, halfwords, bytes, registers, pool entries).
instance nonempty2 : NeZero 2 := ⟨Nat.succ_ne_zero 1⟩
instance nonempty4 : NeZero 4 := ⟨Nat.succ_ne_zero 3⟩
instance nonempty8 : NeZero 8 := ⟨Nat.succ_ne_zero 7⟩
instance nonempty16 : NeZero 16 := ⟨Nat.succ_ne_zero 15⟩
instance nonempty128 : NeZero 128 := ⟨Nat.succ_ne_zero 127⟩
instance nonempty512 : NeZero 512 := ⟨Nat.succ_ne_zero 511⟩

-- The 4 GB reservation behind `vm_base`. Index arithmetic is uint32_t, so it
-- wraps exactly as `BitVec 32` does.
abbrev GuestMem : Type := BitVec 32 → BitVec 8

-- The two halves of a memcpy: the bytes read, and the bytes written over.
def GuestMem.window (vm : GuestMem) (ea : BitVec 32) (size : Nat) : Fin size → BitVec 8 :=
  fun k => vm (ea + BitVec.ofNat 32 k)

def GuestMem.splice (vm : GuestMem) (ea : BitVec 32) (bytes : Fin size → BitVec 8) : GuestMem :=
  fun a => if inside : ea.toNat ≤ a.toNat ∧ a.toNat < ea.toNat+size then
    bytes ⟨a.toNat-ea.toNat,by omega⟩ else vm a

end BudokaiRuntime.Guest
