import BudokaiRuntime.Foundations.ByteLanes
import BudokaiRuntime.Guest.Memory

-- The big-endian reads of guest memory, addresses truncated to 32 bits.
namespace BudokaiRuntime.Guest
open ByteLanes

def vm_read8 (vm : GuestMem) (addr : BitVec 64) : BitVec 8 := vm (addr.setWidth 32)

def vm_read32 (vm : GuestMem) (addr : BitVec 64) : BitVec 32 :=
  let a := addr.setWidth 32
  (vm a).setWidth 32 <<< 24 ||| (vm (a+1)).setWidth 32 <<< 16 ||| (vm (a+2)).setWidth 32 <<< 8 |||
    (vm (a+3)).setWidth 32

def vm_read64 (vm : GuestMem) (addr : BitVec 64) : BitVec 64 :=
  (vm_read32 vm addr).setWidth 64 <<< 32 ||| (vm_read32 vm (addr+4)).setWidth 64

def GuestMem.be32 (vm : GuestMem) (a : BitVec 32) : BitVec 32 := ofBytes (k:=4) (vm.window a 4)

theorem byteAt_be32 (vm : GuestMem) (a : BitVec 32) (j : Fin 4) :
    byteAt (k:=4) (vm.be32 a) j = vm (a + BitVec.ofNat 32 j) := byteAt_ofBytes (k:=4) _ j

theorem shifted_bytes (b : Fin 4 → BitVec 8) :
    (b 0).setWidth 32 <<< 24 ||| (b 1).setWidth 32 <<< 16 ||| (b 2).setWidth 32 <<< 8 ||| (b 3).setWidth 32 =
      ofBytes (k:=4) b := by
  apply bytes_ext (k:=4)
  intro j
  rw [byteAt_ofBytes]
  apply BitVec.eq_of_getLsbD_eq
  intro i bound
  rw [getLsbD_byteAt]
  match j with
  | 0 | 1 | 2 | 3 =>
      simp (disch:=omega) [bound,decide_eq_true,decide_eq_false,BitVec.getLsbD_of_ge]

theorem vm_read32_eq (vm : GuestMem) (addr : BitVec 64) : vm_read32 vm addr = vm.be32 (addr.setWidth 32) := by
  rw [GuestMem.be32,← shifted_bytes]
  unfold vm_read32 GuestMem.window
  rw [show addr.setWidth 32 + BitVec.ofNat 32 (0 : Fin 4).val = addr.setWidth 32 from BitVec.add_zero _]
  rfl

theorem be32_zero (vm : GuestMem) (a : BitVec 32) : vm.be32 a = 0 ↔ ∀ j : Fin 4, vm (a + BitVec.ofNat 32 j) = 0 := by
  have zero (j : Fin 4) : byteAt (k:=4) (0 : BitVec 32) j = 0 := by
    match j with
    | 0 | 1 | 2 | 3 => rfl
  constructor
  · intro word j
    exact (byteAt_be32 vm a j).symm.trans (word ▸ zero j)
  · intro bytes
    apply bytes_ext (k:=4)
    intro j
    exact (byteAt_be32 vm a j).trans ((bytes j).trans (zero j).symm)

end BudokaiRuntime.Guest
