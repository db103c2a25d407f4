import Mathlib.Data.List.Basic

-- The parts of the 4 GB reservation that vm_init commits.
namespace BudokaiRuntime.Guest

structure Region where
  base : Nat
  size : Nat

def Region.holds (region : Region) (a : Nat) : Prop := region.base ≤ a ∧ a < region.base+region.size

def Region.covers (region : Region) (first size : Nat) : Prop :=
  region.base ≤ first ∧ first+size ≤ region.base+region.size

instance (region : Region) (first size : Nat) : Decidable (region.covers first size) :=
  inferInstanceAs (Decidable (_ ∧ _))

-- Low memory, main RAM, stack, stack headroom, LV2/TLS, the 0xFEED0000 base.
def vm_init : List Region :=
  [⟨0x00000000,0x10000⟩,⟨0x00010000,0x10000000⟩,⟨0xD0000000,0x10000000⟩,⟨0xE0000000,0x1000⟩,⟨0xFFFF0000,0x10000⟩,
    ⟨0xFEED0000,0x10000⟩]

def Committed (a : Nat) : Prop := ∃ region ∈ vm_init, region.holds a

theorem committed_iff (a : Nat) : Committed a ↔ a < 0x10010000 ∨ 0xD0000000 ≤ a ∧ a < 0xE0001000 ∨
    0xFEED0000 ≤ a ∧ a < 0xFEEE0000 ∨ 0xFFFF0000 ≤ a ∧ a < 0x100000000 := by
  simp only [Committed,vm_init,List.exists_mem_cons_iff,List.not_mem_nil,false_and,exists_false,or_false,Region.holds]
  omega

end BudokaiRuntime.Guest
