import BudokaiRuntime.Foundations.UnsignedShifts
import BudokaiRuntime.Ppu.Context

-- The rotate-and-mask helpers with the shifts that C++ gives a result, against the
-- architecture. Context has the helpers as total functions.
namespace BudokaiRuntime.Ppu.RotateMask
open UnsignedShifts

def ones : BitVec w := -1

def ppc_rlwinm (rs : BitVec 32) (sh mb me : Int) : Option (BitVec 32) :=
  let rotated := Option.map₂ (· ||| ·) (shiftLeft rs sh) (shiftRight rs (32-sh))
  let mask :=
    if mb ≤ me then Option.map₂ (· &&& ·) (shiftRight ones mb) (shiftLeft ones (31-me))
    else Option.map₂ (· ||| ·) (shiftRight ones mb) (shiftLeft ones (31-me))
  Option.map₂ (· &&& ·) rotated mask

-- `n &= 63`
def ppc_rotl64 (v : BitVec 64) (n : Int) : Option (BitVec 64) :=
  let n := n % 64
  Option.map₂ (· ||| ·) (shiftLeft v n) (shiftRight v (64-n))

def ppc_mask64 (mb me : Int) : Option (BitVec 64) :=
  if mb ≤ me then
    let mask := if mb = 0 then some ones else shiftRight ones mb
    Option.map₂ (· &&& ·) mask (if me = 63 then some ones else shiftLeft ones (63-me))
  else Option.map₂ (· ||| ·) (shiftRight ones mb) (shiftLeft ones (63-me))

def ppc_rldicl (rs : BitVec 64) (sh mb : Int) : Option (BitVec 64) :=
  Option.map₂ (· &&& ·) (ppc_rotl64 rs sh) (ppc_mask64 mb 63)

def ppc_rldicr (rs : BitVec 64) (sh me : Int) : Option (BitVec 64) :=
  Option.map₂ (· &&& ·) (ppc_rotl64 rs sh) (ppc_mask64 0 me)

-- The architecture: rotate left, then keep the bits mb to me.
def rotated_field (rs : BitVec w) (sh mb me : Nat) : BitVec w := rs.rotateLeft sh &&& field w mb me

theorem ones_eq : (ones : BitVec w) = BitVec.allOnes w := BitVec.neg_one_eq_allOnes

section Masks
variable {w mb me : Nat}

theorem ones_from (first : mb < w) : shiftRight (ones : BitVec w) mb = some (BitVec.allOnes w >>> mb) := by
  rw [ones_eq,shiftRight_inside _ rfl first]

theorem ones_to {n : Int} (last : me < w) (place : n = (w-1-me : Nat)) :
    shiftLeft (ones : BitVec w) n = some (BitVec.allOnes w <<< (w-1-me)) := by
  rw [ones_eq,shiftLeft_inside _ place (by omega)]

theorem mask_parts {left right : Option (BitVec w)} (from_first : left = some (BitVec.allOnes w >>> mb))
    (to_last : right = some (BitVec.allOnes w <<< (w-1-me))) :
    (if (mb : Int) ≤ me then Option.map₂ (· &&& ·) left right else Option.map₂ (· ||| ·) left right) =
      some (field w mb me) := by
  rw [from_first,to_last]
  by_cases order : mb ≤ me
  · rw [if_pos (Int.ofNat_le.mpr order),← field_meet order]
    rfl
  · rw [if_neg (by omega),← field_wrap (by omega)]
    rfl

-- The two counts of 0 are left out, without a difference.
theorem mask64_field (first : mb < 64) (last : me < 64) : ppc_mask64 mb me = some (field 64 mb me) := by
  have left : (if (mb : Int) = 0 then some ones else shiftRight ones mb) = some (BitVec.allOnes 64 >>> mb) := by
    by_cases start : mb = 0
    · subst start
      rfl
    · rw [if_neg (by omega),ones_from first]
  have right : (if (me : Int) = 63 then some ones else shiftLeft ones (63-me)) =
      some (BitVec.allOnes 64 <<< (64-1-me)) := by
    by_cases whole : me = 63
    · subst whole
      rfl
    · rw [if_neg (by omega),ones_to last (by omega)]
  have plain := mask_parts (ones_from first) (ones_to last (n:=63-me) (by omega))
  unfold ppc_mask64
  by_cases order : mb ≤ me
  · rw [← mask_parts left right,if_pos (Int.ofNat_le.mpr order),if_pos (Int.ofNat_le.mpr order)]
  · rw [if_neg (by omega)] at plain ⊢
    exact plain
end Masks

section Words
variable {sh mb me : Nat} (rs : BitVec 32) (first : mb < 32) (last : me < 32)
include first last

theorem rlwinm_turned (count : sh < 32) (turned : sh ≠ 0) :
    ppc_rlwinm rs sh mb me = some (rotated_field rs sh mb me) := by
  have mask := mask_parts (ones_from first) (ones_to last (n:=31-me) (by omega))
  unfold ppc_rlwinm
  rw [rotate_parts rs (n:=sh) (m:=32-sh) rfl rfl count turned]
  dsimp only
  rw [mask]
  rfl

-- A count of 0 shifts right by the width.
theorem rlwinm_iff (count : sh < 32) : ppc_rlwinm rs sh mb me = some (rotated_field rs sh mb me) ↔ sh ≠ 0 := by
  refine ⟨?_,rlwinm_turned rs first last count⟩
  rintro returns rfl
  unfold ppc_rlwinm at returns
  rw [rotate_whole rs (n:=32-(0 : Nat)) rfl] at returns
  cases returns
end Words

section Doublewords
variable {sh mb me : Nat} (rs : BitVec 64)

theorem rotl64_unturned : ppc_rotl64 rs (0 : Nat) = none := rotate_whole rs rfl _

variable (count : sh < 64)
include count

theorem rotl64_turned (turned : sh ≠ 0) : ppc_rotl64 rs sh = some (rs.rotateLeft sh) :=
  rotate_parts rs (by omega) (by omega) count turned

theorem rotl64_masked_iff (first : mb < 64) (last : me < 64) :
    Option.map₂ (· &&& ·) (ppc_rotl64 rs sh) (ppc_mask64 mb me) = some (rotated_field rs sh mb me) ↔ sh ≠ 0 := by
  rw [mask64_field first last]
  constructor
  · rintro returns rfl
    rw [rotl64_unturned] at returns
    cases returns
  · intro turned
    rw [rotl64_turned rs count turned]
    rfl
end Doublewords

-- Context's total helper has the architected result for every field, also where C++ leaves
-- it open.
theorem total_rldicl (rs : BitVec 64) (sh mb : Nat) (first : mb < 64) :
    Ppu.ppc_rldicl rs sh mb = rotated_field rs sh mb 63 := by
  have rotate : Ppu.ppc_rotl64 rs sh = rs.rotateLeft sh := BitVec.rotateLeft_def.symm
  have mask : Ppu.ppc_mask64 mb 63 = field 64 mb 63 := by
    have left : (if mb = 0 then BitVec.allOnes 64 else BitVec.allOnes 64 >>> mb) = BitVec.allOnes 64 >>> mb := by
      by_cases start : mb = 0
      · subst start
        rfl
      · rw [if_neg start]
    have whole : ~~~(0 : BitVec 64) = BitVec.allOnes 64 := BitVec.not_zero
    unfold Ppu.ppc_mask64
    rw [whole,← field_meet (by omega),if_pos (by omega)]
    exact congrArg (· &&& BitVec.allOnes 64 <<< (64-1-63)) left
  rw [Ppu.ppc_rldicl,rotate,mask,rotated_field]

theorem rotate_helpers_iff (sh mb me : Nat) :
    (sh < 32 → mb < 32 → me < 32 → ∀ rs,
      (ppc_rlwinm rs sh mb me = some (rotated_field rs sh mb me) ↔ sh ≠ 0)) ∧
    (sh < 64 → mb < 64 → ∀ rs, (ppc_rldicl rs sh mb = some (rotated_field rs sh mb 63) ↔ sh ≠ 0)) ∧
    (sh < 64 → me < 64 → ∀ rs, (ppc_rldicr rs sh me = some (rotated_field rs sh 0 me) ↔ sh ≠ 0)) := by
  refine ⟨?_,?_,?_⟩
  · exact fun count first last rs => rlwinm_iff rs first last count
  · exact fun count first rs => rotl64_masked_iff rs count first (by decide)
  · exact fun count last rs => rotl64_masked_iff rs count (by decide) last

theorem rotate_helpers_iff_fields :
    (ppc_rlwinm 0x12345678 (8 : Nat) (24 : Nat) (31 : Nat) = some (rotated_field 0x12345678 8 24 31) ↔ 8 ≠ 0) ∧
    (ppc_rldicl 0x1FFFFFFFF (63 : Nat) (1 : Nat) = some (rotated_field 0x1FFFFFFFF 63 1 63) ↔ 63 ≠ 0) ∧
    (ppc_rldicr 0x1FFFFFFFF (3 : Nat) (60 : Nat) = some (rotated_field 0x1FFFFFFFF 3 0 60) ↔ 3 ≠ 0) :=
  ⟨(rotate_helpers_iff 8 24 31).1 (by decide) (by decide) (by decide) _,
    (rotate_helpers_iff 63 1 63).2.1 (by decide) (by decide) _,
    (rotate_helpers_iff 3 0 60).2.2 (by decide) (by decide) _⟩

-- The call in func_000E9218 and func_000CB5B0: all ones, a count of 0 and a field from 48.
theorem unturned_rldicl_undefined :
    ¬ ((∀ rs (sh mb me : Nat), sh < 32 → mb < 32 → me < 32 →
        ppc_rlwinm rs sh mb me = some (rotated_field rs sh mb me)) ∧
      (∀ rs (sh mb : Nat), sh < 64 → mb < 64 → ppc_rldicl rs sh mb = some (rotated_field rs sh mb 63)) ∧
      ∀ rs (sh me : Nat), sh < 64 → me < 64 → ppc_rldicr rs sh me = some (rotated_field rs sh 0 me)) := by
  rintro ⟨_,left,_⟩
  have returns := left (-1) 0 48 (by decide) (by decide)
  have undefined : ppc_rldicl (-1) (0 : Nat) (48 : Nat) = none := by
    unfold ppc_rldicl
    rw [rotl64_unturned]
    rfl
  rw [undefined] at returns
  cases returns

end BudokaiRuntime.Ppu.RotateMask
