import BudokaiRuntime.Guest.MemoryMap
import BudokaiRuntime.Spu.CommandSet

-- The address filter of mfc_execute against the memory map of vm_init.
namespace BudokaiRuntime.Spu
open Guest

def DmaCopy.guestIndices : DmaCopy → List Nat
  | .lsFromLs .. => []
  | .lsFromVm _ ea size => List.range' ea.toNat size.toNat
  | .vmFromLs ea _ size => List.range' ea.toNat size.toNat

def guestTouched (ctx : SpuCtx) (cmd : BitVec 32) : List Nat := (mfc_copies ctx cmd).flatMap DmaCopy.guestIndices

structure DmaMapped (ctx : SpuCtx) (cmd : BitVec 32) : Prop where
  committed : ∀ a ∈ guestTouched ctx cmd, Committed a
  high : ctx.mfc_eah ≠ 0 → guestTouched ctx cmd = []

def reachesGuest (ctx : SpuCtx) (cmd : BitVec 32) : Prop :=
  transferAccepted ctx cmd = true ∧ lsWindow (mfc_ea32 ctx) (mfc_sz ctx) = false ∧ ctx.mfc_size ≠ 0

section Filter
variable (ctx : SpuCtx) (cmd : BitVec 32)

-- Outside the window no accepted sum wraps.
theorem main_ram_bounds (ea sz : BitVec 32) (small : sz.toNat ≤ 16384) (outside : lsWindow ea sz = false)
    (accepted : mainRam ea sz = true) : ea.toNat+sz.toNat < 0x40000000 := by
  simp only [mainRam,lsWindow,Bool.and_eq_true,Bool.and_eq_false_iff,decide_eq_true_eq,decide_eq_false_iff_not,
    BitVec.le_def,BitVec.lt_def,BitVec.toNat_add,ge_iff_le,BitVec.ofNat_eq_ofNat,BitVec.toNat_ofNat] at accepted outside
  omega

theorem rsx_io_bounds (ea sz : BitVec 32) (small : sz.toNat ≤ 16384) (outside : lsWindow ea sz = false)
    (accepted : rsxIo ea sz = true) : 0xD0100000 ≤ ea.toNat ∧ ea.toNat+sz.toNat ≤ 0xD0200000 := by
  simp only [rsxIo,lsWindow,Bool.and_eq_true,Bool.and_eq_false_iff,decide_eq_true_eq,decide_eq_false_iff_not,
    BitVec.le_def,BitVec.toNat_add,ge_iff_le,BitVec.ofNat_eq_ofNat,BitVec.toNat_ofNat] at accepted outside
  omega

theorem get_guest (a : Nat) : a ∈ (mfc_get ctx).flatMap DmaCopy.guestIndices ↔
    (windowAccepted ctx || guestAccepted ctx mainRam) = true ∧ lsWindow (mfc_ea32 ctx) (mfc_sz ctx) = false ∧
      a ∈ List.range' (mfc_ea32 ctx).toNat (mfc_sz ctx).toNat := by
  unfold mfc_get windowAccepted guestAccepted
  dsimp only
  cases lsWindow (mfc_ea32 ctx) (mfc_sz ctx)
  · cases mainRam (mfc_ea32 ctx) (mfc_sz ctx) <;> simp [DmaCopy.guestIndices]
  · simp only [if_true]
    split <;> simp [DmaCopy.guestIndices]

theorem put_guest (a : Nat) : a ∈ (mfc_put ctx).flatMap DmaCopy.guestIndices ↔
    (windowAccepted ctx || guestAccepted ctx mainRam || guestAccepted ctx rsxIo) = true ∧
      lsWindow (mfc_ea32 ctx) (mfc_sz ctx) = false ∧
      a ∈ List.range' (mfc_ea32 ctx).toNat (mfc_sz ctx).toNat := by
  unfold mfc_put windowAccepted guestAccepted
  dsimp only
  cases lsWindow (mfc_ea32 ctx) (mfc_sz ctx)
  · cases mainRam (mfc_ea32 ctx) (mfc_sz ctx) <;> cases rsxIo (mfc_ea32 ctx) (mfc_sz ctx) <;>
      simp [DmaCopy.guestIndices]
  · simp only [if_true]
    split <;> simp [DmaCopy.guestIndices]

theorem guest_touched_mem (a : Nat) : a ∈ guestTouched ctx cmd ↔ transferAccepted ctx cmd = true ∧
    lsWindow (mfc_ea32 ctx) (mfc_sz ctx) = false ∧ a ∈ List.range' (mfc_ea32 ctx).toNat (mfc_sz ctx).toNat := by
  unfold guestTouched mfc_copies transferAccepted
  cases ctx.vm_base with
  | none => simp
  | some vm =>
      simp only [Option.isNone_some,Bool.false_eq_true,if_false,Option.isSome_some,Bool.true_and]
      generalize (cmd &&& 0xFF).toNat = code
      split
      · exact get_guest ctx a
      · exact get_guest ctx a
      · exact get_guest ctx a
      · exact put_guest ctx a
      · exact put_guest ctx a
      · exact put_guest ctx a
      · simp

theorem accepted_bounds (accepted : transferAccepted ctx cmd = true)
    (outside : lsWindow (mfc_ea32 ctx) (mfc_sz ctx) = false) :
    mainRam (mfc_ea32 ctx) (mfc_sz ctx) = true ∨ rsxIo (mfc_ea32 ctx) (mfc_sz ctx) = true := by
  simp only [transferAccepted,Bool.and_eq_true] at accepted
  have branch := accepted.2
  split at branch
  all_goals first
    | cases branch
    | (simp only [windowAccepted,guestAccepted,outside,Bool.false_and,Bool.not_false,Bool.true_and,Bool.false_or,
        Bool.or_eq_true] at branch
       tauto)
end Filter

theorem dma_mapped_iff (ctx : SpuCtx) (cmd : BitVec 32) : DmaMapped ctx cmd ↔
    (reachesGuest ctx cmd → ctx.mfc_eah = 0 ∧ (mainRam (mfc_ea32 ctx) (mfc_sz ctx) = true →
      (mfc_ea32 ctx).toNat+(mfc_sz ctx).toNat ≤ 0x10010000)) := by
  have small := mfc_sz_le ctx
  constructor
  · intro mapped ⟨accepted,outside,sized⟩
    have moves : 0 < (mfc_sz ctx).toNat :=
      Nat.pos_of_ne_zero fun zero => sized ((mfc_sz_zero_iff ctx).mp (BitVec.eq_of_toNat_eq zero))
    have touched (a : Nat) (low : (mfc_ea32 ctx).toNat ≤ a) (high : a < (mfc_ea32 ctx).toNat+(mfc_sz ctx).toNat) :
        a ∈ guestTouched ctx cmd :=
      (guest_touched_mem ctx cmd a).mpr ⟨accepted,outside,List.mem_range'_1.mpr ⟨low,high⟩⟩
    constructor
    · by_contra set
      have first := touched (mfc_ea32 ctx).toNat (Nat.le_refl _) (by omega)
      rw [mapped.high set] at first
      cases first
    · intro ram
      have below := main_ram_bounds _ _ small outside ram
      have last := mapped.committed _ (touched ((mfc_ea32 ctx).toNat+(mfc_sz ctx).toNat-1) (by omega) (by omega))
      rw [committed_iff] at last
      omega
  · intro meets
    have reached (a : Nat) (member : a ∈ guestTouched ctx cmd) :
        transferAccepted ctx cmd = true ∧ lsWindow (mfc_ea32 ctx) (mfc_sz ctx) = false ∧ reachesGuest ctx cmd ∧
          (mfc_ea32 ctx).toNat ≤ a ∧ a < (mfc_ea32 ctx).toNat+(mfc_sz ctx).toNat := by
      obtain ⟨accepted,outside,inside⟩ := (guest_touched_mem ctx cmd a).mp member
      have place := List.mem_range'_1.mp inside
      refine ⟨accepted,outside,⟨accepted,outside,fun zero => ?_⟩,place⟩
      rw [(mfc_sz_zero_iff ctx).mpr zero] at place
      exact absurd place.2 (by simpa using place.1)
    constructor
    · intro a member
      obtain ⟨accepted,outside,reaches,low,high⟩ := reached a member
      rw [committed_iff]
      rcases accepted_bounds ctx cmd accepted outside with ram | rsx
      · have bound := (meets reaches).2 ram
        omega
      · have bounds := rsx_io_bounds _ _ small outside rsx
        omega
    · intro set
      refine List.eq_nil_iff_forall_not_mem.mpr fun a member => ?_
      obtain ⟨_,_,reaches,_⟩ := reached a member
      exact set (meets reaches).1

-- GET of 16 bytes from the first address behind main RAM.
def stagedBeyondRam : SpuCtx := {spu_ctx_init 0 (some fun _ => 0) with mfc_eal := 0x10010000,mfc_size := 16}

theorem get_beyond_ram : ¬ ∀ (ctx : SpuCtx) (cmd : BitVec 32), DmaMapped ctx cmd := by
  intro mapped
  have touched : 0x10010000 ∈ guestTouched stagedBeyondRam 0x40 := by decide
  have committed := (mapped stagedBeyondRam 0x40).committed _ touched
  rw [committed_iff] at committed
  omega

end BudokaiRuntime.Spu
