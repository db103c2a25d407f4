import BudokaiRuntime.Spu.HostAccess
import BudokaiRuntime.Spu.Spurs

-- Where one instruction can leave the program counter, and what holds of it along a run.
namespace BudokaiRuntime.Spu

-- The instructions that store a target. bisled and iret never do here.
def Ri16.branches : Ri16 → Bool
  | .brz | .brnz | .brhz | .brhnz | .bra | .brasl | .br | .brsl => true
  | _ => false

def Rr.branches : Rr → Bool
  | .bi | .bisl | .biz | .binz | .bihz | .bihnz => true
  | _ => false

def SpuOp.branches : SpuOp → Bool
  | .ri16 op => op.branches
  | .rr op => op.branches
  | _ => false

structure PcValid (pc : BitVec 32) : Prop where
  aligned : pc.toNat % 4 = 0
  inside : pc.toNat < SPU_LS_SIZE

-- A step leaves a valid pc, and only a branch leaves it elsewhere than behind the instruction.
structure PcKept (before after : SpuCtx) : Prop where
  valid : PcValid after.pc
  moved : (spu_decode (fetch (prepared before))).branches = false → after.pc = nextPc before.pc

def PcInvariant (fpu : HostFpu) (start : SpuCtx) : Prop := ∀ n before after,
  spu_steps fpu n start = some before → spu_step fpu before = some after → PcKept before after

-- Every step that the run comes to stays inside ls[]: behind it lies the pc itself.
def StaysInside (fpu : HostFpu) (start : SpuCtx) : Prop := ∀ n before,
  spu_steps fpu n start = some before → ∃ after, spu_step fpu before = some after

def TransfersFit (fpu : HostFpu) (start : SpuCtx) : Prop := ∀ n before,
  spu_steps fpu n start = some before → TransferFits before

def srr0Write (ctx : SpuCtx) : Option (BitVec 32) :=
  let insn := fetch (prepared ctx)
  if spu_decode insn = .chan .wrch ∧ F_CH insn = CH_SPU_WrSRR0 then
    some (GW ((prepared ctx).gpr (F_RT insn)) 0)
  else none

-- SRR0 is only ever given the address of the instruction behind the write.
def Srr0Sequential (fpu : HostFpu) (start : SpuCtx) : Prop := ∀ n before,
  spu_steps fpu n start = some before → ∀ val, srr0Write before = some val → val = nextPc before.pc

theorem nextPc_valid (pc : BitVec 32) (aligned : pc.toNat % 4 = 0) : PcValid (nextPc pc) := by
  have place := nextPc_toNat pc
  have size := ls_size
  constructor
  · rw [place,size]
    omega
  · rw [place]
    exact Nat.mod_lt _ (by decide)

theorem word_target_valid (base offset : BitVec 32) (aligned : base.toNat % 4 = 0) :
    PcValid ((base + offset <<< 2) &&& LS_MASK) := by
  have masked := and_ls_mask_toNat (base + offset <<< 2)
  have size := ls_size
  constructor
  · rw [masked,BitVec.toNat_add,BitVec.toNat_shiftLeft,Nat.shiftLeft_eq,size]
    omega
  · rw [masked]
    exact Nat.mod_lt _ (by decide)

theorem indirect_target_valid (v : BitVec 32) : PcValid (v &&& LS_MASK &&& ~~~3#32) := by
  have masked : (v &&& (LS_MASK &&& ~~~3#32)).toNat = v.toNat % 2^18 / 4 * 4 := and_field_toNat v 16 2 (by decide)
  have size := ls_size
  rw [BitVec.and_assoc]
  constructor
  · rw [masked]
    exact Nat.mul_mod_left _ _
  · rw [masked,size]
    omega

section Step
variable (fpu : HostFpu) (insn pc : BitVec 32) (ctx : SpuCtx)

theorem exec_rrr_pc (op : Rrr) : (exec_rrr fpu op insn ctx).pc = ctx.pc := by cases op <;> rfl

theorem exec_ri18_pc (op : Ri18) : (exec_ri18 op insn ctx).pc = ctx.pc := by cases op <;> rfl

theorem exec_ri10_pc (op : Ri10) : (exec_ri10 op insn ctx).pc = ctx.pc := by cases op <;> rfl

theorem exec_ri16_pc (op : Ri16) : (exec_ri16 op insn pc ctx).pc = ctx.pc ∨ op.branches = true ∧
    ((exec_ri16 op insn pc ctx).pc = (pc + F_I16 insn <<< 2) &&& LS_MASK ∨
      (exec_ri16 op insn pc ctx).pc = (F_I16U insn <<< 2) &&& LS_MASK) := by
  cases op with
  | bra | brasl => exact .inr ⟨rfl,.inr rfl⟩
  | br | brsl => exact .inr ⟨rfl,.inl rfl⟩
  | brz | brnz | brhz | brhnz =>
      simp only [exec_ri16]
      split
      · exact .inr ⟨rfl,.inl rfl⟩
      · exact .inl rfl
  | _ => exact .inl rfl

theorem exec_rr_pc (op : Rr) : (exec_rr fpu op insn ctx).pc = ctx.pc ∨ op.branches = true ∧
    (exec_rr fpu op insn ctx).pc = GW (ctx.gpr (F_RA insn)) 0 &&& LS_MASK &&& ~~~3#32 := by
  cases op with
  | bi | bisl => exact .inr ⟨rfl,rfl⟩
  | biz | binz | bihz | bihnz =>
      simp only [exec_rr]
      split
      · exact .inr ⟨rfl,rfl⟩
      · exact .inl rfl
  | _ => exact .inl rfl

theorem wrch_pc (ch : Nat) (val : BitVec 32) (other : ch ≠ CH_SPU_WrSRR0) (ran : wrch ctx ch val = some after) :
    after.pc = ctx.pc := by
  unfold wrch at ran
  split at ran
  case h_6 =>
    obtain ⟨_,_,rfl⟩ := mfc_execute_transferred ctx val ran
    rfl
  case h_12 => exact absurd rfl other
  all_goals
    cases ran
    rfl

theorem spu_exec_pc (op : SpuOp) (srr0 : op = .chan .wrch → F_CH insn ≠ CH_SPU_WrSRR0)
    (aligned : pc.toNat % 4 = 0) (ran : spu_exec fpu op insn pc ctx = some after) :
    after.pc = ctx.pc ∨ op.branches = true ∧ PcValid after.pc := by
  cases op with
  | rrr op =>
      cases ran
      exact .inl (exec_rrr_pc fpu insn ctx op)
  | ri18 op =>
      cases ran
      exact .inl (exec_ri18_pc insn ctx op)
  | ri10 op =>
      cases ran
      exact .inl (exec_ri10_pc insn ctx op)
  | unknown =>
      cases ran
      exact .inl rfl
  | ri16 op =>
      cases ran
      rcases exec_ri16_pc insn pc ctx op with kept | ⟨branch,relative | absolute⟩
      · exact .inl kept
      · exact .inr ⟨branch,relative ▸ word_target_valid pc (F_I16 insn) aligned⟩
      · have target := word_target_valid 0#32 (F_I16U insn) rfl
        rw [BitVec.zero_add] at target
        exact .inr ⟨branch,absolute ▸ target⟩
  | rr op =>
      cases ran
      rcases exec_rr_pc fpu insn ctx op with kept | ⟨branch,target⟩
      · exact .inl kept
      · exact .inr ⟨branch,target ▸ indirect_target_valid _⟩
  | chan op =>
      cases op with
      | rdch =>
          cases ran
          exact .inl (rdch_pc ctx (F_CH insn))
      | wrch => exact .inl (wrch_pc ctx _ _ (srr0 rfl) ran)
      | rchcnt =>
          cases ran
          exact .inl rfl

theorem masked_aligned (pc : BitVec 32) (aligned : pc.toNat % 4 = 0) : (pc &&& LS_MASK).toNat % 4 = 0 := by
  have size := ls_size
  rw [and_ls_mask_toNat,size]
  omega

theorem spu_step_srr0 (writes : srr0Write ctx = some val) (ran : spu_step fpu ctx = some after) :
    after.pc = val ∧ (spu_decode (fetch (prepared ctx))).branches = false := by
  simp only [srr0Write] at writes
  split at writes
  case isFalse => cases writes
  case isTrue chosen =>
    cases writes
    obtain ⟨decoded,channel⟩ := chosen
    rw [spu_step_prepared,decoded] at ran
    simp only [spu_exec,channel,wrch] at ran
    cases ran
    rw [decoded]
    exact ⟨rfl,rfl⟩

theorem srr0Write_steps (writes : srr0Write ctx = some val) :
    ∃ after, spu_step fpu ctx = some after := by
  simp only [srr0Write] at writes
  split at writes
  case isFalse => cases writes
  case isTrue chosen =>
    refine ⟨{advance (prepared ctx) with pc := val},?_⟩
    cases writes
    rw [spu_step_prepared,chosen.1]
    simp only [spu_exec,chosen.2,wrch]
    rfl

theorem spu_step_pc (plain : srr0Write ctx = none) (aligned : ctx.pc.toNat % 4 = 0)
    (ran : spu_step fpu ctx = some after) : PcKept ctx after := by
  rw [spu_step_prepared] at ran
  have srr0 : spu_decode (fetch (prepared ctx)) = .chan .wrch → F_CH (fetch (prepared ctx)) ≠ CH_SPU_WrSRR0 := by
    intro decoded channel
    rw [srr0Write] at plain
    simp only [decoded,channel,and_self,if_true] at plain
    cases plain
  rcases spu_exec_pc fpu _ _ _ _ srr0 (masked_aligned ctx.pc aligned) ran with kept | ⟨branch,valid⟩
  · have behind : after.pc = nextPc ctx.pc := kept.trans (prepared_pc ctx)
    exact ⟨behind ▸ nextPc_valid ctx.pc aligned,fun _ => behind⟩
  · exact ⟨valid,fun none => absurd (branch.symm.trans none) Bool.noConfusion⟩

theorem spu_step_pc_kept_iff (aligned : ctx.pc.toNat % 4 = 0) (ran : spu_step fpu ctx = some after) :
    PcKept ctx after ↔ ∀ val, srr0Write ctx = some val → val = nextPc ctx.pc := by
  cases writes : srr0Write ctx with
  | none => exact iff_of_true (spu_step_pc fpu ctx writes aligned ran) nofun
  | some val =>
      obtain ⟨stored,plain⟩ := spu_step_srr0 fpu ctx writes ran
      constructor
      · intro kept other same
        cases same
        exact stored.symm.trans (kept.moved plain)
      · intro sequential
        have behind : after.pc = nextPc ctx.pc := stored.trans (sequential val rfl)
        exact ⟨behind ▸ nextPc_valid ctx.pc aligned,fun _ => behind⟩
end Step

section Run
variable (fpu : HostFpu) (start : SpuCtx)

theorem spu_steps_succ (n : Nat) (ctx : SpuCtx) :
    spu_steps fpu (n+1) ctx = (spu_steps fpu n ctx).bind (spu_step fpu) := by
  induction n generalizing ctx with
  | zero => simp [spu_steps]
  | succ n ih =>
      have unfolded : spu_steps fpu (n+1+1) ctx = (spu_step fpu ctx).bind (spu_steps fpu (n+1)) := rfl
      rw [unfolded,spu_steps,Option.bind_assoc]
      exact Option.bind_congr fun middle _ => ih middle

theorem kept_steps_aligned (aligned : start.pc.toNat % 4 = 0) (n : Nat)
    (kept : ∀ m < n, ∀ before after, spu_steps fpu m start = some before → spu_step fpu before = some after →
      PcKept before after) (reached : spu_steps fpu n start = some ctx) : ctx.pc.toNat % 4 = 0 := by
  cases n with
  | zero =>
      cases reached
      exact aligned
  | succ n =>
      rw [spu_steps_succ] at reached
      obtain ⟨before,ran,last⟩ := Option.bind_eq_some_iff.mp reached
      exact (kept n (Nat.lt_succ_self n) before ctx ran last).valid.aligned

theorem pc_invariant_iff (aligned : start.pc.toNat % 4 = 0) :
    PcInvariant fpu start ↔ Srr0Sequential fpu start := by
  constructor
  · intro kept n before reached val writes
    obtain ⟨after,ran⟩ := srr0Write_steps fpu before writes
    have place := kept_steps_aligned fpu start aligned n (fun m _ => kept m) reached
    exact (spu_step_pc_kept_iff fpu before place ran).mp (kept n before after reached ran) val writes
  · intro sequential n
    induction n using Nat.strong_induction_on with
    | h n ih =>
        intro before after reached ran
        have place := kept_steps_aligned fpu start aligned n ih reached
        exact (spu_step_pc_kept_iff fpu before place ran).mpr (sequential n before reached)
end Run

theorem stays_inside_iff (fpu : HostFpu) (start : SpuCtx) : StaysInside fpu start ↔ TransfersFit fpu start :=
  forall₂_congr fun _ before => imp_congr_right fun _ => spu_step_defined_iff fpu before

theorem loaded_pc_invariant_iff (fpu : HostFpu) (ctx loaded : SpuCtx) (elf : Elf) (ls : LocalStore)
    (success : spu_load_elf ctx elf = some (loaded,0)) (aligned : (e_entry elf).toNat % 4 = 0) :
    (StaysInside fpu {loaded with ls} ∧ PcInvariant fpu {loaded with ls}) ↔
      TransfersFit fpu {loaded with ls} ∧ Srr0Sequential fpu {loaded with ls} := by
  refine and_congr (stays_inside_iff fpu _) ?_
  rcases spu_load_elf_cases success with ⟨_,refused⟩ | ⟨_,_,_,rfl⟩
  · cases refused
  · exact pc_invariant_iff fpu _ (masked_aligned (e_entry elf) aligned)

-- A header without segments, entry 0; behind it il $3,-1 and wrch SRR0,$3.
def bareElf : Elf where
  length := 52
  bytes := fun k => ([0x7F,0x45,0x4C,0x46] : List (BitVec 8)).getD k 0

def srr0Image : LocalStore := loadImage [0x40FFFF83,0x21A00703]

theorem loaded_pc_invariant_iff_srr0 :
    ∃ loaded, spu_load_elf (spu_ctx_init 0 none) bareElf = some (loaded,0) ∧ (e_entry bareElf).toNat % 4 = 0 ∧
      ((StaysInside hostFpu {loaded with ls := srr0Image} ∧ PcInvariant hostFpu {loaded with ls := srr0Image}) ↔
        TransfersFit hostFpu {loaded with ls := srr0Image} ∧ Srr0Sequential hostFpu {loaded with ls := srr0Image}) :=
  ⟨_,rfl,by decide,loaded_pc_invariant_iff hostFpu _ _ bareElf srr0Image rfl (by decide)⟩

theorem srr0_write_moves_pc :
    ¬ ∀ (fpu : HostFpu) (ctx loaded : SpuCtx) (elf : Elf) (ls : LocalStore),
      spu_load_elf ctx elf = some (loaded,0) → (e_entry elf).toNat % 4 = 0 → PcInvariant fpu {loaded with ls} := by
  intro invariant
  have start := invariant hostFpu (spu_ctx_init 0 none) _ bareElf srr0Image rfl (by decide)
  have seen : ((spu_steps hostFpu 1 {spu_ctx_init 0 none with ls := srr0Image, pc := 0, running := true}).bind
      fun before => (spu_step hostFpu before).map fun after => after.pc) = some 0xFFFFFFFF := by decide +kernel
  obtain ⟨before,first,rest⟩ := Option.bind_eq_some_iff.mp seen
  obtain ⟨after,second,pc⟩ := Option.map_eq_some_iff.mp rest
  have valid := (start 1 before after first second).valid.inside
  rw [pc] at valid
  exact absurd valid (by decide)

end BudokaiRuntime.Spu
