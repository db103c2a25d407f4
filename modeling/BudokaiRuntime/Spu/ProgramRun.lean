import BudokaiRuntime.Spu.ElfImage
import BudokaiRuntime.Spu.ProgramCounter
import BudokaiRuntime.Spu.StepFrame

-- Whole programs of the computing instruction classes: the image of an ELF file, run by
-- the interpreter and by the architecture.
namespace BudokaiRuntime.Spu

def Isa.Arch.insn (s : Isa.Arch) : BitVec 32 := ls_read32 s.ls (s.pc &&& LS_MASK)

-- One instruction of those classes; the return from an interrupt is none of them.
def IsaStep (srr0 : BitVec 32) (s t : Isa.Arch) : Prop :=
  ∃ op, op ≠ .rr .iret ∧ Isa.Encodes s.insn op ∧ Isa.exec op s.insn false srr0 s = some t

inductive IsaRun (srr0 : BitVec 32) : Nat → Isa.Arch → Isa.Arch → Prop
  | done : IsaRun srr0 0 s s
  | step : IsaStep srr0 s t → IsaRun srr0 n t u → IsaRun srr0 (n+1) s u

-- All of a context that a computing program has no say in.
structure Surroundings where
  channels : ChannelState
  mfc : MfcState
  vm_base : Option Guest.GuestMem
  id : Int
  trace_limit : BitVec 32

def SpuCtx.surroundings (ctx : SpuCtx) : Surroundings := ⟨ctx.channels,ctx.mfc,ctx.vm_base,ctx.id,ctx.trace_limit⟩

section Step
variable {fpu : HostFpu} {ctx : SpuCtx} {srr0 : BitVec 32} {t : Isa.Arch}

theorem fetch_arch (ctx : SpuCtx) : fetch ctx = (arch ctx).insn := rfl

theorem unhooked_quiet (unhooked : ctx.id ≠ 2) : edgeFixupDue ctx = false :=
  Bool.and_eq_false_iff.mpr (.inr (beq_false_of_ne unhooked))

theorem encoded_goes_on {op : SpuOp} {insn : BitVec 32} (encoded : Isa.Encodes insn op) (returns : op ≠ .rr .iret) :
    op.halts = false := by
  cases op with
  | rr op =>
      cases op with
      | stop | stopd => cases encoded
      | iret => exact absurd rfl returns
      | _ => rfl
  | chan op => cases encoded
  | _ => rfl

theorem step_follows (unhooked : ctx.id ≠ 2) (step : IsaStep srr0 (arch ctx) t) :
    ∃ next, spu_step fpu ctx = some next ∧ arch next = t ∧ next.running = ctx.running ∧
      next.insn_count = ctx.insn_count ∧ next.surroundings = ctx.surroundings := by
  obtain ⟨op,returns,encoded,isa⟩ := step
  have decoded := spu_decode_encoded op encoded
  have channel (which : Chan) : op ≠ .chan which := by
    rintro rfl
    cases encoded
  obtain ⟨next,ran,same⟩ := spu_exec_isa fpu ctx op (fetch ctx) srr0 returns isa
  obtain ⟨after,again,frame⟩ := spu_exec_frame fpu (fetch ctx) (ctx.pc &&& LS_MASK) (advance ctx) op decoded
    fun both => channel .wrch both.1
  obtain rfl := Option.some.inj (ran.symm.trans again)
  refine ⟨next,(spu_step_encoded fpu ctx op (unhooked_quiet unhooked) encoded).trans ran,same,
    (frame.status (encoded_goes_on encoded returns)).1,frame.rest.2.2.1,?_⟩
  obtain ⟨channels,mfc⟩ := frame.channels (channel .rdch) (channel .wrch)
  unfold SpuCtx.surroundings
  rw [channels,mfc,frame.rest.1,frame.rest.2.1,frame.rest.2.2.2]
  rfl
end Step

section Run
variable {fpu : HostFpu} {ctx : SpuCtx} {srr0 : BitVec 32} {n max_insns : Nat} {t : Isa.Arch}

theorem counted_up (x : BitVec 64) (n : Nat) : x + 1 + BitVec.ofNat 64 n = x + BitVec.ofNat 64 (n+1) := by
  rw [BitVec.add_assoc,Nat.add_comm n 1,BitVec.ofNat_add]
  rfl

theorem run_follows (unhooked : ctx.id ≠ 2) (running : ctx.running = true) (ran : IsaRun srr0 n (arch ctx) t) (more : Nat) :
    ∃ c, spu_run fpu (n + more) ctx = spu_run fpu more c ∧ arch c = t ∧ c.running = true ∧
      c.insn_count = ctx.insn_count + BitVec.ofNat 64 n ∧ c.surroundings = ctx.surroundings := by
  induction n generalizing ctx with
  | zero =>
      cases ran
      exact ⟨ctx,by rw [Nat.zero_add],rfl,running,(BitVec.add_zero _).symm,rfl⟩
  | succ n ih =>
      cases ran with
      | step first rest =>
          obtain ⟨next,stepped,rfl,goes,count,around⟩ := @step_follows fpu ctx srr0 _ unhooked first
          have same : next.id = ctx.id := congrArg Surroundings.id around
          obtain ⟨c,ran,reached,still,total,kept⟩ :=
            @ih {next with insn_count := next.insn_count+1} (same ▸ unhooked) (goes.trans running) rest
          refine ⟨c,?_,reached,still,?_,kept.trans around⟩
          · rw [Nat.add_right_comm n 1 more,spu_run,if_pos running,stepped]
            exact ran
          · rw [total]
            show next.insn_count + 1 + _ = _
            rw [count,counted_up]

theorem stop_ends (unhooked : ctx.id ≠ 2) (running : ctx.running = true) (stops : spu_decode (arch ctx).insn = .rr .stop)
    (more : Nat) : spu_run fpu (more+1) ctx = some {advance ctx with
      stop_code := (arch ctx).insn &&& 0x3FFF,running := false,insn_count := ctx.insn_count+1} := by
  have step : spu_step fpu ctx = some {advance ctx with stop_code := fetch ctx &&& 0x3FFF,running := false} := by
    unfold spu_step
    simp only [unhooked_quiet unhooked,Bool.false_eq_true,if_false]
    rw [fetch_arch,stops]
    rfl
  rw [spu_run,if_pos running,step,Option.bind_some]
  cases more with
  | zero => rfl
  | succ more => rfl

-- An image that is loaded and run until it stops does what the architecture does with it,
-- and nothing else.
theorem elf_runs (fpu : HostFpu) (elf : Elf) (valid : elf.Valid) (entry : (e_entry elf).toNat < SPU_LS_SIZE)
    (unhooked : ctx.id ≠ 2) (ran : IsaRun srr0 n ⟨ctx.gpr,e_entry elf,elf.image ctx.ls⟩ t)
    (stops : spu_decode t.insn = .rr .stop) (enough : n < max_insns) :
    ∃ loaded c, spu_load_elf ctx elf = some (loaded,0) ∧ spu_run fpu max_insns loaded = some c ∧
      arch c = t.next ∧ c.running = false ∧ c.stop_code = t.insn &&& 0x3FFF ∧
      c.insn_count = ctx.insn_count + BitVec.ofNat 64 (n+1) ∧ c.surroundings = ctx.surroundings := by
  have load := spu_load_elf_valid ctx elf valid
  rw [(entry_masked_iff _).mpr entry] at load
  obtain ⟨more,rfl⟩ : ∃ more, max_insns = n + (more+1) := ⟨max_insns-n-1,by omega⟩
  obtain ⟨c,passed,reached,still,total,kept⟩ :=
    @run_follows fpu {ctx with ls := elf.image ctx.ls,pc := e_entry elf,running := true} srr0 n t unhooked rfl ran (more+1)
  have same : c.id = ctx.id := congrArg Surroundings.id kept
  subst reached
  refine ⟨_,_,load,passed.trans (stop_ends (same ▸ unhooked) still stops more),arch_advance c,rfl,rfl,?_,kept⟩
  show c.insn_count + 1 = _
  rw [total,BitVec.add_assoc,BitVec.ofNat_add]
  rfl

-- No segments: the words in the local store run from its start. a $3,$3,$4, then stop 5.
def addStop : SpuCtx := {spu_ctx_init 0 none with ls := loadImage [0x18010183,5]}

theorem bare_valid : bareElf.Valid := by
  have none_ : (e_phnum bareElf).toNat = 0 := by decide
  refine ⟨by decide,fun i inside => ?_⟩
  rw [none_] at inside
  exact absurd inside (Nat.not_lt_zero i)

theorem elf_runs_add : ∃ loaded c, spu_load_elf addStop bareElf = some (loaded,0) ∧
    spu_run hostFpu 100 loaded = some c ∧ c.running = false ∧ c.stop_code = 5 := by
  have image : bareElf.image addStop.ls = addStop.ls := by
    have none_ : (e_phnum bareElf).toNat = 0 := by decide
    rw [Elf.image,none_]
    rfl
  have add : ∃ t, IsaRun 0 1 ⟨addStop.gpr,e_entry bareElf,addStop.ls⟩ t ∧ spu_decode t.insn = .rr .stop ∧
      t.insn &&& 0x3FFF = 5 :=
    ⟨_,.step ⟨.rr .a,by decide,by decide +kernel,rfl⟩ .done,by decide +kernel,by decide +kernel⟩
  obtain ⟨t,ran,stops,five⟩ := add
  rw [← image] at ran
  have enough : 1 < 100 := by decide
  obtain ⟨loaded,c,load,run,_,ended,code,_⟩ :=
    elf_runs hostFpu bareElf bare_valid (by decide) (by decide) ran stops enough
  exact ⟨loaded,c,load,run,ended,code.trans five⟩
end Run

end BudokaiRuntime.Spu
