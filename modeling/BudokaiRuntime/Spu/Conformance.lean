import BudokaiRuntime.Spu.Refinement

-- One step of the interpreter against one instruction of the architecture.
namespace BudokaiRuntime.Spu
open ByteLanes

def loadImage (words : List (BitVec 32)) : LocalStore := fun i =>
  byteAt (k:=4) (words.getD (i.val/4) 0) ⟨i.val%4,by omega⟩

theorem spu_step_encoded (fpu : HostFpu) (ctx : SpuCtx) (op : SpuOp) (quiet : edgeFixupDue ctx = false)
    (encoded : Isa.Encodes (fetch ctx) op) :
    spu_step fpu ctx = spu_exec fpu op (fetch ctx) (ctx.pc &&& LS_MASK) (advance ctx) := by
  unfold spu_step
  simp only [quiet,Bool.false_eq_true,if_false]
  rw [spu_decode_encoded op encoded]

theorem isa_defined (insn : BitVec 32) (op : SpuOp) (event : Bool) (srr0 : BitVec 32) (s : Isa.Arch)
    (encoded : Isa.Encodes insn op) : ∃ after, Isa.exec op insn event srr0 s = some after := by
  cases op with
  | rrr op => cases op <;> first | cases encoded | exact ⟨_,rfl⟩
  | ri18 op => cases op <;> first | cases encoded | exact ⟨_,rfl⟩
  | ri16 op => cases op <;> exact ⟨_,rfl⟩
  | ri10 op => cases op <;> first | exact ⟨_,rfl⟩ | cases encoded
  | rr op => cases op <;> first | exact ⟨_,rfl⟩ | cases encoded
  | chan op => cases encoded
  | unknown => cases encoded

theorem spu_exec_isa (fpu : HostFpu) (ctx : SpuCtx) (op : SpuOp) (insn srr0 : BitVec 32)
    (returns : op ≠ .rr .iret) (isa : Isa.exec op insn false srr0 (arch ctx) = some after) :
    ∃ next, spu_exec fpu op insn (ctx.pc &&& LS_MASK) (advance ctx) = some next ∧ arch next = after := by
  cases op with
  | rrr op => exact ⟨_,rfl,exec_rrr_isa fpu isa⟩
  | ri18 op => exact ⟨_,rfl,exec_ri18_isa isa⟩
  | ri16 op => exact ⟨_,rfl,exec_ri16_isa isa⟩
  | ri10 op => exact ⟨_,rfl,exec_ri10_isa isa⟩
  | rr op => exact ⟨_,rfl,exec_rr_isa fpu false rfl srr0 (fun same => returns (congrArg SpuOp.rr same)) isa⟩
  | chan op => cases isa
  | unknown => cases isa

-- Channel 0 never has a count: the interpreter raises no external events.
theorem no_events (ctx : SpuCtx) : (rchcnt ctx CH_SPU_RdEventStat != 0) = false := rfl

-- For every context outside the descriptor hook and every word of the integer,
-- load/store and branch classes, one step is the architecture's instruction on the
-- registers before the step. iret alone stops the interpreter instead.
theorem spu_step_conforms (fpu : HostFpu) (ctx : SpuCtx) (op : SpuOp) (srr0 : BitVec 32)
    (quiet : edgeFixupDue ctx = false) (encoded : Isa.Encodes (fetch ctx) op) :
    ∃ next after, spu_step fpu ctx = some next ∧
      Isa.exec op (fetch ctx) (rchcnt ctx CH_SPU_RdEventStat != 0) srr0 (arch ctx) = some after ∧
      (op ≠ .rr .iret → arch next = after) ∧
      (op = .rr .iret → arch next = (arch ctx).next ∧ next.running = false) := by
  rw [no_events,spu_step_encoded fpu ctx op quiet encoded]
  obtain ⟨after,isa⟩ := isa_defined (fetch ctx) op false srr0 (arch ctx) encoded
  by_cases returns : op = .rr .iret
  · subst returns
    exact ⟨_,after,rfl,isa,fun different => absurd rfl different,fun _ => ⟨arch_advance ctx,rfl⟩⟩
  · obtain ⟨next,run,same⟩ := spu_exec_isa fpu ctx op (fetch ctx) srr0 returns isa
    exact ⟨next,after,run,isa,fun _ => same,fun equal => absurd equal returns⟩

def addImage : SpuCtx := {spu_ctx_init 0 none with ls := loadImage [0x18010183]}

theorem spu_step_conforms_add :
    edgeFixupDue addImage = false ∧ Isa.Encodes (fetch addImage) (.rr .a) ∧
    ∃ next after, spu_step hostFpu addImage = some next ∧
      Isa.exec (.rr .a) (fetch addImage) (rchcnt addImage CH_SPU_RdEventStat != 0) 0 (arch addImage) =
        some after ∧
      (SpuOp.rr .a ≠ .rr .iret → arch next = after) ∧
      (SpuOp.rr .a = .rr .iret → arch next = (arch addImage).next ∧ next.running = false) :=
  ⟨by decide,by decide,spu_step_conforms hostFpu addImage (.rr .a) 0 (by decide) (by decide)⟩

-- iret with a return address of 0x100: the architecture goes there, the step to 4.
def iretImage : SpuCtx := {spu_ctx_init 0 none with ls := loadImage [0x35400000]}

theorem iret_does_not_return :
    ¬ ∀ (fpu : HostFpu) (ctx : SpuCtx) (op : SpuOp) (srr0 : BitVec 32), edgeFixupDue ctx = false →
      Isa.Encodes (fetch ctx) op → ∃ next, spu_step fpu ctx = some next ∧
        Isa.exec op (fetch ctx) (rchcnt ctx CH_SPU_RdEventStat != 0) srr0 (arch ctx) = some (arch next) := by
  intro conforms
  have encoded : Isa.Encodes (fetch iretImage) (.rr .iret) := by decide
  obtain ⟨next,run,isa⟩ := conforms hostFpu iretImage (.rr .iret) 0x100 (by decide) encoded
  rw [spu_step_encoded hostFpu iretImage (.rr .iret) (by decide) encoded] at run
  cases run
  cases isa

end BudokaiRuntime.Spu
