import BudokaiRuntime.Spu.KernelEntry
import BudokaiRuntime.Spu.SlotDispatch

-- The context a dispatch begins with, against the one of the first dispatch.
namespace BudokaiRuntime.Spu
open ByteLanes EventRuns Guest

-- The context but for the trace fields, the instruction count and the memory behind vm_base.
def SpuCtx.start (ctx : SpuCtx) : SpuCtx :=
  {ctx with vm_base := none,insn_count := 0,trace_limit := 0,trace_count := 0}

-- The workload with the context its first dispatch began with.
structure History where
  workload : Workload
  first : Option SpuCtx

def Workload.begins (s : Workload) : SlotEvent → Prop
  | .dispatch _ _ => s.place ≠ .idle
  | _ => False

instance (s : Workload) (e : SlotEvent) : Decidable (s.begins e) := match e with
  | .dispatch _ _ => inferInstanceAs (Decidable (¬ s.place = .idle))
  | .turn => isFalse id
  | .memory _ => isFalse id

def History.apply (fpu : HostFpu) (h : History) (e : SlotEvent) : Option History :=
  (h.workload.apply fpu e).map fun s => ⟨s,if s.begins e then h.first.or (some s.ctx) else h.first⟩

-- A dispatch behind the first one begins where the first one began.
def History.isolated (fpu : HostFpu) (h : History) (e : SlotEvent) : Prop :=
  ∀ s first, h.workload.apply fpu e = some s → s.begins e → h.first = some first → s.ctx.start = first.start

def LoadOp.written (elf : Elf) (w : Fin SPU_LS_SIZE → Option (BitVec 8)) :
    LoadOp → Fin SPU_LS_SIZE → Option (BitVec 8)
  | .fetch _ => w
  | .memset vaddr memsz => fun a => if vaddr.toNat ≤ a.val ∧ a.val < vaddr.toNat+memsz.toNat then some 0 else w a
  | .memcpy vaddr off filesz => fun a =>
      if vaddr.toNat ≤ a.val ∧ a.val < vaddr.toNat+filesz.toNat then
        some (elf.bytes (off.toNat+(a.val-vaddr.toNat)))
      else w a

def Elf.written (elf : Elf) : Fin SPU_LS_SIZE → Option (BitVec 8) :=
  (table_ops elf 0 (e_phnum elf).toNat).foldl (LoadOp.written elf) fun _ => none

section Registers
variable (gpr : Gpr) (words : List (Fin 128 × BitVec 32)) (r : Fin 128)

end Registers

section LocalStores
variable (elf : Elf) (ls after first : LocalStore)

end LocalStores

-- The first dispatch begins with a zeroed context but for the image and the set-up.
def FirstStart (first : SpuCtx) : Prop := ∃ vm ls pc,
  first = slot_setup {spu_ctx_init 2 (some vm) with ls,pc,running := true,trace_limit := 50}

section Turn
variable (fpu : HostFpu) (s next : Workload)

end Turn

-- The first start is recorded once the workload is loaded, and is one; the context stays SPU 2.
structure History.Coherent (h : History) : Prop where
  recorded : h.first.isSome = h.workload.valid
  first : ∀ first, h.first = some first → FirstStart first
  id : h.workload.valid = true → h.workload.ctx.id = 2

section Events
variable (fpu : HostFpu) (h next : History) (e : SlotEvent)

end Events

end BudokaiRuntime.Spu
