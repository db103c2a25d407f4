import BudokaiRuntime.Foundations.EventRuns
import BudokaiRuntime.Spu.BlockedRead
import BudokaiRuntime.Spu.LoadElf

-- The kernel context under its two drivers: the burst loop of spurs_start, then the loop of
-- spurs_kernel_thread. One turn is one test of a loop or one instruction of spu_run.
namespace BudokaiRuntime.Spu
open ByteLanes Guest

abbrev SPURS_KERNEL_A_GADDR : BitVec 32 := 0x10BD00
abbrev SPURS_KERNEL_ELF_SIZE : BitVec 32 := 0x36800
abbrev SPURS_KERNEL_MGMT_EA : BitVec 32 := 0x300000

def guestElf (vm : GuestMem) (gaddr size : BitVec 32) : Elf := ⟨size,fun k => vm (gaddr + BitVec.ofNat 32 k)⟩

-- memcpy(ls + 0x40, s, 4): the word of stop 0x100.
def LocalStore.stop100 (ls : LocalStore) : LocalStore := ls.splice 0x40 (byteAt (k:=4) 0x100)

def Gpr.clear (gpr : Gpr) (r : Fin 128) : Gpr := Function.update gpr r .zero
def Gpr.setWord (gpr : Gpr) (r : Fin 128) (i : Fin 4) (v : BitVec 32) : Gpr :=
  Function.update gpr r (spu_reg_set_w (gpr r) i v)

-- What spurs_start writes behind the loader: the sentinel, the return address, the
-- arguments r3..r6 and the registers the entry code computes r0 from.
def launch_arguments (ctx : SpuCtx) : SpuCtx :=
  let gpr := Gpr.setWord ctx.gpr 0 0 0x40
  let gpr := (gpr.clear 3).setWord 3 1 SPURS_KERNEL_MGMT_EA
  let gpr := ((gpr.clear 4).clear 5).clear 6
  let gpr := (gpr.clear 86).setWord 86 0 0x80
  let gpr := (gpr.setWord 70 0 0x20000).setWord 89 0 0x80
  {ctx with gpr,ls := ctx.ls.stop100}

-- The same writes stand in three places: behind stop 0x100 in the burst, behind stop 0x100
-- and behind an idle stop in the thread.
def restart_kernel (entry_pc : BitVec 32) (ctx : SpuCtx) : SpuCtx :=
  let gpr := (Gpr.clear ctx.gpr 3).setWord 3 1 SPURS_KERNEL_MGMT_EA
  let gpr := (gpr.clear 4).setWord 0 0 0x40
  {ctx with gpr,ls := ctx.ls.stop100,pc := entry_pc,running := true}

-- Where the drivers are: at the top of a loop, or inside its spu_run with `left` instructions to go.
inductive Place where
  | burst (restart : Nat)
  | burstRun (restart left : Nat)
  | thread
  | threadRun (left : Nat)
  | finished
deriving DecidableEq

structure Kernel where
  ctx : SpuCtx
  entry_pc : BitVec 32
  place : Place

-- `none`: no ELF magic, a loader that returns -1, or one that leaves its buffers.
def spurs_start (vm : GuestMem) : Option Kernel :=
  let elf := guestElf vm SPURS_KERNEL_A_GADDR SPURS_KERNEL_ELF_SIZE
  if !e_magic elf then none
  else (spu_load_elf {spu_ctx_init 0 (some vm) with trace_limit := 50} elf).bind fun (ctx,ret) =>
    if ret ≠ 0 then none else some ⟨launch_arguments ctx,ctx.pc,.burst 0⟩

inductive Verdict where
  | carryOn
  | dispatch (slot : Nat)
  | resume
  | endBurst
  | idle
  | returned
  | halt
deriving DecidableEq

def burst_verdict (ctx : SpuCtx) : Verdict :=
  if ctx.running then .carryOn
  else if ctx.stop_code = 0 then
    if ctx.pc ≥ 0x04 ∧ ctx.pc ≤ 0x3C then .dispatch ((ctx.pc - 0x04)/4).toNat
    else if ctx.pc ≥ 0x29000 ∨ ctx.pc ≥ 0x20600 then .endBurst
    else .resume
  else if ctx.stop_code = 0x100 then .returned
  else .halt

-- With no entry saved both restart branches only set running.
def thread_verdict (entry_pc : BitVec 32) (ctx : SpuCtx) : Verdict :=
  if ctx.running then .carryOn
  else if ctx.stop_code = 0 then
    if ctx.pc ≥ 0x04 ∧ ctx.pc ≤ 0x3C then .dispatch ((ctx.pc - 0x04)/4).toNat
    else if ctx.pc ≥ 0x20000 ∨ ctx.stop_code = 0x100 then if entry_pc ≠ 0 then .idle else .resume
    else .resume
  else if ctx.stop_code = 0x100 then if entry_pc ≠ 0 then .returned else .resume
  else .halt

-- Restarts 1 and later ones of the burst set the trace fields; the thread leaves them.
def traced (restart : Nat) (ctx : SpuCtx) : SpuCtx :=
  if restart = 1 then {ctx with trace_limit := 200,trace_count := 0} else {ctx with trace_limit := 0}

-- spurs_run_workload(slot) leaves this context alone; what it writes to guest memory comes
-- with the memory events.
def Verdict.obey (entry_pc : BitVec 32) (ctx : SpuCtx) : Verdict → SpuCtx
  | .carryOn | .halt => ctx
  | .dispatch _ | .resume | .endBurst => {ctx with running := true}
  | .idle | .returned => restart_kernel entry_pc ctx

def Verdict.runs : Verdict → Bool
  | .endBurst | .halt => false
  | _ => true

-- `should_exit`: g_threads_should_exit as the test of the thread's loop reads it.
-- `memory`: the PPU threads, the RSX and the workloads have written guest memory.
inductive KernelEvent where
  | turn (should_exit : Bool)
  | memory (vm : GuestMem)

def Kernel.verdict (k : Kernel) : KernelEvent → Option Verdict
  | .memory _ => none
  | .turn should_exit => match k.place with
    | .burst restart => if restart < 200 then some (burst_verdict k.ctx) else none
    | .thread => if should_exit then none else some (thread_verdict k.entry_pc k.ctx)
    | _ => none

def Kernel.instruction (fpu : HostFpu) (k : Kernel) (place : Place) : Option Kernel :=
  (spu_step fpu k.ctx).map fun ctx => {k with ctx := {ctx with insn_count := ctx.insn_count+1},place}

def Kernel.turn (fpu : HostFpu) (k : Kernel) (should_exit : Bool) : Option Kernel :=
  match k.place with
  | .burst restart =>
      if restart < 200 then
        let verdict := burst_verdict k.ctx
        let ctx := if verdict = .resume then traced restart k.ctx else k.ctx
        some {k with
          ctx := verdict.obey k.entry_pc ctx
          place := if verdict.runs then .burstRun restart 200000 else .thread}
      else some {k with place := .thread}
  | .burstRun restart 0 => some {k with place := .burst (restart+1)}
  | .burstRun restart (left+1) =>
      if k.ctx.running then k.instruction fpu (.burstRun restart left) else some {k with place := .burst (restart+1)}
  | .thread =>
      if should_exit then some {k with place := .finished}
      else
        let verdict := thread_verdict k.entry_pc k.ctx
        some {k with
          ctx := verdict.obey k.entry_pc k.ctx
          place := if verdict.runs then .threadRun 100000 else .finished}
  | .threadRun 0 => some {k with place := .thread}
  | .threadRun (left+1) =>
      if k.ctx.running then k.instruction fpu (.threadRun left) else some {k with place := .thread}
  | .finished => some k

def Kernel.apply (fpu : HostFpu) (k : Kernel) : KernelEvent → Option Kernel
  | .turn should_exit => k.turn fpu should_exit
  | .memory vm => some {k with ctx := {k.ctx with vm_base := some vm}}

theorem spu_load_elf_cases {ctx after : SpuCtx} {elf : Elf} (loaded : spu_load_elf ctx elf = some (after,ret)) :
    after = ctx ∧ ret = -1 ∨ ret = 0 ∧ ∃ ls,
      (table_ops elf 0 (e_phnum elf).toNat).foldlM (LoadOp.run elf) ctx.ls = some ls ∧
      after = {ctx with ls := ls, pc := e_entry elf &&& BitVec.ofNat 32 (SPU_LS_SIZE-1), running := true} := by
  unfold spu_load_elf at loaded
  split at loaded
  · cases loaded
    exact .inl ⟨rfl,rfl⟩
  split at loaded
  · cases loaded
    exact .inl ⟨rfl,rfl⟩
  obtain ⟨ls,ran,same⟩ := Option.map_eq_some_iff.mp loaded
  cases same
  exact .inr ⟨rfl,ls,ran,rfl⟩

theorem spurs_start_launch {vm : GuestMem} {k : Kernel} (launched : spurs_start vm = some k) : ∃ ls pc,
    k = ⟨launch_arguments {spu_ctx_init 0 (some vm) with ls,pc,running := true,trace_limit := 50},pc,.burst 0⟩ := by
  unfold spurs_start at launched
  dsimp only at launched
  split at launched
  · cases launched
  obtain ⟨⟨ctx,ret⟩,loaded,rest⟩ := Option.bind_eq_some_iff.mp launched
  rcases spu_load_elf_cases loaded with ⟨_,refused⟩ | ⟨zero,ls,_,rfl⟩
  · rw [refused] at rest
    cases rest
  · rw [zero] at rest
    cases rest
    exact ⟨ls,_,rfl⟩

def guestImage (gaddr : BitVec 32) (words : List (BitVec 32)) : GuestMem := fun a =>
  let k := (a - gaddr).toNat
  if k < 0x54 then
    ([0x7F,0x45,0x4C,0x46,0,0,0,0, 0,0,0,0,0,0,0,0, 0,0,0,0,0,0,0,0, 0,0,0,0x80,0,0,0,0x34,
      0,0,0,0,0,0,0,0, 0,0,0,0x20,0,1,0,0, 0,0,0,0,0,0,0,1, 0,0,0,0x54,0,0,0,0x80,
      0,0,0,0,0,0,0,0x20, 0,0,0,0x20,0,0,0,0, 0,0,0,0] : List (BitVec 8)).getD k 0
  else byteAt (k:=4) (words.getD ((k-0x54)/4) 0) ⟨(k-0x54)%4,by omega⟩

end BudokaiRuntime.Spu
