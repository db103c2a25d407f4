import BudokaiRuntime.Spu.RestartDiscipline

-- spurs_run_workload: the one workload context, dispatch after dispatch.
namespace BudokaiRuntime.Spu
open Guest

abbrev GAME_WORKLOAD_1_GADDR : BitVec 32 := 0x142900
abbrev GAME_WORKLOAD_2_GADDR : BitVec 32 := 0x14AE80
abbrev GAME_WORKLOAD_1_SIZE : BitVec 32 := GAME_WORKLOAD_2_GADDR - GAME_WORKLOAD_1_GADDR
abbrev SPURS_CTX_EA : BitVec 32 := 0x70A000

-- Between two calls, or in round `wl_restart` of the call with `left` instructions to go.
inductive SlotPlace where
  | idle
  | run (slot wl_restart left : Nat)
deriving DecidableEq

-- g_wl_ctx and g_wl_ctx_valid.
structure Workload where
  ctx : SpuCtx
  valid : Bool
  place : SlotPlace

def Workload.zero : Workload := ⟨spu_ctx_init 0 none,false,.idle⟩

def geometryTable : Fin 16 → BitVec 8 := fun k =>
  ([0xAA,0xBB,0xCC,0xDD,0x11,0x22,0x33,0x44,0x55,0x66,0x77,0x88,0x99,0xAA,0xBB,0xCC] : List (BitVec 8)).getD k 0

-- The words every dispatch writes, and the sentinel.
def slotWords : List (Fin 128 × BitVec 32) :=
  [(3,SPURS_CTX_EA),(0,0x40),(88,0x80),(19,0x40),(114,0x4000),(86,0x80),(89,0x80)]

def slot_registers (gpr : Gpr) : Gpr := slotWords.foldl (fun gpr (r,v) => Gpr.setWord gpr r 0 v) gpr

def slot_setup (ctx : SpuCtx) : SpuCtx := {ctx with gpr := slot_registers ctx.gpr,ls := ctx.ls.stop100}

-- The call up to its loop. `none`: the loader leaves its buffers.
def spurs_run_workload (vm : GuestMem) (s : Workload) (slot : Nat) : Option Workload :=
  let elf := guestElf vm GAME_WORKLOAD_1_GADDR GAME_WORKLOAD_1_SIZE
  if !s.valid then
    if !e_magic elf then some s
    else (spu_load_elf {spu_ctx_init 2 (some vm) with trace_limit := 50} elf).map fun (ctx,ret) =>
      if ret ≠ 0 then {s with ctx}
      else ⟨slot_setup {ctx with ls := ctx.ls.splice 0xBC00 geometryTable},true,.run slot 0 50000⟩
  else (spu_load_elf {s.ctx with vm_base := some vm} elf).map fun (ctx,ret) =>
    if ret ≠ 0 then {s with ctx}
    else ⟨slot_setup {ctx with trace_limit := 0},true,.run slot 0 50000⟩

-- What a round makes of the context behind its spu_run; true: another round.
def slot_judge (wl_restart : Nat) (ctx : SpuCtx) : Option (SpuCtx × Bool) :=
  if ctx.running then some (ctx,true)
  else if ctx.stop_code = 0 then
    if ctx.pc ≥ 0x20000 then some (ctx,false)
    else if wl_restart = 0 then some ({ctx with running := true,trace_limit := 30,trace_count := 0},true)
    else some ({ctx with running := true,trace_limit := 0},true)
  else if ctx.stop_code = 0x100 then some (ctx,false)
  else if ctx.stop_code = 0x3FFF then
    if ctx.pc ≥ 0x3100 then some (ctx,false)
    else (edge_service ctx.vm_base ctx).map fun ctx => (ctx,true)
  else some (ctx,false)

-- `memory`: other threads, or the handler of stop 0x3FFF, have written guest memory.
inductive SlotEvent where
  | dispatch (slot : Nat) (vm : GuestMem)
  | turn
  | memory (vm : GuestMem)

def Workload.round (s : Workload) (slot wl_restart : Nat) : Option Workload :=
  (slot_judge wl_restart s.ctx).map fun (ctx,again) =>
    {s with ctx,place := if again ∧ wl_restart+1 < 20 then .run slot (wl_restart+1) 50000 else .idle}

-- Calls do not nest.
def Workload.apply (fpu : HostFpu) (s : Workload) : SlotEvent → Option Workload
  | .dispatch slot vm => if s.place = .idle then spurs_run_workload vm s slot else none
  | .memory vm => some {s with ctx := {s.ctx with vm_base := s.ctx.vm_base.map fun _ => vm}}
  | .turn => match s.place with
    | .idle => some s
    | .run slot wl_restart 0 => s.round slot wl_restart
    | .run slot wl_restart (left+1) =>
        if s.ctx.running then
          (spu_step fpu s.ctx).map fun ctx =>
            {s with ctx := {ctx with insn_count := ctx.insn_count+1},place := .run slot wl_restart left}
        else s.round slot wl_restart

end BudokaiRuntime.Spu
