import BudokaiRuntime.Spu.Channels
import BudokaiRuntime.Spu.Execute

namespace BudokaiRuntime.Spu

-- EDGE fixup before the load at 0x35FC: the stream descriptor's PUT-EA field is set
-- to 0xD0100000, at 0xADD0 when r49+r124 would fall into the stop-signal area.
def edgeFixupDue (ctx : SpuCtx) : Bool := ctx.pc &&& LS_MASK == 0x35FC && ctx.id == 2

def edge_fixup (ctx : SpuCtx) : SpuCtx :=
  let r49 := GW (ctx.gpr 49) 0
  let r124 := GW (ctx.gpr 124) 0
  let lsaddr := (r49 + r124) &&& ~~~15#32 &&& LS_MASK
  let moved := lsaddr < 0x80
  let gpr := if moved then
      let gpr := Function.update ctx.gpr 49 (spu_reg_set_w (ctx.gpr 49) 0 0xADD0)
      Function.update gpr 124 (spu_reg_set_w (gpr 124) 0 0)
    else ctx.gpr
  let lsaddr := if moved then 0xADD0 else lsaddr
  let ls := Function.update ctx.ls (lsQuad lsaddr 4) 0xD0
  let ls := Function.update ls (lsQuad lsaddr 5) 0x10
  let ls := Function.update ls (lsQuad lsaddr 6) 0x00
  let ls := Function.update ls (lsQuad lsaddr 7) 0x00
  {ctx with gpr,ls}

def spu_exec (fpu : HostFpu) (op : SpuOp) (insn pc : BitVec 32) (ctx : SpuCtx) : Option SpuCtx :=
  match op with
  | .rrr op => some (exec_rrr fpu op insn ctx)
  | .ri18 op => some (exec_ri18 op insn ctx)
  | .ri16 op => some (exec_ri16 op insn pc ctx)
  | .ri10 op => some (exec_ri10 op insn ctx)
  | .chan .rdch =>
      let (after,val) := rdch ctx (F_CH insn)
      some (after.scalar (F_RT insn) val)
  | .chan .wrch => wrch ctx (F_CH insn) (GW (ctx.gpr (F_RT insn)) 0)
  | .chan .rchcnt => some (ctx.scalar (F_RT insn) (rchcnt ctx (F_CH insn)))
  | .rr op => some (exec_rr fpu op insn ctx)
  | .unknown => some ctx

def fetch (ctx : SpuCtx) : BitVec 32 := ls_read32 ctx.ls (ctx.pc &&& LS_MASK)

def advance (ctx : SpuCtx) : SpuCtx :=
  {ctx with
    pc := ((ctx.pc &&& LS_MASK) + 4) &&& LS_MASK
    trace_count :=
      if ctx.trace_limit ≠ 0 ∧ ctx.trace_count < ctx.trace_limit.setWidth 64 then ctx.trace_count+1
      else ctx.trace_count}

-- `none`: the instruction issued a DMA copy that leaves ls[].
def spu_step (fpu : HostFpu) (ctx : SpuCtx) : Option SpuCtx :=
  let pc := ctx.pc &&& LS_MASK
  let ctx := if edgeFixupDue ctx then edge_fixup ctx else ctx
  let insn := fetch ctx
  spu_exec fpu (spu_decode insn) insn pc (advance ctx)

def prepared (ctx : SpuCtx) : SpuCtx := if edgeFixupDue ctx then edge_fixup ctx else ctx

theorem spu_step_prepared (fpu : HostFpu) (ctx : SpuCtx) :
    spu_step fpu ctx = spu_exec fpu (spu_decode (fetch (prepared ctx))) (fetch (prepared ctx))
      (ctx.pc &&& LS_MASK) (advance (prepared ctx)) := rfl

-- `n` steps whatever `running` says.
def spu_steps (fpu : HostFpu) : Nat → SpuCtx → Option SpuCtx
  | 0,ctx => some ctx
  | n+1,ctx => (spu_step fpu ctx).bind (spu_steps fpu n)

-- The driver loop: it stops when the program clears `running`.
def spu_run (fpu : HostFpu) : Nat → SpuCtx → Option SpuCtx
  | 0,ctx => some ctx
  | max_insns+1,ctx =>
      if ctx.running then
        (spu_step fpu ctx).bind fun ctx => spu_run fpu max_insns {ctx with insn_count := ctx.insn_count+1}
      else some ctx

end BudokaiRuntime.Spu
