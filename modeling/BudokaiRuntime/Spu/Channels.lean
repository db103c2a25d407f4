import BudokaiRuntime.Spu.Dma

namespace BudokaiRuntime.Spu

@[match_pattern] abbrev CH_SPU_RdEventStat : Nat := 0
@[match_pattern] abbrev CH_SPU_RdSigNotify1 : Nat := 3
@[match_pattern] abbrev CH_SPU_RdSigNotify2 : Nat := 4
@[match_pattern] abbrev CH_SPU_WrDec : Nat := 7
@[match_pattern] abbrev CH_SPU_RdDec : Nat := 8
@[match_pattern] abbrev CH_SPU_WrSRR0 : Nat := 14
@[match_pattern] abbrev CH_SPU_RdSRR0 : Nat := 15
@[match_pattern] abbrev CH_MFC_LSA : Nat := 16
@[match_pattern] abbrev CH_MFC_EAH : Nat := 17
@[match_pattern] abbrev CH_MFC_EAL : Nat := 18
@[match_pattern] abbrev CH_MFC_Size : Nat := 19
@[match_pattern] abbrev CH_MFC_TagID : Nat := 20
@[match_pattern] abbrev CH_MFC_Cmd : Nat := 21
@[match_pattern] abbrev CH_MFC_WrTagMask : Nat := 22
@[match_pattern] abbrev CH_MFC_WrTagUpdate : Nat := 23
@[match_pattern] abbrev CH_MFC_RdTagStat : Nat := 24
@[match_pattern] abbrev CH_SPU_WrOutMbox : Nat := 28
@[match_pattern] abbrev CH_SPU_RdInMbox : Nat := 29
@[match_pattern] abbrev CH_SPU_WrOutIntrMbox : Nat := 30

-- Event mask, event ack, list-stall ack and unknown channels fall to the last
-- branch: they change nothing.
def wrch (ctx : SpuCtx) (ch : Nat) (val : BitVec 32) : Option SpuCtx :=
  match ch with
  | CH_MFC_LSA => some {ctx with mfc_lsa := val}
  | CH_MFC_EAH => some {ctx with mfc_eah := val}
  | CH_MFC_EAL => some {ctx with mfc_eal := val}
  | CH_MFC_Size => some {ctx with mfc_size := val}
  | CH_MFC_TagID => some {ctx with mfc_tag := val}
  | CH_MFC_Cmd => mfc_execute ctx val
  | CH_MFC_WrTagMask => some {ctx with mfc_tagmask := val}
  | CH_MFC_WrTagUpdate => some {ctx with tag_update_pending := true}
  | CH_SPU_WrOutMbox => some {ctx with outbound_mbox := val,outbound_mbox_count := 1}
  | CH_SPU_WrOutIntrMbox => some {ctx with outbound_mbox := val,outbound_mbox_count := 1}
  | CH_SPU_WrDec => some {ctx with decr := val}
  | CH_SPU_WrSRR0 => some {ctx with pc := val}
  | _ => some ctx

def rdSignal (ctx : SpuCtx) (k : Fin 2) : SpuCtx × BitVec 32 :=
  if ctx.signal_count k ≠ 0 then
    ({ctx with signal_count := Function.update ctx.signal_count k (ctx.signal_count k - 1)},ctx.signal k)
  else ({ctx with running := false},0)

-- Machine status, event status and mask, list stall and atomic status read 0, as
-- does every unknown channel.
def rdch (ctx : SpuCtx) (ch : Nat) : SpuCtx × BitVec 32 :=
  match ch with
  | CH_MFC_RdTagStat => ({ctx with tag_update_pending := false},ctx.mfc_tagmask)
  | CH_SPU_RdInMbox =>
      if ctx.inbound_mbox_count > 0 then ({ctx with inbound_mbox_count := 0},ctx.inbound_mbox)
      else ({ctx with running := false},0)
  | CH_SPU_RdSigNotify1 => rdSignal ctx 0
  | CH_SPU_RdSigNotify2 => rdSignal ctx 1
  | CH_SPU_RdDec => (ctx,ctx.decr)
  | CH_SPU_RdSRR0 => (ctx,ctx.pc)
  | _ => (ctx,0)

def rchcnt (ctx : SpuCtx) (ch : Nat) : BitVec 32 :=
  match ch with
  | CH_SPU_RdInMbox => BitVec.ofInt 32 ctx.inbound_mbox_count
  | CH_SPU_WrOutMbox => if ctx.outbound_mbox_count = 0 then 1 else 0
  | CH_MFC_WrTagUpdate => 1
  | CH_MFC_RdTagStat => 1
  | CH_SPU_RdSigNotify1 => BitVec.ofInt 32 (ctx.signal_count 0)
  | CH_SPU_RdSigNotify2 => BitVec.ofInt 32 (ctx.signal_count 1)
  | _ => 0

end BudokaiRuntime.Spu
