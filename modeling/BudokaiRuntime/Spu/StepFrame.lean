import BudokaiRuntime.Spu.BlockedRead

-- What one step leaves alone: registers, local store, channels and the rest of the context.
namespace BudokaiRuntime.Spu
open CountedLoop

def destination (insn : BitVec 32) : Fin 128 := if 0x8 ≤ (F_OP4 insn).toNat then F_RC insn else F_RT insn

-- The effective address of the four stores. `pc` is the address of the instruction.
def storeEa (op : SpuOp) (insn pc : BitVec 32) (ctx : SpuCtx) : Option (BitVec 32) :=
  match op with
  | .ri10 .stqd => some (GW (ctx.gpr (F_RA insn)) 0 + F_I10 insn <<< 4)
  | .rr .stqx => some (GW (ctx.gpr (F_RA insn)) 0 + GW (ctx.gpr (F_RB insn)) 0)
  | .ri16 .stqa => some (F_I16U insn <<< 2)
  | .ri16 .stqr => some (pc + F_I16 insn <<< 2)
  | _ => none

-- The channel registers besides mailboxes and signals.
structure MfcState where
  mfc_lsa : BitVec 32
  mfc_eah : BitVec 32
  mfc_eal : BitVec 32
  mfc_size : BitVec 32
  mfc_tag : BitVec 32
  mfc_tagmask : BitVec 32
  tag_update_pending : Bool
  decr : BitVec 32

def SpuCtx.mfc (ctx : SpuCtx) : MfcState :=
  ⟨ctx.mfc_lsa,ctx.mfc_eah,ctx.mfc_eal,ctx.mfc_size,ctx.mfc_tag,ctx.mfc_tagmask,ctx.tag_update_pending,ctx.decr⟩

def SpuOp.halts : SpuOp → Bool
  | .rr .stop | .rr .stopd | .rr .iret | .chan .rdch => true
  | _ => false

-- `op` writes at most register `rt`, the quadword at `ea`, and what its kind is there to change.
structure OpFrame (op : SpuOp) (rt : Fin 128) (ea : Option (BitVec 32)) (ctx after : SpuCtx) : Prop where
  registers : ∀ r, r ≠ rt → after.gpr r = ctx.gpr r
  localStore : ∀ i, after.ls i ≠ ctx.ls i → ∃ a, ea = some a ∧ i.val/16 = a.toNat % SPU_LS_SIZE / 16
  channels : op ≠ .chan .rdch → op ≠ .chan .wrch → after.channels = ctx.channels ∧ after.mfc = ctx.mfc
  status : op.halts = false → after.running = ctx.running ∧ after.stop_code = ctx.stop_code
  rest : after.vm_base = ctx.vm_base ∧ after.id = ctx.id ∧ after.insn_count = ctx.insn_count ∧
    after.trace_limit = ctx.trace_limit

structure StepFrame (ctx after : SpuCtx) : Prop where
  effect : OpFrame (spu_decode (fetch ctx)) (destination (fetch ctx))
    (storeEa (spu_decode (fetch ctx)) (fetch ctx) (ctx.pc &&& LS_MASK) ctx) ctx after
  unknown : spu_decode (fetch ctx) = .unknown → ∃ pc trace_count, after = {ctx with pc,trace_count}

section Destination
variable (insn : BitVec 32)

theorem destination_rrr (decoded : spu_decode insn = .rrr op) : destination insn = F_RC insn := by
  unfold spu_decode at decoded
  split at decoded
  case isTrue high => exact if_pos high
  case isFalse =>
    repeat' split at decoded
    all_goals cases decoded

theorem destination_low (known : spu_decode insn ≠ .unknown) (low : ∀ op, spu_decode insn ≠ .rrr op) :
    destination insn = F_RT insn := by
  unfold spu_decode at known low
  split at known
  case isTrue high =>
    rw [if_pos high] at low
    split at known
    · next op found => exact absurd (by rw [found]) (low op)
    · exact absurd rfl known
  case isFalse high => exact if_neg high
end Destination

section Registers
variable {r rt : Fin 128} (ctx : SpuCtx)

theorem put_other (other : r ≠ rt) (x : SpuReg) : (ctx.put rt x).gpr r = ctx.gpr r := by
  simp [SpuCtx.put,other]

theorem loop_other (other : r ≠ rt) (poke : SpuReg → Fin n → α → SpuReg) (v : Gpr → Fin n → α) (R : Gpr) :
    Fin.foldl n (fun R i => Function.update R rt (poke (R rt) i (v R i))) R r = R r := by
  have kept : others rt (Fin.foldl n (fun R i => Function.update R rt (poke (R rt) i (v R i))) R) = others rt R :=
    inplace_frame (fun R i a => Function.update R rt (poke (R rt) i a)) (others rt)
      (fun R _ _ => others_update rt R _) v R
  exact congrFun kept ⟨r,other⟩

theorem words_other (other : r ≠ rt) (v : Gpr → Fin 4 → BitVec 32) : (ctx.words rt v).gpr r = ctx.gpr r :=
  loop_other other spu_reg_set_w v ctx.gpr

theorem halves_other (other : r ≠ rt) (v : Gpr → Fin 8 → BitVec 16) : (ctx.halves rt v).gpr r = ctx.gpr r :=
  loop_other other spu_reg_set_h v ctx.gpr

theorem bytes_other (other : r ≠ rt) (v : Gpr → Fin 16 → BitVec 8) : (ctx.bytes rt v).gpr r = ctx.gpr r :=
  loop_other other SpuReg.poke v ctx.gpr

theorem doubles_other (other : r ≠ rt) (v : Gpr → Fin 2 → BitVec 64) : (ctx.doubles rt v).gpr r = ctx.gpr r :=
  loop_other other set_d v ctx.gpr

variable (fpu : HostFpu) (insn pc : BitVec 32)

theorem exec_rrr_other (op : Rrr) (other : r ≠ F_RC insn) : (exec_rrr fpu op insn ctx).gpr r = ctx.gpr r := by
  cases op <;> exact put_other ctx other _

theorem exec_ri18_other (op : Ri18) (other : r ≠ F_RT insn) : (exec_ri18 op insn ctx).gpr r = ctx.gpr r := by
  cases op with
  | ila => exact words_other ctx other _
  | hbra | hbrr => rfl

theorem exec_ri16_other (op : Ri16) (other : r ≠ F_RT insn) : (exec_ri16 op insn pc ctx).gpr r = ctx.gpr r := by
  cases op with
  | brz | brnz | brhz | brhnz =>
      simp only [exec_ri16]
      split <;> rfl
  | stqa | stqr | bra | br => rfl
  | lqa | lqr | brasl | brsl => exact put_other ctx other _
  | fsmbi => exact bytes_other ctx other _
  | ilh => exact halves_other ctx other _
  | il | ilhu | iohl => exact words_other ctx other _

theorem exec_ri10_other (op : Ri10) (other : r ≠ F_RT insn) : (exec_ri10 op insn ctx).gpr r = ctx.gpr r := by
  cases op with
  | stqd | hgti | hlgti | heqi => rfl
  | lqd => exact put_other ctx other _
  | ahi | sfhi | andhi | orhi | xorhi | ceqhi | cgthi | clgthi => exact halves_other ctx other _
  | andbi | orbi | xorbi | ceqbi | cgtbi | clgtbi => exact bytes_other ctx other _
  | _ => exact words_other ctx other _

theorem exec_rr_other (op : Rr) (other : r ≠ F_RT insn) : (exec_rr fpu op insn ctx).gpr r = ctx.gpr r := by
  cases op with
  | stop | stopd | lnop | nop | sync | dsync | mtspr | hbr | stqx | hgt | hlgt | heq | bi | iret | fscrwr
  | dftsv => rfl
  | biz | binz | bihz | bihnz =>
      simp only [exec_rr]
      split <;> rfl
  | mfspr | lqx | cbd | chd | cwd | cdd | cbx | chx | cwx | cdx | sumb | xswd | gb | gbh | gbb | orx
  | rotqbi | rotqmbi | shlqbi | rotqby | rotqmby | shlqby | rotqbybi | rotqmbybi | shlqbybi
  | rotqbii | rotqmbii | shlqbii | rotqbyi | rotqmbyi | shlqbyi | bisl | bisled | fi | fscrrd | fesd
  | frds => exact put_other ctx other _
  | ah | sfh | xsbh | fsmh | roth | rothm | rotmah | shlh | rothi | rothmi | rotmahi | shlhi | ceqh | cgth
  | clgth => exact halves_other ctx other _
  | absdb | avgb | cntb | fsmb | and | or | xor | nand | nor | andc | orc | eqv | ceqb | cgtb
  | clgtb => exact bytes_other ctx other _
  | dfa | dfs | dfm | dfma | dfms | dfnms | dfnma | dfceq | dfcmeq | dfcgt | dfcmgt =>
      exact doubles_other ctx other _
  | _ => exact words_other ctx other _
end Registers

section LocalStore
variable (fpu : HostFpu) (insn pc : BitVec 32) (ctx : SpuCtx)

theorem exec_ri16_ls (op : Ri16) (plain : op ≠ .stqa ∧ op ≠ .stqr) : (exec_ri16 op insn pc ctx).ls = ctx.ls := by
  cases op with
  | stqa => exact absurd rfl plain.1
  | stqr => exact absurd rfl plain.2
  | brz | brnz | brhz | brhnz =>
      simp only [exec_ri16]
      split <;> rfl
  | _ => rfl

theorem exec_ri10_ls (op : Ri10) (plain : op ≠ .stqd) : (exec_ri10 op insn ctx).ls = ctx.ls := by
  cases op with
  | stqd => exact absurd rfl plain
  | _ => rfl

theorem exec_rr_ls (op : Rr) (plain : op ≠ .stqx) : (exec_rr fpu op insn ctx).ls = ctx.ls := by
  cases op with
  | stqx => exact absurd rfl plain
  | biz | binz | bihz | bihnz =>
      simp only [exec_rr]
      split <;> rfl
  | _ => rfl

theorem store_place (ls : LocalStore) (ea : BitVec 32) (v : SpuReg) (i : Fin SPU_LS_SIZE)
    (changed : ls_write128 ls (ea &&& LS_MASK &&& ~~~15#32) v i ≠ ls i) :
    i.val/16 = ea.toNat % SPU_LS_SIZE / 16 := by
  rw [ls_write128_masked,Isa.store] at changed
  by_contra outside
  exact changed (if_neg outside)

theorem exec_ri16_stored (op : Ri16) (i : Fin SPU_LS_SIZE) (changed : (exec_ri16 op insn pc ctx).ls i ≠ ctx.ls i) :
    ∃ a, storeEa (.ri16 op) insn pc ctx = some a ∧ i.val/16 = a.toNat % SPU_LS_SIZE / 16 := by
  cases op with
  | stqa | stqr => exact ⟨_,rfl,store_place _ _ _ i changed⟩
  | _ => exact absurd (congrFun (exec_ri16_ls insn pc ctx _ (by decide)) i) changed

theorem exec_ri10_stored (op : Ri10) (i : Fin SPU_LS_SIZE) (changed : (exec_ri10 op insn ctx).ls i ≠ ctx.ls i) :
    ∃ a, storeEa (.ri10 op) insn pc ctx = some a ∧ i.val/16 = a.toNat % SPU_LS_SIZE / 16 := by
  cases op with
  | stqd => exact ⟨_,rfl,store_place _ _ _ i changed⟩
  | _ => exact absurd (congrFun (exec_ri10_ls insn ctx _ (by decide)) i) changed

theorem exec_rr_stored (op : Rr) (i : Fin SPU_LS_SIZE) (changed : (exec_rr fpu op insn ctx).ls i ≠ ctx.ls i) :
    ∃ a, storeEa (.rr op) insn pc ctx = some a ∧ i.val/16 = a.toNat % SPU_LS_SIZE / 16 := by
  cases op with
  | stqx => exact ⟨_,rfl,store_place _ _ _ i changed⟩
  | _ => exact absurd (congrFun (exec_rr_ls fpu insn ctx _ (by decide)) i) changed
end LocalStore

section Context
variable (fpu : HostFpu) (insn pc : BitVec 32) (ctx : SpuCtx)

-- The 11-bit opcodes that do not stop the interpreter compute; the others stop it.
theorem exec_rr_computed (op : Rr) (goes : SpuOp.halts (.rr op) = false) : Computed ctx (exec_rr fpu op insn ctx) := by
  cases op with
  | stop | stopd | iret => cases goes
  | biz | binz | bihz | bihnz =>
      simp only [exec_rr]
      split <;> exact ⟨_,_,_,rfl⟩
  | _ => exact ⟨_,_,_,rfl⟩

theorem exec_rr_halted (op : Rr) (stops : SpuOp.halts (.rr op) = true) :
    ∃ running stop_code, exec_rr fpu op insn ctx = {ctx with running,stop_code} := by
  cases op with
  | stop | stopd | iret => exact ⟨_,_,rfl⟩
  | _ => cases stops

theorem rdch_written (ch : Nat) : ∃ tag_update_pending inbound_mbox_count signal_count running,
    (rdch ctx ch).1 = {ctx with tag_update_pending,inbound_mbox_count,signal_count,running} := by
  unfold rdch rdSignal
  split <;> first | exact ⟨_,_,_,_,rfl⟩ | (split <;> exact ⟨_,_,_,_,rfl⟩)

theorem wrch_written (ch : Nat) (val : BitVec 32) (plain : ch ≠ CH_MFC_Cmd) :
    ∃ mfc_lsa mfc_eah mfc_eal mfc_size mfc_tag mfc_tagmask tag_update_pending outbound_mbox outbound_mbox_count
      decr pc, wrch ctx ch val = some {ctx with
        mfc_lsa,mfc_eah,mfc_eal,mfc_size,mfc_tag,mfc_tagmask,tag_update_pending,outbound_mbox,outbound_mbox_count,
        decr,pc} := by
  unfold wrch
  split
  case h_6 => exact absurd rfl plain
  all_goals exact ⟨_,_,_,_,_,_,_,_,_,_,_,rfl⟩

variable {ctx after : SpuCtx}

theorem Computed.frame (computed : Computed ctx after) (registers : ∀ r, r ≠ rt → after.gpr r = ctx.gpr r)
    (localStore : ∀ i, after.ls i ≠ ctx.ls i → ∃ a, ea = some a ∧ i.val/16 = a.toNat % SPU_LS_SIZE / 16) :
    OpFrame op rt ea ctx after := by
  refine ⟨registers,localStore,?_,?_,?_⟩
  all_goals
    obtain ⟨gpr,ls,pc,rfl⟩ := computed
  · exact fun _ _ => ⟨rfl,rfl⟩
  · exact fun _ => ⟨rfl,rfl⟩
  · exact ⟨rfl,rfl,rfl,rfl⟩

variable (ctx)

theorem exec_rr_frame (op : Rr) (low : destination insn = F_RT insn) :
    OpFrame (.rr op) (destination insn) (storeEa (.rr op) insn pc ctx) ctx (exec_rr fpu op insn ctx) := by
  have registers : ∀ r, r ≠ destination insn → (exec_rr fpu op insn ctx).gpr r = ctx.gpr r :=
    fun r other => exec_rr_other ctx fpu insn op (low ▸ other)
  have stored := exec_rr_stored fpu insn pc ctx op
  cases stops : SpuOp.halts (.rr op) with
  | false => exact (exec_rr_computed fpu insn ctx op stops).frame registers stored
  | true =>
      obtain ⟨running,stop_code,halted⟩ := exec_rr_halted fpu insn ctx op stops
      refine ⟨registers,stored,?_,?_,?_⟩
      all_goals rw [halted]
      · exact fun _ _ => ⟨rfl,rfl⟩
      · exact fun goes => absurd (stops.symm.trans goes) Bool.noConfusion
      · exact ⟨rfl,rfl,rfl,rfl⟩

theorem rdch_frame (low : destination insn = F_RT insn) :
    OpFrame (.chan .rdch) (destination insn) none ctx
      ((rdch ctx (F_CH insn)).1.scalar (F_RT insn) (rdch ctx (F_CH insn)).2) := by
  obtain ⟨tag,inbound,signals,running,written⟩ := rdch_written ctx (F_CH insn)
  rw [written]
  refine ⟨?_,fun i changed => absurd rfl changed,fun other => absurd rfl other,nofun,⟨rfl,rfl,rfl,rfl⟩⟩
  intro r other
  exact put_other {ctx with
    tag_update_pending := tag,inbound_mbox_count := inbound,signal_count := signals,running} (low ▸ other) _

theorem wrch_frame (ch : Nat) (val : BitVec 32) (plain : ch ≠ CH_MFC_Cmd) :
    ∃ after, wrch ctx ch val = some after ∧ OpFrame (.chan .wrch) rt none ctx after := by
  obtain ⟨_,_,_,_,_,_,_,_,_,_,_,written⟩ := wrch_written ctx ch val plain
  exact ⟨_,written,fun r _ => rfl,fun i changed => absurd rfl changed,fun _ other => absurd rfl other,
    fun _ => ⟨rfl,rfl⟩,⟨rfl,rfl,rfl,rfl⟩⟩
end Context

theorem spu_exec_frame (fpu : HostFpu) (insn pc : BitVec 32) (ctx : SpuCtx) (op : SpuOp)
    (decoded : spu_decode insn = op) (plain : ¬ (op = .chan .wrch ∧ F_CH insn = CH_MFC_Cmd)) :
    ∃ after, spu_exec fpu op insn pc ctx = some after ∧
      OpFrame op (destination insn) (storeEa op insn pc ctx) ctx after := by
  have low : op ≠ .unknown → (∀ rrr, op ≠ .rrr rrr) → destination insn = F_RT insn := by
    intro known short
    rw [← decoded] at known short
    exact destination_low insn known short
  cases op with
  | rrr op =>
      refine ⟨_,rfl,Computed.frame ?_ ?_ ?_⟩
      · cases op <;> exact ⟨_,_,_,rfl⟩
      · exact fun r other => exec_rrr_other ctx fpu insn op (destination_rrr insn decoded ▸ other)
      · intro i changed
        cases op <;> exact absurd rfl changed
  | ri18 op =>
      have rt := low nofun nofun
      refine ⟨_,rfl,Computed.frame ?_ ?_ ?_⟩
      · cases op <;> exact ⟨_,_,_,rfl⟩
      · exact fun r other => exec_ri18_other ctx insn op (rt ▸ other)
      · intro i changed
        cases op <;> exact absurd rfl changed
  | ri16 op =>
      have rt := low nofun nofun
      exact ⟨_,rfl,(exec_ri16_computed insn pc ctx op).frame
        (fun r other => exec_ri16_other ctx insn pc op (rt ▸ other)) (exec_ri16_stored insn pc ctx op)⟩
  | ri10 op =>
      have rt := low nofun nofun
      refine ⟨_,rfl,Computed.frame ?_ ?_ (exec_ri10_stored insn pc ctx op)⟩
      · cases op <;> exact ⟨_,_,_,rfl⟩
      · exact fun r other => exec_ri10_other ctx insn op (rt ▸ other)
  | rr op => exact ⟨_,rfl,exec_rr_frame fpu insn pc ctx op (low nofun nofun)⟩
  | chan op =>
      have rt := low nofun nofun
      cases op with
      | rdch => exact ⟨_,rfl,rdch_frame insn ctx rt⟩
      | wrch => exact wrch_frame ctx (F_CH insn) _ fun command => plain ⟨rfl,command⟩
      | rchcnt =>
          refine ⟨_,rfl,Computed.frame ⟨_,_,_,rfl⟩ ?_ fun i changed => absurd rfl changed⟩
          exact fun r other => put_other ctx (rt ▸ other) _
  | unknown => exact ⟨ctx,rfl,Computed.frame ⟨_,_,_,rfl⟩ (fun _ _ => rfl) fun i changed => absurd rfl changed⟩

theorem spu_step_frame (fpu : HostFpu) (ctx : SpuCtx) (quiet : edgeFixupDue ctx = false)
    (plain : ¬ (spu_decode (fetch ctx) = .chan .wrch ∧ F_CH (fetch ctx) = CH_MFC_Cmd)) :
    ∃ after, spu_step fpu ctx = some after ∧ StepFrame ctx after := by
  have same : prepared ctx = ctx := by simp [prepared,quiet]
  rw [spu_step_prepared,same]
  obtain ⟨after,ran,frame⟩ := spu_exec_frame fpu (fetch ctx) (ctx.pc &&& LS_MASK) (advance ctx) _ rfl plain
  refine ⟨after,ran,⟨⟨frame.registers,frame.localStore,frame.channels,frame.status,frame.rest⟩,?_⟩⟩
  intro unknown
  rw [unknown] at ran
  cases ran
  exact ⟨_,_,rfl⟩

def storeImage : SpuCtx := {spu_ctx_init 0 none with ls := loadImage [0x24000203]}

theorem spu_step_frame_store :
    edgeFixupDue storeImage = false ∧
    ¬ (spu_decode (fetch storeImage) = .chan .wrch ∧ F_CH (fetch storeImage) = CH_MFC_Cmd) ∧
    ∃ after, spu_step hostFpu storeImage = some after ∧ StepFrame storeImage after :=
  ⟨by decide,by decide,spu_step_frame hostFpu storeImage (by decide) (by decide)⟩

end BudokaiRuntime.Spu
