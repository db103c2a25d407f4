import BudokaiRuntime.Spu.Conformance

-- rdch of a channel that has nothing to read, the producer's deposit, and the next step.
namespace BudokaiRuntime.Spu

-- The channels whose read stops the interpreter while they are empty.
inductive BlockingRead where
  | inMbox
  | signal (k : Fin 2)
deriving DecidableEq

def BlockingRead.channel : BlockingRead → Nat
  | .inMbox => CH_SPU_RdInMbox
  | .signal 0 => CH_SPU_RdSigNotify1
  | .signal 1 => CH_SPU_RdSigNotify2

def BlockingRead.count (ctx : SpuCtx) : BlockingRead → Int
  | .inMbox => ctx.inbound_mbox_count
  | .signal k => ctx.signal_count k

-- The producer's side: the value, and count := 1.
def BlockingRead.deposit (v : BitVec 32) (ctx : SpuCtx) : BlockingRead → SpuCtx
  | .inMbox => {ctx with inbound_mbox := v,inbound_mbox_count := 1}
  | .signal k => {ctx with
      signal := Function.update ctx.signal k v
      signal_count := Function.update ctx.signal_count k 1}

structure ChannelState where
  inbound_mbox : BitVec 32
  inbound_mbox_count : Int
  outbound_mbox : BitVec 32
  outbound_mbox_count : Int
  signal : Fin 2 → BitVec 32
  signal_count : Fin 2 → Int

def SpuCtx.channels (ctx : SpuCtx) : ChannelState :=
  ⟨ctx.inbound_mbox,ctx.inbound_mbox_count,ctx.outbound_mbox,ctx.outbound_mbox_count,ctx.signal,
    ctx.signal_count⟩

def readLate (fpu : HostFpu) (c : BlockingRead) (v : BitVec 32) (ctx : SpuCtx) : Option SpuCtx :=
  (spu_step fpu ctx).bind fun blocked => spu_step fpu {c.deposit v blocked with running := true}

def readEarly (fpu : HostFpu) (c : BlockingRead) (v : BitVec 32) (ctx : SpuCtx) : Option SpuCtx :=
  spu_step fpu (c.deposit v ctx)

-- Both orders give the same registers, pc and channels.
def LosesNothing (fpu : HostFpu) (c : BlockingRead) (v : BitVec 32) (ctx : SpuCtx) : Prop :=
  ∃ late early, readLate fpu c v ctx = some late ∧ readEarly fpu c v ctx = some early ∧
    late.gpr = early.gpr ∧ late.pc = early.pc ∧ late.channels = early.channels

def NextReads (c : BlockingRead) (ctx : SpuCtx) : Prop :=
  spu_decode (fetch (prepared ctx)) = .chan .rdch ∧ F_CH (fetch (prepared ctx)) = c.channel

instance (c : BlockingRead) (ctx : SpuCtx) : Decidable (NextReads c ctx) := inferInstanceAs (Decidable (_ ∧ _))

def nextPc (pc : BitVec 32) : BitVec 32 := ((pc &&& LS_MASK) + 4) &&& LS_MASK

theorem nextPc_toNat (pc : BitVec 32) : (nextPc pc).toNat = (pc.toNat % SPU_LS_SIZE + 4) % SPU_LS_SIZE := by
  have masked : (pc &&& LS_MASK).toNat = pc.toNat % SPU_LS_SIZE := and_ls_mask_toNat pc
  have outer : (nextPc pc).toNat = ((pc &&& LS_MASK) + 4).toNat % SPU_LS_SIZE := and_ls_mask_toNat _
  have four : (4 : BitVec 32).toNat = 4 := rfl
  have small : pc.toNat % SPU_LS_SIZE < SPU_LS_SIZE := Nat.mod_lt _ (by decide)
  have size := ls_size
  rw [outer,BitVec.toNat_add,masked,four,Nat.mod_eq_of_lt (by omega : _ + 4 < 2^32)]

theorem nextPc_moves (pc : BitVec 32) : nextPc (nextPc pc) ≠ nextPc pc := by
  intro same
  have equal := congrArg BitVec.toNat same
  have size := ls_size
  rw [nextPc_toNat (nextPc pc),size] at equal
  omega

section Frame
variable (fpu : HostFpu) (insn pc : BitVec 32) (ctx : SpuCtx) (c : BlockingRead)

-- Registers, local store and pc are all an instruction writes that is neither a control nor
-- a channel instruction.
def Computed (ctx after : SpuCtx) : Prop := ∃ gpr ls pc, after = {ctx with gpr,ls,pc}

def SpuOp.computes : SpuOp → Bool
  | .rr _ | .chan _ => false
  | _ => true

theorem exec_ri16_computed (op : Ri16) : Computed ctx (exec_ri16 op insn pc ctx) := by
  cases op <;> first | exact ⟨_,_,_,rfl⟩ | (simp only [exec_ri16]; split <;> exact ⟨_,_,_,rfl⟩)

theorem spu_exec_computed (op : SpuOp) (computes : op.computes = true)
    (ran : spu_exec fpu op insn pc ctx = some after) : Computed ctx after := by
  cases op with
  | rrr op =>
      cases ran
      cases op <;> exact ⟨_,_,_,rfl⟩
  | ri18 op =>
      cases ran
      cases op <;> exact ⟨_,_,_,rfl⟩
  | ri16 op =>
      cases ran
      exact exec_ri16_computed insn pc ctx op
  | ri10 op =>
      cases ran
      cases op <;> exact ⟨_,_,_,rfl⟩
  | unknown =>
      cases ran
      exact ⟨_,_,_,rfl⟩
  | rr op => cases computes
  | chan op => cases computes

def Transferred (ctx after : SpuCtx) : Prop := ∃ ls vm_base, after = {ctx with ls,vm_base}

theorem DmaCopy.run_transferred (copy : DmaCopy) (ran : copy.run ctx = some after) : Transferred ctx after := by
  cases copy with
  | lsFromLs dst src size =>
      simp only [DmaCopy.run] at ran
      split at ran
      · cases ran
        exact ⟨_,_,rfl⟩
      · cases ran
  | lsFromVm lsa ea size =>
      simp only [DmaCopy.run] at ran
      split at ran
      · obtain ⟨vm,_,rfl⟩ := Option.map_eq_some_iff.mp ran
        exact ⟨_,_,rfl⟩
      · cases ran
  | vmFromLs ea lsa size =>
      simp only [DmaCopy.run] at ran
      split at ran
      · obtain ⟨vm,_,rfl⟩ := Option.map_eq_some_iff.mp ran
        exact ⟨_,_,rfl⟩
      · cases ran

theorem mfc_execute_transferred (cmd : BitVec 32) (ran : mfc_execute ctx cmd = some after) :
    Transferred ctx after := by
  unfold mfc_execute at ran
  generalize mfc_copies ctx cmd = copies at ran
  induction copies generalizing ctx with
  | nil =>
      cases ran
      exact ⟨_,_,rfl⟩
  | cons copy copies ih =>
      rw [List.foldlM_cons] at ran
      obtain ⟨middle,one,rest⟩ := Option.bind_eq_some_iff.mp ran
      obtain ⟨_,_,rfl⟩ := copy.run_transferred ctx one
      obtain ⟨_,_,rfl⟩ := ih _ rest
      exact ⟨_,_,rfl⟩

theorem Computed.channels (computed : Computed ctx after) : after.channels = ctx.channels := by
  obtain ⟨_,_,_,rfl⟩ := computed
  rfl

theorem Transferred.channels (transferred : Transferred ctx after) : after.channels = ctx.channels := by
  obtain ⟨_,_,rfl⟩ := transferred
  rfl

theorem exec_rr_channels (op : Rr) : (exec_rr fpu op insn ctx).channels = ctx.channels := by
  cases op <;> first | rfl | (simp only [exec_rr]; split <;> rfl)

theorem count_of_channels {s t : SpuCtx} (same : s.channels = t.channels) : c.count s = c.count t := by
  cases c with
  | inMbox => exact congrArg ChannelState.inbound_mbox_count same
  | signal k => exact congrFun (congrArg ChannelState.signal_count same) k

theorem wrch_count (ch : Nat) (val : BitVec 32) (ran : wrch ctx ch val = some after) :
    c.count after = c.count ctx := by
  unfold wrch at ran
  split at ran
  case h_6 => exact count_of_channels c (mfc_execute_transferred ctx val ran).channels
  all_goals
    cases ran
    cases c <;> rfl

-- A read moves on to the instruction behind it whether or not it found a value.
theorem rdch_pc (ch : Nat) : (rdch ctx ch).1.pc = ctx.pc := by
  unfold rdch rdSignal
  split <;> first | rfl | (split <;> rfl)

theorem spu_exec_count (op : SpuOp) (ran : spu_exec fpu op insn pc ctx = some after) :
    c.count after = c.count ctx ∨ after.pc = ctx.pc := by
  cases op with
  | rr op =>
      cases ran
      exact .inl (count_of_channels c (exec_rr_channels fpu insn ctx op))
  | chan op =>
      cases op with
      | rdch =>
          cases ran
          exact .inr (rdch_pc ctx (F_CH insn))
      | wrch => exact .inl (wrch_count ctx c _ _ ran)
      | rchcnt =>
          cases ran
          exact .inl (by cases c <;> rfl)
  | _ => exact .inl (count_of_channels c (spu_exec_computed fpu insn pc ctx _ rfl ran).channels)

theorem prepared_channels : (advance (prepared ctx)).channels = ctx.channels := by
  unfold prepared
  split <;> rfl

theorem prepared_pc : (advance (prepared ctx)).pc = nextPc ctx.pc := by
  unfold prepared
  split <;> rfl

-- What one step can do to a channel the program reads from: leave its count alone, or
-- read and go on to the instruction behind.
theorem spu_step_count (ran : spu_step fpu ctx = some after) :
    c.count after = c.count ctx ∨ after.pc = nextPc ctx.pc := by
  rw [spu_step_prepared] at ran
  rcases spu_exec_count fpu _ _ _ c _ ran with kept | read
  · exact .inl (kept.trans (count_of_channels c (prepared_channels ctx)))
  · exact .inr (read.trans (prepared_pc ctx))
end Frame

section Read
variable (fpu : HostFpu) (c : BlockingRead) (v : BitVec 32) (ctx : SpuCtx)

theorem rdch_signal (k : Fin 2) : rdch ctx (BlockingRead.signal k).channel = rdSignal ctx k :=
  match k with
  | 0 => rfl
  | 1 => rfl

theorem rdch_empty (empty : c.count ctx = 0) : rdch ctx c.channel = ({ctx with running := false},0) := by
  cases c with
  | inMbox =>
      have none : ctx.inbound_mbox_count = 0 := empty
      simp [rdch,BlockingRead.channel,none]
  | signal k =>
      have none : ctx.signal_count k = 0 := empty
      rw [rdch_signal]
      exact if_neg (not_not.mpr none)

theorem rdch_deposited : (rdch (c.deposit v ctx) c.channel).2 = v ∧
    c.count (rdch (c.deposit v ctx) c.channel).1 = 0 := by
  cases c with
  | inMbox => exact ⟨rfl,rfl⟩
  | signal k =>
      have filled : (BlockingRead.deposit v ctx (.signal k)).signal_count k = 1 := Function.update_self _ _ _
      have present : (BlockingRead.deposit v ctx (.signal k)).signal_count k ≠ 0 := by
        rw [filled]
        decide
      rw [rdch_signal,rdSignal,if_pos present,filled]
      exact ⟨Function.update_self _ _ _,Function.update_self _ _ _⟩

theorem read_step (next : NextReads c ctx) :
    spu_step fpu ctx = some ((rdch (advance (prepared ctx)) c.channel).1.scalar (F_RT (fetch (prepared ctx)))
      (rdch (advance (prepared ctx)) c.channel).2) := by
  rw [spu_step_prepared,next.1,← next.2]
  rfl

theorem prepared_deposit : prepared (c.deposit v ctx) = c.deposit v (prepared ctx) := by
  have same : edgeFixupDue (c.deposit v ctx) = edgeFixupDue ctx := by cases c <;> rfl
  unfold prepared
  rw [same]
  split
  · cases c <;> rfl
  · rfl

theorem deposit_reads (next : NextReads c ctx) : NextReads c (c.deposit v ctx) := by
  unfold NextReads
  rw [prepared_deposit]
  cases c <;> exact next

theorem deposit_count : c.count (c.deposit v ctx) = 1 := by
  cases c with
  | inMbox => rfl
  | signal k => exact Function.update_self _ _ _

theorem deposit_pc : (c.deposit v ctx).pc = ctx.pc := by cases c <;> rfl

theorem scalar_count (rt : Fin 128) : c.count (ctx.scalar rt v) = c.count ctx := by cases c <;> rfl

theorem scalar_slot (rt : Fin 128) : GW ((ctx.scalar rt v).gpr rt) 0 = v := by
  have slot : (ctx.scalar rt v).gpr rt = spu_reg_set_w .zero 0 v := Function.update_self _ _ _
  rw [slot]
  simp [word_set_w]

theorem blocked_step (next : NextReads c ctx) (empty : c.count ctx = 0) :
    ∃ blocked, spu_step fpu ctx = some blocked ∧ blocked.running = false ∧ blocked.pc = nextPc ctx.pc ∧
      c.count blocked = 0 ∧ GW (blocked.gpr (F_RT (fetch (prepared ctx)))) 0 = 0 := by
  have still : c.count (advance (prepared ctx)) = 0 :=
    (count_of_channels c (prepared_channels ctx)).trans empty
  refine ⟨_,read_step fpu c ctx next,?_⟩
  rw [rdch_empty c _ still]
  refine ⟨rfl,prepared_pc ctx,?_,scalar_slot _ _ _⟩
  rw [scalar_count]
  exact still

theorem early_step (next : NextReads c ctx) :
    ∃ early, readEarly fpu c v ctx = some early ∧ early.pc = nextPc ctx.pc ∧ c.count early = 0 ∧
      GW (early.gpr (F_RT (fetch (prepared ctx)))) 0 = v := by
  have reads := deposit_reads c v ctx next
  have moved : advance (prepared (c.deposit v ctx)) = c.deposit v (advance (prepared ctx)) := by
    rw [prepared_deposit]
    cases c <;> rfl
  have same : fetch (prepared (c.deposit v ctx)) = fetch (prepared ctx) := by
    rw [prepared_deposit]
    cases c <;> rfl
  obtain ⟨value,drained⟩ := rdch_deposited c v (advance (prepared ctx))
  refine ⟨_,read_step fpu c _ reads,?_⟩
  rw [moved,same]
  rw [value]
  refine ⟨?_,(scalar_count c v _ _).trans drained,scalar_slot _ _ _⟩
  exact (rdch_pc _ c.channel).trans ((deposit_pc c v _).trans (prepared_pc ctx))

-- A resumed run is behind the early one: either the value is still in the channel, or
-- a second read has taken it one instruction later.
theorem late_read_differs (next : NextReads c ctx) (empty : c.count ctx = 0) : ¬ LosesNothing fpu c v ctx := by
  rintro ⟨late,early,resumed,direct,_,samePc,sameChannels⟩
  obtain ⟨blocked,stopped,_,behind,_,_⟩ := blocked_step fpu c ctx next empty
  obtain ⟨first,found,firstPc,firstCount,_⟩ := early_step fpu c v ctx next
  cases Option.some.inj (found.symm.trans direct)
  rw [readLate,stopped,Option.bind_some] at resumed
  have restart : c.count {c.deposit v blocked with running := true} = 1 ∧
      ({c.deposit v blocked with running := true} : SpuCtx).pc = nextPc ctx.pc := by
    refine ⟨?_,(deposit_pc c v blocked).trans behind⟩
    have same : ({c.deposit v blocked with running := true} : SpuCtx).channels = (c.deposit v blocked).channels := rfl
    exact (count_of_channels c same).trans (deposit_count c v blocked)
  rcases spu_step_count fpu _ c resumed with kept | read
  · have still : c.count late = 1 := kept.trans restart.1
    rw [count_of_channels c sameChannels,firstCount] at still
    exact absurd still (by decide)
  · rw [restart.2,samePc,firstPc] at read
    exact nextPc_moves ctx.pc read.symm
end Read

-- Whatever the context, the channel and the value: the attempt leaves the placeholder in
-- RT with pc already behind rdch, and the resumed run never catches up with the early one.
theorem blocked_read_never_catches_up (fpu : HostFpu) (c : BlockingRead) (v : BitVec 32) (ctx : SpuCtx)
    (next : NextReads c ctx) (empty : c.count ctx = 0) :
    ¬ LosesNothing fpu c v ctx ∧ ∃ blocked, spu_step fpu ctx = some blocked ∧ blocked.pc = nextPc ctx.pc ∧
      GW (blocked.gpr (F_RT (fetch (prepared ctx)))) 0 = 0 := by
  obtain ⟨blocked,stopped,_,behind,_,placeholder⟩ := blocked_step fpu c ctx next empty
  exact ⟨late_read_differs fpu c v ctx next empty,blocked,stopped,behind,placeholder⟩

-- rdch $3,SPU_RdInMbox at 0, and nothing in the mailbox.
def awaitMailbox : SpuCtx := {spu_ctx_init 0 none with ls := loadImage [0x01A00E83]}

theorem blocked_read_never_catches_up_mailbox :
    NextReads .inMbox awaitMailbox ∧ BlockingRead.inMbox.count awaitMailbox = 0 ∧
    ¬ LosesNothing hostFpu .inMbox 7 awaitMailbox ∧
    ∃ blocked, spu_step hostFpu awaitMailbox = some blocked ∧ blocked.pc = nextPc awaitMailbox.pc ∧
      GW (blocked.gpr (F_RT (fetch (prepared awaitMailbox)))) 0 = 0 :=
  ⟨by decide,by decide,blocked_read_never_catches_up hostFpu .inMbox 7 awaitMailbox (by decide) (by decide)⟩

theorem mailbox_read_resumes_behind :
    ¬ ∀ (fpu : HostFpu) (c : BlockingRead) (v : BitVec 32) (ctx : SpuCtx),
      NextReads c ctx → c.count ctx = 0 → LosesNothing fpu c v ctx := by
  intro complete
  have reads : NextReads .inMbox awaitMailbox := by decide
  have empty : BlockingRead.inMbox.count awaitMailbox = 0 := by decide
  exact late_read_differs hostFpu .inMbox 7 awaitMailbox reads empty
    (complete hostFpu .inMbox 7 awaitMailbox reads empty)

end BudokaiRuntime.Spu
