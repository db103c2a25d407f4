import BudokaiRuntime.Spu.ElfImage
import BudokaiRuntime.Spu.Spurs

-- What last stopped the kernel, against what the drivers make of it.
namespace BudokaiRuntime.Spu
open EventRuns Guest

-- The instructions that clear running: a stop with its code and the pc behind it, a channel
-- read that blocks, iret.
inductive Halt where
  | stop (code pc : BitVec 32)
  | blocked
  | iret
deriving DecidableEq

def readBlocks (ctx : SpuCtx) : Nat → Bool
  | CH_SPU_RdInMbox => decide (ctx.inbound_mbox_count ≤ 0)
  | CH_SPU_RdSigNotify1 => ctx.signal_count 0 == 0
  | CH_SPU_RdSigNotify2 => ctx.signal_count 1 == 0
  | _ => false

def nextHalt (ctx : SpuCtx) : Option Halt :=
  let insn := fetch (prepared ctx)
  match spu_decode insn with
  | .rr .stop | .rr .stopd => some (.stop (insn &&& 0x3FFF) (nextPc ctx.pc))
  | .rr .iret => some .iret
  | .chan .rdch => if readBlocks ctx (F_CH insn) then some .blocked else none
  | _ => none

-- The kernel with the instruction that last cleared running.
structure Watched where
  kernel : Kernel
  last : Option Halt

def Kernel.steps (k : Kernel) : Bool := match k.place with
  | .burstRun _ (_+1) | .threadRun (_+1) => k.ctx.running
  | _ => false

def Watched.apply (fpu : HostFpu) (w : Watched) (e : KernelEvent) : Option Watched :=
  (w.kernel.apply fpu e).map fun kernel =>
    ⟨kernel,match e with
      | .turn _ => if w.kernel.steps then (nextHalt w.kernel.ctx).or w.last else w.last
      | .memory _ => w.last⟩

def dispatchPc (pc : BitVec 32) : Prop := 0x04 ≤ pc ∧ pc ≤ 0x3C

-- Restart through the stop-0x100 branch only behind stop 0x100, dispatch only behind stop 0 at
-- a slot, and neither a restart nor a dispatch behind a blocked read or iret.
structure Disciplined (last : Option Halt) (verdict : Verdict) : Prop where
  returned : verdict = .returned → ∃ pc, last = some (.stop 0x100 pc)
  dispatched : ∀ slot, verdict = .dispatch slot → ∃ pc, last = some (.stop 0 pc) ∧ dispatchPc pc
  blocked : last = some .blocked ∨ last = some .iret →
    verdict ≠ .returned ∧ verdict ≠ .idle ∧ ∀ slot, verdict ≠ .dispatch slot

def Watched.disciplined (w : Watched) (e : KernelEvent) : Prop :=
  ∀ verdict, w.kernel.verdict e = some verdict → Disciplined w.last verdict

-- The stop code left behind by an earlier stop, or by none, reads as a signal of the kernel.
def Kernel.misread (k : Kernel) : Prop :=
  k.ctx.stop_code = 0x100 ∧ (k.place = .thread → k.entry_pc ≠ 0) ∨
    k.ctx.stop_code = 0 ∧ (dispatchPc k.ctx.pc ∨ k.place = .thread ∧ k.ctx.pc ≥ 0x20000 ∧ k.entry_pc ≠ 0)

-- No blocked read and no iret is judged while the stop code misreads.
def Watched.fresh (w : Watched) (e : KernelEvent) : Prop :=
  (w.kernel.verdict e).isSome → w.kernel.ctx.running = false →
    w.last = some .blocked ∨ w.last = some .iret → ¬ w.kernel.misread

def RestartsDisciplined (fpu : HostFpu) (vm : GuestMem) (events : List KernelEvent) : Prop :=
  ∀ k, spurs_start vm = some k → Along (Watched.apply fpu) Watched.disciplined ⟨k,none⟩ events

def HaltsFresh (fpu : HostFpu) (vm : GuestMem) (events : List KernelEvent) : Prop :=
  ∀ k, spurs_start vm = some k → Along (Watched.apply fpu) Watched.fresh ⟨k,none⟩ events

abbrev kernelElf (vm : GuestMem) : Elf := guestElf vm SPURS_KERNEL_A_GADDR SPURS_KERNEL_ELF_SIZE

-- Nothing behind ls[] is overwritten, where running and the stop code lie: neither by the
-- loader nor by a transfer of the run.
def KernelInside (fpu : HostFpu) (vm : GuestMem) (events : List KernelEvent) : Prop :=
  (spu_load_elf {spu_ctx_init 0 (some vm) with trace_limit := 50} (kernelElf vm)).isSome ∧
    ∀ k, spurs_start vm = some k → ∃ final, run (Watched.apply fpu) ⟨k,none⟩ events = some final

def Watched.transfers (w : Watched) : KernelEvent → Prop
  | .turn _ => w.kernel.steps = true → TransferFits w.kernel.ctx
  | .memory _ => True

def KernelFits (fpu : HostFpu) (vm : GuestMem) (events : List KernelEvent) : Prop :=
  (headerValid (kernelElf vm) = true → TableInside (kernelElf vm)) ∧
    ∀ k, spurs_start vm = some k → Along (Watched.apply fpu) Watched.transfers ⟨k,none⟩ events

structure Status where
  running : Bool
  stop_code : BitVec 32
  id : Int

def SpuCtx.status (ctx : SpuCtx) : Status := ⟨ctx.running,ctx.stop_code,ctx.id⟩

def statusAfter (ctx : SpuCtx) : Option Halt → Status
  | none => ctx.status
  | some (.stop code _) => ⟨false,code,ctx.id⟩
  | some .blocked => ⟨false,ctx.stop_code,ctx.id⟩
  | some .iret => ⟨false,ctx.stop_code,ctx.id⟩

section Step
variable (fpu : HostFpu) (insn pc : BitVec 32) (ctx : SpuCtx)

theorem Computed.status (computed : Computed ctx after) : after.status = ctx.status := by
  obtain ⟨_,_,_,rfl⟩ := computed
  rfl

theorem Transferred.status (transferred : Transferred ctx after) : after.status = ctx.status := by
  obtain ⟨_,_,rfl⟩ := transferred
  rfl

theorem wrch_status (ch : Nat) (val : BitVec 32) (ran : wrch ctx ch val = some after) :
    after.status = ctx.status := by
  unfold wrch at ran
  split at ran
  case h_6 => exact (mfc_execute_transferred ctx val ran).status
  all_goals
    cases ran
    rfl

theorem rdch_status (ch : Nat) : (rdch ctx ch).1.status =
    statusAfter ctx (if readBlocks ctx ch then some .blocked else none) := by
  unfold rdch readBlocks
  split
  · rfl
  · by_cases filled : ctx.inbound_mbox_count > 0
    · rw [if_pos filled,decide_eq_false (Int.not_le.mpr filled)]
      rfl
    · rw [if_neg filled,decide_eq_true (Int.not_lt.mp filled)]
      rfl
  · by_cases empty : ctx.signal_count 0 = 0 <;> simp [rdSignal,empty,statusAfter,SpuCtx.status]
  · by_cases empty : ctx.signal_count 1 = 0 <;> simp [rdSignal,empty,statusAfter,SpuCtx.status]
  · rfl
  · rfl
  · rename_i _ mbox one two _ _
    split
    · exact absurd rfl mbox
    · exact absurd rfl one
    · exact absurd rfl two
    · rfl

def rrHalt (insn pc : BitVec 32) : Rr → Option Halt
  | .stop | .stopd => some (.stop (insn &&& 0x3FFF) pc)
  | .iret => some .iret
  | _ => none

theorem exec_rr_status (op : Rr) : (exec_rr fpu op insn ctx).status = statusAfter ctx (rrHalt insn pc op) := by
  cases op <;> first | rfl | (simp only [exec_rr]; split <;> rfl)

theorem exec_rr_stop_pc (op : Rr) (halt : rrHalt insn pc op = some (.stop code after)) :
    (exec_rr fpu op insn ctx).pc = ctx.pc ∧ pc = after := by
  cases op <;> first | (cases halt; exact ⟨rfl,rfl⟩) | cases halt

def opHalt (ctx : SpuCtx) (insn pc : BitVec 32) : SpuOp → Option Halt
  | .rr op => rrHalt insn pc op
  | .chan .rdch => if readBlocks ctx (F_CH insn) then some .blocked else none
  | _ => none

theorem nextHalt_eq : nextHalt ctx =
    opHalt ctx (fetch (prepared ctx)) (nextPc ctx.pc) (spu_decode (fetch (prepared ctx))) := by
  unfold nextHalt
  generalize fetch (prepared ctx) = insn
  dsimp only
  generalize spu_decode insn = op
  cases op with
  | rr op => cases op <;> rfl
  | chan op => cases op <;> rfl
  | _ => rfl

theorem spu_exec_status (op : SpuOp) (next : BitVec 32) (ran : spu_exec fpu op insn pc ctx = some after) :
    after.status = statusAfter ctx (opHalt ctx insn next op) := by
  cases op with
  | rr op =>
      cases ran
      exact exec_rr_status fpu insn next ctx op
  | chan op =>
      cases op with
      | rdch =>
          cases ran
          exact rdch_status ctx (F_CH insn)
      | wrch => exact wrch_status ctx _ _ ran
      | rchcnt =>
          cases ran
          rfl
  | _ => exact (spu_exec_computed fpu insn pc ctx _ rfl ran).status

theorem prepared_status : (advance (prepared ctx)).status = ctx.status := by
  unfold prepared
  split <;> rfl

theorem prepared_blocks (ch : Nat) : readBlocks (advance (prepared ctx)) ch = readBlocks ctx ch := by
  unfold prepared
  split <;> rfl

-- Only a stop writes the stop code; running is cleared by a stop, a blocked read or iret.
theorem spu_step_status (ran : spu_step fpu ctx = some after) : after.status = statusAfter ctx (nextHalt ctx) := by
  rw [spu_step_prepared] at ran
  have same : opHalt (advance (prepared ctx)) (fetch (prepared ctx)) (nextPc ctx.pc)
      (spu_decode (fetch (prepared ctx))) = nextHalt ctx := by
    rw [nextHalt_eq]
    unfold opHalt
    rw [prepared_blocks]
  have code : (advance (prepared ctx)).stop_code = ctx.stop_code := congrArg Status.stop_code (prepared_status ctx)
  have id : (advance (prepared ctx)).id = ctx.id := congrArg Status.id (prepared_status ctx)
  rw [spu_exec_status fpu _ _ _ _ (nextPc ctx.pc) ran,same]
  unfold statusAfter
  rw [prepared_status ctx,code,id]

theorem spu_step_stop_pc (ran : spu_step fpu ctx = some after) (halt : nextHalt ctx = some (.stop code pc)) :
    after.pc = pc := by
  rw [spu_step_prepared] at ran
  rw [nextHalt_eq] at halt
  generalize fetch (prepared ctx) = insn at ran halt
  generalize spu_decode insn = op at ran halt
  cases op with
  | rr op =>
      cases ran
      obtain ⟨kept,behind⟩ := exec_rr_stop_pc fpu insn _ (advance (prepared ctx)) op halt
      exact kept.trans ((prepared_pc ctx).trans behind)
  | chan op =>
      cases op with
      | rdch =>
          change (if readBlocks ctx (F_CH insn) then some Halt.blocked else none) = some (.stop code pc) at halt
          split at halt <;> cases halt
      | wrch => cases halt
      | rchcnt => cases halt
  | rrr op => cases halt
  | ri18 op => cases halt
  | ri16 op => cases halt
  | ri10 op => cases halt
  | unknown => cases halt

end Step

section Turn
variable (fpu : HostFpu) (k next : Kernel) (should_exit : Bool)

theorem obey_running (entry_pc : BitVec 32) (ctx judged : SpuCtx) (verdict : Verdict)
    (same : verdict ≠ .resume → judged = ctx) :
    verdict.obey entry_pc judged = ctx ∨ (verdict.obey entry_pc judged).running = true := by
  cases verdict with
  | carryOn => exact .inl (same (by decide))
  | halt => exact .inl (same (by decide))
  | _ => exact .inr rfl

-- A turn of spu_run: one instruction while running is set, otherwise back to the driver.
theorem spu_run_cases (here out : Place)
    (ran : (if k.ctx.running then k.instruction fpu here else some {k with place := out}) = some next) :
    (k.ctx.running = true ∧
      ∃ ctx, spu_step fpu k.ctx = some ctx ∧ next.ctx = {ctx with insn_count := ctx.insn_count+1}) ∨
      k.ctx.running = false ∧ (next.ctx = k.ctx ∨ next.ctx.running = true) := by
  by_cases running : k.ctx.running = true
  · rw [if_pos running] at ran
    obtain ⟨ctx,one,rfl⟩ := Option.map_eq_some_iff.mp ran
    exact .inl ⟨running,ctx,one,rfl⟩
  · rw [if_neg running] at ran
    cases ran
    exact .inr ⟨Bool.eq_false_iff.mpr running,.inl rfl⟩

theorem turn_cases (ran : k.turn fpu should_exit = some next) :
    (k.steps = true ∧ ∃ ctx, spu_step fpu k.ctx = some ctx ∧ next.ctx = {ctx with insn_count := ctx.insn_count+1}) ∨
      k.steps = false ∧ (next.ctx = k.ctx ∨ next.ctx.running = true) := by
  obtain ⟨ctx,entry_pc,place⟩ := k
  cases place with
  | burst restart =>
      refine .inr ⟨rfl,?_⟩
      simp only [Kernel.turn] at ran
      split at ran
      · cases ran
        exact obey_running entry_pc ctx _ (burst_verdict ctx) fun other => if_neg other
      · cases ran
        exact .inl rfl
  | thread =>
      refine .inr ⟨rfl,?_⟩
      simp only [Kernel.turn] at ran
      split at ran
      · cases ran
        exact .inl rfl
      · cases ran
        exact obey_running entry_pc ctx ctx (thread_verdict entry_pc ctx) fun _ => rfl
  | finished =>
      cases ran
      exact .inr ⟨rfl,.inl rfl⟩
  | burstRun restart left =>
      cases left with
      | zero =>
          cases ran
          exact .inr ⟨rfl,.inl rfl⟩
      | succ left => exact spu_run_cases fpu ⟨ctx,entry_pc,_⟩ next _ _ ran
  | threadRun left =>
      cases left with
      | zero =>
          cases ran
          exact .inr ⟨rfl,.inl rfl⟩
      | succ left => exact spu_run_cases fpu ⟨ctx,entry_pc,_⟩ next _ _ ran

theorem turn_defined_iff : (∃ next, k.turn fpu should_exit = some next) ↔ (k.steps = true → TransferFits k.ctx) := by
  obtain ⟨ctx,entry_pc,place⟩ := k
  have instruction (place out : Place) : (∃ next, (if ctx.running then (⟨ctx,entry_pc,place⟩ : Kernel).instruction fpu place
      else some ⟨ctx,entry_pc,out⟩) = some next) ↔ (ctx.running = true → TransferFits ctx) := by
    by_cases running : ctx.running = true
    · rw [if_pos running,← spu_step_defined_iff fpu ctx,Kernel.instruction]
      simp [running]
    · rw [if_neg running]
      exact iff_of_true ⟨_,rfl⟩ fun going => absurd going running
  cases place with
  | burst restart =>
      refine iff_of_true ?_ nofun
      simp only [Kernel.turn]
      split <;> exact ⟨_,rfl⟩
  | thread =>
      refine iff_of_true ?_ nofun
      simp only [Kernel.turn]
      split <;> exact ⟨_,rfl⟩
  | finished => exact iff_of_true ⟨_,rfl⟩ nofun
  | burstRun restart left =>
      cases left with
      | zero => exact iff_of_true ⟨_,rfl⟩ nofun
      | succ left => exact instruction (.burstRun restart left) _
  | threadRun left =>
      cases left with
      | zero => exact iff_of_true ⟨_,rfl⟩ nofun
      | succ left => exact instruction (.threadRun left) _
end Turn

def Verdict.signal : Verdict → Bool
  | .returned | .idle | .dispatch _ => true
  | _ => false

structure Reads (k : Kernel) (verdict : Verdict) : Prop where
  signal : verdict.signal = true ↔ k.ctx.running = false ∧ k.misread
  returned : verdict = .returned → k.ctx.stop_code = 0x100
  dispatched : ∀ slot, verdict = .dispatch slot → k.ctx.stop_code = 0 ∧ dispatchPc k.ctx.pc

section Verdicts
variable (k : Kernel)

theorem quiet_reads (quiet : verdict.signal = false) (unread : k.ctx.running = false → ¬ k.misread) :
    Reads k verdict := by
  refine ⟨?_,fun returned => ?_,fun slot dispatch => ?_⟩
  · rw [quiet]
    exact iff_of_false Bool.noConfusion fun both => unread both.1 both.2
  · rw [returned] at quiet
    cases quiet
  · rw [dispatch] at quiet
    cases quiet

theorem other_code_unread (zero : ¬ k.ctx.stop_code = 0) (code : ¬ k.ctx.stop_code = 0x100) : ¬ k.misread := by
  rintro (⟨same,_⟩ | ⟨same,_⟩)
  · exact code same
  · exact zero same

theorem dispatch_reads (stopped : k.ctx.running = false) (zero : k.ctx.stop_code = 0)
    (inside : dispatchPc k.ctx.pc) : Reads k (.dispatch slot) :=
  ⟨iff_of_true rfl ⟨stopped,.inr ⟨zero,.inl inside⟩⟩,fun same => absurd same (by intro same; cases same),
    fun _ _ => ⟨zero,inside⟩⟩

theorem returned_reads (stopped : k.ctx.running = false) (code : k.ctx.stop_code = 0x100)
    (entry : k.place = .thread → k.entry_pc ≠ 0) : Reads k .returned :=
  ⟨iff_of_true rfl ⟨stopped,.inl ⟨code,entry⟩⟩,fun _ => code,fun _ same => absurd same (by intro same; cases same)⟩

theorem running_reads (running : k.ctx.running = true) (quiet : verdict.signal = false) : Reads k verdict :=
  quiet_reads k quiet fun stopped => absurd (stopped.symm.trans running) Bool.noConfusion

theorem burst_reads (restart : Nat) (at_ : k.place = .burst restart) : Reads k (burst_verdict k.ctx) := by
  have elsewhere : k.place ≠ .thread := by
    rw [at_]
    intro same
    cases same
  unfold burst_verdict
  by_cases running : k.ctx.running = true
  · rw [if_pos running]
    exact running_reads k running rfl
  rw [if_neg running]
  have stopped : k.ctx.running = false := Bool.eq_false_iff.mpr running
  by_cases zero : k.ctx.stop_code = 0
  · rw [if_pos zero]
    by_cases slot : dispatchPc k.ctx.pc
    · rw [if_pos (show k.ctx.pc ≥ 0x04 ∧ k.ctx.pc ≤ 0x3C from slot)]
      exact dispatch_reads k stopped zero slot
    · rw [if_neg (show ¬ (k.ctx.pc ≥ 0x04 ∧ k.ctx.pc ≤ 0x3C) from slot)]
      have unread : ¬ k.misread := by
        rintro (⟨code,_⟩ | ⟨_,inside | ⟨here,_⟩⟩)
        · exact absurd (zero.symm.trans code) (by decide)
        · exact slot inside
        · exact elsewhere here
      split
      · exact quiet_reads k rfl fun _ => unread
      · exact quiet_reads k rfl fun _ => unread
  · rw [if_neg zero]
    by_cases code : k.ctx.stop_code = 0x100
    · rw [if_pos code]
      exact returned_reads k stopped code fun here => absurd here elsewhere
    · rw [if_neg code]
      exact quiet_reads k rfl fun _ => other_code_unread k zero code

theorem thread_reads (at_ : k.place = .thread) : Reads k (thread_verdict k.entry_pc k.ctx) := by
  unfold thread_verdict
  by_cases running : k.ctx.running = true
  · rw [if_pos running]
    exact running_reads k running rfl
  rw [if_neg running]
  have stopped : k.ctx.running = false := Bool.eq_false_iff.mpr running
  by_cases zero : k.ctx.stop_code = 0
  · rw [if_pos zero]
    by_cases slot : dispatchPc k.ctx.pc
    · rw [if_pos (show k.ctx.pc ≥ 0x04 ∧ k.ctx.pc ≤ 0x3C from slot)]
      exact dispatch_reads k stopped zero slot
    · rw [if_neg (show ¬ (k.ctx.pc ≥ 0x04 ∧ k.ctx.pc ≤ 0x3C) from slot)]
      have other : ¬ k.ctx.stop_code = 0x100 := by
        rw [zero]
        decide
      have idle : k.misread → k.ctx.pc ≥ 0x20000 ∧ k.entry_pc ≠ 0 := by
        rintro (⟨code,_⟩ | ⟨_,inside | ⟨_,far⟩⟩)
        · exact absurd code other
        · exact absurd inside slot
        · exact far
      by_cases far : k.ctx.pc ≥ 0x20000
      · rw [if_pos (.inl far)]
        by_cases entry : k.entry_pc = 0
        · rw [if_neg (not_not.mpr entry)]
          exact quiet_reads k rfl fun _ misread => (idle misread).2 entry
        · rw [if_pos entry]
          refine ⟨iff_of_true rfl ⟨stopped,.inr ⟨zero,.inr ⟨at_,far,entry⟩⟩⟩,fun same => ?_,fun slot same => ?_⟩
          · cases same
          · cases same
      · rw [if_neg (not_or.mpr ⟨far,other⟩)]
        exact quiet_reads k rfl fun _ misread => far (idle misread).1
  · rw [if_neg zero]
    by_cases code : k.ctx.stop_code = 0x100
    · rw [if_pos code]
      by_cases entry : k.entry_pc = 0
      · rw [if_neg (not_not.mpr entry)]
        refine quiet_reads k rfl fun _ => ?_
        rintro (⟨_,saved⟩ | ⟨same,_⟩)
        · exact saved at_ entry
        · exact zero same
      · rw [if_pos entry]
        exact returned_reads k stopped code fun _ => entry
    · rw [if_neg code]
      exact quiet_reads k rfl fun _ => other_code_unread k zero code

theorem verdict_reads (e : KernelEvent) (judged : k.verdict e = some verdict) : Reads k verdict := by
  cases e with
  | memory vm => cases judged
  | turn should_exit =>
      cases at_ : k.place with
      | burst restart =>
          simp only [Kernel.verdict,at_] at judged
          split at judged
          · cases judged
            exact burst_reads k restart at_
          · cases judged
      | thread =>
          simp only [Kernel.verdict,at_] at judged
          split at judged
          · cases judged
          · cases judged
            exact thread_reads k at_
      | burstRun restart left =>
          simp only [Kernel.verdict,at_] at judged
          cases judged
      | threadRun left =>
          simp only [Kernel.verdict,at_] at judged
          cases judged
      | finished =>
          simp only [Kernel.verdict,at_] at judged
          cases judged
end Verdicts

-- A stopped context was stopped by the recorded instruction, and a stop's code and pc still stand.
def Watched.Coherent (w : Watched) : Prop := w.kernel.ctx.running = false →
  ∃ halt, w.last = some halt ∧
    ∀ code pc, halt = .stop code pc → w.kernel.ctx.stop_code = code ∧ w.kernel.ctx.pc = pc

section Watch
variable (fpu : HostFpu) (w next : Watched) (e : KernelEvent)

theorem coherent_kept (coherent : w.Coherent) (ran : w.apply fpu e = some next) : next.Coherent := by
  obtain ⟨kernel,moved,rfl⟩ := Option.map_eq_some_iff.mp ran
  cases e with
  | memory vm =>
      cases moved
      exact coherent
  | turn should_exit =>
      intro stopped
      rcases turn_cases fpu w.kernel kernel should_exit moved with ⟨stepped,ctx,one,same⟩ | ⟨quiet,same⟩
      · have status := spu_step_status fpu w.kernel.ctx one
        have still : ctx.running = false := by
          rw [same] at stopped
          exact stopped
        have running : w.kernel.ctx.running = true := by
          unfold Kernel.steps at stepped
          split at stepped
          · exact stepped
          · exact stepped
          · cases stepped
        cases halt : nextHalt w.kernel.ctx with
        | none =>
            rw [halt] at status
            exact absurd (still.symm.trans ((congrArg Status.running status).trans running)) Bool.noConfusion
        | some halt_ =>
            refine ⟨halt_,?_,fun code pc stop => ?_⟩
            · simp only [stepped,if_true]
              rfl
            · rw [stop] at halt
              rw [halt] at status
              have behind := spu_step_stop_pc fpu pc w.kernel.ctx one halt
              rw [same]
              exact ⟨congrArg Status.stop_code status,behind⟩
      · rcases same with same | running
        · rw [same] at stopped ⊢
          obtain ⟨halt,recorded,stop⟩ := coherent stopped
          refine ⟨halt,?_,stop⟩
          simp only [quiet]
          exact recorded
        · exact absurd (stopped.symm.trans running) Bool.noConfusion

-- Where a stop leaves what it wrote, a verdict is in order exactly when no other halt is misread.
theorem disciplined_iff_fresh (coherent : w.Coherent) : w.disciplined e ↔ w.fresh e := by
  constructor
  · intro disciplined judged stopped cause misread
    obtain ⟨verdict,judged⟩ := Option.isSome_iff_exists.mp judged
    obtain ⟨returned,idle,dispatch⟩ := (disciplined verdict judged).blocked cause
    have signal := (verdict_reads w.kernel e judged).signal.mpr ⟨stopped,misread⟩
    cases verdict with
    | returned => exact returned rfl
    | idle => exact idle rfl
    | dispatch slot => exact dispatch slot rfl
    | _ => cases signal
  · intro fresh verdict judged
    have reads := verdict_reads w.kernel e judged
    have stop : verdict.signal = true → ∃ code pc, w.last = some (.stop code pc) ∧
        w.kernel.ctx.stop_code = code ∧ w.kernel.ctx.pc = pc := by
      intro signal
      obtain ⟨stopped,misread⟩ := reads.signal.mp signal
      have checked := fresh (Option.isSome_iff_exists.mpr ⟨verdict,judged⟩) stopped
      obtain ⟨halt,recorded,kept⟩ := coherent stopped
      cases halt with
      | stop code pc => exact ⟨code,pc,recorded,kept code pc rfl⟩
      | blocked => exact absurd misread (checked (.inl recorded))
      | iret => exact absurd misread (checked (.inr recorded))
    have unsignalled : w.last = some .blocked ∨ w.last = some .iret → verdict.signal ≠ true := by
      intro cause signal
      obtain ⟨code,pc,recorded,_⟩ := stop signal
      rcases cause with blocked | iret
      · cases recorded.symm.trans blocked
      · cases recorded.symm.trans iret
    refine ⟨fun returned => ?_,fun slot dispatch => ?_,fun cause => ⟨fun returned => ?_,fun idle => ?_,
      fun slot dispatch => ?_⟩⟩
    · obtain ⟨code,pc,recorded,wrote,_⟩ := stop (by rw [returned]; rfl)
      exact ⟨pc,by rw [recorded,← wrote,reads.returned returned]⟩
    · obtain ⟨code,pc,recorded,wrote,behind⟩ := stop (by rw [dispatch]; rfl)
      obtain ⟨zero,inside⟩ := reads.dispatched slot dispatch
      exact ⟨pc,by rw [recorded,← wrote,zero],behind ▸ inside⟩
    · exact unsignalled cause (by rw [returned]; rfl)
    · exact unsignalled cause (by rw [idle]; rfl)
    · exact unsignalled cause (by rw [dispatch]; rfl)

end Watch

theorem spurs_start_running (vm : GuestMem) (k : Kernel) (launched : spurs_start vm = some k) :
    k.ctx.running = true := by
  obtain ⟨ls,pc,rfl⟩ := spurs_start_launch launched
  rfl

theorem watched_defined_iff (fpu : HostFpu) (w : Watched) (e : KernelEvent) :
    (∃ next, w.apply fpu e = some next) ↔ w.transfers e := by
  unfold Watched.apply
  cases e with
  | turn should_exit =>
      refine Iff.trans ?_ (turn_defined_iff fpu w.kernel should_exit)
      constructor
      · rintro ⟨_,ran⟩
        obtain ⟨kernel,moved,_⟩ := Option.map_eq_some_iff.mp ran
        exact ⟨kernel,moved⟩
      · rintro ⟨kernel,moved⟩
        exact ⟨_,Option.map_eq_some_iff.mpr ⟨kernel,moved,rfl⟩⟩
  | memory vm => exact iff_of_true ⟨_,rfl⟩ trivial

theorem kernel_inside_iff (fpu : HostFpu) (vm : GuestMem) (events : List KernelEvent) :
    KernelInside fpu vm events ↔ KernelFits fpu vm events := by
  refine and_congr ?_ (forall₂_congr fun k _ => run_defined_iff (watched_defined_iff fpu) ⟨k,none⟩ events)
  rw [spu_load_elf_defined_iff]
  exact imp_congr_right fun _ => table_inside_iff _ (show 52 ≤ SPURS_KERNEL_ELF_SIZE.toNat by decide)

theorem restarts_disciplined_iff (fpu : HostFpu) (vm : GuestMem) (events : List KernelEvent) :
    RestartsDisciplined fpu vm events ↔ HaltsFresh fpu vm events := by
  refine forall₂_congr fun k launched => ?_
  have start : Watched.Coherent ⟨k,none⟩ := fun stopped =>
    absurd (stopped.symm.trans (spurs_start_running vm k launched)) Bool.noConfusion
  exact along_congr (fun w e next coherent ran => coherent_kept fpu w next e coherent ran)
    (fun w e coherent => disciplined_iff_fresh w e coherent) ⟨k,none⟩ start events

theorem restart_discipline_iff (fpu : HostFpu) (vm : GuestMem) (events : List KernelEvent) :
    (KernelInside fpu vm events ∧ RestartsDisciplined fpu vm events) ↔
      KernelFits fpu vm events ∧ HaltsFresh fpu vm events :=
  and_congr (kernel_inside_iff fpu vm events) (restarts_disciplined_iff fpu vm events)

-- brnz $5,+3; il $5,1; bi $0; rdch $2,SPU_RdInMbox: the kernel returns once, and then waits for
-- its mailbox.
def awaitingKernel : GuestMem := guestImage SPURS_KERNEL_A_GADDR [0x21000185,0x40800085,0x35000000,0x01A00E82]

theorem blocked_read_restarts_kernel : ¬ ∀ (fpu : HostFpu) (vm : GuestMem) (events : List KernelEvent),
    RestartsDisciplined fpu vm events := by
  intro disciplined
  have seen : (spurs_start awaitingKernel).bind (fun k =>
      (run (Watched.apply hostFpu) ⟨k,none⟩ (List.replicate 10 (.turn false))).map fun w =>
        (w.last,w.kernel.verdict (.turn false))) = some (some .blocked,some .returned) := by decide +kernel
  obtain ⟨k,launched,rest⟩ := Option.bind_eq_some_iff.mp seen
  obtain ⟨w,ran,shape⟩ := Option.map_eq_some_iff.mp rest
  have along := disciplined hostFpu awaitingKernel (List.replicate 10 (.turn false) ++ [.turn false]) k launched
  have judged := along_reached ⟨k,none⟩ w _ [] (.turn false) along ran
  have verdict := judged .returned (congrArg Prod.snd shape)
  exact (verdict.blocked (.inl (congrArg Prod.fst shape))).1 rfl

end BudokaiRuntime.Spu
