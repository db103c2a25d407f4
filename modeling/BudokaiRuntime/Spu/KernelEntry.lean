import BudokaiRuntime.Spu.RestartDiscipline

-- The context each entry into the kernel finds, against the one of the launch.
namespace BudokaiRuntime.Spu
open ByteLanes EventRuns Guest

-- The arguments r3..r6 and the registers a return address comes from.
def entryRegs : List (Fin 128) := [3,4,5,6,0,70,86,89]

structure SameEntry (ctx launch : SpuCtx) : Prop where
  registers : ∀ r ∈ entryRegs, ctx.gpr r = launch.gpr r
  sentinel : ∀ a : Fin SPU_LS_SIZE, 0x40 ≤ a.val → a.val < 0x44 → ctx.ls a = launch.ls a

def Kernel.reenters (k : Kernel) (e : KernelEvent) : Prop :=
  k.verdict e = some .returned ∨ k.verdict e = some .idle

def EntriesFromLaunch (fpu : HostFpu) (vm : GuestMem) (events : List KernelEvent) : Prop :=
  ∀ launch, spurs_start vm = some launch → SameEntry launch.ctx launch.ctx ∧
    Along (Kernel.apply fpu) (fun k e => k.reenters e →
      ∀ next, k.apply fpu e = some next → SameEntry next.ctx launch.ctx) launch events

structure Untouched (ctx : SpuCtx) : Prop where
  r5 : ctx.gpr 5 = .zero
  r6 : ctx.gpr 6 = .zero
  r70 : ctx.gpr 70 = spu_reg_set_w .zero 0 0x20000
  r86 : ctx.gpr 86 = spu_reg_set_w .zero 0 0x80
  r89 : ctx.gpr 89 = spu_reg_set_w .zero 0 0x80
  r0 : ∀ i : Fin 4, i ≠ 0 → (ctx.gpr 0).word i = 0

def EntriesUntouched (fpu : HostFpu) (vm : GuestMem) (events : List KernelEvent) : Prop :=
  ∀ launch, spurs_start vm = some launch →
    Along (Kernel.apply fpu) (fun k e => k.reenters e → Untouched k.ctx) launch events

section Registers
variable (gpr : Gpr) (r s : Fin 128) (i : Fin 4) (v : BitVec 32)

theorem set_w_zero_iff (reg : SpuReg) :
    spu_reg_set_w reg i v = spu_reg_set_w .zero i v ↔ ∀ j, j ≠ i → reg.word j = 0 := by
  constructor
  · intro same j other
    have read := congrArg (fun reg => reg.word j) same
    simp only [word_set_w,if_neg other] at read
    exact read.trans (word_zero j)
  · intro zero
    refine SpuReg.ext_words fun j => ?_
    rw [word_set_w,word_set_w]
    by_cases same : j = i
    · rw [if_pos same,if_pos same]
    · rw [if_neg same,if_neg same,zero j same,word_zero]
end Registers

section Entry
variable (entry_pc : BitVec 32) (ctx : SpuCtx)

theorem restart_registers :
    (restart_kernel entry_pc ctx).gpr 3 = spu_reg_set_w .zero 1 SPURS_KERNEL_MGMT_EA ∧
    (restart_kernel entry_pc ctx).gpr 4 = .zero ∧
    (restart_kernel entry_pc ctx).gpr 0 = spu_reg_set_w (ctx.gpr 0) 0 0x40 := by
  refine ⟨?_,?_,?_⟩
  all_goals simp [restart_kernel,Gpr.setWord,Gpr.clear,Function.update]

theorem restart_other (r : Fin 128) (r3 : r ≠ 3) (r4 : r ≠ 4) (r0 : r ≠ 0) :
    (restart_kernel entry_pc ctx).gpr r = ctx.gpr r := by
  simp [restart_kernel,Gpr.setWord,Gpr.clear,Function.update,r3,r4,r0]

structure LaunchValues (ctx : SpuCtx) : Prop where
  r3 : ctx.gpr 3 = spu_reg_set_w .zero 1 SPURS_KERNEL_MGMT_EA
  r4 : ctx.gpr 4 = .zero
  r5 : ctx.gpr 5 = .zero
  r6 : ctx.gpr 6 = .zero
  r0 : ctx.gpr 0 = spu_reg_set_w .zero 0 0x40
  r70 : ctx.gpr 70 = spu_reg_set_w .zero 0 0x20000
  r86 : ctx.gpr 86 = spu_reg_set_w .zero 0 0x80
  r89 : ctx.gpr 89 = spu_reg_set_w .zero 0 0x80

theorem launch_values (zeroed : ctx.gpr = fun _ => .zero) : LaunchValues (launch_arguments ctx) := by
  refine ⟨?_,?_,?_,?_,?_,?_,?_,?_⟩
  all_goals simp [launch_arguments,Gpr.setWord,Gpr.clear,Function.update,zeroed]

theorem stop100_at (one two : LocalStore) (a : Fin SPU_LS_SIZE) (low : 0x40 ≤ a.val) (high : a.val < 0x44) :
    one.stop100 a = two.stop100 a := by
  have inside : 0x40 ≤ a.val ∧ a.val < 0x40+4 := ⟨low,high⟩
  simp only [LocalStore.stop100,LocalStore.splice]
  rw [dif_pos inside,dif_pos inside]

-- A restart gives the launch state exactly when what it leaves out has been left alone.
theorem restart_same_iff (launch : SpuCtx) (values : LaunchValues launch)
    (sentinel : ∃ ls : LocalStore, launch.ls = ls.stop100) :
    SameEntry (restart_kernel entry_pc ctx) launch ↔ Untouched ctx := by
  obtain ⟨r3,r4,r0⟩ := restart_registers entry_pc ctx
  have left {r : Fin 128} {value : SpuReg} (other : r ≠ 3 ∧ r ≠ 4 ∧ r ≠ 0) (launched : launch.gpr r = value) :
      (restart_kernel entry_pc ctx).gpr r = launch.gpr r ↔ ctx.gpr r = value := by
    rw [restart_other entry_pc ctx r other.1 other.2.1 other.2.2,launched]
  have link : (restart_kernel entry_pc ctx).gpr 0 = launch.gpr 0 ↔ ∀ i : Fin 4, i ≠ 0 → (ctx.gpr 0).word i = 0 := by
    rw [r0,values.r0]
    exact set_w_zero_iff 0 0x40 (ctx.gpr 0)
  have r5 := left (by decide) values.r5
  have r6 := left (by decide) values.r6
  have r70 := left (by decide) values.r70
  have r86 := left (by decide) values.r86
  have r89 := left (by decide) values.r89
  constructor
  · intro same
    have kept := same.registers
    exact ⟨r5.mp (kept 5 (by decide)),r6.mp (kept 6 (by decide)),r70.mp (kept 70 (by decide)),
      r86.mp (kept 86 (by decide)),r89.mp (kept 89 (by decide)),link.mp (kept 0 (by decide))⟩
  · intro untouched
    refine ⟨?_,fun a low high => ?_⟩
    · simp only [entryRegs,List.forall_mem_cons]
      exact ⟨r3.trans values.r3.symm,r4.trans values.r4.symm,r5.mpr untouched.r5,r6.mpr untouched.r6,
        link.mpr untouched.r0,r70.mpr untouched.r70,r86.mpr untouched.r86,r89.mpr untouched.r89,
        fun r absent => absurd absent List.not_mem_nil⟩
    · obtain ⟨ls,placed⟩ := sentinel
      rw [placed]
      exact stop100_at ctx.ls ls a low high
end Entry

theorem obey_restart (entry_pc : BitVec 32) (ctx judged : SpuCtx) (verdict : Verdict)
    (restarts : some verdict = some .returned ∨ some verdict = some .idle) (same : verdict ≠ .resume → judged = ctx) :
    verdict.obey entry_pc judged = restart_kernel entry_pc ctx := by
  rcases restarts with returned | idle
  · cases returned
    rw [same (by decide)]
    rfl
  · cases idle
    rw [same (by decide)]
    rfl

theorem reenters_restart (fpu : HostFpu) (k : Kernel) (e : KernelEvent) (reenters : k.reenters e) :
    ∃ next, k.apply fpu e = some next ∧ next.ctx = restart_kernel k.entry_pc k.ctx := by
  obtain ⟨ctx,entry_pc,place⟩ := k
  cases e with
  | memory vm => rcases reenters with none_ | none_ <;> cases none_
  | turn should_exit =>
      simp only [Kernel.reenters] at reenters
      cases place with
      | burst restart =>
          simp only [Kernel.verdict] at reenters
          by_cases more : restart < 200
          · rw [if_pos more] at reenters
            exact ⟨_,if_pos more,obey_restart entry_pc ctx _ _ reenters fun other => if_neg other⟩
          · rw [if_neg more] at reenters
            rcases reenters with none_ | none_ <;> cases none_
      | thread =>
          simp only [Kernel.verdict] at reenters
          by_cases exits : should_exit = true
          · rw [if_pos exits] at reenters
            rcases reenters with none_ | none_ <;> cases none_
          · rw [if_neg exits] at reenters
            exact ⟨_,if_neg exits,obey_restart entry_pc ctx _ _ reenters fun _ => rfl⟩
      | burstRun restart left => rcases reenters with none_ | none_ <;> cases none_
      | threadRun left => rcases reenters with none_ | none_ <;> cases none_
      | finished => rcases reenters with none_ | none_ <;> cases none_

theorem entries_from_launch_iff (fpu : HostFpu) (vm : GuestMem) (events : List KernelEvent) :
    EntriesFromLaunch fpu vm events ↔ EntriesUntouched fpu vm events := by
  refine forall₂_congr fun launch launched => ?_
  obtain ⟨ls,pc,rfl⟩ := spurs_start_launch launched
  rw [and_iff_right ⟨fun _ _ => rfl,fun _ _ _ => rfl⟩]
  refine along_congr (fun _ _ _ (_ : True) _ => trivial) (fun k e _ => ?_) _ trivial events
  refine forall_congr' fun reenters => ?_
  have restarts := restart_same_iff k.entry_pc k.ctx
    (launch_arguments {spu_ctx_init 0 (some vm) with ls,pc,running := true,trace_limit := 50})
    (launch_values _ rfl) ⟨ls,rfl⟩
  obtain ⟨entered,ran,restarted⟩ := reenters_restart fpu k e reenters
  rw [← restarts,← restarted]
  constructor
  · intro same
    exact same entered ran
  · intro same next again
    cases ran.symm.trans again
    exact same

-- il $86,1; bi $0: the kernel returns with its own value in a register the restarted entry
-- computes the return address from.
def forgetfulKernel : GuestMem := guestImage SPURS_KERNEL_A_GADDR [0x408000D6,0x35000000]

theorem restart_keeps_return_register : ¬ ∀ (fpu : HostFpu) (vm : GuestMem) (events : List KernelEvent),
    EntriesFromLaunch fpu vm events := by
  intro same
  have seen : (spurs_start forgetfulKernel).bind (fun launch =>
      (run (Kernel.apply hostFpu) launch (List.replicate 5 (.turn false))).bind fun k =>
        (k.apply hostFpu (.turn false)).map fun next =>
          (k.verdict (.turn false),GW (launch.ctx.gpr 86) 0,GW (next.ctx.gpr 86) 0)) =
      some (some .returned,0x80,1) := by decide +kernel
  obtain ⟨launch,launched,rest⟩ := Option.bind_eq_some_iff.mp seen
  obtain ⟨k,ran,turned⟩ := Option.bind_eq_some_iff.mp rest
  obtain ⟨next,entered,shape⟩ := Option.map_eq_some_iff.mp turned
  have along := (same hostFpu forgetfulKernel (List.replicate 5 (.turn false) ++ [.turn false]) launch launched).2
  have kept := along_reached launch k _ [] (.turn false) along ran (.inl (congrArg Prod.fst shape)) next entered
  have word := congrArg (fun reg => GW reg 0) (kept.registers 86 (by decide))
  have launchWord : GW (launch.ctx.gpr 86) 0 = 0x80 := congrArg (fun seen => seen.2.1) shape
  have restartWord : GW (next.ctx.gpr 86) 0 = 1 := congrArg (fun seen => seen.2.2) shape
  exact absurd ((restartWord.symm.trans word).trans launchWord) (by decide)

end BudokaiRuntime.Spu
