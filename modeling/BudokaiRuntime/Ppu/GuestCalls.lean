import BudokaiRuntime.Guest.ThreadStacks
import BudokaiRuntime.Ppu.Context

-- The dispatchers of lifted functions, and the tail-calls that these leave in g_trampoline_fn.
namespace BudokaiRuntime.Ppu
open Guest

structure GuestThread (ω φ : Type) where
  vm : GuestMem
  world : ω
  g_trampoline_fn : Option φ

-- Lifted functions by name, `none` where one does not return.
abbrev Bodies (ω φ : Type) : Type := φ → PpuCtx × GuestThread ω φ → Option (PpuCtx × GuestThread ω φ)

-- `ppu_context ctx = {}`
def blank_ctx : PpuCtx := ⟨fun _ => 0,0,0,0,0,0⟩

def PpuCtx.put (ctx : PpuCtx) (r : Fin 32) (v : BitVec 64) : PpuCtx := {ctx with gpr := Function.update ctx.gpr r v}

def GuestThread.pend {ω φ : Type} (t : GuestThread ω φ) (f : Option φ) : GuestThread ω φ := {t with g_trampoline_fn := f}

-- The lifted functions that end in a tail-call alike; their targets differ.
def tail_calls {ω φ : Type} (target : φ) (s : PpuCtx × GuestThread ω φ) : PpuCtx × GuestThread ω φ :=
  let one := (s.1.put 4 (sext32 (-1))).put 3 (sext32 1)
  (one.put 4 (ppc_rldicl (one.gpr 4) 0 48),s.2.pend (some target))

inductive TailFn where
  | func_000E9218 | func_000CB5B0 | func_000C5C9C | func_000B73BC
  | func_000E9144 | func_000CB564 | func_000C5C38 | func_000B7398
  deriving DecidableEq

section Dispatchers
variable {ω φ : Type} (ppu_resolve_addr ppu_resolve_extra : BitVec 32 → Option φ) (bodies : Bodies ω φ)

def func_000E9218 : PpuCtx × GuestThread ω TailFn → PpuCtx × GuestThread ω TailFn := tail_calls .func_000E9144

def func_000CB5B0 : PpuCtx × GuestThread ω TailFn → PpuCtx × GuestThread ω TailFn := tail_calls .func_000CB564

def func_000C5C9C : PpuCtx × GuestThread ω TailFn → PpuCtx × GuestThread ω TailFn := tail_calls .func_000C5C38

def func_000B73BC : PpuCtx × GuestThread ω TailFn → PpuCtx × GuestThread ω TailFn := tail_calls .func_000B7398

-- `while (g_trampoline_fn)`, also under the name DRAIN_TRAMPOLINE.
def drain : Nat → PpuCtx × GuestThread ω φ → Option (PpuCtx × GuestThread ω φ)
  | 0,s => if s.2.g_trampoline_fn.isNone then some s else none
  | fuel+1,s => match s.2.g_trampoline_fn with
    | none => some s
    | some tf => (bodies tf (s.1,s.2.pend none)).bind (drain fuel)

def resolve (addr : BitVec 32) : Option φ := (ppu_resolve_addr addr).or (ppu_resolve_extra addr)

structure GuestCall where
  opd_addr : BitVec 32
  arg0 : BitVec 64
  arg1 : BitVec 64
  arg2 : BitVec 64
  arg3 : BitVec 64

-- The function of a callback, and the context it is entered with; ctx.pc is not read by lifted code.
def callback_entry (vm : GuestMem) (call : GuestCall) : Option (φ × PpuCtx) :=
  if call.opd_addr = 0 then none else
  let code := vm_read32 vm (call.opd_addr.setWidth 64)
  let toc := vm_read32 vm ((call.opd_addr + 4).setWidth 64)
  if code = 0 then none else
  (resolve ppu_resolve_addr ppu_resolve_extra code).map fun fn =>
    (fn,(((((blank_ctx.put 1 0x00900FF0).put 2 (toc.setWidth 64)).put 3 ((low32 call.arg0).setWidth 64)).put 4
      ((low32 call.arg1).setWidth 64)).put 5 ((low32 call.arg2).setWidth 64)).put 6 ((low32 call.arg3).setWidth 64))

-- The context is dropped on return.
def ps3_guest_call_impl (t : GuestThread ω φ) (call : GuestCall) : Option (GuestThread ω φ) :=
  match callback_entry ppu_resolve_addr ppu_resolve_extra t.vm call with
  | none => some t
  | some (fn,ctx) => (bodies fn (ctx,t)).map Prod.snd

def thread_ctx (tp : PpuThreadParam) : PpuCtx :=
  ((blank_ctx.put 1 (tp.stack_top.setWidth 64)).put 2 (tp.toc.setWidth 64)).put 3 tp.arg

def ppu_thread_proc (fuel : Nat) (t : GuestThread ω φ) (tp : PpuThreadParam) : Option (PpuCtx × GuestThread ω φ) :=
  match resolve ppu_resolve_addr ppu_resolve_extra tp.entry_addr with
  | none => some (thread_ctx tp,t)
  | some fn => (bodies fn (thread_ctx tp,t)).bind (drain bodies fuel)

-- `cia` is taken as the code address, or else as that of an OPD.
def sdk_entry (vm : GuestMem) (ctx : PpuCtx) (cia : BitVec 32) : Option φ × PpuCtx :=
  match resolve ppu_resolve_addr ppu_resolve_extra cia with
  | some fn => (some fn,ctx)
  | none =>
      let code_addr := vm_read32 vm (cia.setWidth 64)
      let toc := vm_read32 vm ((cia + 4).setWidth 64)
      (resolve ppu_resolve_addr ppu_resolve_extra code_addr,if toc ≠ 0 then ctx.put 2 (toc.setWidth 64) else ctx)

def ppu_sdk_thread_trampoline (fuel : Nat) (t : GuestThread ω φ) (ctx : PpuCtx) (cia : BitVec 32) :
    Option (PpuCtx × GuestThread ω φ) :=
  match sdk_entry ppu_resolve_addr ppu_resolve_extra t.vm ctx cia with
  | (none,ctx) => some (ctx,t)
  | (some fn,ctx) => (bodies fn (ctx,t)).bind (drain bodies fuel)

inductive Completes : φ → PpuCtx × GuestThread ω φ → PpuCtx × GuestThread ω φ → Prop
  | last : bodies fn s = some u → u.2.g_trampoline_fn = none → Completes fn s u
  | tail : bodies fn s = some m → m.2.g_trampoline_fn = some tf → Completes tf (m.1,m.2.pend none) u →
      Completes fn s u

-- What a callback is expected to do: nothing is pending, and all of it has been run.
def CompletesCall (t : GuestThread ω φ) (call : GuestCall) (t' : GuestThread ω φ) : Prop :=
  t'.g_trampoline_fn = none ∧ match callback_entry ppu_resolve_addr ppu_resolve_extra t.vm call with
    | none => t' = t
    | some (fn,ctx) => ∃ ctx', Completes bodies fn (ctx,t) (ctx',t')

def AllComplete : GuestThread ω φ → List GuestCall → Prop
  | t,[] => t.g_trampoline_fn = none
  | t,call::calls => t.g_trampoline_fn = none ∧
      ∀ t', ps3_guest_call_impl ppu_resolve_addr ppu_resolve_extra bodies t call = some t' →
        CompletesCall ppu_resolve_addr ppu_resolve_extra bodies t call t' ∧ AllComplete t' calls

def NoneQueued : GuestThread ω φ → List GuestCall → Prop
  | _,[] => True
  | t,call::calls => (∀ fn ctx, callback_entry ppu_resolve_addr ppu_resolve_extra t.vm call = some (fn,ctx) →
        ∀ u, bodies fn (ctx,t) = some u → u.2.g_trampoline_fn = none) ∧
      ∀ t', ps3_guest_call_impl ppu_resolve_addr ppu_resolve_extra bodies t call = some t' → NoneQueued t' calls
end Dispatchers

section Draining
variable {ω φ : Type} {ppu_resolve_addr ppu_resolve_extra : BitVec 32 → Option φ} {bodies : Bodies ω φ}
  {s u : PpuCtx × GuestThread ω φ} {t t' : GuestThread ω φ} {fn : φ}

theorem completes_drained (ran : (bodies fn s).bind (drain bodies fuel) = some u) :
    Completes bodies fn s u ∧ u.2.g_trampoline_fn = none := by
  induction fuel generalizing fn s with
  | zero =>
      obtain ⟨m,one,rest⟩ := Option.bind_eq_some_iff.mp ran
      simp only [drain] at rest
      split at rest
      · rename_i quiet
        cases rest
        exact ⟨.last one (Option.isNone_iff_eq_none.mp quiet),Option.isNone_iff_eq_none.mp quiet⟩
      · cases rest
  | succ fuel ih =>
      obtain ⟨m,one,rest⟩ := Option.bind_eq_some_iff.mp ran
      simp only [drain] at rest
      split at rest
      · rename_i quiet
        cases rest
        exact ⟨.last one quiet,quiet⟩
      · rename_i tf pending
        obtain ⟨completes,quiet⟩ := ih rest
        exact ⟨.tail one pending completes,quiet⟩

theorem drained_completes (completes : Completes bodies fn s u) :
    ∃ fuel, (bodies fn s).bind (drain bodies fuel) = some u := by
  induction completes with
  | last one quiet => exact ⟨0,by simp [one,drain,quiet]⟩
  | tail one pending _ ih =>
      obtain ⟨fuel,rest⟩ := ih
      exact ⟨fuel+1,by simp [one,drain,pending,rest]⟩

theorem thread_proc_completes (entry : resolve ppu_resolve_addr ppu_resolve_extra tp.entry_addr = some fn) :
    (∃ fuel, ppu_thread_proc ppu_resolve_addr ppu_resolve_extra bodies fuel t tp = some u) ↔
      Completes bodies fn (thread_ctx tp,t) u := by
  unfold ppu_thread_proc
  rw [entry]
  exact ⟨fun ⟨_,ran⟩ => (completes_drained ran).1,drained_completes⟩

theorem sdk_trampoline_completes (entry : sdk_entry ppu_resolve_addr ppu_resolve_extra t.vm ctx cia = (some fn,ctx')) :
    (∃ fuel, ppu_sdk_thread_trampoline ppu_resolve_addr ppu_resolve_extra bodies fuel t ctx cia = some u) ↔
      Completes bodies fn (ctx',t) u := by
  unfold ppu_sdk_thread_trampoline
  rw [entry]
  exact ⟨fun ⟨_,ran⟩ => (completes_drained ran).1,drained_completes⟩

-- A callback stops after its function, so that it completes where nothing is pending then.
theorem call_completes_iff
    (ran : ps3_guest_call_impl ppu_resolve_addr ppu_resolve_extra bodies t call = some t') :
    CompletesCall ppu_resolve_addr ppu_resolve_extra bodies t call t' ↔ t'.g_trampoline_fn = none := by
  unfold ps3_guest_call_impl at ran
  unfold CompletesCall
  cases entry : callback_entry ppu_resolve_addr ppu_resolve_extra t.vm call with
  | none =>
      rw [entry] at ran
      cases ran
      exact ⟨And.left,fun none => ⟨none,rfl⟩⟩
  | some found =>
      obtain ⟨fn,ctx⟩ := found
      rw [entry] at ran
      obtain ⟨u,one,rfl⟩ := Option.map_eq_some_iff.mp ran
      exact ⟨And.left,fun none => ⟨none,u.1,.last one none⟩⟩

theorem call_left_iff (quiet : t.g_trampoline_fn = none) :
    (∀ t', ps3_guest_call_impl ppu_resolve_addr ppu_resolve_extra bodies t call = some t' → t'.g_trampoline_fn = none) ↔
      ∀ fn ctx, callback_entry ppu_resolve_addr ppu_resolve_extra t.vm call = some (fn,ctx) →
        ∀ u, bodies fn (ctx,t) = some u → u.2.g_trampoline_fn = none := by
  unfold ps3_guest_call_impl
  cases entry : callback_entry ppu_resolve_addr ppu_resolve_extra t.vm call with
  | none =>
      refine ⟨fun _ => nofun,fun _ t' ran => ?_⟩
      cases ran
      exact quiet
  | some found =>
      constructor
      · rintro left fn ctx ⟨⟩ u ran
        exact left u.2 (Option.map_eq_some_iff.mpr ⟨u,ran,rfl⟩)
      · intro left t' ran
        obtain ⟨u,one,rfl⟩ := Option.map_eq_some_iff.mp ran
        exact left _ _ rfl u one

theorem all_complete_iff (quiet : t.g_trampoline_fn = none) (calls : List GuestCall) :
    AllComplete ppu_resolve_addr ppu_resolve_extra bodies t calls ↔
      NoneQueued ppu_resolve_addr ppu_resolve_extra bodies t calls := by
  induction calls generalizing t with
  | nil => exact ⟨fun _ => trivial,fun _ => quiet⟩
  | cons call calls ih =>
      constructor
      · rintro ⟨_,all⟩
        have left := fun t' ran => (call_completes_iff ran).mp (all t' ran).1
        exact ⟨(call_left_iff quiet).mp left,fun t' ran => (ih (left t' ran)).mp (all t' ran).2⟩
      · rintro ⟨first,rest⟩
        have left := (call_left_iff quiet).mpr first
        exact ⟨quiet,fun t' ran => ⟨(call_completes_iff ran).mpr (left t' ran),(ih (left t' ran)).mpr (rest t' ran)⟩⟩
end Draining

-- Callbacks on a thread with nothing pending complete exactly while none of their functions
-- leaves a tail-call behind.
theorem callbacks_complete_iff {ω φ : Type} (ppu_resolve_addr ppu_resolve_extra : BitVec 32 → Option φ)
    (bodies : Bodies ω φ) (t : GuestThread ω φ) (calls : List GuestCall) :
    AllComplete ppu_resolve_addr ppu_resolve_extra bodies (t.pend none) calls ↔
      NoneQueued ppu_resolve_addr ppu_resolve_extra bodies (t.pend none) calls :=
  all_complete_iff rfl calls

def tail_bodies : Bodies Unit TailFn
  | .func_000E9218,s => some (func_000E9218 s)
  | .func_000CB5B0,s => some (func_000CB5B0 s)
  | .func_000C5C9C,s => some (func_000C5C9C s)
  | .func_000B73BC,s => some (func_000B73BC s)
  | _,s => some s

-- A callback through an OPD at 0x1000 whose code address is 0xE9218.
theorem tail_call_stays_pending : ¬ ∀ (ppu_resolve_addr ppu_resolve_extra : BitVec 32 → Option TailFn)
    (bodies : Bodies Unit TailFn) (t : GuestThread Unit TailFn) (calls : List GuestCall),
    AllComplete ppu_resolve_addr ppu_resolve_extra bodies (t.pend none) calls := by
  intro always
  let extra : BitVec 32 → Option TailFn := fun addr => if addr = 0xE9218 then some .func_000E9218 else none
  let vm : GuestMem := GuestMem.put32 (fun _ => 0) 0x1000 0xE9218
  have left := (always (fun _ => none) extra tail_bodies ⟨vm,(),none⟩ [⟨0x1000,0,0,0,0⟩]).2
  have pending : ((ps3_guest_call_impl (fun _ => none) extra tail_bodies ⟨vm,(),none⟩ ⟨0x1000,0,0,0,0⟩).map
      GuestThread.g_trampoline_fn) = some (some .func_000E9144) := by decide +kernel
  obtain ⟨t',ran,same⟩ := Option.map_eq_some_iff.mp pending
  exact absurd ((left t' ran).1.1.symm.trans same) nofun

end BudokaiRuntime.Ppu
