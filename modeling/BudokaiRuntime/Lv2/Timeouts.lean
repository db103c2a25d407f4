import BudokaiRuntime.Lv2.LightMutex
import BudokaiRuntime.Lv2.Syscalls

-- The four calls that wait with a timeout, and when the host wait they start ends.
namespace BudokaiRuntime.Lv2

inductive TimedCall where
  | sys_semaphore_wait (id : BitVec 32)
  | sys_cond_wait (cond_id : BitVec 32)
  | sys_lwcond_wait (lc lm : BitVec 32)
  | sys_event_queue_receive (id evp : BitVec 32)
deriving DecidableEq

-- The call is over, or it is in a host wait of `ms` milliseconds. A wait that runs out ends
-- the call with TIMED_OUT; there is no second one.
inductive TimedStart where
  | returned (r3 : BitVec 64)
  | waits (ms : BitVec 32)
deriving DecidableEq

structure TimedState where
  kernel : Kernel
  lwcond_map : BitVec 32 → Option HostPtr
  lwmutex_map : BitVec 32 → Option HostPtr

def timed_start (s : TimedState) (tus : BitVec 64) : TimedCall → TimedStart
  | .sys_semaphore_wait id =>
      match pool_get s.kernel.pool id .sem with
      | some _ => .waits (wait_ms tus)
      | none => .returned FAILED
  | .sys_cond_wait cond_id =>
      match pool_get s.kernel.pool cond_id .cond with
      | some (_,.cond mutex_id) =>
          match pool_get s.kernel.pool mutex_id .mutex with
          | some _ => .waits (wait_ms tus)
          | none => .returned FAILED
      | _ => .returned FAILED
  | .sys_lwcond_wait lc lm =>
      match s.lwcond_map lc,s.lwmutex_map lm with
      | some _,some _ => .waits (wait_ms tus)
      | _,_ => .returned CELL_OK
  | .sys_event_queue_receive id _ =>
      match pool_get s.kernel.pool id .evq with
      | some (_,.evq (some _)) => .waits (wait_ms tus)
      | _ => .returned FAILED

-- Microseconds from the start of a host wait to its end by itself; INFINITE has none.
def expiry (ms : BitVec 32) : Option Nat := if ms = INFINITE then none else some (ms.toNat*1000)

-- The object is there for this waiter from `signal` on, or never. The end of the wait and
-- whether it got the object; `none` when it lasts for ever.
def host_wait (ms : BitVec 32) (signal : Option Nat) : Option (Nat × Bool) :=
  match expiry ms with
  | none => signal.map fun t => (t,true)
  | some e => some (if signal.any (· ≤ e) then (signal.getD 0,true) else (e,false))

def Timely (ms : BitVec 32) (tus : BitVec 64) : Prop :=
  ∀ signal, ∃ t ok, host_wait ms signal = some (t,ok) ∧ (ok = false → tus.toNat ≤ t)

structure Covered (ms : BitVec 32) (tus : BitVec 64) : Prop where
  finite : ms ≠ INFINITE
  covers : tus.toNat ≤ ms.toNat*1000

theorem host_wait_finite (finite : ms ≠ INFINITE) (signal : Option Nat) :
    host_wait ms signal =
      some (if signal.any (· ≤ ms.toNat*1000) then (signal.getD 0,true) else (ms.toNat*1000,false)) := by
  have ends : expiry ms = some (ms.toNat*1000) := if_neg finite
  simp only [host_wait,ends]

theorem covered_iff_timely : Covered ms tus ↔ Timely ms tus := by
  constructor
  · intro covered signal
    have ended := host_wait_finite covered.finite signal
    cases early : signal.any (· ≤ ms.toNat*1000) with
    | true =>
        rw [early] at ended
        exact ⟨_,true,ended,nofun⟩
    | false =>
        rw [early] at ended
        exact ⟨_,false,ended,fun _ => covered.covers⟩
  · intro timely
    obtain ⟨t,ok,ended,late⟩ := timely none
    by_cases infinite : ms = INFINITE
    · subst infinite
      cases ended
    · rw [host_wait_finite infinite] at ended
      cases ended
      exact ⟨infinite,late rfl⟩

theorem timed_start_waits (waits : timed_start s tus call = .waits ms) : ms = wait_ms tus := by
  unfold timed_start at waits
  cases call with
  | sys_cond_wait cond_id =>
      dsimp only at waits
      split at waits
      · split at waits <;> cases waits
        rfl
      · cases waits
  | sys_semaphore_wait | sys_lwcond_wait | sys_event_queue_receive =>
      dsimp only at waits
      split at waits <;> cases waits
      rfl

theorem wait_ms_toNat (positive : tus ≠ 0) :
    (wait_ms tus).toNat = (tus.toNat + 999) % 2^64 / 1000 % 2^32 := by
  have thousand : (1000 : BitVec 64).toNat = 1000 := rfl
  have more : (999 : BitVec 64).toNat = 999 := rfl
  rw [wait_ms,if_pos positive,BitVec.toNat_setWidth,BitVec.toNat_udiv,BitVec.toNat_add,thousand,more]

-- The sum may wrap, the quotient may not fit, and it may be INFINITE.
theorem covered_iff (positive : tus ≠ 0) : Covered (wait_ms tus) tus ↔ tus.toNat ≤ 4294967294000 := by
  have wide := tus.isLt
  have value := wait_ms_toNat positive
  have infinite : wait_ms tus = INFINITE ↔ (wait_ms tus).toNat = 4294967295 :=
    ⟨fun same => same ▸ rfl,fun same => BitVec.eq_of_toNat_eq same⟩
  constructor
  · rintro ⟨finite,covers⟩
    rw [Ne,infinite] at finite
    omega
  · intro short
    refine ⟨?_,by omega⟩
    rw [Ne,infinite]
    omega

-- Whichever call it is and whatever it finds: its host wait is long enough and ends, up to
-- 4294967294 seconds exactly.
theorem timeouts_kept_iff (s : TimedState) (call : TimedCall) (tus : BitVec 64) (ms : BitVec 32)
    (positive : tus ≠ 0) (waits : timed_start s tus call = .waits ms) :
    (Covered ms tus ∧ Timely ms tus) ↔ tus.toNat ≤ 4294967294000 := by
  rw [← covered_iff_timely,and_self,timed_start_waits waits]
  exact covered_iff positive

def oneSemaphore : TimedState where
  kernel := {lv2_pool_init with pool := Function.update (fun _ => .free) 1 (.sem (some ⟨0,1⟩))}
  lwcond_map := fun _ => none
  lwmutex_map := fun _ => none

theorem timeouts_kept_iff_second :
    (1000000 : BitVec 64) ≠ 0 ∧ timed_start oneSemaphore 1000000 (.sys_semaphore_wait 1) = .waits 1000 ∧
    ((Covered 1000 1000000 ∧ Timely 1000 1000000) ↔ (1000000 : BitVec 64).toNat ≤ 4294967294000) :=
  ⟨by decide,by decide,
    timeouts_kept_iff oneSemaphore (.sys_semaphore_wait 1) 1000000 1000 (by decide) (by decide)⟩

-- All ones wrap to no wait at all, and 4294967295 seconds become INFINITE.
theorem longest_timeout_expires_at_once :
    ¬ ∀ (s : TimedState) (call : TimedCall) (tus : BitVec 64) (ms : BitVec 32), tus ≠ 0 →
      timed_start s tus call = .waits ms → Covered ms tus ∧ Timely ms tus := by
  intro kept
  have all_ones := (kept oneSemaphore (.sys_semaphore_wait 1) 0xFFFFFFFFFFFFFFFF 0 (by decide) (by decide)).1
  exact absurd all_ones.covers (by decide)

end BudokaiRuntime.Lv2
