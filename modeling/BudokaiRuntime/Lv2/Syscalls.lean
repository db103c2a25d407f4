import BudokaiRuntime.Lv2.Objects

-- The kernel-object syscalls, each one atomic step, except where a thread waits
-- between two steps. A queue is changed inside its critical section alone, and what
-- others can see of that from outside, the semaphore, is released last.
namespace BudokaiRuntime.Lv2

-- A thread inside a syscall: it has a unit of the queue's semaphore and will dequeue, or
-- it sleeps on a condition variable and will take the mutex again.
inductive Blocked where
  | dequeue (queue : Slot) (evp cp : BitVec 32)
  | sleep (cond mutex : Slot) (ms : BitVec 32)
deriving DecidableEq

structure InFlight where
  tid : Tid
  op : Blocked
deriving DecidableEq

structure Kernel where
  pool : Pool
  cursor : BitVec 32
  inflight : List InFlight

def lv2_pool_init : Kernel where
  pool := fun _ => .free
  cursor := 1
  inflight := []

def Kernel.set (k : Kernel) (s : Slot) (o : Lv2Obj) : Kernel := {k with pool := Function.update k.pool s o}

def Kernel.enter (k : Kernel) (tid : Tid) (op : Blocked) : Kernel := {k with inflight := ⟨tid,op⟩::k.inflight}

def Kernel.leave (k : Kernel) (tid : Tid) : Kernel := {k with inflight := k.inflight.eraseP (·.tid == tid)}

inductive QueueEvent where
  | put (queue : Slot) (ev : Lv2Event)
  | got (queue : Slot) (ev : Lv2Event)
deriving DecidableEq

inductive GuestWrite where
  | w32 (ea val : BitVec 32)
  | w64 (ea : BitVec 32) (val : BitVec 64)
deriving DecidableEq

-- `r3` is the result register once the call has returned.
structure Outcome where
  kernel : Kernel
  r3 : Option (BitVec 64)
  writes : List GuestWrite
  log : List QueueEvent

def returns (k : Kernel) (r3 : BitVec 64) : Outcome := ⟨k,some r3,[],[]⟩

abbrev CELL_OK : BitVec 64 := 0
abbrev FAILED : BitVec 64 := ~~~0
abbrev CELL_EBUSY : BitVec 64 := 0x8001000B
abbrev TIMED_OUT : BitVec 64 := 0x80410034

def pool_alloc (k : Kernel) (kind : Lv2Kind) : Option (Slot × Kernel) :=
  (pool_scan k.pool k.cursor).map fun s =>
    (s,{k with
      pool := Function.update k.pool s (.zeroed kind)
      cursor := slotId s % BitVec.ofNat 32 (MAX_LV2_OBJ-1) + 1})

def create (k : Kernel) (out : BitVec 32) (kind : Lv2Kind) (object : Lv2Obj) : Outcome :=
  match pool_alloc k kind with
  | none => returns k FAILED
  | some (s,k) =>
      ⟨k.set s object,some CELL_OK,if out ≠ 0 then [.w32 out (slotId s)] else [],[]⟩

-- Destroy calls that free the slot whatever it holds.
def free_any (k : Kernel) (id : BitVec 32) : Outcome := returns {k with pool := pool_free k.pool id} CELL_OK

-- Destroy calls that look at the kind first.
def free_kind (k : Kernel) (id : BitVec 32) (kind : Lv2Kind) : Outcome :=
  match pool_get k.pool id kind with
  | none => returns k CELL_OK
  | some _ => free_any k id

def wait_ms (tus : BitVec 64) : BitVec 32 := if tus ≠ 0 then ((tus + 999) / 1000).setWidth 32 else INFINITE

def sys_semaphore_create (k : Kernel) (out ini mx : BitVec 32) : Outcome :=
  create k out .sem (.sem (CreateSemaphoreA ini.toInt (if mx.toInt > 0 then mx.toInt else 0x7FFFFFFF)))

def sys_semaphore_destroy (k : Kernel) (id : BitVec 32) : Outcome := free_kind k id .sem

def semaphore_take (k : Kernel) (id ms : BitVec 32) (result : WaitResult → BitVec 64) : Option Outcome :=
  match pool_get k.pool id .sem with
  | some (s,.sem handle) =>
      (WaitForSingleObject handle ms).map fun (r,handle) => returns (k.set s (.sem handle)) (result r)
  | _ => some (returns k FAILED)

def sys_semaphore_wait (k : Kernel) (id : BitVec 32) (tus : BitVec 64) : Option Outcome :=
  semaphore_take k id (wait_ms tus) fun r => if r = .timeout then TIMED_OUT else CELL_OK

def sys_semaphore_trywait (k : Kernel) (id : BitVec 32) : Option Outcome :=
  semaphore_take k id 0 fun r => if r = .object_0 then CELL_OK else TIMED_OUT

def sys_semaphore_post (k : Kernel) (id cnt : BitVec 32) : Outcome :=
  match pool_get k.pool id .sem with
  | some (s,.sem (some sem)) =>
      returns (k.set s (.sem (some (ReleaseSemaphore sem (if cnt ≠ 0 then cnt.toInt else 1))))) CELL_OK
  | _ => returns k CELL_OK

def sys_mutex_create (k : Kernel) (out : BitVec 32) : Outcome :=
  create k out .mutex (.mutex InitializeCriticalSection)

def sys_mutex_destroy (k : Kernel) (id : BitVec 32) : Outcome := free_kind k id .mutex

def sys_mutex_lock (k : Kernel) (tid : Tid) (id : BitVec 32) : Option Outcome :=
  match pool_get k.pool id .mutex with
  | some (s,.mutex cs) => (EnterCriticalSection cs tid).map fun cs => returns (k.set s (.mutex cs)) CELL_OK
  | _ => some (returns k FAILED)

def sys_mutex_trylock (k : Kernel) (tid : Tid) (id : BitVec 32) : Outcome :=
  match pool_get k.pool id .mutex with
  | some (s,.mutex cs) =>
      match EnterCriticalSection cs tid with
      | some cs => returns (k.set s (.mutex cs)) CELL_OK
      | none => returns k CELL_EBUSY
  | _ => returns k FAILED

def sys_mutex_unlock (k : Kernel) (tid : Tid) (id : BitVec 32) : Outcome :=
  match pool_get k.pool id .mutex with
  | some (s,.mutex cs) => returns (k.set s (.mutex (LeaveCriticalSection cs tid))) CELL_OK
  | _ => returns k CELL_OK

def sys_cond_create (k : Kernel) (out mutex_id : BitVec 32) : Outcome := create k out .cond (.cond mutex_id)

def sys_cond_destroy (k : Kernel) (id : BitVec 32) : Outcome := free_any k id

-- SleepConditionVariableCS, first half: the mutex is released and the thread sleeps.
def sys_cond_wait (k : Kernel) (tid : Tid) (cond_id : BitVec 32) (tus : BitVec 64) : Outcome :=
  match pool_get k.pool cond_id .cond with
  | some (c,.cond mutex_id) =>
      match pool_get k.pool mutex_id .mutex with
      | some (m,.mutex cs) =>
          let k := k.set m (.mutex (LeaveCriticalSection cs tid))
          ⟨k.enter tid (.sleep c m (wait_ms tus)),none,[],[]⟩
      | _ => returns k FAILED
  | _ => returns k FAILED

-- Second half: woken or timed out, the thread takes the critical section at the same address.
def cond_wake (k : Kernel) (tid : Tid) (mutex : Slot) (ms : BitVec 32) (ok : Bool) : Option Outcome :=
  if ok = false ∧ ms = INFINITE then none
  else match k.pool mutex with
    | .mutex cs => (EnterCriticalSection cs tid).map fun cs =>
        returns ((k.set mutex (.mutex cs)).leave tid) (if ok then CELL_OK else TIMED_OUT)
    | _ => none

def sys_event_queue_create (k : Kernel) (out : BitVec 32) : Outcome := create k out .evq (.evq (some evq_create))

def sys_event_queue_destroy (k : Kernel) (id : BitVec 32) : Outcome := free_any k id

-- First half of the receive calls: one unit of the queue's semaphore.
def queue_take (k : Kernel) (tid : Tid) (q : Slot) (evq : Lv2Evq) (ms evp cp : BitVec 32) (missed : Outcome) :
    Option Outcome :=
  match WaitForSingleObject (some evq.avail) ms with
  | none => none
  | some (.object_0,some avail) =>
      some ⟨(k.set q (.evq (some {evq with avail}))).enter tid (.dequeue q evp cp),none,[],[]⟩
  | some _ => some missed

def sys_event_queue_receive (k : Kernel) (tid : Tid) (id evp : BitVec 32) (tus : BitVec 64) : Option Outcome :=
  match pool_get k.pool id .evq with
  | some (q,.evq (some evq)) => queue_take k tid q evq (wait_ms tus) evp 0 (returns k TIMED_OUT)
  | _ => some (returns k FAILED)

def sys_event_queue_tryreceive (k : Kernel) (tid : Tid) (id evp cp : BitVec 32) : Option Outcome :=
  let nothing : Outcome := ⟨k,some CELL_OK,if cp ≠ 0 then [.w32 cp 0] else [],[]⟩
  match pool_get k.pool id .evq with
  | some (q,.evq (some evq)) => queue_take k tid q evq 0 evp cp nothing
  | _ => some nothing

def event_writes (evp : BitVec 32) (ev : Lv2Event) : List GuestWrite :=
  if evp ≠ 0 then
    [.w64 evp ev.source,.w64 (evp + 8) ev.data1,.w64 (evp + 16) ev.data2,.w64 (evp + 24) ev.data3]
  else []

-- Second half: under the queue's lock, then the event goes to guest memory. The queue
-- pointer is read again here; after a destroy there is none.
def queue_dequeue (k : Kernel) (tid : Tid) (queue : Slot) (evp cp : BitVec 32) : Option Outcome :=
  match k.pool queue with
  | .evq (some evq) =>
      let (ev,evq) := evq.remove
      let writes := event_writes evp ev ++ if cp ≠ 0 then [.w32 cp 1] else []
      some ⟨(k.set queue (.evq (some evq))).leave tid,some CELL_OK,writes,[.got queue ev]⟩
  | _ => none

def sys_event_port_create (k : Kernel) (out : BitVec 32) (name : BitVec 64) : Outcome :=
  create k out .evport (.evport 0 name)

def sys_event_port_destroy (k : Kernel) (id : BitVec 32) : Outcome := free_any k id

def sys_event_port_connect_local (k : Kernel) (port_id queue_id : BitVec 32) : Outcome :=
  match pool_get k.pool port_id .evport with
  | some (p,.evport _ name) => returns (k.set p (.evport queue_id name)) CELL_OK
  | _ => returns k CELL_OK

def sys_event_port_send (k : Kernel) (port_id : BitVec 32) (data1 data2 data3 : BitVec 64) : Outcome :=
  match pool_get k.pool port_id .evport with
  | some (_,.evport queue_id name) =>
      match pool_get k.pool queue_id .evq with
      | some (q,.evq (some evq)) =>
          let ev : Lv2Event := ⟨name,data1,data2,data3⟩
          if evq.cnt < EVQ_CAP then
            ⟨k.set q (.evq (some (evq.append ev))),some CELL_OK,[],[.put q ev]⟩
          else returns k CELL_OK
      | _ => returns k CELL_OK
  | _ => returns k CELL_OK

inductive Lv2Call where
  | sys_semaphore_create (out ini mx : BitVec 32)
  | sys_semaphore_destroy (id : BitVec 32)
  | sys_semaphore_wait (id : BitVec 32) (tus : BitVec 64)
  | sys_semaphore_trywait (id : BitVec 32)
  | sys_semaphore_post (id cnt : BitVec 32)
  | sys_mutex_create (out : BitVec 32)
  | sys_mutex_destroy (id : BitVec 32)
  | sys_mutex_lock (id : BitVec 32)
  | sys_mutex_trylock (id : BitVec 32)
  | sys_mutex_unlock (id : BitVec 32)
  | sys_cond_create (out mutex_id : BitVec 32)
  | sys_cond_destroy (id : BitVec 32)
  | sys_cond_wait (cond_id : BitVec 32) (tus : BitVec 64)
  | sys_event_queue_create (out : BitVec 32)
  | sys_event_queue_destroy (id : BitVec 32)
  | sys_event_queue_receive (id evp : BitVec 32) (tus : BitVec 64)
  | sys_event_queue_tryreceive (id evp cp : BitVec 32)
  | sys_event_port_create (out : BitVec 32) (name : BitVec 64)
  | sys_event_port_destroy (id : BitVec 32)
  | sys_event_port_connect_local (port_id queue_id : BitVec 32)
  | sys_event_port_send (port_id : BitVec 32) (data1 data2 data3 : BitVec 64)
deriving DecidableEq

inductive Lv2Action where
  | call (tid : Tid) (call : Lv2Call)
  | resume (tid : Tid) (ok : Bool)
deriving DecidableEq

-- `none`: the call cannot complete now.
def lv2_syscall (k : Kernel) (tid : Tid) : Lv2Call → Option Outcome
  | .sys_semaphore_create out ini mx => some (sys_semaphore_create k out ini mx)
  | .sys_semaphore_destroy id => some (sys_semaphore_destroy k id)
  | .sys_semaphore_wait id tus => sys_semaphore_wait k id tus
  | .sys_semaphore_trywait id => sys_semaphore_trywait k id
  | .sys_semaphore_post id cnt => some (sys_semaphore_post k id cnt)
  | .sys_mutex_create out => some (sys_mutex_create k out)
  | .sys_mutex_destroy id => some (sys_mutex_destroy k id)
  | .sys_mutex_lock id => sys_mutex_lock k tid id
  | .sys_mutex_trylock id => some (sys_mutex_trylock k tid id)
  | .sys_mutex_unlock id => some (sys_mutex_unlock k tid id)
  | .sys_cond_create out mutex_id => some (sys_cond_create k out mutex_id)
  | .sys_cond_destroy id => some (sys_cond_destroy k id)
  | .sys_cond_wait cond_id tus => some (sys_cond_wait k tid cond_id tus)
  | .sys_event_queue_create out => some (sys_event_queue_create k out)
  | .sys_event_queue_destroy id => some (sys_event_queue_destroy k id)
  | .sys_event_queue_receive id evp tus => sys_event_queue_receive k tid id evp tus
  | .sys_event_queue_tryreceive id evp cp => sys_event_queue_tryreceive k tid id evp cp
  | .sys_event_port_create out name => some (sys_event_port_create k out name)
  | .sys_event_port_destroy id => some (sys_event_port_destroy k id)
  | .sys_event_port_connect_local port_id queue_id => some (sys_event_port_connect_local k port_id queue_id)
  | .sys_event_port_send port_id data1 data2 data3 =>
      some (sys_event_port_send k port_id data1 data2 data3)

def lv2_resume (k : Kernel) (tid : Tid) (ok : Bool) : Option Outcome :=
  match k.inflight.find? (·.tid == tid) with
  | none => none
  | some thread => match thread.op with
    | .dequeue queue evp cp => queue_dequeue k tid queue evp cp
    | .sleep _ mutex ms => cond_wake k tid mutex ms ok

def lv2_step (k : Kernel) : Lv2Action → Option Outcome
  | .call tid call => if k.inflight.any (·.tid == tid) then none else lv2_syscall k tid call
  | .resume tid ok => lv2_resume k tid ok

def lv2_run : Kernel → List Lv2Action → Option (Kernel × List Outcome)
  | k,[] => some (k,[])
  | k,a::actions =>
      (lv2_step k a).bind fun o => (lv2_run o.kernel actions).map fun (k,outcomes) => (k,o::outcomes)

structure Transition where
  before : Kernel
  action : Lv2Action
  outcome : Outcome

def transitions : Kernel → List Lv2Action → List Outcome → List Transition
  | k,a::actions,o::outcomes => ⟨k,a,o⟩::transitions o.kernel actions outcomes
  | _,_,_ => []

section Runs
variable {k middle final : Kernel} {actions more : List Lv2Action} {outcomes later : List Outcome}

theorem lv2_run_cons (run : lv2_run k (a::actions) = some (final,outcomes)) : ∃ o later,
    lv2_step k a = some o ∧ lv2_run o.kernel actions = some (final,later) ∧ outcomes = o::later := by
  rw [lv2_run] at run
  obtain ⟨o,step,rest⟩ := Option.bind_eq_some_iff.mp run
  obtain ⟨⟨last,later⟩,ran,same⟩ := Option.map_eq_some_iff.mp rest
  cases same
  exact ⟨o,later,step,ran,rfl⟩

theorem transitions_step (run : lv2_run k actions = some (final,outcomes)) :
    ∀ t ∈ transitions k actions outcomes, lv2_step t.before t.action = some t.outcome := by
  induction actions generalizing k outcomes with
  | nil => cases run; nofun
  | cons a actions ih =>
      obtain ⟨o,later,step,ran,rfl⟩ := lv2_run_cons run
      intro t member
      rcases List.mem_cons.mp member with rfl | member
      · exact step
      · exact ih ran t member

theorem lv2_run_append (first : lv2_run k actions = some (middle,outcomes))
    (second : lv2_run middle more = some (final,later)) :
    lv2_run k (actions ++ more) = some (final,outcomes ++ later) ∧
      transitions k (actions ++ more) (outcomes ++ later) =
        transitions k actions outcomes ++ transitions middle more later := by
  induction actions generalizing k outcomes with
  | nil =>
      cases first
      exact ⟨second,rfl⟩
  | cons a actions ih =>
      obtain ⟨o,seen,step,ran,rfl⟩ := lv2_run_cons first
      obtain ⟨whole,trace⟩ := ih ran
      constructor
      · rw [List.cons_append,lv2_run,step,Option.bind_some,whole]
        rfl
      · rw [List.cons_append,List.cons_append,transitions,trace]
        rfl
end Runs

end BudokaiRuntime.Lv2
