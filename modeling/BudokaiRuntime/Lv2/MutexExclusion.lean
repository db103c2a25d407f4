import BudokaiRuntime.Lv2.Effects
import BudokaiRuntime.Lv2.LightMutex

-- The mutexes of the pool, with the condition variables that release and retake them,
-- against a table of recursive locks. The lookup of a call and what it does to the lock
-- are one step.
namespace BudokaiRuntime.Lv2.PoolMutex

abbrev LockTable : Type := Slot → Option CriticalSection

inductive LockEvent where
  | create (s : Slot)
  | destroy (s : Slot)
  | enter (tid : Tid) (s : Slot)
  | leave (tid : Tid) (s : Slot)
deriving DecidableEq

inductive LockStep (table : LockTable) : Option LockEvent → LockTable → Prop
  | quiet : LockStep table none table
  | create : table s = none → LockStep table (some (.create s)) (Function.update table s (some InitializeCriticalSection))
  | destroy : LockStep table (some (.destroy s)) (Function.update table s none)
  | enter : table s = some cs → EnterCriticalSection cs tid = some after →
      LockStep table (some (.enter tid s)) (Function.update table s (some after))
  | leave : table s = some cs →
      LockStep table (some (.leave tid s)) (Function.update table s (some (LeaveCriticalSection cs tid)))

abbrev Holdings : Type := Tid → Slot → Nat

def Holdings.set (h : Holdings) (tid : Tid) (s : Slot) (n : Nat) : Holdings :=
  Function.update h tid (Function.update (h tid) s n)

def Holdings.after (h : Holdings) : Option LockEvent → Holdings
  | some (.enter tid s) => h.set tid s (h tid s + 1)
  | some (.leave tid s) => h.set tid s (h tid s - 1)
  | _ => h

-- A lock is destroyed only while nobody holds it, and left only by a thread that holds it.
def Orderly (h : Holdings) : Option LockEvent → Prop
  | some (.destroy s) => ∀ tid, h tid s = 0
  | some (.leave tid s) => 0 < h tid s
  | _ => True

def Accounts (h : Holdings) (table : LockTable) : Prop :=
  ∀ s, match table s with
    | some cs => Owns (h · s) cs
    | none => ∀ tid, h tid s = 0

section Table
variable {h : Holdings} {table next : LockTable} {s : Slot} {tid : Tid} {cs : CriticalSection}

theorem accounts_some (accounts : Accounts h table) (present : table s = some cs) : Owns (h · s) cs := by
  have here := accounts s
  rwa [present] at here

theorem accounts_none (accounts : Accounts h table) (absent : table s = none) : ∀ tid, h tid s = 0 := by
  have here := accounts s
  rwa [absent] at here

theorem set_here (n : Nat) : (h.set tid s n · s) = Function.update (h · s) tid n := by
  funext t
  by_cases same : t = tid
  · rw [same,Holdings.set,Function.update_self,Function.update_self,Function.update_self]
  · rw [Holdings.set,Function.update_of_ne same,Function.update_of_ne same]

theorem set_elsewhere (n : Nat) (other : t ≠ s) : (h.set tid s n · t) = (h · t) := by
  funext who
  by_cases same : who = tid
  · rw [same,Holdings.set,Function.update_self,Function.update_of_ne other]
  · rw [Holdings.set,Function.update_of_ne same]

theorem accounts_update (accounts : Accounts h table) (after : Holdings) (entry : Option CriticalSection)
    (elsewhere : ∀ t, t ≠ s → (after · t) = (h · t))
    (here : match entry with
      | some cs => Owns (after · s) cs
      | none => ∀ tid, after tid s = 0) : Accounts after (Function.update table s entry) := by
  intro t
  by_cases same : t = s
  · subst same
    rw [Function.update_self]
    exact here
  · rw [Function.update_of_ne same]
    have kept := accounts t
    have level := elsewhere t same
    cases held : table t with
    | none =>
        rw [held] at kept
        exact fun tid => (congrFun level tid).trans (kept tid)
    | some cs =>
        rw [held] at kept
        exact level.symm ▸ kept

theorem accounts_step (accounts : Accounts h table) (orderly : Orderly h e) (step : LockStep table e next) :
    Accounts (h.after e) next := by
  cases step with
  | quiet => exact accounts
  | create absent => exact accounts_update accounts h _ (fun _ _ => rfl) (owns_fresh (accounts_none accounts absent))
  | destroy => exact accounts_update accounts h _ (fun _ _ => rfl) orderly
  | @enter s cs tid after present taken =>
      refine accounts_update accounts (h.set tid s (h tid s + 1)) _ (fun _ other => set_elsewhere _ other) ?_
      have entered := (owns_enter (accounts_some accounts present) taken).2
      exact (set_here (h tid s + 1)).symm ▸ entered
  | @leave s cs tid present =>
      refine accounts_update accounts (h.set tid s (h tid s - 1)) _ (fun _ other => set_elsewhere _ other) ?_
      have left := owns_leave tid (accounts_some accounts present)
      exact (set_here (h tid s - 1)).symm ▸ left
end Table

def lock_of : Lv2Obj → Option CriticalSection
  | .mutex cs => some cs
  | _ => none

def mutexes (k : Kernel) : LockTable := fun s => lock_of (k.pool s)

def mutex_at (k : Kernel) (id : BitVec 32) : Option Slot := (pool_get k.pool id .mutex).map Prod.fst

def cond_mutex (k : Kernel) (id : BitVec 32) : Option Slot :=
  match pool_get k.pool id .cond with
  | some (_,.cond mutex_id) => mutex_at k mutex_id
  | _ => none

def sleeps_on (k : Kernel) (tid : Tid) : Option Slot :=
  (k.inflight.find? (·.tid == tid)).bind fun thread =>
    match thread.op with
    | .sleep _ mutex _ => some mutex
    | .dequeue _ _ _ => none

def lock_event (k : Kernel) (a : Lv2Action) (r3 : Option (BitVec 64)) : Option LockEvent :=
  match a with
  | .call _ (.sys_mutex_create _) => (pool_scan k.pool k.cursor).map .create
  | .call _ (.sys_mutex_destroy id) | .call _ (.sys_cond_destroy id) | .call _ (.sys_event_queue_destroy id)
  | .call _ (.sys_event_port_destroy id) => (mutex_at k id).map .destroy
  | .call tid (.sys_mutex_lock id) | .call tid (.sys_mutex_trylock id) =>
      if r3 = some CELL_OK then (poolSlot id).map (.enter tid) else none
  | .call tid (.sys_mutex_unlock id) => (mutex_at k id).map (.leave tid)
  | .call tid (.sys_cond_wait cond_id _) => (cond_mutex k cond_id).map (.leave tid)
  | .resume tid _ => (sleeps_on k tid).map (.enter tid)
  | _ => none

section Refinement
variable {k : Kernel} {tid : Tid} {id : BitVec 32} {o : Outcome} {s : Slot}

theorem mutexes_set (k : Kernel) (s : Slot) (object : Lv2Obj) :
    mutexes (k.set s object) = Function.update (mutexes k) s (lock_of object) := by
  funext t
  by_cases same : t = s
  · subst same
    rw [Function.update_self]
    exact congrArg lock_of (Function.update_self _ _ _)
  · rw [Function.update_of_ne same]
    exact congrArg lock_of (Function.update_of_ne same _ _)

theorem mutexes_same (old : lock_of (k.pool s) = none) {object : Lv2Obj} (new : lock_of object = none) :
    mutexes (k.set s object) = mutexes k := by
  rw [mutexes_set,new]
  exact Function.update_eq_self_iff.mpr old.symm

theorem mutex_at_some : mutex_at k id = some s ↔ poolSlot id = some s ∧ ∃ cs, k.pool s = .mutex cs := by
  unfold mutex_at
  constructor
  · intro found
    obtain ⟨⟨t,object⟩,got,rfl⟩ := Option.map_eq_some_iff.mp found
    obtain ⟨place,holds,kind⟩ := pool_get_some.mp got
    cases object with
    | mutex cs => exact ⟨place,cs,holds⟩
    | _ => cases kind
  · rintro ⟨place,cs,holds⟩
    have got : pool_get k.pool id .mutex = some (s,.mutex cs) := pool_get_some.mpr ⟨place,holds,rfl⟩
    rw [got]
    rfl

theorem mutex_at_get (got : pool_get k.pool id .mutex = some (s,.mutex cs)) :
    mutex_at k id = some s ∧ mutexes k s = some cs := by
  obtain ⟨place,holds,_⟩ := pool_get_some.mp got
  refine ⟨mutex_at_some.mpr ⟨place,cs,holds⟩,?_⟩
  rw [mutexes,holds]
  rfl

theorem mutex_at_other (missing : ∀ s cs, pool_get k.pool id .mutex = some (s,.mutex cs) → False) :
    mutex_at k id = none := by
  cases at_ : mutex_at k id with
  | none => rfl
  | some s =>
      obtain ⟨place,cs,holds⟩ := mutex_at_some.mp at_
      exact (missing s cs (pool_get_some.mpr ⟨place,holds,rfl⟩)).elim

theorem free_step (k : Kernel) (id : BitVec 32) :
    LockStep (mutexes k) ((mutex_at k id).map .destroy) (mutexes (free_any k id).kernel) := by
  unfold free_any pool_free
  cases place : poolSlot id with
  | none =>
      have nothing : mutex_at k id = none := by
        refine mutex_at_other fun s cs got => ?_
        rw [(pool_get_some.mp got).1] at place
        cases place
      rw [nothing]
      exact .quiet
  | some s =>
      show LockStep (mutexes k) _ (mutexes (k.set s .free))
      cases at_ : mutex_at k id with
      | some t =>
          obtain ⟨there,_⟩ := mutex_at_some.mp at_
          obtain rfl := Option.some.inj (place.symm.trans there)
          rw [mutexes_set]
          exact .destroy
      | none =>
          have other : lock_of (k.pool s) = none := by
            cases holds : k.pool s with
            | mutex cs => exact nomatch at_.symm.trans (mutex_at_some.mpr ⟨place,cs,holds⟩)
            | _ => rfl
          rw [mutexes_same other rfl]
          exact .quiet

theorem create_step (k : Kernel) (out : BitVec 32) (kind : Lv2Kind) {object : Lv2Obj} (other : lock_of object = none) :
    mutexes (create k out kind object).kernel = mutexes k := by
  rw [create_kernel]
  cases found : pool_scan k.pool k.cursor with
  | none => rfl
  | some s =>
      have free : lock_of (k.pool s) = none := by rw [pool_scan_free found]; rfl
      exact mutexes_same free other

theorem mutex_create_step (k : Kernel) (out : BitVec 32) :
    LockStep (mutexes k) ((pool_scan k.pool k.cursor).map .create) (mutexes (sys_mutex_create k out).kernel) := by
  rw [sys_mutex_create,create_kernel]
  cases found : pool_scan k.pool k.cursor with
  | none => exact .quiet
  | some s =>
      have free : mutexes k s = none := by rw [mutexes,pool_scan_free found]; rfl
      have filled : mutexes (k.allocated s (.mutex InitializeCriticalSection)) =
          Function.update (mutexes k) s (some InitializeCriticalSection) := mutexes_set k s _
      show LockStep _ _ (mutexes (k.allocated s (.mutex InitializeCriticalSection)))
      rw [filled]
      exact .create free

theorem mutex_destroy_step (k : Kernel) (id : BitVec 32) :
    LockStep (mutexes k) ((mutex_at k id).map .destroy) (mutexes (sys_mutex_destroy k id).kernel) := by
  unfold sys_mutex_destroy free_kind
  cases got : pool_get k.pool id .mutex with
  | some found => exact free_step k id
  | none =>
      rw [mutex_at,got]
      exact .quiet

theorem semaphore_destroy_step (k : Kernel) (id : BitVec 32) :
    mutexes (sys_semaphore_destroy k id).kernel = mutexes k := by
  unfold sys_semaphore_destroy free_kind
  cases got : pool_get k.pool id .sem with
  | none => rfl
  | some found =>
      obtain ⟨place,holds,kind⟩ := pool_get_some.mp got
      have sem : lock_of (k.pool found.1) = none := by
        rw [holds]
        cases object : found.2 with
        | mutex cs => rw [object] at kind; cases kind
        | _ => rfl
      show mutexes {k with pool := pool_free k.pool id} = mutexes k
      unfold pool_free
      rw [place]
      exact mutexes_same sem rfl

theorem semaphore_step {ms : BitVec 32} {result : WaitResult → BitVec 64}
    (took : semaphore_take k id ms result = some o) : mutexes o.kernel = mutexes k := by
  unfold semaphore_take at took
  split at took
  · rename_i s handle got
    obtain ⟨_,_,rfl⟩ := Option.map_eq_some_iff.mp took
    have sem : lock_of (k.pool s) = none := by rw [(pool_get_some.mp got).2.1]; rfl
    exact mutexes_same sem rfl
  · cases took
    rfl

theorem post_step (k : Kernel) (id cnt : BitVec 32) : mutexes (sys_semaphore_post k id cnt).kernel = mutexes k := by
  unfold sys_semaphore_post
  split
  · rename_i s sem got
    have sem : lock_of (k.pool s) = none := by rw [(pool_get_some.mp got).2.1]; rfl
    exact mutexes_same sem rfl
  · rfl

theorem granted_step (got : pool_get k.pool id .mutex = some (s,.mutex cs))
    (taken : EnterCriticalSection cs tid = some after) :
    LockStep (mutexes k)
      (if (returns (k.set s (.mutex after)) CELL_OK).r3 = some CELL_OK then (poolSlot id).map (.enter tid) else none)
      (mutexes (k.set s (.mutex after))) := by
  have granted : (returns (k.set s (.mutex after)) CELL_OK).r3 = some CELL_OK := rfl
  rw [if_pos granted,(pool_get_some.mp got).1,mutexes_set]
  exact .enter (mutex_at_get got).2 taken

theorem refused_step (k : Kernel) (tid : Tid) (id : BitVec 32) {r3 : BitVec 64} (failed : r3 ≠ CELL_OK) :
    LockStep (mutexes k) (if (returns k r3).r3 = some CELL_OK then (poolSlot id).map (.enter tid) else none)
      (mutexes k) := by
  have refused : ¬ (returns k r3).r3 = some CELL_OK := fun same => failed (Option.some.inj same)
  rw [if_neg refused]
  exact .quiet

theorem lock_step (locked : sys_mutex_lock k tid id = some o) :
    LockStep (mutexes k) (if o.r3 = some CELL_OK then (poolSlot id).map (.enter tid) else none) (mutexes o.kernel) := by
  unfold sys_mutex_lock at locked
  split at locked
  · rename_i s cs got
    obtain ⟨after,taken,rfl⟩ := Option.map_eq_some_iff.mp locked
    exact granted_step got taken
  · cases locked
    exact refused_step k tid id (by decide)

theorem trylock_cases (k : Kernel) (tid : Tid) (id : BitVec 32) :
    (∃ s cs after, pool_get k.pool id .mutex = some (s,.mutex cs) ∧ EnterCriticalSection cs tid = some after ∧
      sys_mutex_trylock k tid id = returns (k.set s (.mutex after)) CELL_OK) ∨
    ∃ r3, r3 ≠ CELL_OK ∧ sys_mutex_trylock k tid id = returns k r3 := by
  unfold sys_mutex_trylock
  split
  · rename_i s cs got
    cases taken : EnterCriticalSection cs tid with
    | some after => exact .inl ⟨s,cs,after,got,taken,rfl⟩
    | none => exact .inr ⟨CELL_EBUSY,by decide,rfl⟩
  · exact .inr ⟨FAILED,by decide,rfl⟩

theorem trylock_step (k : Kernel) (tid : Tid) (id : BitVec 32) :
    LockStep (mutexes k)
      (if (sys_mutex_trylock k tid id).r3 = some CELL_OK then (poolSlot id).map (.enter tid) else none)
      (mutexes (sys_mutex_trylock k tid id).kernel) := by
  rcases trylock_cases k tid id with ⟨s,cs,after,got,taken,granted⟩ | ⟨r3,failed,refused⟩
  · rw [granted]
    exact granted_step got taken
  · rw [refused]
    exact refused_step k tid id failed

theorem unlock_step (k : Kernel) (tid : Tid) (id : BitVec 32) :
    LockStep (mutexes k) ((mutex_at k id).map (.leave tid)) (mutexes (sys_mutex_unlock k tid id).kernel) := by
  unfold sys_mutex_unlock
  split
  · rename_i s cs got
    obtain ⟨at_,present⟩ := mutex_at_get got
    rw [at_]
    show LockStep _ _ (mutexes (k.set s (.mutex (LeaveCriticalSection cs tid))))
    rw [mutexes_set]
    exact .leave present
  · rename_i missing
    rw [mutex_at_other missing]
    exact .quiet

theorem cond_wait_step (k : Kernel) (tid : Tid) (cond_id : BitVec 32) (tus : BitVec 64) :
    LockStep (mutexes k) ((cond_mutex k cond_id).map (.leave tid)) (mutexes (sys_cond_wait k tid cond_id tus).kernel) := by
  unfold sys_cond_wait
  split
  · rename_i c mutex_id cond
    have names : cond_mutex k cond_id = mutex_at k mutex_id := by
      unfold cond_mutex
      rw [cond]
    rw [names]
    split
    · rename_i m cs got
      obtain ⟨at_,present⟩ := mutex_at_get got
      rw [at_]
      show LockStep _ _ (mutexes (k.set m (.mutex (LeaveCriticalSection cs tid))))
      rw [mutexes_set]
      exact .leave present
    · rename_i missing
      rw [mutex_at_other missing]
      exact .quiet
  · rename_i missing
    have nothing : cond_mutex k cond_id = none := by
      unfold cond_mutex
      split
      · rename_i cond
        exact (missing _ _ cond).elim
      · rfl
    rw [nothing]
    exact .quiet

theorem queue_take_step {evq : Lv2Evq} {missed : Outcome} (queue : k.pool q = .evq (some evq)) (idle : missed.kernel = k)
    (took : queue_take k tid q evq ms evp cp missed = some o) : mutexes o.kernel = mutexes k := by
  unfold queue_take at took
  split at took
  · cases took
  · cases took
    exact mutexes_same (by rw [queue]; rfl) rfl
  · cases took
    rw [idle]

theorem resume_step {ok : Bool} (went : lv2_resume k tid ok = some o) :
    LockStep (mutexes k) ((sleeps_on k tid).map (.enter tid)) (mutexes o.kernel) := by
  unfold lv2_resume at went
  unfold sleeps_on
  split at went
  · cases went
  · rename_i thread found
    rw [found,Option.bind_some]
    split at went
    · rename_i queue evp cp op
      rw [op]
      unfold queue_dequeue at went
      split at went
      · rename_i evq holds
        cases went
        have same : mutexes (k.set queue (.evq (some evq.remove.2))) = mutexes k :=
          mutexes_same (by rw [holds]; rfl) rfl
        show LockStep _ _ (mutexes (k.set queue (.evq (some evq.remove.2))))
        rw [same]
        exact .quiet
      · cases went
    · rename_i c mutex ms op
      rw [op]
      unfold cond_wake at went
      split at went
      · cases went
      · split at went
        · rename_i cs holds
          obtain ⟨after,taken,rfl⟩ := Option.map_eq_some_iff.mp went
          have present : mutexes k mutex = some cs := by rw [mutexes,holds]; rfl
          show LockStep _ _ (mutexes (k.set mutex (.mutex after)))
          rw [mutexes_set]
          exact .enter present taken
        · cases went

theorem connect_step (k : Kernel) (port_id queue_id : BitVec 32) :
    mutexes (sys_event_port_connect_local k port_id queue_id).kernel = mutexes k := by
  unfold sys_event_port_connect_local
  split
  · rename_i p old name got
    exact mutexes_same (by rw [(pool_get_some.mp got).2.1]; rfl) rfl
  · rfl

theorem send_step (k : Kernel) (port_id : BitVec 32) (data1 data2 data3 : BitVec 64) :
    mutexes (sys_event_port_send k port_id data1 data2 data3).kernel = mutexes k := by
  rcases send_cases k port_id data1 data2 data3 with nothing | ⟨p,queue_id,name,q,evq,_,queue,_,stores⟩
  · rw [nothing]
    rfl
  · rw [stores]
    exact mutexes_same (by rw [(pool_get_some.mp queue).2.1]; rfl) rfl

theorem quiet_step {table next : LockTable} (same : next = table) : LockStep table none next := same ▸ .quiet

theorem step_locks (step : lv2_step k a = some o) :
    LockStep (mutexes k) (lock_event k a o.r3) (mutexes o.kernel) := by
  cases a with
  | resume tid ok => exact resume_step step
  | call tid c =>
      have went := (call_step step).2
      unfold lv2_syscall at went
      cases c with
      | sys_semaphore_create out ini mx =>
          rw [← Option.some.inj went]
          exact quiet_step (create_step k out .sem rfl)
      | sys_cond_create out mutex_id =>
          rw [← Option.some.inj went]
          exact quiet_step (create_step k out .cond rfl)
      | sys_event_queue_create out =>
          rw [← Option.some.inj went]
          exact quiet_step (create_step k out .evq rfl)
      | sys_event_port_create out name =>
          rw [← Option.some.inj went]
          exact quiet_step (create_step k out .evport rfl)
      | sys_mutex_create out =>
          rw [← Option.some.inj went]
          exact mutex_create_step k out
      | sys_semaphore_destroy id => cases went; exact quiet_step (semaphore_destroy_step k id)
      | sys_mutex_destroy id => cases went; exact mutex_destroy_step k id
      | sys_cond_destroy id => cases went; exact free_step k id
      | sys_event_queue_destroy id => cases went; exact free_step k id
      | sys_event_port_destroy id => cases went; exact free_step k id
      | sys_semaphore_wait id tus =>
          unfold sys_semaphore_wait at went
          exact quiet_step (semaphore_step went)
      | sys_semaphore_trywait id => exact quiet_step (semaphore_step went)
      | sys_semaphore_post id cnt => cases went; exact quiet_step (post_step k id cnt)
      | sys_mutex_lock id => exact lock_step went
      | sys_mutex_trylock id => cases went; exact trylock_step k tid id
      | sys_mutex_unlock id => cases went; exact unlock_step k tid id
      | sys_cond_wait cond_id tus => cases went; exact cond_wait_step k tid cond_id tus
      | sys_event_queue_receive id evp tus =>
          have took : sys_event_queue_receive k tid id evp tus = some o := went
          unfold sys_event_queue_receive at took
          split at took
          · rename_i got
            exact quiet_step (queue_take_step (pool_get_some.mp got).2.1 rfl took)
          · cases took
            exact .quiet
      | sys_event_queue_tryreceive id evp cp =>
          have took : sys_event_queue_tryreceive k tid id evp cp = some o := went
          unfold sys_event_queue_tryreceive at took
          dsimp only at took
          split at took
          · rename_i got
            exact quiet_step (queue_take_step (pool_get_some.mp got).2.1 rfl took)
          · cases took
            exact .quiet
      | sys_event_port_connect_local port_id queue_id => cases went; exact quiet_step (connect_step k port_id queue_id)
      | sys_event_port_send port_id data1 data2 data3 => cases went; exact quiet_step (send_step k _ _ _ _)
end Refinement

def locks_of (t : Transition) : Option LockEvent := lock_event t.before t.action t.outcome.r3

def holdings (h : Holdings) (trace : List Transition) : Holdings := trace.foldl (fun h t => h.after (locks_of t)) h

def nothing_held : Holdings := fun _ _ => 0

def OrderlyOver (h : Holdings) : List (Option LockEvent) → Prop
  | [] => True
  | e::events => Orderly h e ∧ OrderlyOver (h.after e) events

def OrderlyRun (h : Holdings) (trace : List Transition) : Prop := OrderlyOver h (trace.map locks_of)

section Runs
variable {k final : Kernel} {actions : List Lv2Action} {outcomes : List Outcome} {h : Holdings} {tid : Tid} {s m : Slot}

theorem initial_accounts : Accounts nothing_held (mutexes lv2_pool_init) := fun _ _ => rfl

theorem accounts_run (accounts : Accounts h (mutexes k)) (run : lv2_run k actions = some (final,outcomes))
    (orderly : OrderlyRun h (transitions k actions outcomes)) :
    Accounts (holdings h (transitions k actions outcomes)) (mutexes final) := by
  induction actions generalizing k outcomes h with
  | nil =>
      cases run
      exact accounts
  | cons a actions ih =>
      obtain ⟨o,later,step,ran,rfl⟩ := lv2_run_cons run
      exact ih (accounts_step accounts orderly.1 (step_locks step)) ran orderly.2

theorem owner_holds {held : Tid → Nat} (owns : Owns held cs) (tid : Tid) : cs.owner = some tid ↔ 0 < held tid := by
  unfold Owns at owns
  split at owns
  · rename_i free
    rw [free,owns tid]
    exact ⟨nofun,fun more => absurd more (Nat.lt_irrefl 0)⟩
  · rename_i owner taken
    obtain ⟨positive,count,others⟩ := owns
    rw [taken]
    constructor
    · rintro ⟨⟩
      exact count ▸ positive
    · intro more
      refine congrArg some (not_not.mp fun different => ?_)
      rw [others tid fun same => different same.symm] at more
      exact Nat.lt_irrefl 0 more

theorem one_holder (accounts : Accounts h table) (mine : 0 < h tid s) (theirs : 0 < h other s) : other = tid := by
  cases present : table s with
  | none =>
      rw [accounts_none accounts present tid] at mine
      exact absurd mine (Nat.lt_irrefl 0)
  | some cs =>
      have owns := accounts_some accounts present
      have owner := (owner_holds owns tid).mpr mine
      exact Option.some.inj (((owner_holds owns other).mpr theirs).symm.trans owner)

-- However the threads' calls, waits and wakings interleave: no mutex has two holders, and
-- the pool has the right one on record.
theorem mutex_exclusion (run : lv2_run lv2_pool_init actions = some (final,outcomes))
    (orderly : OrderlyRun nothing_held (transitions lv2_pool_init actions outcomes)) :
    let held := holdings nothing_held (transitions lv2_pool_init actions outcomes)
    (∀ s tid other, 0 < held tid s → 0 < held other s → other = tid) ∧
      (∀ s cs, final.pool s = .mutex cs → ∀ tid, cs.owner = some tid ↔ 0 < held tid s) ∧
      ∀ s, (∀ cs, final.pool s ≠ .mutex cs) → ∀ tid, held tid s = 0 := by
  have accounts := accounts_run initial_accounts run orderly
  refine ⟨fun s tid other => one_holder accounts,fun s cs present => ?_,fun s absent => ?_⟩
  · refine owner_holds (accounts_some accounts ?_)
    rw [mutexes,present]
    rfl
  refine accounts_none accounts ?_
  unfold mutexes
  cases object : final.pool s with
  | mutex cs => exact absurd object (absent cs)
  | _ => rfl

def story : List Lv2Action := [.call 1 (.sys_mutex_create 0),.call 1 (.sys_cond_create 0 1),.call 1 (.sys_mutex_lock 1),
  .call 1 (.sys_cond_wait 2 0),.call 2 (.sys_mutex_trylock 1),.call 2 (.sys_mutex_unlock 1),.resume 1 true]

theorem story_locks :
    (lv2_run lv2_pool_init story).map (fun r => (transitions lv2_pool_init story r.2).map locks_of) =
      some [some (.create 1),none,some (.enter 1 1),some (.leave 1 1),some (.enter 2 1),some (.leave 2 1),
        some (.enter 1 1)] := by
  decide +kernel

theorem story_orderly : OrderlyOver nothing_held
    [some (.create 1),none,some (.enter 1 1),some (.leave 1 1),some (.enter 2 1),some (.leave 2 1),some (.enter 1 1)] :=
  ⟨trivial,trivial,trivial,show 0 < _ by decide,trivial,show 0 < _ by decide,trivial,trivial⟩

theorem mutex_exclusion_story : ∃ final outcomes, lv2_run lv2_pool_init story = some (final,outcomes) ∧
    ∀ s cs, final.pool s = .mutex cs → ∀ tid, cs.owner = some tid ↔
      0 < holdings nothing_held (transitions lv2_pool_init story outcomes) tid s := by
  obtain ⟨⟨final,outcomes⟩,run,events⟩ := Option.map_eq_some_iff.mp story_locks
  refine ⟨final,outcomes,run,(mutex_exclusion run ?_).2.1⟩
  rw [OrderlyRun,events]
  exact story_orderly

end Runs

end BudokaiRuntime.Lv2.PoolMutex
