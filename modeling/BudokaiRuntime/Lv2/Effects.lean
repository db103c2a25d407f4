import BudokaiRuntime.Lv2.Syscalls

-- Everything one step can do to the pool, the waiting threads and the queues.
namespace BudokaiRuntime.Lv2

def created : Lv2Call → Option Lv2Obj
  | .sys_semaphore_create _ ini mx =>
      some (.sem (CreateSemaphoreA ini.toInt (if mx.toInt > 0 then mx.toInt else 0x7FFFFFFF)))
  | .sys_mutex_create _ => some (.mutex InitializeCriticalSection)
  | .sys_cond_create _ mutex_id => some (.cond mutex_id)
  | .sys_event_queue_create _ => some (.evq (some evq_create))
  | .sys_event_port_create _ name => some (.evport 0 name)
  | _ => none

-- The destroy calls: those that free whatever the ID names, those that check its kind.
def freesAny : Lv2Call → Option (BitVec 32)
  | .sys_cond_destroy id => some id
  | .sys_event_queue_destroy id => some id
  | .sys_event_port_destroy id => some id
  | _ => none

def freesKind : Lv2Call → Option (BitVec 32 × Lv2Kind)
  | .sys_semaphore_destroy id => some (id,.sem)
  | .sys_mutex_destroy id => some (id,.mutex)
  | _ => none

def Kernel.allocated (k : Kernel) (s : Slot) (object : Lv2Obj) : Kernel :=
  {k with
    pool := Function.update k.pool s object
    cursor := slotId s % BitVec.ofNat 32 (MAX_LV2_OBJ-1) + 1}

theorem allocated_self (k : Kernel) (s : Slot) (object : Lv2Obj) : (k.allocated s object).pool s = object :=
  Function.update_self _ _ _

theorem allocated_other (k : Kernel) (object : Lv2Obj) (other : t ≠ s) :
    (k.allocated s object).pool t = k.pool t := Function.update_of_ne other _ _

def Lv2Evq.take (evq : Lv2Evq) : Lv2Evq := {evq with avail := {evq.avail with count := evq.avail.count-1}}

inductive StepEffect (k : Kernel) : Lv2Action → Kernel → List QueueEvent → Prop where
  | idle : StepEffect k a k []
  | alloc : created c = some object → pool_scan k.pool k.cursor = some s →
      StepEffect k (.call tid c) (k.allocated s object) []
  | freeAny {id : BitVec 32} : freesAny c = some id → poolSlot id = some s → StepEffect k (.call tid c) (k.set s .free) []
  | freeKind {id : BitVec 32} : freesKind c = some (id,kind) → poolSlot id = some s → (k.pool s).kind = kind →
      StepEffect k (.call tid c) (k.set s .free) []
  -- The state of a semaphore or a mutex.
  | adjust : k.pool s = old → object.kind = old.kind → old.kind = .sem ∨ old.kind = .mutex →
      StepEffect k (.call tid c) (k.set s object) []
  | connect : pool_get k.pool port_id .evport = some (p,.evport old name) →
      StepEffect k (.call tid (.sys_event_port_connect_local port_id queue_id))
        (k.set p (.evport queue_id name)) []
  | sleep : pool_get k.pool cond_id .cond = some (c,.cond mutex_id) →
      pool_get k.pool mutex_id .mutex = some (m,.mutex cs) →
      StepEffect k (.call tid (.sys_cond_wait cond_id tus))
        ((k.set m (.mutex (LeaveCriticalSection cs tid))).enter tid (.sleep c m (wait_ms tus))) []
  | wake : k.inflight.find? (·.tid == tid) = some thread → thread.op = .sleep c m ms → k.pool m = .mutex cs →
      EnterCriticalSection cs tid = some cs' →
      StepEffect k (.resume tid ok) ((k.set m (.mutex cs')).leave tid) []
  | take : k.pool q = .evq (some evq) → 0 < evq.avail.count →
      StepEffect k (.call tid c) ((k.set q (.evq (some evq.take))).enter tid (.dequeue q evp cp)) []
  | got : k.inflight.find? (·.tid == tid) = some thread → thread.op = .dequeue q evp cp →
      k.pool q = .evq (some evq) →
      StepEffect k (.resume tid ok) ((k.set q (.evq (some evq.remove.2))).leave tid) [.got q evq.remove.1]
  | put : pool_get k.pool port_id .evport = some (p,.evport queue_id name) →
      pool_get k.pool queue_id .evq = some (q,.evq (some evq)) → evq.cnt < EVQ_CAP →
      StepEffect k (.call tid (.sys_event_port_send port_id data1 data2 data3))
        (k.set q (.evq (some (evq.append ⟨name,data1,data2,data3⟩)))) [.put q ⟨name,data1,data2,data3⟩]

theorem call_step (step : lv2_step k (.call tid c) = some o) :
    (∀ thread ∈ k.inflight, thread.tid ≠ tid) ∧ lv2_syscall k tid c = some o := by
  unfold lv2_step at step
  dsimp only at step
  split at step
  · cases step
  · rename_i idle
    refine ⟨fun thread member same => idle ?_,step⟩
    exact List.any_eq_true.mpr ⟨thread,member,beq_iff_eq.mpr same⟩

section Calls
variable {k : Kernel} {tid : Tid} {c : Lv2Call} {o : Outcome} {id : BitVec 32}

theorem create_kernel (k : Kernel) (out : BitVec 32) (kind : Lv2Kind) (object : Lv2Obj) :
    (create k out kind object).kernel = (pool_scan k.pool k.cursor).elim k fun s => k.allocated s object := by
  unfold create pool_alloc
  cases pool_scan k.pool k.cursor with
  | none => rfl
  | some s => simp [Kernel.set,Kernel.allocated]

theorem create_effect (makes : created c = some object) (out : BitVec 32) (kind : Lv2Kind) :
    StepEffect k (.call tid c) (create k out kind object).kernel (create k out kind object).log := by
  have log : (create k out kind object).log = [] := by
    unfold create
    split
    · rfl
    · rfl
  rw [create_kernel,log]
  cases found : pool_scan k.pool k.cursor with
  | none => exact .idle
  | some s => exact .alloc makes found

theorem free_any_effect (frees : freesAny c = some id) :
    StepEffect k (.call tid c) (free_any k id).kernel (free_any k id).log := by
  unfold free_any pool_free
  cases place : poolSlot id with
  | none => exact .idle
  | some s => exact .freeAny frees place

theorem free_kind_effect (frees : freesKind c = some (id,kind)) :
    StepEffect k (.call tid c) (free_kind k id kind).kernel (free_kind k id kind).log := by
  unfold free_kind
  cases found : pool_get k.pool id kind with
  | none => exact .idle
  | some object =>
      obtain ⟨place,holds,same⟩ := pool_get_some.mp found
      unfold free_any pool_free
      rw [place]
      exact .freeKind frees place (holds ▸ same)

theorem semaphore_effect (took : semaphore_take k id ms result = some o) :
    StepEffect k (.call tid c) o.kernel o.log := by
  unfold semaphore_take at took
  split at took
  · rename_i s handle found
    obtain ⟨⟨r,after⟩,_,rfl⟩ := Option.map_eq_some_iff.mp took
    obtain ⟨_,holds,_⟩ := pool_get_some.mp found
    exact .adjust holds rfl (.inl rfl)
  · cases took
    exact .idle

theorem post_effect (id cnt : BitVec 32) :
    StepEffect k (.call tid c) (sys_semaphore_post k id cnt).kernel (sys_semaphore_post k id cnt).log := by
  unfold sys_semaphore_post
  split
  · rename_i s sem found
    obtain ⟨_,holds,_⟩ := pool_get_some.mp found
    exact .adjust holds rfl (.inl rfl)
  · exact .idle

theorem lock_effect (locked : sys_mutex_lock k tid id = some o) : StepEffect k (.call tid c) o.kernel o.log := by
  unfold sys_mutex_lock at locked
  split at locked
  · rename_i s cs found
    obtain ⟨after,_,rfl⟩ := Option.map_eq_some_iff.mp locked
    obtain ⟨_,holds,_⟩ := pool_get_some.mp found
    exact .adjust holds rfl (.inr rfl)
  · cases locked
    exact .idle

theorem trylock_effect (id : BitVec 32) :
    StepEffect k (.call tid c) (sys_mutex_trylock k tid id).kernel (sys_mutex_trylock k tid id).log := by
  unfold sys_mutex_trylock
  split
  · rename_i s cs found
    obtain ⟨_,holds,_⟩ := pool_get_some.mp found
    split
    · exact .adjust holds rfl (.inr rfl)
    · exact .idle
  · exact .idle

theorem unlock_effect (id : BitVec 32) :
    StepEffect k (.call tid c) (sys_mutex_unlock k tid id).kernel (sys_mutex_unlock k tid id).log := by
  unfold sys_mutex_unlock
  split
  · rename_i s cs found
    obtain ⟨_,holds,_⟩ := pool_get_some.mp found
    exact .adjust holds rfl (.inr rfl)
  · exact .idle

theorem cond_wait_cases (k : Kernel) (tid : Tid) (cond_id : BitVec 32) (tus : BitVec 64) :
    sys_cond_wait k tid cond_id tus = returns k FAILED ∨ ∃ c mutex_id m cs,
      pool_get k.pool cond_id .cond = some (c,.cond mutex_id) ∧
      pool_get k.pool mutex_id .mutex = some (m,.mutex cs) ∧
      sys_cond_wait k tid cond_id tus =
        ⟨(k.set m (.mutex (LeaveCriticalSection cs tid))).enter tid (.sleep c m (wait_ms tus)),none,[],[]⟩ := by
  unfold sys_cond_wait
  split
  · rename_i cond
    split
    · rename_i mutex
      exact .inr ⟨_,_,_,_,cond,mutex,rfl⟩
    · exact .inl rfl
  · exact .inl rfl

theorem cond_wait_effect (cond_id : BitVec 32) (tus : BitVec 64) :
    StepEffect k (.call tid (.sys_cond_wait cond_id tus)) (sys_cond_wait k tid cond_id tus).kernel
      (sys_cond_wait k tid cond_id tus).log := by
  rcases cond_wait_cases k tid cond_id tus with fails | ⟨c,mutex_id,m,cs,cond,mutex,sleeps⟩
  · rw [fails]
    exact .idle
  · rw [sleeps]
    exact .sleep cond mutex

theorem queue_take_effect (queue : k.pool q = .evq (some evq)) (missed : Outcome)
    (nothing : missed.kernel = k ∧ missed.log = []) (took : queue_take k tid q evq ms evp cp missed = some o) :
    StepEffect k (.call tid c) o.kernel o.log := by
  unfold queue_take WaitForSingleObject at took
  dsimp only at took
  by_cases unit : 0 < evq.avail.count
  · rw [if_pos unit] at took
    cases took
    exact .take queue unit
  · rw [if_neg unit] at took
    by_cases forever : ms = INFINITE
    · rw [if_pos forever] at took
      cases took
    · rw [if_neg forever] at took
      cases took
      rw [nothing.1,nothing.2]
      exact .idle

theorem receive_effect (took : sys_event_queue_receive k tid id evp tus = some o) :
    StepEffect k (.call tid c) o.kernel o.log := by
  unfold sys_event_queue_receive at took
  split at took
  · rename_i found
    obtain ⟨_,holds,_⟩ := pool_get_some.mp found
    exact queue_take_effect holds _ ⟨rfl,rfl⟩ took
  · cases took
    exact .idle

theorem tryreceive_effect (took : sys_event_queue_tryreceive k tid id evp cp = some o) :
    StepEffect k (.call tid c) o.kernel o.log := by
  unfold sys_event_queue_tryreceive at took
  dsimp only at took
  split at took
  · rename_i found
    obtain ⟨_,holds,_⟩ := pool_get_some.mp found
    exact queue_take_effect holds _ ⟨rfl,rfl⟩ took
  · cases took
    exact .idle

theorem connect_effect (port_id queue_id : BitVec 32) :
    StepEffect k (.call tid (.sys_event_port_connect_local port_id queue_id))
      (sys_event_port_connect_local k port_id queue_id).kernel
      (sys_event_port_connect_local k port_id queue_id).log := by
  unfold sys_event_port_connect_local
  split
  · rename_i found
    exact .connect found
  · exact .idle

theorem send_cases (k : Kernel) (port_id : BitVec 32) (data1 data2 data3 : BitVec 64) :
    sys_event_port_send k port_id data1 data2 data3 = returns k CELL_OK ∨ ∃ p queue_id name q evq,
      pool_get k.pool port_id .evport = some (p,.evport queue_id name) ∧
      pool_get k.pool queue_id .evq = some (q,.evq (some evq)) ∧ evq.cnt < EVQ_CAP ∧
      sys_event_port_send k port_id data1 data2 data3 =
        ⟨k.set q (.evq (some (evq.append ⟨name,data1,data2,data3⟩))),some CELL_OK,[],
          [.put q ⟨name,data1,data2,data3⟩]⟩ := by
  unfold sys_event_port_send
  split
  · rename_i port
    split
    · rename_i queue
      dsimp only
      split
      · rename_i room
        exact .inr ⟨_,_,_,_,_,port,queue,room,rfl⟩
      · exact .inl rfl
    · exact .inl rfl
  · exact .inl rfl

theorem send_effect (port_id : BitVec 32) (data1 data2 data3 : BitVec 64) :
    StepEffect k (.call tid (.sys_event_port_send port_id data1 data2 data3))
      (sys_event_port_send k port_id data1 data2 data3).kernel
      (sys_event_port_send k port_id data1 data2 data3).log := by
  rcases send_cases k port_id data1 data2 data3 with nothing | ⟨p,queue_id,name,q,evq,port,target,room,stores⟩
  · rw [nothing]
    exact .idle
  · rw [stores]
    exact .put port target room
end Calls

theorem resume_effect (went : lv2_resume k tid ok = some o) : StepEffect k (.resume tid ok) o.kernel o.log := by
  unfold lv2_resume at went
  split at went
  · cases went
  · rename_i thread found
    split at went
    · rename_i queue evp cp op
      unfold queue_dequeue at went
      split at went
      · rename_i evq holds
        cases went
        exact .got found op holds
      · cases went
    · rename_i c mutex ms op
      unfold cond_wake at went
      split at went
      · cases went
      · split at went
        · rename_i cs holds
          obtain ⟨after,taken,rfl⟩ := Option.map_eq_some_iff.mp went
          exact .wake found op holds taken
        · cases went

theorem step_effect (step : lv2_step k a = some o) : StepEffect k a o.kernel o.log := by
  cases a with
  | resume tid ok => exact resume_effect step
  | call tid c =>
      have went := (call_step step).2
      unfold lv2_syscall at went
      cases c with
      | sys_semaphore_create out ini mx =>
          rw [← Option.some.inj went,sys_semaphore_create]
          exact create_effect rfl out .sem
      | sys_mutex_create out =>
          rw [← Option.some.inj went,sys_mutex_create]
          exact create_effect rfl out .mutex
      | sys_cond_create out mutex_id =>
          rw [← Option.some.inj went,sys_cond_create]
          exact create_effect rfl out .cond
      | sys_event_queue_create out =>
          rw [← Option.some.inj went,sys_event_queue_create]
          exact create_effect rfl out .evq
      | sys_event_port_create out name =>
          rw [← Option.some.inj went,sys_event_port_create]
          exact create_effect rfl out .evport
      | sys_semaphore_destroy id => cases went; exact free_kind_effect rfl
      | sys_mutex_destroy id => cases went; exact free_kind_effect rfl
      | sys_cond_destroy id => cases went; exact free_any_effect rfl
      | sys_event_queue_destroy id => cases went; exact free_any_effect rfl
      | sys_event_port_destroy id => cases went; exact free_any_effect rfl
      | sys_semaphore_wait id tus =>
          unfold sys_semaphore_wait at went
          exact semaphore_effect went
      | sys_semaphore_trywait id =>
          unfold sys_semaphore_trywait at went
          exact semaphore_effect went
      | sys_semaphore_post id cnt => cases went; exact post_effect id cnt
      | sys_mutex_lock id => exact lock_effect went
      | sys_mutex_trylock id => cases went; exact trylock_effect id
      | sys_mutex_unlock id => cases went; exact unlock_effect id
      | sys_cond_wait cond_id tus => cases went; exact cond_wait_effect cond_id tus
      | sys_event_queue_receive id evp tus => exact receive_effect went
      | sys_event_queue_tryreceive id evp cp => exact tryreceive_effect went
      | sys_event_port_connect_local port_id queue_id => cases went; exact connect_effect port_id queue_id
      | sys_event_port_send port_id data1 data2 data3 =>
          cases went
          exact send_effect port_id data1 data2 data3

theorem created_step (makes : created c = some object) (step : lv2_step k (.call tid c) = some o) :
    o.kernel = (pool_scan k.pool k.cursor).elim k fun s => k.allocated s object := by
  have went := (call_step step).2
  unfold lv2_syscall at went
  cases c with
  | sys_semaphore_create out ini mx =>
      cases makes
      rw [← Option.some.inj went,sys_semaphore_create,create_kernel]
  | sys_mutex_create out =>
      cases makes
      rw [← Option.some.inj went,sys_mutex_create,create_kernel]
  | sys_cond_create out mutex_id =>
      cases makes
      rw [← Option.some.inj went,sys_cond_create,create_kernel]
  | sys_event_queue_create out =>
      cases makes
      rw [← Option.some.inj went,sys_event_queue_create,create_kernel]
  | sys_event_port_create out name =>
      cases makes
      rw [← Option.some.inj went,sys_event_port_create,create_kernel]
  | _ => cases makes

end BudokaiRuntime.Lv2
