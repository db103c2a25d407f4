import BudokaiRuntime.Lv2.QueueInvariant

-- sys_event_queue_tryreceive against as many calls of sys_event_queue_receive.
namespace BudokaiRuntime.Lv2

-- A call of one thread from its start to its end with no other step in between.
def call_end (tid : Tid) (o : Outcome) : Option Outcome :=
  match o.r3 with
  | some _ => some o
  | none => (lv2_step o.kernel (.resume tid true)).map fun later =>
      {later with writes := o.writes ++ later.writes,log := o.log ++ later.log}

def whole_call (k : Kernel) (tid : Tid) (c : Lv2Call) : Option Outcome :=
  (lv2_step k (.call tid c)).bind (call_end tid)

-- Calls in a row, each with the next 32-byte slot of the buffer.
def receive_many (tid : Tid) (id : BitVec 32) (tus : BitVec 64) :
    Nat → Kernel → BitVec 32 → Option (Kernel × List Outcome)
  | 0,k,_ => some (k,[])
  | m+1,k,evp =>
      (whole_call k tid (.sys_event_queue_receive id evp tus)).bind fun o =>
        (receive_many tid id tus m o.kernel (evp+32)).map fun (k,outcomes) => (k,o::outcomes)

def portion (sz : BitVec 32) (evq : Lv2Evq) : Nat := min sz.toNat evq.cnt.toNat

-- The same queue, the same events taken, the same bytes written, and their number reported.
-- r5 is no argument of the call: 128 never looks at it.
def Agrees (k : Kernel) (evq : Lv2Evq) (tid : Tid) (id evp sz cp : BitVec 32) (tus : BitVec 64) : Prop :=
  ∃ o final outcomes, whole_call k tid (.sys_event_queue_tryreceive id evp cp) = some o ∧
    receive_many tid id tus (portion sz evq) k evp = some (final,outcomes) ∧
    o.kernel = final ∧ o.r3 = some CELL_OK ∧ o.log = outcomes.flatMap Outcome.log ∧
    o.writes = outcomes.flatMap Outcome.writes ++
      if cp ≠ 0 then [.w32 cp (BitVec.ofNat 32 (portion sz evq))] else []

-- The queue between two calls: no receiver is under way, and this thread is in no call.
structure Settled (k : Kernel) (q : Slot) (evq : Lv2Evq) (tid : Tid) : Prop where
  inv : QueueInv k q evq
  alone : receivers k q = 0
  idle : ∀ thread ∈ k.inflight, thread.tid ≠ tid

def Lv2Evq.taken (evq : Lv2Evq) : Lv2Evq := evq.take.remove.2

def received (k : Kernel) (q : Slot) (evq : Lv2Evq) (evp : BitVec 32) : Outcome :=
  ⟨k.set q (.evq (some evq.taken)),some CELL_OK,event_writes evp evq.remove.1,[.got q evq.remove.1]⟩

section Calls
variable {k : Kernel} {q : Slot} {evq : Lv2Evq} {tid : Tid} {id evp cp : BitVec 32} {tus : BitVec 64}

theorem Settled.units (settled : Settled k q evq tid) : evq.avail.count = evq.cnt := by
  have units := settled.inv.units
  rwa [settled.alone,Int.natCast_zero,Int.add_zero] at units

theorem Settled.starts (settled : Settled k q evq tid) (c : Lv2Call) :
    lv2_step k (.call tid c) = lv2_syscall k tid c := by
  have free : k.inflight.any (·.tid == tid) = false := by
    rw [List.any_eq_false]
    intro thread member same
    exact settled.idle thread member (beq_iff_eq.mp same)
  rw [lv2_step,free]
  rfl

theorem Settled.found (settled : Settled k q evq tid) (place : poolSlot id = some q) :
    pool_get k.pool id .evq = some (q,.evq (some evq)) := pool_get_some.mpr ⟨place,settled.inv.live,rfl⟩

theorem taken_kernel (k : Kernel) (q : Slot) (evq : Lv2Evq) (tid : Tid) (evp cp : BitVec 32) :
    (((k.set q (.evq (some evq.take))).enter tid (.dequeue q evp cp)).set q (.evq (some evq.taken))).leave tid =
      k.set q (.evq (some evq.taken)) := by
  simp [Kernel.set,Kernel.enter,Kernel.leave]

theorem take_and_dequeue (k : Kernel) (q : Slot) (evq : Lv2Evq) (tid : Tid) (ms evp cp : BitVec 32) (missed : Outcome)
    (unit : 0 < evq.avail.count) :
    (queue_take k tid q evq ms evp cp missed).bind (call_end tid) =
      some ⟨k.set q (.evq (some evq.taken)),some CELL_OK,
        event_writes evp evq.remove.1 ++ if cp ≠ 0 then [.w32 cp 1] else [],[.got q evq.remove.1]⟩ := by
  have waited : WaitForSingleObject (some evq.avail) ms =
      some (.object_0,some {evq.avail with count := evq.avail.count-1}) := if_pos unit
  have resumed : lv2_step ((k.set q (.evq (some evq.take))).enter tid (.dequeue q evp cp)) (.resume tid true) =
      queue_dequeue ((k.set q (.evq (some evq.take))).enter tid (.dequeue q evp cp)) tid q evp cp := by
    simp [lv2_step,lv2_resume,Kernel.enter]
  have stored : ((k.set q (.evq (some evq.take))).enter tid (.dequeue q evp cp)).pool q = .evq (some evq.take) :=
    Function.update_self _ _ _
  have dequeued : queue_dequeue ((k.set q (.evq (some evq.take))).enter tid (.dequeue q evp cp)) tid q evp cp =
      some ⟨k.set q (.evq (some evq.taken)),some CELL_OK,
        event_writes evp evq.remove.1 ++ if cp ≠ 0 then [.w32 cp 1] else [],[.got q evq.remove.1]⟩ := by
    unfold queue_dequeue
    rw [stored]
    exact congrArg (fun k => some (⟨k,_,_,_⟩ : Outcome)) (taken_kernel k q evq tid evp cp)
  have started : queue_take k tid q evq ms evp cp missed =
      some ⟨(k.set q (.evq (some evq.take))).enter tid (.dequeue q evp cp),none,[],[]⟩ := by
    unfold queue_take
    rw [waited]
    rfl
  rw [started,Option.bind_some,call_end]
  dsimp only
  rw [resumed,dequeued]
  rfl

theorem Settled.receive (settled : Settled k q evq tid) (place : poolSlot id = some q) (some_event : 0 < evq.cnt)
    (evp : BitVec 32) (tus : BitVec 64) :
    whole_call k tid (.sys_event_queue_receive id evp tus) = some (received k q evq evp) := by
  have taken := take_and_dequeue k q evq tid (wait_ms tus) evp 0 (returns k TIMED_OUT) (settled.units ▸ some_event)
  rw [if_neg (not_not.mpr rfl),List.append_nil] at taken
  rw [whole_call,settled.starts,lv2_syscall,sys_event_queue_receive,settled.found place]
  exact taken

theorem Settled.tryreceive (settled : Settled k q evq tid) (place : poolSlot id = some q) (some_event : 0 < evq.cnt)
    (evp cp : BitVec 32) :
    whole_call k tid (.sys_event_queue_tryreceive id evp cp) =
      some ⟨k.set q (.evq (some evq.taken)),some CELL_OK,
        event_writes evp evq.remove.1 ++ if cp ≠ 0 then [.w32 cp 1] else [],[.got q evq.remove.1]⟩ := by
  rw [whole_call,settled.starts,lv2_syscall,sys_event_queue_tryreceive,settled.found place]
  exact take_and_dequeue k q evq tid 0 evp cp _ (settled.units ▸ some_event)

theorem Settled.tryreceive_empty (settled : Settled k q evq tid) (place : poolSlot id = some q) (empty : evq.cnt = 0)
    (evp cp : BitVec 32) :
    whole_call k tid (.sys_event_queue_tryreceive id evp cp) =
      some ⟨k,some CELL_OK,if cp ≠ 0 then [.w32 cp 0] else [],[]⟩ := by
  have none_there : ¬ 0 < evq.avail.count := by
    rw [settled.units,empty]
    decide
  have waited : WaitForSingleObject (some evq.avail) 0 = some (.timeout,some evq.avail) := by
    rw [WaitForSingleObject,if_neg none_there]
    rfl
  rw [whole_call,settled.starts,lv2_syscall,sys_event_queue_tryreceive,settled.found place]
  dsimp only
  rw [queue_take,waited]
  rfl

theorem Settled.next (settled : Settled k q evq tid) (some_event : 0 < evq.cnt) :
    Settled (k.set q (.evq (some evq.taken))) q evq.taken tid where
  inv := by
    have unit : 0 < evq.avail.count := settled.units ▸ some_event
    have entered := settled.inv.take unit tid 0 0
    have found : ((k.set q (.evq (some evq.take))).enter tid (.dequeue q 0 0)).inflight.find? (·.tid == tid) =
        some ⟨tid,.dequeue q 0 0⟩ := by
      simp [Kernel.enter]
    have left := (entered.got found rfl).1
    rwa [show evq.take.remove.2 = evq.taken from rfl,taken_kernel] at left
  alone := settled.alone
  idle := settled.idle

theorem taken_cnt (some_event : 0 < evq.cnt) : evq.taken.cnt.toNat + 1 = evq.cnt.toNat := by
  have fewer : evq.taken.cnt = evq.cnt-1 := rfl
  omega

theorem receive_many_takes (settled : Settled k q evq tid) (place : poolSlot id = some q) (m : Nat)
    (enough : m ≤ evq.cnt.toNat) (evp : BitVec 32) (tus : BitVec 64) :
    ∃ final outcomes, receive_many tid id tus m k evp = some (final,outcomes) ∧
      (outcomes.flatMap Outcome.log).length = m := by
  induction m generalizing k evq evp with
  | zero => exact ⟨k,[],rfl,rfl⟩
  | succ m ih =>
      have some_event : 0 < evq.cnt := by omega
      have fewer := taken_cnt some_event
      obtain ⟨final,outcomes,rest,count⟩ := ih (settled.next some_event) (by omega) (evp+32)
      refine ⟨final,received k q evq evp::outcomes,?_,?_⟩
      · rw [receive_many,settled.receive place some_event,Option.bind_some]
        exact Option.map_eq_some_iff.mpr ⟨_,rest,rfl⟩
      · rw [List.flatMap_cons,List.length_append,count]
        exact Nat.add_comm 1 m

theorem receive_many_one (settled : Settled k q evq tid) (place : poolSlot id = some q) (some_event : 0 < evq.cnt)
    (evp : BitVec 32) (tus : BitVec 64) :
    receive_many tid id tus 1 k evp = some (k.set q (.evq (some evq.taken)),[received k q evq evp]) := by
  rw [receive_many,settled.receive place some_event]
  rfl

theorem agrees_takes_one (settled : Settled k q evq tid) (place : poolSlot id = some q) (some_event : 0 < evq.cnt)
    (agrees : Agrees k evq tid id evp sz cp tus) : portion sz evq = 1 := by
  obtain ⟨o,final,outcomes,one,many,_,_,logged,_⟩ := agrees
  obtain ⟨_,_,took,count⟩ := receive_many_takes settled place (portion sz evq) (Nat.min_le_right _ _) evp tus
  cases one.symm.trans (settled.tryreceive place some_event evp cp)
  cases many.symm.trans took
  rw [← count,← logged]
  rfl
end Calls

-- A settled queue with any content, and any buffer: 128 agrees when there is nothing to take
-- or exactly one event to be taken.
theorem tryreceive_agrees_iff (k : Kernel) (q : Slot) (evq : Lv2Evq) (tid : Tid) (id evp sz cp : BitVec 32)
    (tus : BitVec 64) (settled : Settled k q evq tid) (place : poolSlot id = some q) :
    Agrees k evq tid id evp sz cp tus ↔ evq.cnt = 0 ∨ portion sz evq = 1 := by
  have nonneg := settled.inv.nonneg
  by_cases empty : evq.cnt = 0
  · refine iff_of_true ?_ (.inl empty)
    have nothing : portion sz evq = 0 := by
      rw [portion,empty]
      exact Nat.min_zero _
    refine ⟨_,k,[],settled.tryreceive_empty place empty evp cp,?_,rfl,rfl,rfl,?_⟩
    · rw [nothing]
      rfl
    · rw [nothing]
      rfl
  · have some_event : 0 < evq.cnt := by omega
    have tried := settled.tryreceive place some_event evp cp
    constructor
    · exact fun agrees => .inr (agrees_takes_one settled place some_event agrees)
    · rintro (none_there | single)
      · exact absurd none_there empty
      · have took := receive_many_one settled place some_event evp tus
        rw [← single] at took
        refine ⟨_,_,_,tried,took,rfl,rfl,rfl,?_⟩
        rw [single,List.flatMap_singleton]
        rfl

def oneEvent : Lv2Evq := evq_create.append ⟨5,6,7,8⟩
def filledQueue : Kernel := connectedQueue.set 1 (.evq (some oneEvent))

theorem filledQueue_settled : Settled filledQueue 1 oneEvent 1 where
  inv := ((fresh_queue (k:=connectedQueue) (q:=1) rfl rfl).put (by decide) ⟨5,6,7,8⟩).1
  alone := rfl
  idle := nofun

theorem tryreceive_agrees_iff_one_slot : Settled filledQueue 1 oneEvent 1 ∧ poolSlot 1 = some 1 ∧
    (Agrees filledQueue oneEvent 1 1 0x20000 1 0x30000 0 ↔ oneEvent.cnt = 0 ∨ portion 1 oneEvent = 1) :=
  ⟨filledQueue_settled,rfl,
    tryreceive_agrees_iff filledQueue 1 oneEvent 1 1 0x20000 1 0x30000 0 filledQueue_settled rfl⟩

-- A buffer of no slots: 128 still takes the event and writes it.
theorem tryreceive_ignores_size :
    ¬ ∀ (k : Kernel) (q : Slot) (evq : Lv2Evq) (tid : Tid) (id evp sz cp : BitVec 32) (tus : BitVec 64),
      Settled k q evq tid → poolSlot id = some q → Agrees k evq tid id evp sz cp tus := by
  intro agrees
  have whole := agrees filledQueue 1 oneEvent 1 1 0x20000 0 0x30000 0 filledQueue_settled rfl
  have one := agrees_takes_one filledQueue_settled rfl (by decide) whole
  exact absurd one (by decide)

end BudokaiRuntime.Lv2
