import BudokaiRuntime.Lv2.Effects

-- One live event queue under any interleaving of senders, receivers and other calls.
namespace BudokaiRuntime.Lv2
open RingBuffer

def Blocked.dequeues (q : Slot) : Blocked → Bool
  | .dequeue queue _ _ => queue == q
  | .sleep _ _ _ => false

-- Receivers that hold a unit of the semaphore and have not dequeued yet.
def receivers (k : Kernel) (q : Slot) : Nat := k.inflight.countP (·.op.dequeues q)

def QueueEvent.putOn (q : Slot) : QueueEvent → Option Lv2Event
  | .put queue ev => if queue = q then some ev else none
  | .got _ _ => none

def QueueEvent.gotFrom (q : Slot) : QueueEvent → Option Lv2Event
  | .put _ _ => none
  | .got queue ev => if queue = q then some ev else none

def enqueued (q : Slot) (outcomes : List Outcome) : List Lv2Event :=
  (outcomes.flatMap Outcome.log).filterMap (QueueEvent.putOn q)

def dequeued (q : Slot) (outcomes : List Outcome) : List Lv2Event :=
  (outcomes.flatMap Outcome.log).filterMap (QueueEvent.gotFrom q)

def FreesSlot (a : Lv2Action) (q : Slot) : Prop :=
  ∃ tid c id, a = .call tid c ∧ freesAny c = some id ∧ poolSlot id = some q

def Lv2Evq.events (evq : Lv2Evq) : List Lv2Event := contents evq.buf evq.head evq.cnt.toNat

structure QueueInv (k : Kernel) (q : Slot) (evq : Lv2Evq) : Prop where
  live : k.pool q = .evq (some evq)
  nonneg : 0 ≤ evq.cnt
  bounded : evq.cnt ≤ EVQ_CAP
  tail : evq.tail = evq.head + Fin.ofNat EVQ_CAP evq.cnt.toNat
  units : evq.avail.count + receivers k q = evq.cnt
  count : 0 ≤ evq.avail.count
  max : evq.avail.max = EVQ_CAP*4

section Waiting
variable {k : Kernel} {q s : Slot} {tid : Tid} {op : Blocked}

theorem countP_eraseP {p f : α → Bool} {l : List α} (found : l.find? p = some t) :
    (l.eraseP p).countP f + (if f t then 1 else 0) = l.countP f := by
  induction l with
  | nil => cases found
  | cons a l ih =>
      rw [List.find?_cons] at found
      cases hit : p a with
      | true =>
          rw [hit] at found
          cases found
          rw [List.eraseP_cons_of_pos hit,List.countP_cons]
      | false =>
          rw [hit] at found
          rw [List.eraseP_cons_of_neg (by simp [hit]),List.countP_cons,List.countP_cons,← ih found]
          omega

theorem receivers_enter (k : Kernel) (tid : Tid) (op : Blocked) :
    receivers (k.enter tid op) q = receivers k q + if op.dequeues q then 1 else 0 := List.countP_cons

theorem receivers_leave (found : k.inflight.find? (·.tid == tid) = some thread) :
    receivers (k.leave tid) q + (if thread.op.dequeues q then 1 else 0) = receivers k q :=
  countP_eraseP found

theorem receivers_set (k : Kernel) (s : Slot) (object : Lv2Obj) : receivers (k.set s object) q = receivers k q := rfl
end Waiting

section Steps
variable {k : Kernel} {q s : Slot} {evq : Lv2Evq}

theorem QueueInv.elsewhere (inv : QueueInv k q evq) (next : Kernel) (pool : next.pool q = k.pool q)
    (same : receivers next q = receivers k q) : QueueInv next q evq :=
  ⟨pool.trans inv.live,inv.nonneg,inv.bounded,inv.tail,same ▸ inv.units,inv.count,inv.max⟩

theorem QueueInv.set (inv : QueueInv k q evq) (object : Lv2Obj) (other : s ≠ q) : QueueInv (k.set s object) q evq :=
  inv.elsewhere _ (Function.update_of_ne other.symm _ _) rfl

theorem QueueInv.other (inv : QueueInv k q evq) (holds : k.pool s = object) (different : object.kind ≠ .evq) :
    s ≠ q := by
  rintro rfl
  exact different (congrArg Lv2Obj.kind (holds.symm.trans inv.live))

theorem QueueInv.take (inv : QueueInv k q evq) (unit : 0 < evq.avail.count) (tid : Tid) (evp cp : BitVec 32) :
    QueueInv ((k.set q (.evq (some evq.take))).enter tid (.dequeue q evp cp)) q evq.take where
  live := Function.update_self _ _ _
  nonneg := inv.nonneg
  bounded := inv.bounded
  tail := inv.tail
  units := by
    have units := inv.units
    have more := receivers_enter (q:=q) (k.set q (.evq (some evq.take))) tid (.dequeue q evp cp)
    rw [receivers_set,Blocked.dequeues,beq_self_eq_true,if_pos rfl] at more
    rw [more]
    show evq.avail.count-1 + _ = evq.cnt
    omega
  count := by
    show 0 ≤ evq.avail.count-1
    omega
  max := inv.max

theorem QueueInv.put (inv : QueueInv k q evq) (room : evq.cnt < EVQ_CAP) (ev : Lv2Event) :
    QueueInv (k.set q (.evq (some (evq.append ev)))) q (evq.append ev) ∧
      (evq.append ev).events = evq.events ++ [ev] := by
  have grows : (evq.cnt+1).toNat = evq.cnt.toNat+1 := by
    have := inv.nonneg
    omega
  have units := inv.units
  have bound := inv.bounded
  have released : ReleaseSemaphore evq.avail 1 = {evq.avail with count := evq.avail.count+1} := by
    have limit := inv.max
    refine if_pos ⟨by decide,?_⟩
    rw [limit]
    omega
  constructor
  · refine ⟨Function.update_self _ _ _,?_,?_,?_,?_,?_,?_⟩
    · show 0 ≤ evq.cnt+1
      have := inv.nonneg
      omega
    · show evq.cnt+1 ≤ EVQ_CAP
      omega
    · show evq.tail + 1 = evq.head + Fin.ofNat EVQ_CAP (evq.cnt+1).toNat
      rw [grows]
      exact tail_push inv.tail
    · show (ReleaseSemaphore evq.avail 1).count + receivers k q = evq.cnt+1
      rw [released]
      show evq.avail.count+1 + _ = _
      omega
    · show 0 ≤ (ReleaseSemaphore evq.avail 1).count
      rw [released]
      have := inv.count
      show 0 ≤ evq.avail.count+1
      omega
    · show (ReleaseSemaphore evq.avail 1).max = _
      rw [released]
      exact inv.max
  · show contents (Function.update evq.buf evq.tail ev) evq.head (evq.cnt+1).toNat = _
    rw [grows]
    refine contents_push ?_ inv.tail ev
    have := inv.nonneg
    have : (EVQ_CAP : Int) = 128 := rfl
    omega

theorem QueueInv.occupied (inv : QueueInv k q evq) (waiting : 0 < receivers k q) : 0 < evq.cnt := by
  have units := inv.units
  have count := inv.count
  omega

theorem QueueInv.got (inv : QueueInv k q evq) (found : k.inflight.find? (·.tid == tid) = some thread)
    (op : thread.op = .dequeue q evp cp) :
    QueueInv ((k.set q (.evq (some evq.remove.2))).leave tid) q evq.remove.2 ∧
      evq.remove.1 :: evq.remove.2.events = evq.events := by
  have fewer : receivers ((k.set q (.evq (some evq.remove.2))).leave tid) q + 1 = receivers k q := by
    have left := receivers_leave (k:=k.set q (.evq (some evq.remove.2))) (q:=q) found
    rw [op,Blocked.dequeues,beq_self_eq_true,if_pos rfl,receivers_set] at left
    exact left
  have positive := inv.occupied (by omega)
  have units := inv.units
  have shrinks : evq.cnt.toNat = (evq.cnt-1).toNat+1 := by omega
  constructor
  · refine ⟨Function.update_self _ _ _,?_,?_,?_,?_,inv.count,inv.max⟩
    · show 0 ≤ evq.cnt-1
      omega
    · have bound := inv.bounded
      show evq.cnt-1 ≤ EVQ_CAP
      omega
    · have last := inv.tail
      rw [shrinks] at last
      exact tail_pop last
    · show evq.avail.count + _ = evq.cnt-1
      omega
  · show _ = contents evq.buf evq.head evq.cnt.toNat
    rw [shrinks]
    exact contents_pop.symm
end Steps

section Runs
variable {k : Kernel} {q : Slot} {evq : Lv2Evq}

theorem queue_step (inv : QueueInv k q evq) (step : lv2_step k a = some o) (kept : ¬ FreesSlot a q) :
    ∃ after, QueueInv o.kernel q after ∧
      o.log.filterMap (QueueEvent.gotFrom q) ++ after.events = evq.events ++ o.log.filterMap (QueueEvent.putOn q) := by
  have effect := step_effect step
  generalize o.kernel = next at effect
  generalize o.log = log at effect
  have unchanged : ∀ next, QueueInv next q evq → ∃ after, QueueInv next q after ∧
      ([] : List QueueEvent).filterMap (QueueEvent.gotFrom q) ++ after.events =
        evq.events ++ ([] : List QueueEvent).filterMap (QueueEvent.putOn q) :=
    fun next inv => ⟨evq,inv,(List.append_nil _).symm⟩
  cases effect with
  | idle => exact unchanged _ inv
  | alloc _ found =>
      have other := inv.other (pool_scan_free found) (by decide)
      exact unchanged _ (inv.elsewhere _ (Function.update_of_ne other.symm _ _) rfl)
  | freeAny frees place =>
      refine unchanged _ (inv.set _ ?_)
      rintro rfl
      exact kept ⟨_,_,_,rfl,frees,place⟩
  | @freeKind c kind s tid id frees place same =>
      refine unchanged _ (inv.set _ (inv.other rfl ?_))
      rw [same]
      cases c <;> cases frees <;> decide
  | adjust holds _ plain =>
      refine unchanged _ (inv.set _ (inv.other holds ?_))
      rcases plain with sem | mutex
      · rw [sem]; decide
      · rw [mutex]; decide
  | connect port =>
      exact unchanged _ (inv.set _ (inv.other (pool_get_some.mp port).2.1 nofun))
  | sleep _ mutex =>
      have other := inv.other (pool_get_some.mp mutex).2.1 nofun
      exact unchanged _ (inv.elsewhere _ (Function.update_of_ne other.symm _ _) (receivers_enter _ _ _))
  | wake found op holds _ =>
      have other := inv.other holds nofun
      have left := receivers_leave (q:=q) found
      rw [op] at left
      exact unchanged _ (inv.elsewhere _ (Function.update_of_ne other.symm _ _) left)
  | @take queue evq' tid c evp cp holds unit =>
      by_cases here : queue = q
      · subst here
        cases holds.symm.trans inv.live
        exact ⟨evq.take,inv.take unit tid evp cp,(List.append_nil _).symm⟩
      · refine unchanged _ (inv.elsewhere _ (Function.update_of_ne (Ne.symm here) _ _) ?_)
        rw [receivers_enter,Blocked.dequeues,beq_false_of_ne here]
        rfl
  | @got tid thread queue evp cp evq' ok found op holds =>
      by_cases here : queue = q
      · subst here
        cases holds.symm.trans inv.live
        obtain ⟨after,events⟩ := inv.got found op
        refine ⟨_,after,?_⟩
        rw [← events]
        simp [QueueEvent.gotFrom,QueueEvent.putOn]
      · have left := receivers_leave (q:=q) found
        rw [op,Blocked.dequeues,beq_false_of_ne here] at left
        refine ⟨evq,inv.elsewhere _ (Function.update_of_ne (Ne.symm here) _ _) left,?_⟩
        simp [QueueEvent.gotFrom,QueueEvent.putOn,here]
  | @put port_id p queue_id name queue evq' tid data1 data2 data3 port target room =>
      have holds := (pool_get_some.mp target).2.1
      by_cases here : queue = q
      · subst here
        cases holds.symm.trans inv.live
        obtain ⟨after,events⟩ := inv.put room ⟨name,data1,data2,data3⟩
        refine ⟨_,after,?_⟩
        rw [events]
        simp [QueueEvent.gotFrom,QueueEvent.putOn]
      · refine ⟨evq,inv.set _ here,?_⟩
        simp [QueueEvent.gotFrom,QueueEvent.putOn,here]

theorem queue_run (inv : QueueInv k q evq) (run : lv2_run k actions = some (final,outcomes))
    (kept : ∀ a ∈ actions, ¬ FreesSlot a q) :
    ∃ after, QueueInv final q after ∧
      dequeued q outcomes ++ after.events = evq.events ++ enqueued q outcomes := by
  induction actions generalizing k evq outcomes with
  | nil =>
      cases run
      exact ⟨evq,inv,(List.append_nil _).symm⟩
  | cons a actions ih =>
      obtain ⟨o,later,step,ran,rfl⟩ := lv2_run_cons run
      obtain ⟨middle,held,one⟩ := queue_step inv step (kept a List.mem_cons_self)
      obtain ⟨after,final,more⟩ := ih held ran fun b member => kept b (List.mem_cons_of_mem a member)
      refine ⟨after,final,?_⟩
      have got : dequeued q (o::later) = o.log.filterMap (QueueEvent.gotFrom q) ++ dequeued q later := by
        simp [dequeued]
      have put : enqueued q (o::later) = o.log.filterMap (QueueEvent.putOn q) ++ enqueued q later := by
        simp [enqueued]
      rw [got,put,List.append_assoc,more,← List.append_assoc,one,List.append_assoc]
end Runs

theorem fresh_queue (fresh : k.pool q = .evq (some evq_create)) (unwaited : receivers k q = 0) :
    QueueInv k q evq_create where
  live := fresh
  nonneg := by decide
  bounded := by decide
  tail := rfl
  units := by
    rw [unwaited]
    rfl
  count := by decide
  max := rfl

-- From a new queue on, and as long as no call frees its slot, whatever the threads do: the
-- ring is consistent, units and waiting receivers account for its events, a receiver that
-- holds a unit finds one, and events leave in the order they were accepted.
theorem queue_invariant (k : Kernel) (q : Slot) (actions : List Lv2Action) (final : Kernel)
    (outcomes : List Outcome) (fresh : k.pool q = .evq (some evq_create)) (unwaited : receivers k q = 0)
    (run : lv2_run k actions = some (final,outcomes)) (kept : ∀ a ∈ actions, ¬ FreesSlot a q) :
    ∃ evq, final.pool q = .evq (some evq) ∧ 0 ≤ evq.cnt ∧ evq.cnt ≤ EVQ_CAP ∧
      (evq.tail.val : Int) = (evq.head.val + evq.cnt) % EVQ_CAP ∧
      evq.avail.count + receivers final q = evq.cnt ∧ (0 < receivers final q → 0 < evq.cnt) ∧
      dequeued q outcomes ++ evq.events = enqueued q outcomes ∧
      dequeued q outcomes <+: enqueued q outcomes := by
  obtain ⟨evq,inv,events⟩ := queue_run (fresh_queue fresh unwaited) run kept
  have fifo : dequeued q outcomes ++ evq.events = enqueued q outcomes := events
  have place : (evq.tail.val : Int) = (evq.head.val + evq.cnt) % EVQ_CAP := by
    have index := congrArg Fin.val inv.tail
    rw [Fin.val_add,Fin.val_ofNat,Nat.add_mod_mod] at index
    rw [index,Int.natCast_mod,Int.natCast_add,Int.toNat_of_nonneg inv.nonneg]
  exact ⟨evq,inv.live,inv.nonneg,inv.bounded,place,inv.units,inv.occupied,fifo,evq.events,fifo⟩

-- Queue 1 with port 2 connected to it; thread 1 sends, thread 2 receives, thread 1 sends again.
def connectedQueue : Kernel where
  pool := Function.update (Function.update (fun _ => .free) 1 (.evq (some evq_create))) 2 (.evport 1 0x50)
  cursor := 3
  inflight := []

def sendReceive : List Lv2Action :=
  [.call 1 (.sys_event_port_send 2 10 11 12),.call 2 (.sys_event_queue_receive 1 0 0),
    .call 1 (.sys_event_port_send 2 20 21 22),.resume 2 true]

theorem queue_invariant_send_receive : ∃ final outcomes,
    lv2_run connectedQueue sendReceive = some (final,outcomes) ∧
    ∃ evq, final.pool 1 = .evq (some evq) ∧ 0 ≤ evq.cnt ∧ evq.cnt ≤ EVQ_CAP ∧
      (evq.tail.val : Int) = (evq.head.val + evq.cnt) % EVQ_CAP ∧
      evq.avail.count + receivers final 1 = evq.cnt ∧ (0 < receivers final 1 → 0 < evq.cnt) ∧
      dequeued 1 outcomes ++ evq.events = enqueued 1 outcomes ∧
      dequeued 1 outcomes <+: enqueued 1 outcomes := by
  have runs : (lv2_run connectedQueue sendReceive).isSome = true := by decide +kernel
  obtain ⟨⟨final,outcomes⟩,run⟩ := Option.isSome_iff_exists.mp runs
  refine ⟨final,outcomes,run,queue_invariant connectedQueue 1 sendReceive final outcomes rfl rfl run ?_⟩
  rintro a member ⟨tid,c,id,rfl,frees,_⟩
  simp only [sendReceive,List.mem_cons,Lv2Action.call.injEq,reduceCtorEq,List.not_mem_nil,
    or_false] at member
  rcases member with ⟨_,rfl⟩ | ⟨_,rfl⟩ | ⟨_,rfl⟩
  all_goals cases frees

end BudokaiRuntime.Lv2
