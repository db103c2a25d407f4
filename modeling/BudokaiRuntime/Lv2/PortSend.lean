import BudokaiRuntime.Lv2.Effects
import Mathlib.Algebra.BigOperators.Group.Finset.Piecewise
import Mathlib.Algebra.Order.Ring.Int
import Mathlib.Data.Fintype.Basic

-- Where the events of a run went, and what the sends said about them.
namespace BudokaiRuntime.Lv2

def stored : Lv2Obj → Int
  | .evq (some evq) => evq.cnt
  | _ => 0

def queued (pool : Pool) : Int := ∑ s, stored (pool s)

def discarded (pool next : Pool) : Int := ∑ s, if (next s).kind = .free then stored (pool s) else 0

def QueueEvent.isGot : QueueEvent → Bool
  | .got _ _ => true
  | .put _ _ => false

def QueueEvent.isPut : QueueEvent → Bool
  | .got _ _ => false
  | .put _ _ => true

def receivable (ts : List Transition) (final : Pool) : Int :=
  (ts.map fun t => (t.outcome.log.countP QueueEvent.isGot : Int)).sum + queued final +
    (ts.map fun t => discarded t.before.pool t.outcome.kernel.pool).sum

def Transition.sendOk (t : Transition) : Bool :=
  match t.action with
  | .call _ (.sys_event_port_send _ _ _ _) => t.outcome.r3 == some CELL_OK
  | _ => false

def Accepts (k : Kernel) (port_id : BitVec 32) : Prop :=
  ∃ p queue_id name q evq, pool_get k.pool port_id .evport = some (p,.evport queue_id name) ∧
    pool_get k.pool queue_id .evq = some (q,.evq (some evq)) ∧ evq.cnt < EVQ_CAP

def Appended (k : Kernel) (port_id : BitVec 32) (data1 data2 data3 : BitVec 64) (next : Kernel) : Prop :=
  ∃ p queue_id name q evq, pool_get k.pool port_id .evport = some (p,.evport queue_id name) ∧
    pool_get k.pool queue_id .evq = some (q,.evq (some evq)) ∧
    next.pool q = .evq (some (evq.append ⟨name,data1,data2,data3⟩))

def Transition.Honest (t : Transition) : Prop :=
  ∀ tid port_id data1 data2 data3, t.action = .call tid (.sys_event_port_send port_id data1 data2 data3) →
    t.outcome.r3 = some CELL_OK → Appended t.before port_id data1 data2 data3 t.outcome.kernel

def Transition.Accepted (t : Transition) : Prop :=
  ∀ tid port_id data1 data2 data3, t.action = .call tid (.sys_event_port_send port_id data1 data2 data3) →
    Accepts t.before port_id

section Ledger
variable {k : Kernel} {s : Slot} {object : Lv2Obj}

theorem stored_free (free : object.kind = .free) : stored object = 0 := by
  cases object with
  | free => rfl
  | _ => cases free

theorem queued_update (pool : Pool) (s : Slot) (object : Lv2Obj) :
    queued (Function.update pool s object) + stored (pool s) = queued pool + stored object := by
  have moved : ∀ t, stored (Function.update pool s object t) =
      Function.update (fun t => stored (pool t)) s (stored object) t :=
    fun t => Function.apply_update (fun _ => stored) pool s object t
  unfold queued
  rw [Finset.sum_congr rfl fun t _ => moved t,Finset.sum_update_of_mem (Finset.mem_univ s),
    Finset.sdiff_singleton_eq_erase,← Finset.add_sum_erase Finset.univ _ (Finset.mem_univ s)]
  omega

theorem discarded_update (pool : Pool) (s : Slot) (object : Lv2Obj) :
    discarded pool (Function.update pool s object) = if object.kind = .free then stored (pool s) else 0 := by
  unfold discarded
  rw [Finset.sum_eq_single s]
  · rw [Function.update_self]
  · intro t _ other
    rw [Function.update_of_ne other]
    split
    · rename_i free
      exact stored_free free
    · rfl
  · exact fun absent => absurd (Finset.mem_univ s) absent

theorem ledger_update (pool : Pool) (s : Slot) (object : Lv2Obj) :
    queued (Function.update pool s object) + discarded pool (Function.update pool s object) =
      queued pool + (if object.kind = .free then 0 else stored object - stored (pool s)) := by
  have sum := queued_update pool s object
  rw [discarded_update]
  by_cases free : object.kind = .free
  · rw [if_pos free,if_pos free]
    rw [stored_free free] at sum
    omega
  · rw [if_neg free,if_neg free]
    omega

theorem ledger_same (pool : Pool) : queued pool + discarded pool pool = queued pool := by
  have kept := ledger_update pool 0 (pool 0)
  rw [Function.update_eq_self] at kept
  rw [kept]
  split
  · omega
  · omega
end Ledger

section Steps
variable {k next : Kernel} {log : List QueueEvent} {s : Slot} {object old : Lv2Obj}

theorem set_balance (changed : next.pool = Function.update k.pool s object) (live : object ≠ .free)
    (holds : k.pool s = old) (gots puts : Nat) (change : stored object + gots = stored old + puts) :
    gots + queued next.pool + discarded k.pool next.pool = queued k.pool + puts := by
  have sum := ledger_update k.pool s object
  rw [if_neg (mt kind_free.mp live),holds] at sum
  rw [changed]
  omega

theorem free_balance (changed : next.pool = Function.update k.pool s .free) :
    queued next.pool + discarded k.pool next.pool = queued k.pool := by
  have sum := ledger_update k.pool s .free
  rw [if_pos (kind_free.mpr rfl)] at sum
  rw [changed,sum,Int.add_zero]

theorem stored_other (other : object.kind ≠ .evq) : stored object = 0 := by
  cases object with
  | evq evq => exact absurd rfl other
  | _ => rfl

theorem created_quiet (makes : created c = some object) : object ≠ .free ∧ stored object = 0 := by
  cases c <;> cases makes
  all_goals exact ⟨nofun,rfl⟩

theorem effect_balance (effect : StepEffect k a next log) :
    log.countP QueueEvent.isGot + queued next.pool + discarded k.pool next.pool =
      queued k.pool + log.countP QueueEvent.isPut := by
  have still : queued next.pool + discarded k.pool next.pool = queued k.pool →
      ((0 : Nat) : Int) + queued next.pool + discarded k.pool next.pool = queued k.pool + (0 : Nat) := by omega
  cases effect with
  | idle => exact still (ledger_same k.pool)
  | alloc makes found =>
      obtain ⟨live,empty⟩ := created_quiet makes
      exact set_balance rfl live (pool_scan_free found) 0 0 (by rw [empty]; rfl)
  | freeAny _ _ => exact still (free_balance rfl)
  | freeKind _ _ _ => exact still (free_balance rfl)
  | @adjust s old tid c object holds same plain =>
      have before : old.kind ≠ .evq ∧ old.kind ≠ .free := by
        rcases plain with sem | mutex
        · rw [sem]; decide
        · rw [mutex]; decide
      rw [← same] at before
      refine set_balance rfl (mt kind_free.mpr before.2) holds 0 0 ?_
      rw [stored_other before.1,stored_other (same ▸ before.1)]
  | connect port => exact set_balance rfl (by nofun) (pool_get_some.mp port).2.1 0 0 (by rfl)
  | sleep _ mutex => exact set_balance rfl (by nofun) (pool_get_some.mp mutex).2.1 0 0 (by rfl)
  | wake _ _ holds _ => exact set_balance rfl (by nofun) holds 0 0 (by rfl)
  | take holds _ => exact set_balance rfl (by nofun) holds 0 0 (by rfl)
  | @got tid thread q evp cp evq ok found op holds =>
      refine set_balance rfl (by nofun) holds 1 0 ?_
      show evq.cnt-1 + 1 = evq.cnt + 0
      omega
  | @put port_id p queue_id name q evq tid data1 data2 data3 port target room =>
      refine set_balance rfl (by nofun) (pool_get_some.mp target).2.1 0 1 ?_
      show evq.cnt+1 + 0 = evq.cnt + 1
      omega

theorem send_step (step : lv2_step k (.call tid (.sys_event_port_send port_id data1 data2 data3)) = some o) :
    o = sys_event_port_send k port_id data1 data2 data3 := (Option.some.inj (call_step step).2).symm

-- Every exit of the call returns CELL_OK.
theorem send_returns (k : Kernel) (port_id : BitVec 32) (data1 data2 data3 : BitVec 64) :
    (sys_event_port_send k port_id data1 data2 data3).r3 = some CELL_OK := by
  rcases send_cases k port_id data1 data2 data3 with nothing | ⟨p,queue_id,name,q,evq,_,_,_,stores⟩
  · rw [nothing]
    rfl
  · rw [stores]

theorem send_accepted (accepts : Accepts k port_id) (data1 data2 data3 : BitVec 64) :
    Appended k port_id data1 data2 data3 (sys_event_port_send k port_id data1 data2 data3).kernel ∧
      (sys_event_port_send k port_id data1 data2 data3).log.countP QueueEvent.isPut = 1 := by
  obtain ⟨p,queue_id,name,q,evq,port,target,room⟩ := accepts
  unfold sys_event_port_send
  rw [port]
  dsimp only
  rw [target]
  dsimp only
  rw [if_pos room]
  exact ⟨⟨p,queue_id,name,q,evq,port,target,Function.update_self _ _ _⟩,rfl⟩

-- An event that was appended found room: a send that stores nothing leaves the queue as it was.
theorem appended_accepts
    (appended : Appended k port_id data1 data2 data3 (sys_event_port_send k port_id data1 data2 data3).kernel) :
    Accepts k port_id := by
  obtain ⟨p,queue_id,name,q,evq,port,target,after⟩ := appended
  rcases send_cases k port_id data1 data2 data3 with nothing | ⟨p',queue_id',name',q',evq',port',target',room,_⟩
  · rw [nothing] at after
    have grown := congrArg stored ((pool_get_some.mp target).2.1.symm.trans after)
    change evq.cnt = evq.cnt+1 at grown
    omega
  · exact ⟨p',queue_id',name',q',evq',port',target',room⟩

theorem effect_put (effect : StepEffect k a next log) (put : log.countP QueueEvent.isPut ≠ 0) :
    ∃ tid port_id data1 data2 data3, a = .call tid (.sys_event_port_send port_id data1 data2 data3) := by
  cases effect with
  | put _ _ _ => exact ⟨_,_,_,_,_,rfl⟩
  | _ => exact absurd rfl put

theorem honest_accepted {t : Transition} (step : lv2_step t.before t.action = some t.outcome) :
    t.Honest ↔ t.Accepted := by
  obtain ⟨k,a,o⟩ := t
  constructor
  · rintro honest tid port_id data1 data2 data3 rfl
    have went := send_step step
    dsimp only at went
    subst went
    exact appended_accepts (honest tid port_id data1 data2 data3 rfl (send_returns _ _ _ _ _))
  · rintro accepted tid port_id data1 data2 data3 rfl _
    have went := send_step step
    dsimp only at went
    subst went
    exact (send_accepted (accepted tid port_id data1 data2 data3 rfl) data1 data2 data3).1

theorem puts_sendOk {t : Transition} (step : lv2_step t.before t.action = some t.outcome) (accepted : t.Accepted) :
    t.outcome.log.countP QueueEvent.isPut = if t.sendOk then 1 else 0 := by
  obtain ⟨k,a,o⟩ := t
  by_cases send : ∃ tid port_id data1 data2 data3, a = .call tid (.sys_event_port_send port_id data1 data2 data3)
  · obtain ⟨tid,port_id,data1,data2,data3,rfl⟩ := send
    have went := send_step step
    dsimp only at went
    subst went
    have ok : Transition.sendOk ⟨k,.call tid (.sys_event_port_send port_id data1 data2 data3),
        sys_event_port_send k port_id data1 data2 data3⟩ = true :=
      beq_iff_eq.mpr (send_returns k port_id data1 data2 data3)
    rw [ok,if_pos rfl]
    exact (send_accepted (accepted tid port_id data1 data2 data3 rfl) data1 data2 data3).2
  · have none : o.log.countP QueueEvent.isPut = 0 := by
      by_contra put
      exact send (effect_put (step_effect step) put)
    have other : (Transition.sendOk ⟨k,a,o⟩) = false := by
      unfold Transition.sendOk
      dsimp only
      split
      · exact absurd ⟨_,_,_,_,_,rfl⟩ send
      · rfl
    rw [other]
    exact none
end Steps

section Runs
variable {k final : Kernel} {actions : List Lv2Action} {outcomes : List Outcome}

-- Every event of the run is somewhere, once.
theorem run_balance (run : lv2_run k actions = some (final,outcomes))
    (accepted : ∀ t ∈ transitions k actions outcomes, t.Accepted) :
    receivable (transitions k actions outcomes) final.pool =
      queued k.pool + (transitions k actions outcomes).countP Transition.sendOk := by
  induction actions generalizing k outcomes with
  | nil =>
      cases run
      simp [receivable,transitions]
  | cons a actions ih =>
      obtain ⟨o,later,step,ran,rfl⟩ := lv2_run_cons run
      have here := effect_balance (step_effect step)
      have puts := puts_sendOk (t:=⟨k,a,o⟩) step (accepted _ List.mem_cons_self)
      have after := ih ran fun t member => accepted t (List.mem_cons_of_mem _ member)
      dsimp only at puts
      rw [puts] at here
      unfold receivable at after ⊢
      rw [transitions,List.map_cons,List.map_cons,List.sum_cons,List.sum_cons,List.countP_cons]
      dsimp only
      push_cast at here ⊢
      omega
end Runs

theorem queued_init : queued lv2_pool_init.pool = 0 := Finset.sum_const_zero

-- Whatever the history, the sends that returned CELL_OK stored their events, and as many events
-- were receivable as sends returned CELL_OK, exactly when no send met a dead port, a dead
-- queue or a full one.
theorem send_ok_iff_accepted (actions : List Lv2Action) (final : Kernel) (outcomes : List Outcome)
    (run : lv2_run lv2_pool_init actions = some (final,outcomes)) :
    ((∀ t ∈ transitions lv2_pool_init actions outcomes, t.Honest) ∧
        receivable (transitions lv2_pool_init actions outcomes) final.pool =
          (transitions lv2_pool_init actions outcomes).countP Transition.sendOk) ↔
      ∀ t ∈ transitions lv2_pool_init actions outcomes, t.Accepted := by
  have steps := transitions_step run
  constructor
  · exact fun ⟨honest,_⟩ t member => (honest_accepted (steps t member)).mp (honest t member)
  · intro accepted
    refine ⟨fun t member => (honest_accepted (steps t member)).mpr (accepted t member),?_⟩
    rw [run_balance run accepted,queued_init,Int.zero_add]

def sendReceiveFromInit : List Lv2Action :=
  [.call 1 (.sys_event_queue_create 0),.call 1 (.sys_event_port_create 0 0x50),
    .call 1 (.sys_event_port_connect_local 2 1),.call 1 (.sys_event_port_send 2 10 11 12),
    .call 2 (.sys_event_queue_receive 1 0 0),.resume 2 true]

theorem send_ok_iff_accepted_send_receive : ∃ final outcomes,
    lv2_run lv2_pool_init sendReceiveFromInit = some (final,outcomes) ∧
    (((∀ t ∈ transitions lv2_pool_init sendReceiveFromInit outcomes, t.Honest) ∧
        receivable (transitions lv2_pool_init sendReceiveFromInit outcomes) final.pool =
          (transitions lv2_pool_init sendReceiveFromInit outcomes).countP Transition.sendOk) ↔
      ∀ t ∈ transitions lv2_pool_init sendReceiveFromInit outcomes, t.Accepted) := by
  have runs : (lv2_run lv2_pool_init sendReceiveFromInit).isSome = true := by decide +kernel
  obtain ⟨⟨final,outcomes⟩,run⟩ := Option.isSome_iff_exists.mp runs
  exact ⟨final,outcomes,run,send_ok_iff_accepted sendReceiveFromInit final outcomes run⟩

-- Nothing was ever created, and a send on port 7 still returns CELL_OK.
theorem unknown_port_send_succeeds : ¬ ∀ actions final outcomes,
    lv2_run lv2_pool_init actions = some (final,outcomes) →
    (∀ t ∈ transitions lv2_pool_init actions outcomes, t.Honest) ∧
      receivable (transitions lv2_pool_init actions outcomes) final.pool =
        (transitions lv2_pool_init actions outcomes).countP Transition.sendOk := by
  intro claim
  have run : lv2_run lv2_pool_init [.call 1 (.sys_event_port_send 7 1 2 3)] =
      some (lv2_pool_init,[returns lv2_pool_init CELL_OK]) := rfl
  have honest := (claim _ _ _ run).1 _ List.mem_cons_self
  obtain ⟨p,queue_id,name,q,evq,port,_⟩ := honest 1 7 1 2 3 rfl rfl
  have unknown : pool_get lv2_pool_init.pool 7 .evport = none := rfl
  exact nomatch unknown.symm.trans port

end BudokaiRuntime.Lv2
