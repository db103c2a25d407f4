import BudokaiRuntime.Lv2.Instances
import BudokaiRuntime.Lv2.PortSend

-- Sends and waits against the instances that ports and condition variables were given.
namespace BudokaiRuntime.Lv2

def Destroyed (h : History) (k : Kernel) (b : Binding) : Prop :=
  h.generation b.slot = b.generation ∧ k.pool b.slot = .free

section Reference
variable {h : History} {k : Kernel} {b : Binding}

theorem Tracks.found {id : BitVec 32} (tracks : Tracks h k) (holder : pool_get k.pool id kind = some (s,object))
    (refers : object.refersTo = some named) (target : pool_get k.pool named wanted = some (q,other))
    (live : wanted ≠ .free) :
    poolSlot id = some s ∧ (k.pool s).kind = kind ∧ ∃ b, h.bound s = some b ∧ b.slot = q ∧
      (k.pool b.slot).kind = wanted ∧ (h.generation b.slot = b.generation → b.kind = wanted) := by
  obtain ⟨place,holds,isKind⟩ := pool_get_some.mp holder
  obtain ⟨names,present,isWanted⟩ := pool_get_some.mp target
  have bound := tracks.refs s named (by rw [holds,refers])
  rw [Bound,names] at bound
  obtain ⟨b,taken,slot⟩ := Option.map_eq_some_iff.mp bound.1
  have now : (k.pool b.slot).kind = wanted := by rw [slot,present,isWanted]
  refine ⟨place,holds ▸ isKind,b,taken,slot,now,fun unchanged => ?_⟩
  rcases (bound.2 b taken).same unchanged with free | same
  · exact absurd (now.symm.trans (kind_free.mpr free)) live
  · exact same.symm.trans now

theorem Destroyed.gone (destroyed : Destroyed h k b) (live : (k.pool b.slot).kind = kind) : kind = .free :=
  live.symm.trans (kind_free.mpr destroyed.2)

end Reference

section Wrap
variable {k middle final : Kernel} {h between last : History} {actions more : List Lv2Action}

def Leads (k : Kernel) (h : History) (actions : List Lv2Action) (final : Kernel) (last : History) : Prop :=
  ∃ outcomes, lv2_run k actions = some (final,outcomes) ∧
    (transitions k actions outcomes).foldl History.step h = last

theorem Leads.refl (k : Kernel) (h : History) : Leads k h [] k h := ⟨[],rfl,rfl⟩

theorem Leads.one (step : lv2_step k a = some o) : Leads k h [a] o.kernel (h.step ⟨k,a,o⟩) := by
  refine ⟨[o],?_,rfl⟩
  rw [lv2_run,step]
  rfl

theorem Leads.append (first : Leads k h actions middle between) (second : Leads middle between more final last) :
    Leads k h (actions ++ more) final last := by
  obtain ⟨outcomes,ran,rfl⟩ := first
  obtain ⟨later,then',rfl⟩ := second
  obtain ⟨run,trace⟩ := lv2_run_append ran then'
  exact ⟨outcomes ++ later,run,by rw [trace,List.foldl_append]⟩

theorem call_runs (idle : k.inflight = []) (tid : Tid) (c : Lv2Call) :
    lv2_step k (.call tid c) = lv2_syscall k tid c := by
  rw [lv2_step,idle]
  rfl

theorem Leads.create (idle : k.inflight = []) (here : scanSlot k.cursor 0 = s) (free : k.pool s = .free)
    (makes : created c = some object) (completes : (lv2_syscall k tid c).isSome) :
    Leads k h [.call tid c] (k.allocated s object) (h.created (k.allocated s object).pool s object) := by
  subst here
  obtain ⟨o,went⟩ := Option.isSome_iff_exists.mp completes
  have step : lv2_step k (.call tid c) = some o := (call_runs idle tid c).trans went
  have leads : Leads k h [.call tid c] o.kernel _ := .one step
  have scan := pool_scan_first free
  have kernel := created_step makes step
  rw [scan] at kernel
  unfold History.step at leads
  dsimp only at leads
  rw [makes,scan,kernel] at leads
  exact leads

theorem Leads.destroyQueue {id : BitVec 32} (idle : k.inflight = []) (place : poolSlot id = some s) (tid : Tid) :
    Leads k h [.call tid (.sys_event_queue_destroy id)] (k.set s .free) h := by
  have step : lv2_step k (.call tid (.sys_event_queue_destroy id)) = some (returns (k.set s .free) CELL_OK) := by
    rw [call_runs idle,lv2_syscall,sys_event_queue_destroy,free_any,pool_free,place]
    rfl
  exact .one step

-- Port 2 was connected to queue 1 when that ID was handed out once; nothing else is live.
structure Parked (k : Kernel) (h : History) (n : Nat) : Prop where
  port : k.pool 2 = .evport 1 0x50
  free : ∀ s, s ≠ 2 → k.pool s = .free
  cursor : k.cursor = BitVec.ofNat 32 ((n-1) % 511 + 1)
  idle : k.inflight = []
  once : h.generation 1 = 1
  bound : h.bound 2 = some ⟨1,1,.evq⟩

def cycle (n : Nat) : List Lv2Action :=
  [.call 1 (.sys_event_queue_create 0)] ++ [.call 1 (.sys_event_queue_destroy (BitVec.ofNat 32 n))]

theorem scanSlot_cursor (low : 1 ≤ n) (high : n ≤ 511) :
    scanSlot (BitVec.ofNat 32 ((n-1) % 511 + 1)) 0 = ⟨n,Nat.lt_succ_of_le high⟩ := by
  have value : (BitVec.ofNat 32 ((n-1) % 511 + 1)).toNat = n := by
    rw [BitVec.toNat_ofNat]
    omega
  apply Fin.ext
  rw [scanSlot_val (by omega) (by omega) (by omega),value]
  show (n - 1 + 0) % 511 + 1 = n
  omega

theorem cursor_after (high : n ≤ 511) :
    BitVec.ofNat 32 n % BitVec.ofNat 32 511 + 1 = BitVec.ofNat 32 (n % 511 + 1) := by
  apply BitVec.eq_of_toNat_eq
  refine (cursor_next ⟨n,Nat.lt_succ_of_le high⟩).trans ?_
  rw [BitVec.toNat_ofNat]
  show n % 511 + 1 = _
  omega

theorem poolSlot_ofNat (low : 1 ≤ n) (high : n ≤ 511) :
    poolSlot (BitVec.ofNat 32 n) = some ⟨n,Nat.lt_succ_of_le high⟩ := by
  refine poolSlot_some.mpr ⟨fun zero => ?_,rfl⟩
  have value : n = 0 := congrArg Fin.val zero
  omega

theorem Parked.cycle (parked : Parked k h n) (low : 3 ≤ n) (high : n ≤ 511) :
    ∃ k' h', Leads k h (cycle n) k' h' ∧ Parked k' h' (n+1) := by
  have here : scanSlot k.cursor 0 = ⟨n,Nat.lt_succ_of_le high⟩ := by
    rw [parked.cursor]
    exact scanSlot_cursor (by omega) high
  have two : (2 : Slot) ≠ ⟨n,Nat.lt_succ_of_le high⟩ := by
    intro same
    have value : 2 = n := congrArg Fin.val same
    omega
  have one : (1 : Slot) ≠ ⟨n,Nat.lt_succ_of_le high⟩ := by
    intro same
    have value : 1 = n := congrArg Fin.val same
    omega
  have made : Leads k h [.call 1 (.sys_event_queue_create 0)] _ _ :=
    .create parked.idle here (parked.free _ two.symm) rfl rfl
  have gone := Leads.destroyQueue (k:=k.allocated ⟨n,Nat.lt_succ_of_le high⟩ (.evq (some evq_create)))
    (h:=h.alloc ⟨n,Nat.lt_succ_of_le high⟩) parked.idle (poolSlot_ofNat (by omega) high) 1
  refine ⟨_,_,made.append gone,?_,?_,?_,parked.idle,?_,parked.bound⟩
  · show Function.update (Function.update k.pool _ _) _ _ 2 = _
    rw [Function.update_of_ne two,Function.update_of_ne two]
    exact parked.port
  · intro s other
    show Function.update (Function.update k.pool _ _) _ _ s = _
    rw [Function.update_idem]
    by_cases same : s = ⟨n,Nat.lt_succ_of_le high⟩
    · rw [same,Function.update_self]
    · rw [Function.update_of_ne same]
      exact parked.free s other
  · exact cursor_after high
  · show Function.update h.generation _ _ 1 = 1
    rw [Function.update_of_ne one]
    exact parked.once

end Wrap

end BudokaiRuntime.Lv2
