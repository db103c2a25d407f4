import BudokaiRuntime.Lv2.Effects

-- Which instance of an object an ID meant. The code keeps bare IDs and no generations; the
-- history of a run tells the instances apart, and no step of the code reads it.
namespace BudokaiRuntime.Lv2

-- A pool entry as it was when its ID was handed over to a port or a condition variable. Slot
-- and generation name an instance: a freed entry is live again only after pool_alloc.
structure Binding where
  slot : Slot
  generation : Nat
  kind : Lv2Kind

structure History where
  -- How often pool_alloc has handed the ID out.
  generation : Slot → Nat
  -- What the port or the condition variable in this slot was connected to or created with.
  bound : Slot → Option Binding
  -- The same, of the condition variable that the thread last waited on.
  sleeping : Tid → Option Binding

def History.initial : History := ⟨fun _ => 0,fun _ => none,fun _ => none⟩

def Lv2Obj.refersTo : Lv2Obj → Option (BitVec 32)
  | .cond mutex_id => some mutex_id
  | .evport queue_id _ => some queue_id
  | _ => none

def History.binding (h : History) (pool : Pool) (id : BitVec 32) : Option Binding :=
  (poolSlot id).map fun s => ⟨s,h.generation s,(pool s).kind⟩

def History.bind (h : History) (pool : Pool) (s : Slot) (id : BitVec 32) : History :=
  {h with bound := Function.update h.bound s (h.binding pool id)}

def History.alloc (h : History) (s : Slot) : History :=
  {h with generation := Function.update h.generation s (h.generation s + 1)}

def History.created (h : History) (pool : Pool) (s : Slot) (object : Lv2Obj) : History :=
  match object.refersTo with
  | some id => (h.alloc s).bind pool s id
  | none => h.alloc s

def History.slept (h : History) (tid : Tid) (cond_id : BitVec 32) : History :=
  {h with sleeping := Function.update h.sleeping tid ((poolSlot cond_id).bind h.bound)}

def History.step (h : History) (t : Transition) : History :=
  match t.action with
  | .resume _ _ => h
  | .call tid c =>
      match Lv2.created c,pool_scan t.before.pool t.before.cursor with
      | some object,some s => h.created t.outcome.kernel.pool s object
      | some _,none => h
      | none,_ => match c with
          | .sys_event_port_connect_local port_id queue_id =>
              match pool_get t.before.pool port_id .evport with
              | some (p,_) => h.bind t.outcome.kernel.pool p queue_id
              | none => h
          | .sys_cond_wait cond_id _ => h.slept tid cond_id
          | _ => h

-- Until the ID is handed out again, the entry is free or still holds what it held.
structure Consistent (generation : Slot → Nat) (pool : Pool) (b : Binding) : Prop where
  past : b.generation ≤ generation b.slot
  same : generation b.slot = b.generation → pool b.slot = .free ∨ (pool b.slot).kind = b.kind

def Bound (generation : Slot → Nat) (pool : Pool) (id : BitVec 32) (r : Option Binding) : Prop :=
  r.map Binding.slot = poolSlot id ∧ ∀ b, r = some b → Consistent generation pool b

def SleepsOn (h : History) (pool : Pool) (thread : InFlight) : Prop :=
  ∀ c m ms, thread.op = .sleep c m ms →
    ∃ b, h.sleeping thread.tid = some b ∧ b.slot = m ∧ Consistent h.generation pool b

structure Tracks (h : History) (k : Kernel) : Prop where
  refs : ∀ s id, (k.pool s).refersTo = some id → Bound h.generation k.pool id (h.bound s)
  sleepers : ∀ thread ∈ k.inflight, SleepsOn h k.pool thread

section Frame
variable {h : History} {generation : Slot → Nat} {pool next : Pool} {b : Binding} {s : Slot} {id : BitVec 32}
  {object : Lv2Obj}

def KeepsKind (pool next : Pool) : Prop := ∀ s, next s = .free ∨ (next s).kind = (pool s).kind

def KeepsRefs (pool next : Pool) : Prop := ∀ s id, (next s).refersTo = some id → (pool s).refersTo = some id

theorem update_keeps (kind : object = .free ∨ object.kind = (pool s).kind) :
    KeepsKind pool (Function.update pool s object) := by
  intro t
  by_cases here : t = s
  · subst here
    rw [Function.update_self]
    exact kind
  · rw [Function.update_of_ne here]
    exact .inr rfl

theorem update_refs (plain : object.refersTo = none) : KeepsRefs pool (Function.update pool s object) := by
  intro t id refers
  by_cases here : t = s
  · subst here
    rw [Function.update_self,plain] at refers
    cases refers
  · rw [Function.update_of_ne here] at refers
    exact refers

theorem replaced_keeps (holds : pool s = old) (same : object.kind = old.kind) (plain : object.refersTo = none) :
    KeepsKind pool (Function.update pool s object) ∧ KeepsRefs pool (Function.update pool s object) :=
  ⟨update_keeps (.inr (same.trans (congrArg Lv2Obj.kind holds.symm))),update_refs plain⟩

theorem Consistent.keeps (consistent : Consistent generation pool b) (keeps : KeepsKind pool next) :
    Consistent generation next b := by
  refine ⟨consistent.past,fun unchanged => ?_⟩
  rcases keeps b.slot with free | kind
  · exact .inl free
  · rcases consistent.same unchanged with free | same
    · rw [free] at kind
      exact .inl (kind_free.mp kind)
    · exact .inr (kind.trans same)

theorem Bound.keeps (bound : Bound generation pool id r) (keeps : KeepsKind pool next) :
    Bound generation next id r :=
  ⟨bound.1,fun b same => (bound.2 b same).keeps keeps⟩

theorem Consistent.alloc (consistent : Consistent generation pool b) (s : Slot) (object : Lv2Obj) :
    Consistent (Function.update generation s (generation s + 1)) (Function.update pool s object) b := by
  have past := consistent.past
  by_cases here : b.slot = s
  · subst here
    refine ⟨?_,fun unchanged => ?_⟩
    · rw [Function.update_self]
      omega
    · rw [Function.update_self] at unchanged
      omega
  · refine ⟨?_,fun unchanged => ?_⟩
    · rw [Function.update_of_ne here]
      exact past
    · rw [Function.update_of_ne here] at unchanged ⊢
      exact consistent.same unchanged

theorem Bound.alloc (bound : Bound generation pool id r) (s : Slot) (object : Lv2Obj) :
    Bound (Function.update generation s (generation s + 1)) (Function.update pool s object) id r :=
  ⟨bound.1,fun b same => (bound.2 b same).alloc s object⟩

theorem fresh_binding (h : History) (pool : Pool) (id : BitVec 32) :
    Bound h.generation pool id (h.binding pool id) := by
  unfold History.binding
  cases place : poolSlot id with
  | none => exact ⟨place.symm ▸ rfl,nofun⟩
  | some s =>
      refine ⟨place.symm ▸ rfl,?_⟩
      rintro b same
      cases same
      exact ⟨Nat.le_refl _,fun _ => .inr rfl⟩

theorem SleepsOn.keeps {thread : InFlight} (sleeps : SleepsOn h pool thread) (keeps : KeepsKind pool next) :
    SleepsOn h next thread := by
  intro c m ms op
  obtain ⟨b,slept,place,consistent⟩ := sleeps c m ms op
  exact ⟨b,slept,place,consistent.keeps keeps⟩

theorem SleepsOn.alloc {thread : InFlight} (sleeps : SleepsOn h pool thread) (s : Slot) (object : Lv2Obj) :
    SleepsOn (h.alloc s) (Function.update pool s object) thread := by
  intro c m ms op
  obtain ⟨b,slept,place,consistent⟩ := sleeps c m ms op
  exact ⟨b,slept,place,consistent.alloc s object⟩
end Frame

section Steps
variable {h : History} {k next : Kernel} {s : Slot} {tid : Tid}

theorem Tracks.frame (tracks : Tracks h k) (keeps : KeepsKind k.pool next.pool) (refs : KeepsRefs k.pool next.pool)
    (sleepers : ∀ thread ∈ next.inflight, SleepsOn h k.pool thread) : Tracks h next where
  refs := fun s id refers => (tracks.refs s id (refs s id refers)).keeps keeps
  sleepers := fun thread member => (sleepers thread member).keeps keeps

theorem Tracks.created (tracks : Tracks h k) (s : Slot) (object : Lv2Obj) :
    Tracks (h.created (k.allocated s object).pool s object) (k.allocated s object) := by
  have others : ∀ t id, t ≠ s → ((k.allocated s object).pool t).refersTo = some id →
      Bound (h.alloc s).generation (k.allocated s object).pool id (h.bound t) := by
    intro t id other refers
    rw [allocated_other k object other] at refers
    exact (tracks.refs t id refers).alloc s object
  have sleepers : ∀ thread ∈ k.inflight, SleepsOn (h.alloc s) (k.allocated s object).pool thread :=
    fun thread member => (tracks.sleepers thread member).alloc s object
  unfold History.created
  cases refers : object.refersTo with
  | none =>
      refine ⟨fun t id names => ?_,sleepers⟩
      by_cases here : t = s
      · subst here
        rw [allocated_self,refers] at names
        cases names
      · exact others t id here names
  | some named =>
      refine ⟨fun t id names => ?_,sleepers⟩
      unfold History.bind
      by_cases here : t = s
      · subst here
        rw [allocated_self,refers] at names
        cases names
        dsimp only
        rw [Function.update_self]
        exact fresh_binding (h.alloc t) _ named
      · dsimp only
        rw [Function.update_of_ne here]
        exact others t id here names

theorem Tracks.connect (tracks : Tracks h k) (port : (k.pool p).kind = .evport) (queue_id : BitVec 32)
    (name : BitVec 64) :
    Tracks (h.bind (k.set p (.evport queue_id name)).pool p queue_id) (k.set p (.evport queue_id name)) := by
  have keeps : KeepsKind k.pool (k.set p (.evport queue_id name)).pool := update_keeps (.inr port.symm)
  refine ⟨fun t id names => ?_,fun thread member => (tracks.sleepers thread member).keeps keeps⟩
  unfold History.bind
  dsimp only
  by_cases here : t = p
  · subst here
    have new : (k.set t (.evport queue_id name)).pool t = .evport queue_id name := Function.update_self _ _ _
    rw [new] at names
    cases names
    rw [Function.update_self]
    exact fresh_binding h _ queue_id
  · have still : (k.set p (.evport queue_id name)).pool t = k.pool t := Function.update_of_ne here _ _
    rw [still] at names
    rw [Function.update_of_ne here]
    exact (tracks.refs t id names).keeps keeps

theorem Tracks.slept (tracks : Tracks h k) (idle : ∀ thread ∈ k.inflight, thread.tid ≠ tid)
    (cond_id : BitVec 32) : Tracks (h.slept tid cond_id) k := by
  refine ⟨tracks.refs,fun thread member c m ms op => ?_⟩
  obtain ⟨b,slept,rest⟩ := tracks.sleepers thread member c m ms op
  refine ⟨b,?_,rest⟩
  unfold History.slept
  dsimp only
  rw [Function.update_of_ne (idle thread member)]
  exact slept

theorem Tracks.sleep (tracks : Tracks h k) (cond : pool_get k.pool cond_id .cond = some (c,.cond mutex_id))
    (mutex : pool_get k.pool mutex_id .mutex = some (m,.mutex cs)) (ms : BitVec 32) :
    SleepsOn (h.slept tid cond_id) k.pool ⟨tid,.sleep c m ms⟩ := by
  obtain ⟨place,holds,_⟩ := pool_get_some.mp cond
  obtain ⟨named,_⟩ := pool_get_some.mp mutex
  have bound := tracks.refs c mutex_id (by rw [holds]; rfl)
  rw [Bound,named] at bound
  obtain ⟨b,taken,slot⟩ := Option.map_eq_some_iff.mp bound.1
  intro c' m' ms' op
  cases op
  refine ⟨b,?_,slot,bound.2 b taken⟩
  unfold History.slept
  dsimp only
  rw [Function.update_self,place]
  exact taken

theorem effect_keeps (effect : StepEffect k a next log)
    (uncreated : ∀ tid c, a = .call tid c → created c = none)
    (unconnected : ∀ tid port_id queue_id, a ≠ .call tid (.sys_event_port_connect_local port_id queue_id)) :
    KeepsKind k.pool next.pool ∧ KeepsRefs k.pool next.pool := by
  cases effect with
  | idle => exact ⟨fun _ => .inr rfl,fun _ _ same => same⟩
  | alloc makes _ => exact nomatch (uncreated _ _ rfl).symm.trans makes
  | freeAny _ _ => exact ⟨update_keeps (.inl rfl),update_refs rfl⟩
  | freeKind _ _ _ => exact ⟨update_keeps (.inl rfl),update_refs rfl⟩
  | @adjust s old tid c object holds same plain =>
      refine replaced_keeps holds same ?_
      rw [← same] at plain
      cases object with
      | cond _ => rcases plain with sem | mutex <;> contradiction
      | evport _ _ => rcases plain with sem | mutex <;> contradiction
      | _ => rfl
  | connect _ => exact absurd rfl (unconnected _ _ _)
  | sleep _ mutex => exact replaced_keeps (pool_get_some.mp mutex).2.1 rfl rfl
  | wake _ _ holds _ => exact replaced_keeps holds rfl rfl
  | take holds _ => exact replaced_keeps holds rfl rfl
  | got _ _ holds => exact replaced_keeps holds rfl rfl
  | put _ target _ => exact replaced_keeps (pool_get_some.mp target).2.1 rfl rfl

-- The threads that sleep after a step slept before it, or have just called sys_cond_wait.
theorem effect_sleepers (effect : StepEffect k a next log) (member : thread ∈ next.inflight)
    (op : thread.op = .sleep c m ms) : thread ∈ k.inflight ∨
      ∃ cond_id tus mutex_id cs, a = .call thread.tid (.sys_cond_wait cond_id tus) ∧
        pool_get k.pool cond_id .cond = some (c,.cond mutex_id) ∧
        pool_get k.pool mutex_id .mutex = some (m,.mutex cs) := by
  cases effect with
  | sleep cond mutex =>
      rcases List.mem_cons.mp member with rfl | member
      · cases op
        exact .inr ⟨_,_,_,_,rfl,cond,mutex⟩
      · exact .inl member
  | take _ _ =>
      rcases List.mem_cons.mp member with rfl | member
      · cases op
      · exact .inl member
  | wake _ _ _ _ => exact .inl (List.mem_of_mem_eraseP member)
  | got _ _ _ => exact .inl (List.mem_of_mem_eraseP member)
  | _ => exact .inl member

theorem Tracks.quiet (tracks : Tracks h k) (step : lv2_step k a = some o)
    (uncreated : ∀ tid c, a = .call tid c → Lv2.created c = none)
    (unconnected : ∀ tid port_id queue_id, a ≠ .call tid (.sys_event_port_connect_local port_id queue_id))
    (unwaited : ∀ tid cond_id tus, a ≠ .call tid (.sys_cond_wait cond_id tus)) : Tracks h o.kernel := by
  have effect := step_effect step
  obtain ⟨kinds,refs⟩ := effect_keeps effect uncreated unconnected
  refine tracks.frame kinds refs fun thread member c m ms op => ?_
  rcases effect_sleepers effect member op with before | ⟨_,_,_,_,call,_⟩
  · exact tracks.sleepers thread before c m ms op
  · exact absurd call (unwaited _ _ _)

theorem Tracks.wait (tracks : Tracks h k) (step : lv2_step k (.call tid (.sys_cond_wait cond_id tus)) = some o) :
    Tracks (h.slept tid cond_id) o.kernel := by
  have effect := step_effect step
  have slept := tracks.slept (call_step step).1 cond_id
  obtain ⟨kinds,refs⟩ := effect_keeps effect (by rintro t c same; cases same; rfl) nofun
  refine slept.frame kinds refs fun thread member c m ms op => ?_
  rcases effect_sleepers effect member op with before | ⟨_,_,_,_,call,cond,mutex⟩
  · exact slept.sleepers thread before c m ms op
  · cases call
    exact tracks.sleep cond mutex ms c m ms rfl

end Steps

end BudokaiRuntime.Lv2
