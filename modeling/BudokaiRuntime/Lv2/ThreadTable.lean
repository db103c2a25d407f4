import BudokaiRuntime.Lv2.Objects

-- The threads a program creates, the table that remembers them, and the two joins.
namespace BudokaiRuntime.Lv2

abbrev MAX_THREADS : Nat := 64

-- Handles are never closed, so every CreateThread gives a new one.
abbrev Handle : Type := Nat

structure ThreadEntry where
  id : BitVec 32
  handle : Handle
deriving DecidableEq

inductive ThreadCall where
  | drawn (id : BitVec 32)
  | started (id : BitVec 32) (h : Handle)
  | joining (id : BitVec 32) (h : Handle)
deriving DecidableEq

-- The main thread: guest code, waiting in thread_runtime_join_all, after vm_shutdown.
inductive MainPhase where
  | guest
  | waiting (handles : List Handle)
  | released
deriving DecidableEq

-- `table` is the used part of g_thread_ids and g_thread_handles, g_thread_count its length.
-- `entered`: the threads that have read their parameters and freed them.
structure ThreadState where
  table : List ThreadEntry
  g_thread_id_next : BitVec 32
  handles : Nat
  entered : List Handle
  ended : List Handle
  calls : Tid → Option ThreadCall
  main : MainPhase

def thread_initial : ThreadState := ⟨[],1,0,[],[],fun _ => none,.guest⟩

-- A full table takes nothing and says nothing.
def thread_table_add (table : List ThreadEntry) (e : ThreadEntry) : List ThreadEntry :=
  if table.length < MAX_THREADS then table ++ [e] else table

def thread_table_find (table : List ThreadEntry) (tid : BitVec 32) : Option Handle :=
  (table.find? (·.id = tid)).map (·.handle)

inductive ThreadAction where
  -- sys_ppu_thread_create: the ID, CreateThread, the table entry and result 0. The entry's ID
  -- is read from the thread's parameters, `stale` being what lies there once they are freed.
  | draw (caller : Tid)
  | start (caller : Tid) (ok : Bool)
  | add (caller : Tid) (stale : BitVec 32)
  -- ppu_thread_proc: the parameters read and freed; the end.
  | enter (h : Handle)
  | finish (h : Handle)
  -- sys_ppu_thread_join: the lookup, and the end of the wait.
  | join (caller : Tid) (id : BitVec 32)
  | joined (caller : Tid)
  -- thread_runtime_join_all: the snapshot; then the end of the wait, and vm_shutdown.
  | join_all
  | shutdown
deriving DecidableEq

inductive ThreadReturn where
  | created (e : ThreadEntry)
  | joined (id : BitVec 32)
  | released
deriving DecidableEq

def ThreadState.call (s : ThreadState) (caller : Tid) (c : Option ThreadCall) : ThreadState :=
  {s with calls := Function.update s.calls caller c}

def thread_step (s : ThreadState) : ThreadAction → Option (ThreadState × Option ThreadReturn)
  | .draw caller =>
      if s.calls caller = none then
        some ({s.call caller (some (.drawn s.g_thread_id_next)) with g_thread_id_next := s.g_thread_id_next+1},none)
      else none
  | .start caller ok =>
      match s.calls caller with
      | some (.drawn id) =>
          if ok then some ({s.call caller (some (.started id s.handles)) with handles := s.handles+1},none)
          else some (s.call caller none,none)
      | _ => none
  | .add caller stale =>
      match s.calls caller with
      | some (.started id h) =>
          let thread_id := if h ∈ s.entered then stale else id
          some ({s.call caller none with table := thread_table_add s.table ⟨thread_id,h⟩},some (.created ⟨id,h⟩))
      | _ => none
  | .enter h => if h < s.handles ∧ h ∉ s.entered then some ({s with entered := h::s.entered},none) else none
  | .finish h => if h ∈ s.entered ∧ h ∉ s.ended then some ({s with ended := h::s.ended},none) else none
  | .join caller id =>
      if s.calls caller = none then
        match thread_table_find s.table id with
        | some h => some (s.call caller (some (.joining id h)),none)
        | none => some (s,some (.joined id))
      else none
  | .joined caller =>
      match s.calls caller with
      | some (.joining id h) => if h ∈ s.ended then some (s.call caller none,some (.joined id)) else none
      | _ => none
  | .join_all => if s.main = .guest then some ({s with main := .waiting (s.table.map (·.handle))},none) else none
  | .shutdown =>
      match s.main with
      | .waiting handles => if handles.all (· ∈ s.ended) then some ({s with main := .released},some .released) else none
      | _ => none

abbrev Created : Type := List ThreadEntry

def Created.after (created : Created) : Option ThreadReturn → Created
  | some (.created e) => created ++ [e]
  | _ => created

def Found (created : Created) (s : ThreadState) : Prop :=
  ∀ e ∈ created, thread_table_find s.table e.id = some e.handle

-- A join on one of them, and the release of the address space, come after its end.
def Joined (created : Created) (s : ThreadState) : Option ThreadReturn → Prop
  | some (.joined id) => ∀ e ∈ created, e.id = id → e.handle ∈ s.ended
  | some .released => ∀ e ∈ created, e.handle ∈ s.ended
  | _ => True

def JoinsOver : Created → ThreadState → List ThreadAction → Prop
  | created,s,[] => Found created s
  | created,s,a::actions => Found created s ∧ ∀ next ret, thread_step s a = some (next,ret) →
      Joined created next ret ∧ JoinsOver (created.after ret) next actions

-- A creation that returns 0 finds room in the table, and none with its ID; the main thread
-- has not yet taken its snapshot. The new thread has not freed its parameters, or the ID
-- still lies there.
def ThreadFits (s : ThreadState) : ThreadAction → Prop
  | .add caller stale => ∀ id h, s.calls caller = some (.started id h) →
      s.table.length < MAX_THREADS ∧ (∀ other ∈ s.table, other.id ≠ id) ∧ s.main = .guest ∧
        (h ∈ s.entered → stale = id)
  | _ => True

def ThreadFitsOver : ThreadState → List ThreadAction → Prop
  | _,[] => True
  | s,a::actions => ThreadFits s a ∧ ∀ next ret, thread_step s a = some (next,ret) → ThreadFitsOver next actions

structure ThreadInvariant (created : Created) (s : ThreadState) : Prop where
  recorded : s.table = created
  distinct : (created.map (·.id)).Nodup
  joining : ∀ caller id h, s.calls caller = some (.joining id h) → (⟨id,h⟩ : ThreadEntry) ∈ created
  waiting : ∀ handles, s.main = .waiting handles → ∀ e ∈ created, e.handle ∈ handles

section Steps
variable {created : Created} {s next : ThreadState} {ret : Option ThreadReturn}

theorem find_distinct {table : List ThreadEntry} (distinct : (table.map (·.id)).Nodup) {e : ThreadEntry}
    (member : e ∈ table) : thread_table_find table e.id = some e.handle := by
  induction table with
  | nil => cases member
  | cons first rest ih =>
      obtain ⟨fresh,later⟩ := List.nodup_cons.mp distinct
      rcases List.mem_cons.mp member with rfl | inside
      · simp [thread_table_find]
      · have listed : e.id ∈ rest.map (·.id) := List.mem_map_of_mem inside
        have different : first.id ≠ e.id := by
          intro same
          rw [← same] at listed
          exact fresh listed
        have found := ih later inside
        rw [thread_table_find,List.find?_cons_of_neg (by simpa using different)]
        exact found

theorem ThreadInvariant.found (inv : ThreadInvariant created s) : Found created s := by
  intro e member
  rw [inv.recorded]
  exact find_distinct inv.distinct member

theorem same_entry (distinct : (created.map (·.id)).Nodup) {one two : ThreadEntry} (first : one ∈ created)
    (second : two ∈ created) (same : one.id = two.id) : one.handle = two.handle := by
  have left := find_distinct distinct first
  rw [same,find_distinct distinct second] at left
  exact (Option.some.inj left).symm

theorem find_member {table : List ThreadEntry} {id : BitVec 32} {h : Handle}
    (found : thread_table_find table id = some h) : (⟨id,h⟩ : ThreadEntry) ∈ table := by
  obtain ⟨e,hit,rfl⟩ := Option.map_eq_some_iff.mp found
  have same : e.id = id := by simpa using List.find?_some hit
  exact same ▸ List.mem_of_find?_eq_some hit

theorem ThreadInvariant.call (inv : ThreadInvariant created s) (caller : Tid) (c : Option ThreadCall)
    (quiet : ∀ id h, c = some (.joining id h) → (⟨id,h⟩ : ThreadEntry) ∈ created) :
    ThreadInvariant created (s.call caller c) where
  recorded := inv.recorded
  distinct := inv.distinct
  joining := by
    intro other id h found
    change Function.update s.calls caller c other = some (.joining id h) at found
    by_cases same : other = caller
    · rw [same,Function.update_self] at found
      exact quiet id h found
    · rw [Function.update_of_ne same] at found
      exact inv.joining other id h found
  waiting := inv.waiting

theorem ThreadInvariant.add (inv : ThreadInvariant created s) (caller : Tid) (e : ThreadEntry)
    (room : s.table.length < MAX_THREADS) (fresh : ∀ other ∈ s.table, other.id ≠ e.id) (guest : s.main = .guest) :
    ThreadInvariant (created ++ [e]) {s.call caller none with table := thread_table_add s.table e} := by
  refine ⟨?_,?_,fun other id h found => ?_,fun handles waits => ?_⟩
  · show thread_table_add s.table e = created ++ [e]
    rw [thread_table_add,if_pos room,inv.recorded]
  · rw [List.map_append,List.nodup_append]
    refine ⟨inv.distinct,List.nodup_cons.mpr ⟨List.not_mem_nil,List.nodup_nil⟩,fun id before other last same => ?_⟩
    obtain ⟨old,member,rfl⟩ := List.mem_map.mp before
    rw [List.map_singleton,List.mem_singleton] at last
    exact fresh old (inv.recorded ▸ member) (same.trans last)
  · have kept := (inv.call caller none fun _ _ absent => absurd absent.symm (Option.some_ne_none _)).joining
    exact List.mem_append_left _ (kept other id h found)
  · have waiting : s.main = .waiting handles := waits
    rw [guest] at waiting
    cases waiting

theorem thread_step_keeps (inv : ThreadInvariant created s) (a : ThreadAction)
    (step : thread_step s a = some (next,ret)) (fits : ThreadFits s a) :
    Joined created next ret ∧ ThreadInvariant (created.after ret) next := by
  have plain (caller : Tid) (c : Option ThreadCall) (quiet : ∀ id h, c ≠ some (.joining id h)) :=
    inv.call caller c fun id h joining => absurd joining (quiet id h)
  cases a with
  | draw caller =>
      simp only [thread_step] at step
      split at step
      · cases step
        have called := plain caller (some (.drawn s.g_thread_id_next)) (by intro _ _ same; cases same)
        exact ⟨trivial,called.recorded,called.distinct,called.joining,called.waiting⟩
      · cases step
  | start caller ok =>
      simp only [thread_step] at step
      split at step
      · rename_i id _
        split at step
        · cases step
          have called := plain caller (some (.started id s.handles)) (by intro _ _ same; cases same)
          exact ⟨trivial,called.recorded,called.distinct,called.joining,called.waiting⟩
        · cases step
          exact ⟨trivial,plain caller none (by intro _ _ same; cases same)⟩
      · cases step
  | add caller stale =>
      simp only [thread_step] at step
      split at step
      · rename_i id h started
        obtain ⟨room,fresh,guest,unread⟩ := fits id h started
        have read : (if h ∈ s.entered then stale else id) = id := by
          split
          · rename_i freed
            exact unread freed
          · rfl
        rw [read] at step
        cases step
        exact ⟨trivial,inv.add caller ⟨id,h⟩ room fresh guest⟩
      · cases step
  | enter h =>
      simp only [thread_step] at step
      split at step
      · cases step
        exact ⟨trivial,inv.recorded,inv.distinct,inv.joining,inv.waiting⟩
      · cases step
  | finish h =>
      simp only [thread_step] at step
      split at step
      · cases step
        exact ⟨trivial,inv.recorded,inv.distinct,inv.joining,inv.waiting⟩
      · cases step
  | join caller id =>
      simp only [thread_step] at step
      split at step
      · split at step
        · rename_i h found
          cases step
          refine ⟨trivial,inv.call caller _ fun other handle same => ?_⟩
          cases same
          exact inv.recorded ▸ find_member found
        · rename_i missing
          cases step
          refine ⟨fun e member same => ?_,inv⟩
          have found := inv.found e member
          rw [same,missing] at found
          cases found
      · cases step
  | joined caller =>
      simp only [thread_step] at step
      split at step
      · rename_i id h waits
        split at step
        · rename_i past
          cases step
          refine ⟨fun e member same => ?_,plain caller none (by intro _ _ same; cases same)⟩
          have handle := same_entry inv.distinct member (inv.joining caller id h waits) same
          exact handle ▸ past
        · cases step
      · cases step
  | join_all =>
      simp only [thread_step] at step
      split at step
      · cases step
        refine ⟨trivial,inv.recorded,inv.distinct,inv.joining,fun handles waits e member => ?_⟩
        cases waits
        exact List.mem_map_of_mem (inv.recorded ▸ member)
      · cases step
  | shutdown =>
      simp only [thread_step] at step
      split at step
      · rename_i handles waits
        split at step
        · rename_i past
          cases step
          refine ⟨fun e member => ?_,inv.recorded,inv.distinct,inv.joining,fun _ other => ?_⟩
          · exact of_decide_eq_true (List.all_eq_true.mp past _ (inv.waiting handles waits e member))
          · cases other
        · cases step
      · cases step

end Steps

theorem joins_over {created : Created} {s : ThreadState} (inv : ThreadInvariant created s)
    (actions : List ThreadAction) (fits : ThreadFitsOver s actions) : JoinsOver created s actions := by
  induction actions generalizing created s with
  | nil => exact inv.found
  | cons a actions ih =>
      obtain ⟨here,later⟩ := fits
      refine ⟨inv.found,fun next ret step => ?_⟩
      obtain ⟨joined,kept⟩ := thread_step_keeps inv a step here
      exact ⟨joined,ih kept (later next ret step)⟩

theorem thread_initial_invariant : ThreadInvariant [] thread_initial where
  recorded := rfl
  distinct := List.nodup_nil
  joining := fun _ _ _ found => absurd found.symm (Option.some_ne_none _)
  waiting := fun _ waits => MainPhase.noConfusion waits

theorem created_threads_are_joined (actions : List ThreadAction) (fits : ThreadFitsOver thread_initial actions) :
    JoinsOver [] thread_initial actions := joins_over thread_initial_invariant actions fits

theorem created_threads_are_joined_once : JoinsOver [] thread_initial
    [.draw 1,.start 1 true,.add 1 0,.join 2 1,.enter 0,.finish 0,.joined 2] := by
  refine created_threads_are_joined _ ⟨trivial,fun first _ one => ?_⟩
  cases one
  refine ⟨trivial,fun second _ two => ?_⟩
  cases two
  refine ⟨fun id h started => ?_,fun third _ three => ?_⟩
  · cases started
    exact ⟨by decide,fun other member => absurd member List.not_mem_nil,rfl,fun freed => absurd freed List.not_mem_nil⟩
  cases three
  refine ⟨trivial,fun fourth _ four => ?_⟩
  cases four
  refine ⟨trivial,fun fifth _ five => ?_⟩
  cases five
  refine ⟨trivial,fun sixth _ six => ?_⟩
  cases six
  exact ⟨trivial,fun _ _ _ => trivial⟩

def thread_run : Created → ThreadState → List ThreadAction → Option (Created × ThreadState)
  | created,s,[] => some (created,s)
  | created,s,a::actions => (thread_step s a).bind fun (next,ret) => thread_run (created.after ret) next actions

theorem found_after {created last : Created} {s final : ThreadState} {actions : List ThreadAction}
    (joins : JoinsOver created s actions) (run : thread_run created s actions = some (last,final)) :
    Found last final := by
  induction actions generalizing created s with
  | nil =>
      cases run
      exact joins
  | cons a actions ih =>
      obtain ⟨⟨next,ret⟩,step,rest⟩ := Option.bind_eq_some_iff.mp run
      exact ih (joins.2 next ret step).2 rest

def createThread : List ThreadAction := [.draw 1,.start 1 true,.add 1 0]

-- The 65th creation returns 0 and leaves no entry.
theorem full_table_forgets : ¬ ∀ actions, JoinsOver [] thread_initial actions := by
  intro joins
  have forgotten : (thread_run [] thread_initial (List.replicate 65 createThread).flatten).map (fun r =>
      r.1.all fun e => thread_table_find r.2.table e.id = some e.handle) = some false := by decide +kernel
  obtain ⟨⟨created,s⟩,run,missing⟩ := Option.map_eq_some_iff.mp forgotten
  have found := found_after (joins _) run
  have all : (created.all fun e => thread_table_find s.table e.id = some e.handle) = true :=
    List.all_eq_true.mpr fun e member => decide_eq_true (found e member)
  exact Bool.noConfusion (missing.symm.trans all)

end BudokaiRuntime.Lv2
