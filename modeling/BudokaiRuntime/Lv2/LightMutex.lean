import BudokaiRuntime.Lv2.Objects

-- The lightweight mutexes: host locks behind guest addresses. A call looks its lock up
-- under the map's own lock and uses it afterwards, in a step of its own.
namespace BudokaiRuntime.Lv2

abbrev HostPtr : Type := Nat

inductive LwCall where
  | lock
  | trylock
  | unlock
deriving DecidableEq

structure LwPending where
  call : LwCall
  lw : BitVec 32
  cs : HostPtr
deriving DecidableEq

structure LwState where
  map : BitVec 32 → Option HostPtr
  heap : HostPtr → Option CriticalSection
  pending : Tid → Option LwPending

structure LwReturn where
  tid : Tid
  call : LwCall
  lw : BitVec 32
  r3 : BitVec 64
deriving DecidableEq

-- `fresh` is what malloc returns, any address not in use.
inductive LwAction where
  | create (tid : Tid) (lw : BitVec 32) (fresh : HostPtr)
  | destroy (tid : Tid) (lw : BitVec 32)
  | start (tid : Tid) (call : LwCall) (lw : BitVec 32)
  | finish (tid : Tid)
deriving DecidableEq

def LwAction.tid : LwAction → Tid
  | .create tid _ _ => tid
  | .destroy tid _ => tid
  | .start tid _ _ => tid
  | .finish tid => tid

def lw_initial : LwState := ⟨fun _ => none,fun _ => none,fun _ => none⟩

def LwState.put (s : LwState) (p : HostPtr) (cs : CriticalSection) : LwState :=
  {s with heap := Function.update s.heap p (some cs)}

def LwState.idle (s : LwState) (tid : Tid) : LwState := {s with pending := Function.update s.pending tid none}

def sys_lwmutex_create (s : LwState) (lw : BitVec 32) (fresh : HostPtr) : Option LwState :=
  match s.map lw with
  | some _ => some s
  | none =>
      if s.heap fresh = none then
        some {s.put fresh InitializeCriticalSection with map := Function.update s.map lw (some fresh)}
      else none

def sys_lwmutex_destroy (s : LwState) (lw : BitVec 32) : LwState :=
  match s.map lw with
  | none => s
  | some p => {s with map := Function.update s.map lw none,heap := Function.update s.heap p none}

-- What each call returns when the map has no entry.
def lw_missing : LwCall → BitVec 64
  | .lock => 0
  | .trylock => 0x8001000B
  | .unlock => 0

-- First half of 614, 615 and 616: the lookup.
def lw_start (s : LwState) (tid : Tid) (call : LwCall) (lw : BitVec 32) : LwState × Option LwReturn :=
  match s.map lw with
  | none => (s,some ⟨tid,call,lw,lw_missing call⟩)
  | some p => ({s with pending := Function.update s.pending tid (some ⟨call,lw,p⟩)},none)

-- Second half. `none`: EnterCriticalSection waits, or the pointer is to freed memory.
def lw_finish (s : LwState) (tid : Tid) (op : LwPending) : Option (LwState × Option LwReturn) :=
  (s.heap op.cs).bind fun cs =>
    match op.call with
    | .lock => (EnterCriticalSection cs tid).map fun cs => ((s.put op.cs cs).idle tid,some ⟨tid,.lock,op.lw,0⟩)
    | .trylock =>
        match EnterCriticalSection cs tid with
        | some cs => some ((s.put op.cs cs).idle tid,some ⟨tid,.trylock,op.lw,0⟩)
        | none => some (s.idle tid,some ⟨tid,.trylock,op.lw,0x8001000B⟩)
    | .unlock => some ((s.put op.cs (LeaveCriticalSection cs tid)).idle tid,some ⟨tid,.unlock,op.lw,0⟩)

def lw_step (s : LwState) : LwAction → Option (LwState × Option LwReturn)
  | .create tid lw fresh =>
      if s.pending tid = none then (sys_lwmutex_create s lw fresh).map fun s => (s,none) else none
  | .destroy tid lw => if s.pending tid = none then some (sys_lwmutex_destroy s lw,none) else none
  | .start tid call lw => if s.pending tid = none then some (lw_start s tid call lw) else none
  | .finish tid => (s.pending tid).bind (lw_finish s tid)

-- The results of 0 that a thread got from lock and trylock on an address, less its unlocks.
abbrev Held : Type := Tid → BitVec 32 → Nat

def Held.change (h : Held) (tid : Tid) (lw : BitVec 32) (n : Nat) : Held :=
  Function.update h tid (Function.update (h tid) lw n)

def LwReturn.grants (r : LwReturn) : Bool := r.call ≠ .unlock && r.r3 == 0

def Held.after (h : Held) : Option LwReturn → Held
  | none => h
  | some r =>
      if r.grants then h.change r.tid r.lw (h r.tid r.lw + 1)
      else if r.call = .unlock then h.change r.tid r.lw (h r.tid r.lw - 1)
      else h

-- Nobody else holds the address that a thread gets.
def Exclusive (h : Held) : Option LwReturn → Prop
  | none => True
  | some r => r.grants = true → ∀ other, other ≠ r.tid → h other r.lw = 0

def ExclusiveOver : Held → LwState → List LwAction → Prop
  | _,_,[] => True
  | h,s,a::actions => ∀ next ret, lw_step s a = some (next,ret) →
      Exclusive h ret ∧ ExclusiveOver (h.after ret) next actions

-- A lock call finds an entry; a destroyed lock is free, and nobody is about to use it.
def LwFits (s : LwState) : LwAction → Prop
  | .start _ .lock lw => s.map lw ≠ none
  | .destroy _ lw => ∀ p, s.map lw = some p →
      (∀ cs, s.heap p = some cs → cs.owner = none) ∧ ∀ tid op, s.pending tid = some op → op.cs ≠ p
  | _ => True

def LwFitsOver : LwState → List LwAction → Prop
  | _,[] => True
  | s,a::actions => ∀ next ret, lw_step s a = some (next,ret) → LwFits s a ∧ LwFitsOver next actions

def Owns (h : Tid → Nat) (cs : CriticalSection) : Prop :=
  match cs.owner with
  | none => ∀ tid, h tid = 0
  | some owner => 0 < cs.depth ∧ h owner = cs.depth ∧ ∀ tid, tid ≠ owner → h tid = 0

structure LwInvariant (h : Held) (s : LwState) : Prop where
  live : ∀ lw p, s.map lw = some p → ∃ cs, s.heap p = some cs ∧ Owns (h · lw) cs
  separate : ∀ lw other p, s.map lw = some p → s.map other = some p → lw = other
  absent : ∀ lw, s.map lw = none → ∀ tid, h tid lw = 0
  current : ∀ tid op, s.pending tid = some op → s.map op.lw = some op.cs

section Locks
variable {h : Tid → Nat} {cs after : CriticalSection} {tid : Tid}

theorem owns_fresh (none_ : ∀ tid, h tid = 0) : Owns h InitializeCriticalSection := none_

theorem owns_enter (owns : Owns h cs) (entered : EnterCriticalSection cs tid = some after) :
    (∀ other, other ≠ tid → h other = 0) ∧ Owns (Function.update h tid (h tid + 1)) after := by
  obtain ⟨owner,depth⟩ := cs
  cases owner with
  | none =>
      have zero : ∀ other, h other = 0 := owns
      cases entered
      refine ⟨fun other _ => zero other,Nat.one_pos,?_,fun other different => ?_⟩
      · rw [Function.update_self,zero tid]
      · rw [Function.update_of_ne different,zero other]
  | some owner =>
      obtain ⟨positive,count,others⟩ : 0 < depth ∧ h owner = depth ∧ ∀ tid, tid ≠ owner → h tid = 0 := owns
      simp only [EnterCriticalSection] at entered
      by_cases same : owner = tid
      · rw [if_pos same] at entered
        subst same
        cases entered
        refine ⟨others,Nat.succ_pos depth,?_,fun other different => ?_⟩
        · rw [Function.update_self,count]
        · rw [Function.update_of_ne different,others other different]
      · rw [if_neg same] at entered
        cases entered

theorem owns_leave (tid : Tid) (owns : Owns h cs) :
    Owns (Function.update h tid (h tid - 1)) (LeaveCriticalSection cs tid) := by
  have unowned (zero : h tid = 0) : Function.update h tid (h tid - 1) = h :=
    Function.update_eq_self_iff.mpr (by omega)
  obtain ⟨owner,depth⟩ := cs
  cases owner with
  | none =>
      have zero : ∀ other, h other = 0 := owns
      rw [unowned (zero tid)]
      exact owns
  | some owner =>
      have owned : 0 < depth ∧ h owner = depth ∧ ∀ tid, tid ≠ owner → h tid = 0 := owns
      obtain ⟨positive,count,others⟩ := owned
      by_cases same : owner = tid
      · subst same
        simp only [LeaveCriticalSection,if_true]
        split
        · intro other
          by_cases different : other = owner
          · rw [different,Function.update_self]
            omega
          · rw [Function.update_of_ne different,others other different]
        · refine ⟨show 0 < depth - 1 by omega,?_,fun other different => ?_⟩
          · rw [Function.update_self,count]
          · rw [Function.update_of_ne different,others other different]
      · have away : LeaveCriticalSection ⟨some owner,depth⟩ tid = ⟨some owner,depth⟩ :=
          if_neg fun equal => same (Option.some.inj equal)
        rw [unowned (others tid fun equal => same equal.symm),away]
        exact owns

end Locks

section Steps
variable {h : Held} {s next : LwState} {tid : Tid} {lw : BitVec 32} {p : HostPtr}

theorem change_here (n : Nat) : (fun t => h.change tid lw n t lw) = Function.update (fun t => h t lw) tid n := by
  funext t
  by_cases same : t = tid
  · rw [same,Held.change,Function.update_self,Function.update_self,Function.update_self]
  · rw [Held.change,Function.update_of_ne same,Function.update_of_ne same]

theorem change_elsewhere (n : Nat) (other : BitVec 32) (different : other ≠ lw) (t : Tid) :
    h.change tid lw n t other = h t other := by
  by_cases same : t = tid
  · rw [same,Held.change,Function.update_self,Function.update_of_ne different]
  · rw [Held.change,Function.update_of_ne same]

theorem idle_pending {t : Tid} {op : LwPending} (found : (s.idle tid).pending t = some op) :
    s.pending t = some op := by
  change Function.update s.pending tid none t = some op at found
  by_cases same : t = tid
  · rw [same,Function.update_self] at found
    cases found
  · rwa [Function.update_of_ne same] at found

theorem LwInvariant.idle (inv : LwInvariant h s) (tid : Tid) : LwInvariant h (s.idle tid) where
  live := inv.live
  separate := inv.separate
  absent := inv.absent
  current := fun t op found => inv.current t op (idle_pending found)

theorem LwInvariant.put (inv : LwInvariant h s) (entry : s.map lw = some p) (n : Nat) {cs : CriticalSection}
    (owns : Owns (Function.update (h · lw) tid n) cs) : LwInvariant (h.change tid lw n) (s.put p cs) where
  live := by
    intro other q found
    by_cases same : other = lw
    · subst same
      obtain rfl := Option.some.inj (entry.symm.trans found)
      exact ⟨cs,Function.update_self _ _ _,(change_here n).symm ▸ owns⟩
    · obtain ⟨old,present,kept⟩ := inv.live other q found
      have apart : q ≠ p := fun equal => same (inv.separate other lw p (equal ▸ found) entry)
      refine ⟨old,(Function.update_of_ne apart _ _).trans present,?_⟩
      rw [funext fun t => change_elsewhere n other same t]
      exact kept
  separate := inv.separate
  absent := by
    intro other missing t
    have different : other ≠ lw := fun same => by
      have none_ : s.map other = none := missing
      rw [same,entry] at none_
      cases none_
    rw [change_elsewhere n other different t]
    exact inv.absent other missing t
  current := inv.current

theorem create_keeps (inv : LwInvariant h s) (lw : BitVec 32) (fresh : HostPtr)
    (created : sys_lwmutex_create s lw fresh = some next) : LwInvariant h next := by
  unfold sys_lwmutex_create at created
  split at created
  · cases created
    exact inv
  · rename_i missing
    split at created
    · rename_i unused
      cases created
      have apart (other : BitVec 32) (q : HostPtr) (found : s.map other = some q) : q ≠ fresh := by
        rintro rfl
        obtain ⟨cs,present,_⟩ := inv.live other q found
        rw [unused] at present
        cases present
      have before (other : BitVec 32) (different : other ≠ lw) (q : HostPtr)
          (found : Function.update s.map lw (some fresh) other = some q) : s.map other = some q := by
        rwa [Function.update_of_ne different] at found
      have here (q : HostPtr) (found : Function.update s.map lw (some fresh) lw = some q) : q = fresh := by
        rw [Function.update_self] at found
        exact (Option.some.inj found).symm
      refine ⟨fun other q found => ?_,fun one other q first second => ?_,fun other none_ => ?_,fun t op found => ?_⟩
      · by_cases same : other = lw
        · subst same
          rw [here q found]
          exact ⟨_,Function.update_self _ _ _,owns_fresh (inv.absent other missing)⟩
        · obtain ⟨cs,present,owns⟩ := inv.live other q (before other same q found)
          exact ⟨cs,(Function.update_of_ne (apart other q (before other same q found)) _ _).trans present,owns⟩
      · by_cases left : one = lw
        · by_cases right : other = lw
          · rw [left,right]
          · rw [left] at first
            exact absurd (here q first) (apart other q (before other right q second))
        · by_cases right : other = lw
          · rw [right] at second
            exact absurd (here q second) (apart one q (before one left q first))
          · exact inv.separate one other q (before one left q first) (before other right q second)
      · by_cases same : other = lw
        · rw [same]
          exact inv.absent lw missing
        · exact inv.absent other ((Function.update_of_ne same _ _).symm.trans none_)
      · have entry := inv.current t op found
        have different : op.lw ≠ lw := fun same => by
          rw [same,missing] at entry
          cases entry
        exact (Function.update_of_ne different _ _).trans entry
    · cases created

theorem destroy_keeps (inv : LwInvariant h s) (lw : BitVec 32)
    (fits : ∀ p, s.map lw = some p → (∀ cs, s.heap p = some cs → cs.owner = none) ∧
      ∀ tid op, s.pending tid = some op → op.cs ≠ p) : LwInvariant h (sys_lwmutex_destroy s lw) := by
  unfold sys_lwmutex_destroy
  split
  · exact inv
  · rename_i p entry
    obtain ⟨free,unused⟩ := fits p entry
    have before {other : BitVec 32} {q : HostPtr} (found : Function.update s.map lw none other = some q) :
        other ≠ lw ∧ s.map other = some q := by
      by_cases same : other = lw
      · rw [same,Function.update_self] at found
        cases found
      · rw [Function.update_of_ne same] at found
        exact ⟨same,found⟩
    refine ⟨fun other q found => ?_,fun one other q first second => ?_,fun other none_ t => ?_,fun t op found => ?_⟩
    · obtain ⟨different,found⟩ := before found
      obtain ⟨cs,present,owns⟩ := inv.live other q found
      have apart : q ≠ p := fun equal => different (inv.separate other lw p (equal ▸ found) entry)
      exact ⟨cs,(Function.update_of_ne apart _ _).trans present,owns⟩
    · exact inv.separate one other q (before first).2 (before second).2
    · by_cases same : other = lw
      · obtain ⟨cs,present,owns⟩ := inv.live lw p entry
        rw [Owns,free cs present] at owns
        rw [same]
        exact owns t
      · exact inv.absent other ((Function.update_of_ne same _ _).symm.trans none_) t
    · have entry_op := inv.current t op found
      have different : op.lw ≠ lw := fun same => by
        rw [same] at entry_op
        exact unused t op found (Option.some.inj (entry_op.symm.trans entry))
      exact (Function.update_of_ne different _ _).trans entry_op

theorem start_keeps (inv : LwInvariant h s) (call : LwCall) (lw : BitVec 32)
    (fits : call = .lock → s.map lw ≠ none) {ret : Option LwReturn}
    (started : lw_start s tid call lw = (next,ret)) : Exclusive h ret ∧ LwInvariant (h.after ret) next := by
  unfold lw_start at started
  split at started
  · rename_i missing
    cases started
    have refused : (LwReturn.mk tid call lw (lw_missing call)).grants = false := by
      cases call with
      | lock => exact absurd missing (fits rfl)
      | trylock => rfl
      | unlock => rfl
    refine ⟨fun granted => absurd (refused.symm.trans granted) Bool.false_ne_true,?_⟩
    rw [Held.after,if_neg (fun granted => absurd (refused.symm.trans granted) Bool.false_ne_true)]
    split
    · -- Nobody holds an address without an entry.
      have same : h.change tid lw (h tid lw - 1) = h := by
        rw [inv.absent lw missing tid,Held.change]
        refine Function.update_eq_self_iff.mpr (Function.update_eq_self_iff.mpr ?_)
        exact (inv.absent lw missing tid).symm
      exact same.symm ▸ inv
    · exact inv
  · rename_i p entry
    cases started
    refine ⟨trivial,inv.live,inv.separate,inv.absent,fun t op found => ?_⟩
    change Function.update s.pending tid (some ⟨call,lw,p⟩) t = some op at found
    by_cases same : t = tid
    · rw [same,Function.update_self] at found
      cases found
      exact entry
    · rw [Function.update_of_ne same] at found
      exact inv.current t op found

theorem finish_keeps (inv : LwInvariant h s) {op : LwPending} (pending : s.pending tid = some op)
    {ret : Option LwReturn} (finished : lw_finish s tid op = some (next,ret)) :
    Exclusive h ret ∧ LwInvariant (h.after ret) next := by
  have entry := inv.current tid op pending
  obtain ⟨cs,present,owns⟩ := inv.live op.lw op.cs entry
  unfold lw_finish at finished
  rw [present,Option.bind_some] at finished
  have entered {after : CriticalSection} (taken : EnterCriticalSection cs tid = some after) :
      (∀ other, other ≠ tid → h other op.lw = 0) ∧
        LwInvariant (h.change tid op.lw (h tid op.lw + 1)) ((s.put op.cs after).idle tid) := by
    obtain ⟨others,owned⟩ := owns_enter owns taken
    exact ⟨others,(inv.put entry _ owned).idle tid⟩
  split at finished
  · obtain ⟨after,taken,same⟩ := Option.map_eq_some_iff.mp finished
    cases same
    exact ⟨fun _ => (entered taken).1,(entered taken).2⟩
  · split at finished
    · rename_i after taken
      cases finished
      exact ⟨fun _ => (entered taken).1,(entered taken).2⟩
    · cases finished
      exact ⟨fun granted => Bool.noConfusion (show false = true from granted),inv.idle tid⟩
  · cases finished
    exact ⟨fun granted => Bool.noConfusion (show false = true from granted),
      (inv.put entry _ (owns_leave tid owns)).idle tid⟩

theorem lw_step_keeps (inv : LwInvariant h s) (a : LwAction) (fits : LwFits s a) {ret : Option LwReturn}
    (step : lw_step s a = some (next,ret)) : Exclusive h ret ∧ LwInvariant (h.after ret) next := by
  cases a with
  | create tid lw fresh =>
      simp only [lw_step] at step
      split at step
      · obtain ⟨after,created,same⟩ := Option.map_eq_some_iff.mp step
        cases same
        exact ⟨trivial,create_keeps inv lw fresh created⟩
      · cases step
  | destroy tid lw =>
      simp only [lw_step] at step
      split at step
      · cases step
        exact ⟨trivial,destroy_keeps inv lw fits⟩
      · cases step
  | start tid call lw =>
      simp only [lw_step] at step
      split at step
      · refine start_keeps inv call lw (fun lock => ?_) (Option.some.inj step)
        subst lock
        exact fits
      · cases step
  | finish tid =>
      obtain ⟨op,pending,finished⟩ := Option.bind_eq_some_iff.mp step
      exact finish_keeps inv pending finished

end Steps

theorem exclusive_over {h : Held} {s : LwState} (inv : LwInvariant h s) (actions : List LwAction)
    (fits : LwFitsOver s actions) : ExclusiveOver h s actions := by
  induction actions generalizing h s with
  | nil => trivial
  | cons a actions ih =>
      intro next ret step
      obtain ⟨here,later⟩ := fits next ret step
      obtain ⟨exclusive,kept⟩ := lw_step_keeps inv a here step
      exact ⟨exclusive,ih kept later⟩

theorem lw_initial_invariant : LwInvariant (fun _ _ => 0) lw_initial where
  live := fun _ _ found => absurd found.symm (Option.some_ne_none _)
  separate := fun _ _ _ found => absurd found.symm (Option.some_ne_none _)
  absent := fun _ _ _ => rfl
  current := fun _ _ found => absurd found.symm (Option.some_ne_none _)

theorem lwmutex_excludes (actions : List LwAction) (fits : LwFitsOver lw_initial actions) :
    ExclusiveOver (fun _ _ => 0) lw_initial actions :=
  exclusive_over lw_initial_invariant actions fits

theorem lwmutex_excludes_destroyed : ExclusiveOver (fun _ _ => 0) lw_initial
    [.create 1 0x100 0,.start 1 .lock 0x100,.finish 1,.start 1 .unlock 0x100,.finish 1,.destroy 1 0x100] := by
  refine lwmutex_excludes _ fun first _ one => ⟨trivial,fun second _ two => ?_⟩
  cases one
  refine ⟨nofun,fun third _ three => ⟨trivial,fun fourth _ four => ⟨trivial,fun fifth _ five => ⟨trivial,fun sixth _ six => ?_⟩⟩⟩⟩
  cases two
  cases three
  cases four
  cases five
  refine ⟨fun p entry => ⟨fun cs there => ?_,fun tid op waits => ?_⟩,trivial⟩
  · cases entry
    cases there
    rfl
  · rcases Decidable.eq_or_ne tid 1 with rfl | other
    · simp only [LwState.idle,Function.update_self,reduceCtorEq] at waits
    · simp only [LwState.idle,LwState.put,lw_initial,Function.update_of_ne other,reduceCtorEq] at waits

-- Two threads lock an address that was never created, and both get 0.
theorem both_lock_missing : ¬ ∀ actions, ExclusiveOver (fun _ _ => 0) lw_initial actions := by
  intro exclusive
  have run := exclusive [.start 1 .lock 0x100,.start 2 .lock 0x100]
  have second := (run lw_initial (some ⟨1,.lock,0x100,0⟩) rfl).2 lw_initial (some ⟨2,.lock,0x100,0⟩) rfl
  have held := second.1 rfl 1 (by decide)
  exact absurd held (by decide)

end BudokaiRuntime.Lv2
