import Mathlib.Data.List.Dedup
import BudokaiRuntime.Ppu.Context

-- The guard of func_00051204 against calls that come back to it, on one thread.
namespace BudokaiRuntime.Ppu

-- An activation of the function inside its body: its object, and the object it remembers.
structure Activation where
  obj : BitVec 32
  prev : BitVec 32
deriving DecidableEq

-- `s_active_obj`, and the activations of the thread, the innermost one first.
structure Dispatch where
  s_active_obj : BitVec 32
  active : List Activation
deriving DecidableEq

def Dispatch.idle : Dispatch := ⟨0,[]⟩

def Dispatch.objects (t : Dispatch) : List (BitVec 32) := t.active.map Activation.obj

-- Up to the call of func_0004B94C, or the whole call where it is cut short.
def func_00051204 (t : Dispatch) (ctx : PpuCtx) : Dispatch × PpuCtx :=
  let obj := low32 (ctx.gpr 4)
  if obj ≠ 0 ∧ obj = t.s_active_obj then (t,{ctx with gpr := Function.update ctx.gpr 3 0})
  else (⟨obj,⟨obj,t.s_active_obj⟩::t.active⟩,{ctx with gpr := Function.update ctx.gpr 3 (ctx.gpr 4)})

def func_00051204_return (t : Dispatch) : Option Dispatch :=
  match t.active with
  | [] => none
  | a::rest => some ⟨a.prev,rest⟩

inductive DispatchEvent where
  | call (ctx : PpuCtx)
  | ended

def DispatchEvent.obj : DispatchEvent → Option (BitVec 32)
  | .call ctx => some (low32 (ctx.gpr 4))
  | .ended => none

def Dispatch.step (t : Dispatch) : DispatchEvent → Option Dispatch
  | .call ctx => some (func_00051204 t ctx).1
  | .ended => func_00051204_return t

def Dispatch.states (t : Dispatch) : List DispatchEvent → List Dispatch
  | [] => [t]
  | e::events => t::match t.step e with
    | none => []
    | some u => u.states events

def Dispatch.meets (t : Dispatch) : List DispatchEvent → List (Dispatch × DispatchEvent)
  | [] => []
  | e::events => (t,e)::match t.step e with
    | none => []
    | some u => u.meets events

def called (events : List DispatchEvent) : List (BitVec 32) := events.filterMap DispatchEvent.obj

def Bounded (objects : List (BitVec 32)) (t : Dispatch) : Prop :=
  t.objects.Nodup ∧ t.active.length ≤ objects.dedup.length

-- A call on an active object is on the innermost one.
def Innermost (t : Dispatch) (e : DispatchEvent) : Prop :=
  ∀ obj, e.obj = some obj → obj ∈ t.objects → t.objects.head? = some obj

def Remembers : BitVec 32 → List Activation → Prop
  | obj,[] => obj = 0
  | obj,a::rest => obj = a.obj ∧ Remembers a.prev rest

section Steps
variable {t u : Dispatch} {e : DispatchEvent} {events : List DispatchEvent} {objects : List (BitVec 32)}

theorem remembers_step (remembers : Remembers t.s_active_obj t.active) (step : t.step e = some u) :
    Remembers u.s_active_obj u.active := by
  cases e with
  | call ctx =>
      cases step
      unfold func_00051204
      dsimp only
      split
      · exact remembers
      · exact ⟨rfl,remembers⟩
  | ended =>
      simp only [Dispatch.step,func_00051204_return] at step
      split at step
      · cases step
      · rename_i active
        cases step
        rw [active] at remembers
        exact remembers.2

theorem innermost_remembered (remembers : Remembers t.s_active_obj t.active) (nonzero : obj ≠ 0) :
    t.objects.head? = some obj ↔ obj = t.s_active_obj := by
  unfold Dispatch.objects
  cases active : t.active with
  | nil =>
      rw [active] at remembers
      exact ⟨nofun,fun same => absurd (same.trans remembers) nonzero⟩
  | cons a rest =>
      rw [active] at remembers
      simp [remembers.1,eq_comm]

theorem call_objects (remembers : Remembers t.s_active_obj t.active) (ctx : PpuCtx) (nonzero : low32 (ctx.gpr 4) ≠ 0) :
    (func_00051204 t ctx).1.objects =
      if t.objects.head? = some (low32 (ctx.gpr 4)) then t.objects else low32 (ctx.gpr 4)::t.objects := by
  unfold func_00051204
  dsimp only
  by_cases inner : t.objects.head? = some (low32 (ctx.gpr 4))
  · rw [if_pos inner,if_pos ⟨nonzero,(innermost_remembered remembers nonzero).mp inner⟩]
  · rw [if_neg inner,if_neg fun both => inner ((innermost_remembered remembers nonzero).mpr both.2)]
    rfl

theorem return_objects (step : t.step .ended = some u) : ∃ obj, t.objects = obj::u.objects := by
  simp only [Dispatch.step,func_00051204_return] at step
  split at step
  · cases step
  · rename_i a rest active
    cases step
    exact ⟨a.obj,by rw [Dispatch.objects,active]; rfl⟩

theorem nodup_step (remembers : Remembers t.s_active_obj t.active) (nonzero : e.obj ≠ some 0) (apart : t.objects.Nodup)
    (step : t.step e = some u) : u.objects.Nodup ↔ Innermost t e := by
  cases e with
  | call ctx =>
      have live : low32 (ctx.gpr 4) ≠ 0 := fun zero => nonzero (congrArg some zero)
      cases step
      rw [call_objects remembers ctx live]
      constructor
      · intro kept obj same member
        cases same
        by_contra inner
        rw [if_neg inner] at kept
        exact (List.nodup_cons.mp kept).1 member
      · intro innermost
        split
        · exact apart
        · rename_i other
          exact List.nodup_cons.mpr ⟨fun member => other (innermost _ rfl member),apart⟩
  | ended =>
      obtain ⟨obj,objects⟩ := return_objects step
      rw [objects] at apart
      exact ⟨fun _ => nofun,fun _ => (List.nodup_cons.mp apart).2⟩

theorem subset_step (inside : t.objects ⊆ objects) (here : ∀ obj, e.obj = some obj → obj ∈ objects)
    (remembers : Remembers t.s_active_obj t.active) (nonzero : e.obj ≠ some 0) (step : t.step e = some u) :
    u.objects ⊆ objects := by
  cases e with
  | call ctx =>
      have live : low32 (ctx.gpr 4) ≠ 0 := fun zero => nonzero (congrArg some zero)
      cases step
      rw [call_objects remembers ctx live]
      split
      · exact inside
      · exact List.cons_subset.mpr ⟨here _ rfl,inside⟩
  | ended =>
      obtain ⟨obj,all⟩ := return_objects step
      exact fun o member => inside (all ▸ List.mem_cons_of_mem _ member)

theorem bounded_iff (inside : t.objects ⊆ objects) : Bounded objects t ↔ t.objects.Nodup := by
  refine ⟨And.left,fun apart => ⟨apart,?_⟩⟩
  have size : t.objects.length = t.active.length := List.length_map _
  rw [← size]
  exact (List.subperm_of_subset apart fun o member => List.mem_dedup.mpr (inside member)).length_le

theorem bounded_run (remembers : Remembers t.s_active_obj t.active) (apart : t.objects.Nodup) (inside : t.objects ⊆ objects)
    (nonzero : ∀ e ∈ events, e.obj ≠ some 0) (named : called events ⊆ objects) :
    (∀ u ∈ t.states events, Bounded objects u) ↔ ∀ p ∈ t.meets events, Innermost p.1 p.2 := by
  induction events generalizing t with
  | nil =>
      refine ⟨fun _ => nofun,fun _ u member => ?_⟩
      rw [List.mem_singleton.mp member]
      exact (bounded_iff inside).mpr apart
  | cons e events ih =>
      have here : ∀ obj, e.obj = some obj → obj ∈ objects := fun obj same =>
        named (List.mem_filterMap.mpr ⟨e,List.mem_cons_self,same⟩)
      have later : called events ⊆ objects := fun obj member => by
        obtain ⟨e',inside,same⟩ := List.mem_filterMap.mp member
        exact named (List.mem_filterMap.mpr ⟨e',List.mem_cons_of_mem _ inside,same⟩)
      have first := nonzero e List.mem_cons_self
      rw [Dispatch.states,Dispatch.meets]
      simp only [List.forall_mem_cons]
      cases step : t.step e with
      | none =>
          -- An end without an activation: no call at all.
          cases e with
          | call ctx => cases step
          | ended => exact ⟨fun _ => ⟨nofun,nofun⟩,fun _ => ⟨(bounded_iff inside).mpr apart,nofun⟩⟩
      | some u =>
          have one := nodup_step remembers first apart step
          have within := subset_step inside here remembers first step
          have rest (kept : u.objects.Nodup) := ih (remembers_step remembers step) kept within
            (fun e' member => nonzero e' (List.mem_cons_of_mem _ member)) later
          constructor
          · rintro ⟨_,states⟩
            have kept : u.objects.Nodup := (states u (by cases events <;> exact List.mem_cons_self)).1
            exact ⟨one.mp kept,(rest kept).mp states⟩
          · rintro ⟨innermost,meets⟩
            exact ⟨(bounded_iff inside).mpr apart,(rest (one.mpr innermost)).mpr meets⟩
end Steps

-- One remembered object is enough exactly while no call comes back to an object further out.
theorem recursion_bounded_iff (events : List DispatchEvent) (nonzero : ∀ e ∈ events, e.obj ≠ some 0) :
    (∀ t ∈ Dispatch.idle.states events, Bounded (called events) t) ↔
      ∀ p ∈ Dispatch.idle.meets events, Innermost p.1 p.2 :=
  bounded_run rfl List.nodup_nil (List.nil_subset _) nonzero (List.Subset.refl _)

def call_on (obj : BitVec 64) : DispatchEvent := .call ⟨fun r => if r = 4 then obj else 0,0,0,0,0,0⟩

-- A body on one object calls the function on another, and that body on itself.
def two_objects : List DispatchEvent := [call_on 0xFBD00,call_on 0x300E88,call_on 0x300E88,.ended,.ended]

theorem recursion_bounded_iff_two : (∀ t ∈ Dispatch.idle.states two_objects, Bounded (called two_objects) t) ↔
    ∀ p ∈ Dispatch.idle.meets two_objects, Innermost p.1 p.2 := recursion_bounded_iff two_objects (by decide)

-- Two objects that call each other are active over and over.
theorem cycle_of_two_objects : ¬ ∀ events : List DispatchEvent, (∀ e ∈ events, e.obj ≠ some 0) →
    ∀ t ∈ Dispatch.idle.states events, Bounded (called events) t := by
  intro always
  have bounded := always [call_on 0xFBD00,call_on 0x300E88,call_on 0xFBD00] (by decide)
    ⟨0xFBD00,[⟨0xFBD00,0x300E88⟩,⟨0x300E88,0xFBD00⟩,⟨0xFBD00,0⟩]⟩ (by decide)
  exact absurd bounded.1 (by decide)

end BudokaiRuntime.Ppu
