import Mathlib.Algebra.Order.Ring.Nat
import Mathlib.Logic.Relation
import Mathlib.Data.Fintype.EquivFin

-- `while` loops whose body may leave: `none` is the exit, and the loop returns the
-- state in which the body exits. Nothing bounds the number of rounds.
namespace BudokaiRuntime.PartialLoop
open Relation

def loop (body : σ → Option σ) : Nat → σ → Option σ
  | 0,_ => none
  | fuel+1,s => match body s with
    | none => some s
    | some t => loop body fuel t

def Moves (body : σ → Option σ) (s t : σ) : Prop := body s = some t

def Exits (body : σ → Option σ) (s final : σ) : Prop := ReflTransGen (Moves body) s final ∧ body final = none

def Terminates (body : σ → Option σ) (s : σ) : Prop := ∃ fuel final, loop body fuel s = some final

variable {body : σ → Option σ}

theorem loop_exits : (∃ fuel, loop body fuel s = some final) ↔ Exits body s final := by
  constructor
  · rintro ⟨fuel,done⟩
    induction fuel generalizing s with
    | zero => cases done
    | succ fuel ih =>
        unfold loop at done
        split at done
        · rename_i exit
          cases done
          exact ⟨.refl,exit⟩
        · rename_i t moved
          obtain ⟨path,exit⟩ := ih done
          exact ⟨.head moved path,exit⟩
  · rintro ⟨path,exit⟩
    induction path using ReflTransGen.head_induction_on with
    | refl => exact ⟨1,by rw [loop,exit]⟩
    | head moved _ ih =>
        obtain ⟨fuel,done⟩ := ih
        exact ⟨fuel+1,by rw [loop,moved]; exact done⟩

theorem loop_more (done : loop body n s = some final) (more : n ≤ m) : loop body m s = some final := by
  induction n generalizing s m with
  | zero => cases done
  | succ n ih =>
      obtain ⟨k,rfl⟩ : ∃ k, m = k+1 := ⟨m-1,by omega⟩
      unfold loop at done ⊢
      cases moved : body s with
      | none =>
          rw [moved] at done
          exact done
      | some t =>
          rw [moved] at done
          exact ih done (by omega)

theorem terminates_exits : Terminates body s ↔ ∃ final, Exits body s final := by
  constructor
  · rintro ⟨fuel,final,done⟩
    exact ⟨final,loop_exits.mp ⟨fuel,done⟩⟩
  · rintro ⟨final,exits⟩
    obtain ⟨fuel,done⟩ := loop_exits.mpr exits
    exact ⟨fuel,final,done⟩

theorem Exits.forward (exits : Exits body s final) (path : ReflTransGen (Moves body) s t) :
    Exits body t final := by
  induction path with
  | refl => exact exits
  | @tail t u _ moved ih =>
      obtain ⟨rest,exit⟩ := ih
      rcases ReflTransGen.cases_head rest with equal | ⟨v,first,rest⟩
      · subst equal
        rw [moved] at exit
        cases exit
      · cases Option.some.inj (first.symm.trans moved)
        exact ⟨rest,exit⟩

theorem Exits.backward (exits : Exits body t final) (path : ReflTransGen (Moves body) s t) :
    Exits body s final := ⟨path.trans exits.1,exits.2⟩

theorem exits_unique (one : Exits body s final) (two : Exits body s other) : final = other := by
  obtain ⟨rest,_⟩ := one.forward two.1
  rcases ReflTransGen.cases_head rest with equal | ⟨v,first,_⟩
  · exact equal.symm
  · rw [Moves,two.2] at first
    cases first

theorem exits_step (moved : body s = some t) : Exits body s final ↔ Exits body t final :=
  ⟨fun exits => exits.forward (.single moved),fun exits => exits.backward (.single moved)⟩

theorem Exits.invariant (exits : Exits body s final) (invariant : σ → Prop)
    (keep : ∀ s t, invariant s → body s = some t → invariant t) (start : invariant s) : invariant final := by
  have path := exits.1
  clear exits
  induction path with
  | refl => exact start
  | tail _ moved ih => exact keep _ _ ih moved

theorem Exits.acyclic (exits : Exits body s final) : ¬ TransGen (Moves body) s s := by
  obtain ⟨path,exit⟩ := exits
  induction path using ReflTransGen.head_induction_on with
  | refl =>
      intro cycle
      obtain ⟨t,moved,_⟩ := TransGen.head'_iff.mp cycle
      rw [Moves,exit] at moved
      cases moved
  | head moved _ ih =>
      intro cycle
      obtain ⟨t,first,back⟩ := TransGen.head'_iff.mp cycle
      cases Option.some.inj (first.symm.trans moved)
      exact ih (.tail' back moved)

-- On finitely many states a loop runs on exactly when it meets a state again.
theorem terminates_iff_acyclic [Finite σ] :
    Terminates body s ↔ ∀ t, ReflTransGen (Moves body) s t → ¬ TransGen (Moves body) t t := by
  rw [terminates_exits]
  constructor
  · rintro ⟨final,exits⟩ t path
    exact (exits.forward path).acyclic
  · intro acyclic
    -- Well-founded induction on the reachable states, along the steps.
    let Reached := {t // ReflTransGen (Moves body) s t}
    let later : Reached → Reached → Prop := fun b a => TransGen (Moves body) a.1 b.1
    have : IsTrans Reached later := ⟨fun _ _ _ one two => two.trans one⟩
    have : Std.Irrefl later := ⟨fun t cycle => acyclic t.1 t.2 cycle⟩
    have founded : WellFounded later := Finite.wellFounded_of_trans_of_irrefl later
    have all : ∀ t : Reached, ∃ final, Exits body t.1 final := by
      intro t
      induction t using founded.induction with
      | _ t ih =>
          cases moved : body t.1 with
          | none => exact ⟨t.1,.refl,moved⟩
          | some u =>
              obtain ⟨final,exits⟩ := ih ⟨u,t.2.tail moved⟩ (.single moved)
              exact ⟨final,(exits_step moved).mpr exits⟩
    exact all ⟨s,.refl⟩

-- A loop whose control depends on part of its state only.
section Projection
variable {small : τ → Option τ} (view : σ → τ) (follows : ∀ s, (body s).map view = small (view s))
include follows

theorem moves_project (moved : Moves body s t) : Moves small (view s) (view t) := by
  rw [Moves,← follows,moved,Option.map_some]

theorem project_moves (moved : Moves small (view s) v) : ∃ t, Moves body s t ∧ view t = v := by
  rw [Moves,← follows] at moved
  exact Option.map_eq_some_iff.mp moved

theorem exits_project (exits : Exits body s final) : Exits small (view s) (view final) := by
  obtain ⟨path,exit⟩ := exits
  refine ⟨path.lift view fun _ _ => moves_project view follows,?_⟩
  rw [← follows,exit,Option.map_none]

theorem project_exits (exits : Exits small (view s) last) : ∃ final, Exits body s final ∧ view final = last := by
  obtain ⟨path,exit⟩ := exits
  generalize same : view s = v at path
  induction path using ReflTransGen.head_induction_on generalizing s with
  | refl =>
      rw [← same,← follows,Option.map_eq_none_iff] at exit
      exact ⟨s,⟨.refl,exit⟩,same⟩
  | head moved _ ih =>
      subst same
      obtain ⟨t,step,seen⟩ := project_moves view follows moved
      obtain ⟨final,exits,reached⟩ := ih seen
      exact ⟨final,(exits_step step).mpr exits,reached⟩

theorem terminates_project : Terminates body s ↔ Terminates small (view s) := by
  rw [terminates_exits,terminates_exits]
  constructor
  · rintro ⟨final,exits⟩
    exact ⟨view final,exits_project view follows exits⟩
  · rintro ⟨last,exits⟩
    obtain ⟨final,exits,_⟩ := project_exits view follows exits
    exact ⟨final,exits⟩
end Projection

end BudokaiRuntime.PartialLoop
