import Mathlib.Logic.Basic

-- Lists of events that take a state to the next, `none` where an event is undefined, and
-- statements about every event met on the way.
namespace BudokaiRuntime.EventRuns

def run (apply : σ → ε → Option σ) (s : σ) (events : List ε) : Option σ := events.foldlM apply s

def Along (apply : σ → ε → Option σ) (holds : σ → ε → Prop) : σ → List ε → Prop
  | _,[] => True
  | s,e::events => holds s e ∧ ∀ next, apply s e = some next → Along apply holds next events

section Rules
variable {apply : σ → ε → Option σ} {holds other : σ → ε → Prop} {inv : σ → Prop}

theorem along_congr (keeps : ∀ s e next, inv s → apply s e = some next → inv next)
    (same : ∀ s e, inv s → (holds s e ↔ other s e)) (s : σ) (start : inv s) (events : List ε) :
    Along apply holds s events ↔ Along apply other s events := by
  induction events generalizing s with
  | nil => exact Iff.rfl
  | cons e events ih =>
      exact and_congr (same s e start) (forall₂_congr fun next ran => ih next (keeps s e next start ran))

theorem run_defined_iff (defined : ∀ s e, (∃ next, apply s e = some next) ↔ holds s e) (s : σ) (events : List ε) :
    (∃ final, run apply s events = some final) ↔ Along apply holds s events := by
  induction events generalizing s with
  | nil => exact iff_of_true ⟨s,rfl⟩ trivial
  | cons e events ih =>
      rw [Along,← defined,run,List.foldlM_cons]
      constructor
      · rintro ⟨final,ran⟩
        obtain ⟨next,one,rest⟩ := Option.bind_eq_some_iff.mp ran
        refine ⟨⟨next,one⟩,fun other same => ?_⟩
        rw [← Option.some.inj (one.symm.trans same)]
        exact (ih next).mp ⟨final,rest⟩
      · rintro ⟨⟨next,one⟩,along⟩
        rw [one]
        exact (ih next).mpr (along next one)

theorem along_reached (s t : σ) (before after : List ε) (e : ε) (along : Along apply holds s (before ++ e::after))
    (ran : run apply s before = some t) : holds t e := by
  induction before generalizing s with
  | nil =>
      cases ran
      exact along.1
  | cons first before ih =>
      obtain ⟨next,one,rest⟩ := Option.bind_eq_some_iff.mp ((List.foldlM_cons (m:=Option)).symm.trans ran)
      exact ih next (along.2 next one) rest

end Rules

end BudokaiRuntime.EventRuns
