import Mathlib.Order.Basic

-- Programs as graphs of statements that jump and call, and a dataflow analysis that
-- relates the runs of two of them.
namespace BudokaiRuntime.ProgramGraph

inductive Op (ι τ ℓ : Type) where
  | stmt (i : ι) (next : ℓ)
  | branch (test : τ) (yes no : ℓ)
  | call (entry back : ℓ)
  | ret

def Op.map (f : ι → κ) : Op ι τ ℓ → Op κ τ ℓ
  | .stmt i next => .stmt (f i) next
  | .branch test yes no => .branch test yes no
  | .call entry back => .call entry back
  | .ret => .ret

-- `at_` is `none` once the outermost function has returned.
structure Config (ℓ σ : Type) where
  at_ : Option ℓ
  stack : List ℓ
  state : σ

section Runs
variable (exec : ι → σ → Option σ) (holds : τ → σ → Bool) (prog : ℓ → Op ι τ ℓ)

def step (c : Config ℓ σ) : Option (Config ℓ σ) :=
  match c.at_ with
  | none => some c
  | some l => match prog l with
    | .stmt i next => (exec i c.state).map fun s => ⟨some next,c.stack,s⟩
    | .branch test yes no => some ⟨some (if holds test c.state then yes else no),c.stack,c.state⟩
    | .call entry back => some ⟨some entry,back::c.stack,c.state⟩
    | .ret => some ⟨c.stack.head?,c.stack.tail,c.state⟩

def run : Nat → Config ℓ σ → Option (Config ℓ σ)
  | 0,c => some c
  | n+1,c => (step exec holds prog c).bind (run n)
end Runs

-- What is known where a label is reached, and where the function it lies in returns.
structure Certificate (ℓ Fact : Type) where
  here : ℓ → Fact
  leaves : ℓ → Fact

section Analysis
variable {Fact : Type} [Preorder Fact] (transfer : Fact → ι → Option Fact) (cert : Certificate ℓ Fact)

def Certificate.Edge (φ : Fact) (l next : ℓ) : Prop := φ ≤ cert.here next ∧ cert.leaves next ≤ cert.leaves l

def Certificate.Fits (l : ℓ) : Op ι τ ℓ → Prop
  | .stmt i next => ∃ φ, transfer (cert.here l) i = some φ ∧ cert.Edge φ l next
  | .branch _ yes no => cert.Edge (cert.here l) l yes ∧ cert.Edge (cert.here l) l no
  | .call entry back => cert.here l ≤ cert.here entry ∧ cert.Edge (cert.leaves entry) l back
  | .ret => cert.here l ≤ cert.leaves l

def Certificate.Checks (prog : ℓ → Op ι τ ℓ) : Prop := ∀ l, cert.Fits transfer l (prog l)

def Certificate.Stacked (done : Fact) : ℓ → List ℓ → Prop
  | l,[] => cert.leaves l ≤ done
  | l,b::rest => cert.leaves l ≤ cert.here b ∧ Certificate.Stacked done b rest

instance [DecidableLE Fact] (φ : Fact) (l next : ℓ) : Decidable (cert.Edge φ l next) :=
  inferInstanceAs (Decidable (_ ≤ _ ∧ _ ≤ _))

instance (transfer : Fact → ι → Option Fact) [DecidableLE Fact] (l : ℓ) (op : Op ι τ ℓ) :
    Decidable (cert.Fits transfer l op) :=
  match op with
  | .stmt i next => decidable_of_iff (∃ φ, φ ∈ transfer (cert.here l) i ∧ cert.Edge φ l next) Iff.rfl
  | .branch _ yes no => inferInstanceAs (Decidable (cert.Edge (cert.here l) l yes ∧ cert.Edge (cert.here l) l no))
  | .call entry back => inferInstanceAs (Decidable (_ ≤ _ ∧ cert.Edge (cert.leaves entry) l back))
  | .ret => inferInstanceAs (Decidable (_ ≤ _))

variable {transfer} {cert}

theorem stacked_lower (lower : cert.leaves next ≤ cert.leaves l) (stacked : cert.Stacked done l stack) :
    cert.Stacked done next stack := by
  cases stack with
  | nil => exact lower.trans stacked
  | cons b rest => exact ⟨lower.trans stacked.1,stacked.2⟩
end Analysis

inductive Both (P : α → β → Prop) : Option α → Option β → Prop
  | stops : Both P none none
  | arrives : P x y → Both P (some x) (some y)

theorem both_some {P : α → β → Prop} (both : Both P (some x) v) : ∃ y, v = some y ∧ P x y := by
  cases both with
  | arrives related => exact ⟨_,rfl,related⟩

theorem both_bind {P : α → β → Prop} {Q : γ → δ → Prop} {f : α → Option γ} {g : β → Option δ} (both : Both P u v)
    (next : ∀ x y, P x y → Both Q (f x) (g y)) : Both Q (u.bind f) (v.bind g) := by
  cases both with
  | stops => exact .stops
  | arrives related => exact next _ _ related

theorem both_map {P : α → β → Prop} {Q : γ → δ → Prop} {f : α → γ} {g : β → δ} (both : Both P u v)
    (next : ∀ x y, P x y → Q (f x) (g y)) : Both Q (u.map f) (v.map g) := by
  cases both with
  | stops => exact .stops
  | arrives related => exact .arrives (next _ _ related)

theorem both_mono {P Q : α → β → Prop} (both : Both P u v) (next : ∀ x y, P x y → Q x y) : Both Q u v := by
  cases both with
  | stops => exact .stops
  | arrives related => exact .arrives (next _ _ related)

theorem both_trans {P : α → β → Prop} {Q : β → γ → Prop} {R : α → γ → Prop} (one : Both P u v) (two : Both Q v w)
    (next : ∀ x y z, P x y → Q y z → R x z) : Both R u w := by
  cases one with
  | stops =>
      cases two with
      | stops => exact .stops
  | arrives first =>
      cases two with
      | arrives second => exact .arrives (next _ _ _ first second)

-- Related where they stand, and free to return related all the way up.
structure Related {Fact : Type} [Preorder Fact] (cert : Certificate ℓ Fact) (R : Fact → σ → σ → Prop) (done : Fact)
    (c d : Config ℓ σ) : Prop where
  place : d.at_ = c.at_
  stack : d.stack = c.stack
  frames : ∀ l, c.at_ = some l → cert.Stacked done l c.stack
  here : ∀ l, c.at_ = some l → R (cert.here l) c.state d.state
  left : c.at_ = none → c.stack = [] ∧ R done c.state d.state

section Simulation
variable {Fact : Type} [Preorder Fact] {transfer : Fact → ι → Option Fact} {cert : Certificate ℓ Fact}
  {R : Fact → σ → σ → Prop} {exec : ι → σ → Option σ} {exec' : κ → σ → Option σ} {holds : τ → σ → Bool}
  {prog : ℓ → Op ι τ ℓ} {f : ι → κ}

structure Sound (R : Fact → σ → σ → Prop) (transfer : Fact → ι → Option Fact) (exec : ι → σ → Option σ)
    (exec' : κ → σ → Option σ) (holds : τ → σ → Bool) (f : ι → κ) : Prop where
  weaken : ∀ φ ψ s t, φ ≤ ψ → R φ s t → R ψ s t
  tests : ∀ φ test s t, R φ s t → holds test t = holds test s
  statement : ∀ φ ψ i s t, transfer φ i = some ψ → R φ s t → Both (R ψ) (exec i s) (exec' (f i) t)

theorem related_edge (sound : Sound R transfer exec exec' holds f) {s t : σ}
    (frames : cert.Stacked done l stack) (edge : cert.Edge φ l next) (related : R φ s t) :
    Related cert R done ⟨some next,stack,s⟩ ⟨some next,stack,t⟩ where
  place := rfl
  stack := rfl
  frames m at_ := by
    cases at_
    exact stacked_lower edge.2 frames
  here m at_ := by
    cases at_
    exact sound.weaken _ _ _ _ edge.1 related
  left at_ := nomatch at_

theorem related_return (sound : Sound R transfer exec exec' holds f) {s t : σ} (frames : cert.Stacked done l stack)
    (related : R (cert.leaves l) s t) :
    Related cert R done ⟨stack.head?,stack.tail,s⟩ ⟨stack.head?,stack.tail,t⟩ := by
  cases stack with
  | nil => exact ⟨rfl,rfl,nofun,nofun,fun _ => ⟨rfl,sound.weaken _ _ _ _ frames related⟩⟩
  | cons b rest =>
      refine ⟨rfl,rfl,?_,?_,nofun⟩
      · rintro m ⟨⟩
        exact frames.2
      · rintro m ⟨⟩
        exact sound.weaken _ _ _ _ frames.1 related

theorem related_step (sound : Sound R transfer exec exec' holds f) (checks : cert.Checks transfer prog)
    {c d : Config ℓ σ} (related : Related cert R done c d) :
    Both (Related cert R done) (step exec holds prog c) (step exec' holds (fun l => (prog l).map f) d) := by
  obtain ⟨at_,stack,s⟩ := c
  obtain ⟨d_at,d_stack,t⟩ := d
  obtain rfl : d_at = at_ := related.place
  obtain rfl : d_stack = stack := related.stack
  cases d_at with
  | none => exact .arrives related
  | some l =>
      have fits := checks l
      have frames : cert.Stacked done l d_stack := related.frames l rfl
      have here : R (cert.here l) s t := related.here l rfl
      unfold step
      cases shape : prog l with
      | stmt i next =>
          rw [shape] at fits
          obtain ⟨φ,transferred,edge⟩ := fits
          simp only [shape,Op.map]
          exact both_map (sound.statement _ φ i s t transferred here) fun _ _ => related_edge sound frames edge
      | branch test yes no =>
          rw [shape] at fits
          simp only [shape,Op.map,sound.tests _ test s t here]
          refine .arrives ?_
          split
          · exact related_edge sound frames fits.1 here
          · exact related_edge sound frames fits.2 here
      | call entry back =>
          rw [shape] at fits
          obtain ⟨enters,edge⟩ := fits
          simp only [shape,Op.map]
          refine .arrives ⟨rfl,rfl,?_,?_,nofun⟩
          · rintro m ⟨⟩
            exact ⟨edge.1,stacked_lower edge.2 frames⟩
          · rintro m ⟨⟩
            exact sound.weaken _ _ _ _ enters here
      | ret =>
          rw [shape] at fits
          simp only [shape,Op.map]
          exact .arrives (related_return sound frames (sound.weaken _ _ _ _ fits here))

-- The two programs stay side by side, call for call and jump for jump.
theorem related_run (sound : Sound R transfer exec exec' holds f) (checks : cert.Checks transfer prog) (n : Nat)
    {c d : Config ℓ σ} (related : Related cert R done c d) :
    Both (Related cert R done) (run exec holds prog n c) (run exec' holds (fun l => (prog l).map f) n d) := by
  induction n generalizing c d with
  | zero => exact .arrives related
  | succ n ih => exact both_bind (related_step sound checks related) fun _ _ next => ih next

theorem related_enter (l : ℓ) {s t : σ} (start : R (cert.here l) s t) :
    Related cert R (cert.leaves l) ⟨some l,[],s⟩ ⟨some l,[],t⟩ where
  place := rfl
  stack := rfl
  frames m at_ := by
    cases at_
    exact le_refl (cert.leaves l)
  here m at_ := by
    cases at_
    exact start
  left at_ := nomatch at_
end Simulation

end BudokaiRuntime.ProgramGraph
