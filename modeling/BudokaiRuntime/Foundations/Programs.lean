import Mathlib.Algebra.Order.Ring.Nat

-- Programs over a state, `none` when they have not returned within their fuel, and
-- the rules of their pre- and postconditions.
namespace BudokaiRuntime.Programs

def seq (p q : σ → Option σ) (s : σ) : Option σ := (p s).bind q

def when_ (test : σ → Bool) (p : σ → Option σ) (s : σ) : Option σ := if test s then p s else some s

-- `do body while (again)`
def do_while (body : σ → Option σ) (again : σ → Bool) : Nat → σ → Option σ
  | 0,_ => none
  | fuel+1,s => (body s).bind fun t => if again t then do_while body again fuel t else some t

def block : List (σ → Option σ) → σ → Option σ
  | [],s => some s
  | p::rest,s => (p s).bind (block rest)

theorem when_take {p : σ → Option σ} {test : σ → Bool} (yes : test s = true) : when_ test p s = p s := if_pos yes

theorem when_skip {p : σ → Option σ} {test : σ → Bool} (no : test s = false) : when_ test p s = some s :=
  if_neg (Bool.eq_false_iff.mp no)

theorem block_nil : block [] s = some t ↔ s = t := Option.some_inj

theorem block_cons {p : σ → Option σ} : block (p::rest) s = some u ↔ ∃ t, p s = some t ∧ block rest t = some u :=
  Option.bind_eq_some_iff

theorem block_append (ps qs : List (σ → Option σ)) : block (ps ++ qs) = seq (block ps) (block qs) := by
  induction ps with
  | nil => rfl
  | cons p rest ih =>
      funext s
      show (p s).bind (block (rest ++ qs)) = ((p s).bind (block rest)).bind (block qs)
      rw [ih,Option.bind_assoc]
      rfl

def Triple (before : σ → Prop) (p : σ → Option σ) (after : σ → Prop) : Prop :=
  ∀ s t, before s → p s = some t → after t

section Rules
variable {before middle after : σ → Prop} {p q body : σ → Option σ} {test again : σ → Bool}

theorem triple_seq (first : Triple before p middle) (second : Triple middle q after) :
    Triple before (seq p q) after := by
  intro s u start ran
  obtain ⟨t,one,two⟩ := Option.bind_eq_some_iff.mp ran
  exact second t u (first s t start one) two

theorem triple_when (taken : Triple (fun s => before s ∧ test s = true) p after)
    (skipped : ∀ s, before s → test s = false → after s) : Triple before (when_ test p) after := by
  intro s t start ran
  unfold when_ at ran
  split at ran
  · rename_i yes
    exact taken s t ⟨start,yes⟩ ran
  · rename_i no
    cases ran
    exact skipped s start (Bool.eq_false_iff.mpr no)

theorem triple_do_while (round : Triple before body middle) (repeats : ∀ s, middle s → again s = true → before s)
    (leaves : ∀ s, middle s → again s = false → after s) : Triple before (do_while body again fuel) after := by
  induction fuel with
  | zero =>
      intro s t _ ran
      cases ran
  | succ fuel ih =>
      intro s u start ran
      obtain ⟨t,one,rest⟩ := Option.bind_eq_some_iff.mp ran
      have reached := round s t start one
      split at rest
      · rename_i yes
        exact ih t u (repeats t reached yes) rest
      · rename_i no
        cases rest
        exact leaves _ reached (Bool.eq_false_iff.mpr no)

theorem triple_nil : Triple before (block []) before := by
  intro s t start ran
  cases ran
  exact start

theorem triple_cons {rest : List (σ → Option σ)} (first : Triple before p middle)
    (second : Triple middle (block rest) after) : Triple before (block (p::rest)) after :=
  triple_seq first second

theorem triple_mono (triple : Triple before p after) (stronger : ∀ s, first s → before s)
    (weaker : ∀ s, after s → last s) : Triple first p last :=
  fun s t start ran => weaker t (triple s t (stronger s start) ran)
end Rules

def Total (before : σ → Prop) (p : σ → Option σ) (after : σ → Prop) : Prop :=
  ∀ s, before s → ∃ t, p s = some t ∧ after t

section TotalRules
variable {before middle after : σ → Prop} {p : σ → Option σ}

theorem total_triple (returns : ∀ s, before s → ∃ t, p s = some t) (triple : Triple before p after) :
    Total before p after := by
  intro s start
  obtain ⟨t,ran⟩ := returns s start
  exact ⟨t,ran,triple s t start ran⟩

theorem total_mono (total : Total before p after) (stronger : ∀ s, first s → before s) (weaker : ∀ s, after s → last s) :
    Total first p last := by
  intro s start
  obtain ⟨t,ran,reached⟩ := total s (stronger s start)
  exact ⟨t,ran,weaker t reached⟩

theorem total_nil : Total before (block []) before := fun s start => ⟨s,rfl,start⟩

theorem total_cons {rest : List (σ → Option σ)} (first : Total before p middle)
    (second : Total middle (block rest) after) : Total before (block (p::rest)) after := by
  intro s start
  obtain ⟨t,one,reached⟩ := first s start
  obtain ⟨u,two,done⟩ := second t reached
  exact ⟨u,block_cons.mpr ⟨t,one,two⟩,done⟩
end TotalRules

inductive Loops (body : σ → Option σ) (again : σ → Bool) : σ → σ → Prop
  | last : body s = some t → again t = false → Loops body again s t
  | round : body s = some u → again u = true → Loops body again u t → Loops body again s t

theorem do_while_loops {body : σ → Option σ} {again : σ → Bool} (ran : do_while body again fuel s = some t) :
    Loops body again s t := by
  induction fuel generalizing s with
  | zero => cases ran
  | succ fuel ih =>
      obtain ⟨u,one,rest⟩ := Option.bind_eq_some_iff.mp ran
      split at rest
      · rename_i yes
        exact .round one yes (ih rest)
      · rename_i no
        cases rest
        exact .last one (Bool.eq_false_iff.mpr no)

theorem loops_do_while {body : σ → Option σ} {again : σ → Bool} (loops : Loops body again s t) :
    ∃ fuel, do_while body again fuel s = some t := by
  induction loops with
  | last one no => exact ⟨1,by simp [do_while,one,no]⟩
  | round one yes _ ih =>
      obtain ⟨fuel,rest⟩ := ih
      exact ⟨fuel+1,by simp [do_while,one,yes,rest]⟩

theorem do_while_items {body : σ → Option σ} {again : σ → Bool} (inv : List ι → σ → Prop)
    (round : ∀ i rest s, inv (i::rest) s → ∃ t, body s = some t ∧ inv rest t ∧ (again t = true ↔ rest ≠ []))
    (items : List ι) (some_left : items ≠ []) (enough : items.length ≤ fuel) (start : inv items s) :
    ∃ t, do_while body again fuel s = some t ∧ inv [] t := by
  induction items generalizing fuel s with
  | nil => exact absurd rfl some_left
  | cons i rest ih =>
      obtain ⟨fuel,rfl⟩ : ∃ k, fuel = k+1 := ⟨fuel-1,by rw [List.length_cons] at enough; omega⟩
      obtain ⟨t,one,held,goes⟩ := round i rest s start
      rw [do_while,one,Option.bind_some]
      by_cases last : rest = []
      · subst last
        rw [if_neg fun yes => goes.mp yes rfl]
        exact ⟨t,rfl,held⟩
      · rw [if_pos (goes.mpr last)]
        exact ih last (Nat.le_of_succ_le_succ enough) held

def Projects (proj : σ → τ) (p : σ → Option σ) (q : τ → Option τ) : Prop := ∀ s, q (proj s) = (p s).map proj

section Projections
variable {proj : σ → τ} {p : σ → Option σ} {q : τ → Option τ} {test : σ → Bool} {test' : τ → Bool}

theorem projects_when (same : ∀ s, test' (proj s) = test s) (projects : Projects proj p q) :
    Projects proj (when_ test p) (when_ test' q) := by
  intro s
  unfold when_
  rw [same]
  split
  · exact projects s
  · rfl

theorem projects_do_while (same : ∀ s, test' (proj s) = test s) (projects : Projects proj p q) :
    Projects proj (do_while p test fuel) (do_while q test' fuel) := by
  induction fuel with
  | zero => exact fun _ => rfl
  | succ fuel ih =>
      intro s
      rw [do_while,do_while,projects s]
      cases p s with
      | none => rfl
      | some t =>
          simp only [Option.map_some,Option.bind_some,same]
          split
          · exact ih t
          · rfl

theorem projects_nil : Projects proj (block []) (block []) := fun _ => rfl

theorem projects_cons {ps : List (σ → Option σ)} {qs : List (τ → Option τ)} (first : Projects proj p q)
    (rest : Projects proj (block ps) (block qs)) : Projects proj (block (p::ps)) (block (q::qs)) := by
  intro s
  rw [block,block,first s]
  cases p s with
  | none => rfl
  | some t => exact rest t
end Projections

def Grows (p : Nat → σ → Option σ) : Prop := ∀ n m s t, n ≤ m → p n s = some t → p m s = some t

section Fuel
variable {p q body : Nat → σ → Option σ} {test again : σ → Bool}

theorem grows_seq (first : Grows p) (second : Grows q) : Grows fun n => seq (p n) (q n) := by
  intro n m s u more ran
  obtain ⟨t,one,two⟩ := Option.bind_eq_some_iff.mp ran
  exact Option.bind_eq_some_iff.mpr ⟨t,first n m s t more one,second n m t u more two⟩

theorem grows_when (grows : Grows p) : Grows fun n => when_ test (p n) := by
  intro n m s t more ran
  simp only [when_] at ran ⊢
  split at ran
  · rename_i yes
    rw [if_pos yes]
    exact grows n m s t more ran
  · rename_i no
    rw [if_neg no]
    exact ran

theorem do_while_more {p q : σ → Option σ} (returns : ∀ s t, p s = some t → q s = some t) (more : k ≤ l)
    (ran : do_while p again k s = some u) : do_while q again l s = some u := by
  induction k generalizing l s with
  | zero => cases ran
  | succ k ih =>
      obtain ⟨t,one,rest⟩ := Option.bind_eq_some_iff.mp ran
      obtain ⟨l,rfl⟩ : ∃ m, l = m+1 := ⟨l-1,by omega⟩
      refine Option.bind_eq_some_iff.mpr ⟨t,returns s t one,?_⟩
      split at rest
      · rename_i yes
        rw [if_pos yes]
        exact ih (by omega) rest
      · rename_i no
        rw [if_neg no]
        exact rest

theorem grows_do_while (grows : Grows body) : Grows fun n => do_while (body n) again n :=
  fun n m _ _ more ran => do_while_more (fun s t one => grows n m s t more one) more ran

theorem grows_nil : Grows fun _ => block ([] : List (σ → Option σ)) := fun _ _ _ _ _ ran => ran

theorem grows_cons {rest : Nat → List (σ → Option σ)} (first : Grows p) (second : Grows fun n => block (rest n)) :
    Grows fun n => block (p n::rest n) := grows_seq first second
end Fuel

end BudokaiRuntime.Programs
