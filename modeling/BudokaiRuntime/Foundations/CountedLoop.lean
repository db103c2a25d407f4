import Mathlib.Algebra.Order.Ring.Nat
import Mathlib.Logic.Basic

namespace BudokaiRuntime.CountedLoop

-- `for (int i = 0; i < n; i++)` over an explicit state is `Fin.foldl n`.
theorem foldl_invariant (invariant : Nat → σ → Prop) (n : Nat) (body : σ → Fin n → σ)
    (start : invariant 0 s) (step : ∀ (i : Fin n) t, invariant i t → invariant (i+1) (body t i)) :
    invariant n (Fin.foldl n body s) := by
  induction n with
  | zero => simpa using start
  | succ n ih =>
      rw [Fin.foldl_succ_last]
      exact step (Fin.last n) _ (ih (fun t i => body t i.castSucc) fun i t held => step i.castSucc t held)

theorem foldl_single (view : σ → β) (body : σ → Fin n → σ) (i : Fin n) (s : σ) (v : β)
    (others : ∀ t j, j ≠ i → view (body t j) = view t) (own : ∀ t, view t = view s → view (body t i) = v) :
    view (Fin.foldl n body s) = v := by
  have done := foldl_invariant (s:=s) (fun k t => view t = if i.val < k then v else view s) n body (by simp) (by
    intro j t held
    by_cases same : j = i
    · subst same
      rw [if_pos (Nat.lt_succ_self _)]
      exact own t (by simpa using held)
    · have different : j.val ≠ i.val := fun h => same (Fin.ext h)
      rw [others t j same,held]
      by_cases before : i.val < j.val
      · rw [if_pos before,if_pos (by omega)]
      · rw [if_neg before,if_neg (by omega)])
  rw [done,if_pos i.isLt]

theorem foldl_untouched (view : σ → β) (body : σ → Fin n → σ) (s : σ) (others : ∀ t j, view (body t j) = view t) :
    view (Fin.foldl n body s) = view s :=
  foldl_invariant (fun _ t => view t = view s) n body rfl fun j t held => (others t j).trans held

theorem foldl_related (related : σ → τ → Prop) (n : Nat) (body : σ → Fin n → σ) (body' : τ → Fin n → τ)
    (start : related s t) (step : ∀ i s t, related s t → related (body s i) (body' t i)) :
    related (Fin.foldl n body s) (Fin.foldl n body' t) := by
  induction n with
  | zero => simpa using start
  | succ n ih =>
      rw [Fin.foldl_succ_last,Fin.foldl_succ_last]
      refine step (Fin.last n) _ _ (ih (fun s i => body s i.castSucc) (fun t i => body' t i.castSucc) ?_)
      intro i s t held
      exact step i.castSucc s t held

-- An in-place element loop writes cell `i` in iteration `i` and reads, besides
-- whatever the loop never writes (`frame`), only the cell it is about to write.
-- Then every cell ends as the value computed from the state before the loop.
section InPlace
variable (get : σ → Fin n → α) (set : σ → Fin n → α → σ) (frame : σ → β)

theorem inplace_frame (keep : ∀ t i a, frame (set t i a) = frame t) (value : σ → Fin n → α) (s : σ) :
    frame (Fin.foldl n (fun t i => set t i (value t i)) s) = frame s :=
  foldl_untouched frame _ s fun t i => keep t i _

theorem inplace_cells (hit : ∀ t i a, get (set t i a) i = a)
    (miss : ∀ t i j a, i ≠ j → get (set t i a) j = get t j)
    (keep : ∀ t i a, frame (set t i a) = frame t) (value : σ → Fin n → α)
    (isolated : ∀ i s t, get s i = get t i → frame s = frame t → value s i = value t i)
    (s : σ) (j : Fin n) :
    get (Fin.foldl n (fun t i => set t i (value t i)) s) j = value s j := by
  -- After `k` iterations the cells below `k` are done and the others untouched.
  have done := foldl_invariant (s:=s) (fun k t => frame t = frame s ∧
      ∀ j : Fin n, get t j = if j.val < k then value s j else get s j) n
      (fun t i => set t i (value t i)) ⟨rfl,by simp⟩ (by
    rintro i t ⟨framed,cells⟩
    refine ⟨(keep t i _).trans framed,?_⟩
    intro j
    by_cases equal : i = j
    · subst equal
      have untouched : get t i = get s i := by simpa using cells i
      rw [hit,if_pos (Nat.lt_succ_self _)]
      exact isolated i t s untouched framed
    · have different : i.val ≠ j.val := fun h => equal (Fin.ext h)
      rw [miss t i j _ equal,cells j]
      by_cases below : j.val < i.val
      · rw [if_pos below,if_pos (by omega)]
      · rw [if_neg below,if_neg (by omega)])
  rw [done.2 j,if_pos j.isLt]
end InPlace

end BudokaiRuntime.CountedLoop
