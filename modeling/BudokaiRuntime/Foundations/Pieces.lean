import Mathlib.Algebra.Order.Ring.Nat
import Mathlib.Data.List.Range

-- Lists put together from pieces, compared piece by piece.
namespace BudokaiRuntime.Pieces

theorem flatMap_pieces (f g : α → List β) (xs : List α) (sizes : ∀ x ∈ xs, (f x).length = (g x).length)
    (same : xs.flatMap f = xs.flatMap g) : ∀ x ∈ xs, f x = g x := by
  induction xs with
  | nil =>
      intro x member
      cases member
  | cons y ys ih =>
      rw [List.flatMap_cons,List.flatMap_cons] at same
      obtain ⟨front,back⟩ := List.append_inj same (sizes y List.mem_cons_self)
      intro x member
      rcases List.mem_cons.mp member with rfl | later
      · exact front
      · exact ih (fun z there => sizes z (List.mem_cons_of_mem y there)) back x later

-- One sequence against the pieces of another, each compared from where the pieces before it end.
theorem range_pieces_iff (f : Nat → β) (size : α → Nat) (piece : α → Nat → β) (start : Nat) (xs : List α) :
    (List.range' start (xs.map size).sum).map f = xs.flatMap (fun x => (List.range (size x)).map (piece x)) ↔
      ∀ before x rest, xs = before++x::rest → ∀ j < size x, f (start+(before.map size).sum+j) = piece x j := by
  induction xs generalizing start with
  | nil => exact iff_of_true rfl fun before x rest split => absurd split (by simp)
  | cons y ys ih =>
      have head : (List.range' start (size y)).map f = (List.range (size y)).map (piece y) ↔
          ∀ j < size y, f (start+j) = piece y j := by
        rw [List.range'_eq_map_range,List.map_map,List.map_inj_left]
        exact forall_congr' fun j => by rw [List.mem_range]; rfl
      have sizes : ((List.range' start (size y)).map f).length = ((List.range (size y)).map (piece y)).length := by
        simp
      rw [List.map_cons,List.sum_cons,← List.range'_append_1,List.map_append,List.flatMap_cons]
      constructor
      · intro same before x rest split j inside
        obtain ⟨front,back⟩ := List.append_inj same sizes
        cases before with
        | nil =>
            cases split
            exact head.mp front j inside
        | cons z zs =>
            cases split
            have later := (ih (start+size y)).mp back zs x rest rfl j inside
            rwa [List.map_cons,List.sum_cons,← Nat.add_assoc]
      · intro all
        have front := head.mpr fun j inside => all [] y ys rfl j inside
        have back := (ih (start+size y)).mpr fun before x rest split j inside => by
          have later := all (y::before) x rest (by rw [split]; rfl) j inside
          rwa [List.map_cons,List.sum_cons,← Nat.add_assoc] at later
        rw [front,back]

theorem flatMap_at (f : Nat → List β) (size n : Nat) (sizes : ∀ k, (f k).length = size) (k j : Nat) (below : k < n)
    (inside : j < size) : ((List.range n).flatMap f)[k*size+j]? = (f k)[j]? := by
  induction n with
  | zero => exact absurd below (Nat.not_lt_zero k)
  | succ n ih =>
      have front : ((List.range n).flatMap f).length = n*size := by
        simp only [List.length_flatMap,sizes,List.map_const',List.length_range,List.sum_replicate_nat]
      rw [List.range_succ,List.flatMap_append,List.flatMap_singleton]
      rcases Nat.lt_succ_iff_lt_or_eq.mp below with before | rfl
      · have place : k*size+j < n*size :=
          calc k*size+j < k*size+size := Nat.add_lt_add_left inside _
            _ = (k+1)*size := (Nat.succ_mul k size).symm
            _ ≤ n*size := Nat.mul_le_mul_right size before
        rw [List.getElem?_append_left (by rw [front]; exact place)]
        exact ih before
      · rw [List.getElem?_append_right (by rw [front]; exact Nat.le_add_right _ _),front,Nat.add_sub_cancel_left]

end BudokaiRuntime.Pieces
