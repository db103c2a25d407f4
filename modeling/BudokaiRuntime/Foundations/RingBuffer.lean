import Mathlib.Algebra.Order.Ring.Nat
import Mathlib.Algebra.Group.Fin.Basic
import Mathlib.Logic.Function.Basic

-- A ring of `n` cells read from `head`: the queue it stands for.
namespace BudokaiRuntime.RingBuffer
variable [NeZero n] {buf : Fin n → α} {head tail : Fin n} {cnt : Nat}

def contents (buf : Fin n → α) (head : Fin n) (cnt : Nat) : List α :=
  (List.range cnt).map fun i => buf (head + Fin.ofNat n i)

theorem ofNat_succ (i : Nat) : Fin.ofNat n (i+1) = Fin.ofNat n i + 1 := by
  apply Fin.ext
  simp [Fin.val_add,Nat.add_mod]

theorem place_ne (before : i < cnt) (room : cnt < n) :
    head + Fin.ofNat n i ≠ head + Fin.ofNat n cnt := by
  intro same
  have equal := congrArg Fin.val (add_left_cancel same)
  rw [Fin.val_ofNat,Fin.val_ofNat,Nat.mod_eq_of_lt room,Nat.mod_eq_of_lt (Nat.lt_trans before room)] at equal
  omega

theorem contents_push (room : cnt < n) (last : tail = head + Fin.ofNat n cnt) (a : α) :
    contents (Function.update buf tail a) head (cnt+1) = contents buf head cnt ++ [a] := by
  subst last
  unfold contents
  rw [List.range_succ,List.map_append,List.map_singleton,Function.update_self]
  refine congrArg (· ++ [a]) (List.map_congr_left fun i member => ?_)
  exact Function.update_of_ne (place_ne (List.mem_range.mp member) room) _ _

theorem contents_pop : contents buf head (cnt+1) = buf head :: contents buf (head+1) cnt := by
  unfold contents
  rw [List.range_succ_eq_map,List.map_cons,List.map_map]
  have first : head + Fin.ofNat n 0 = head := add_zero head
  rw [first]
  refine congrArg (buf head :: ·) (List.map_congr_left fun i _ => ?_)
  show buf (head + Fin.ofNat n (i+1)) = buf (head + 1 + Fin.ofNat n i)
  rw [ofNat_succ,add_comm (Fin.ofNat n i),add_assoc]

theorem tail_push (last : tail = head + Fin.ofNat n cnt) : tail + 1 = head + Fin.ofNat n (cnt+1) := by
  rw [last,ofNat_succ,add_assoc]

theorem tail_pop (last : tail = head + Fin.ofNat n (cnt+1)) : tail = head + 1 + Fin.ofNat n cnt := by
  rw [last,ofNat_succ,add_comm (Fin.ofNat n cnt),add_assoc]

end BudokaiRuntime.RingBuffer
