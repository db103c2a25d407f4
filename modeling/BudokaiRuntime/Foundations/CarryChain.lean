import Mathlib.Data.Nat.Digits.Defs
import Mathlib.Tactic.Ring

-- Addition digit by digit, least significant digit first, with a carry from each to the next.
namespace BudokaiRuntime.CarryChain

inductive Carried (b : Nat) : Nat → List (Nat × Nat) → List Nat → Nat → Prop where
  | nil : Carried b c [] [] c
  | cons : s + b*d = x+y+c → Carried b d pairs sums last → Carried b c ((x,y) :: pairs) (s :: sums) last

theorem Carried.length (chain : Carried b c pairs sums last) : sums.length = pairs.length := by
  induction chain with
  | nil => rfl
  | cons step rest ih => rw [List.length_cons,List.length_cons,ih]

theorem Carried.value (chain : Carried b c pairs sums last) :
    Nat.ofDigits b sums + last*b^pairs.length =
      Nat.ofDigits b (pairs.map Prod.fst) + Nat.ofDigits b (pairs.map Prod.snd) + c := by
  induction chain with
  | nil => simp
  | @cons s d x y c pairs sums last step rest ih =>
      simp only [List.map_cons,Nat.ofDigits_cons,List.length_cons,Nat.pow_succ]
      calc s + b*Nat.ofDigits b sums + last*(b^pairs.length*b)
          = s + b*(Nat.ofDigits b sums + last*b^pairs.length) := by ring
        _ = s + b*d + b*(Nat.ofDigits b (pairs.map Prod.fst) + Nat.ofDigits b (pairs.map Prod.snd)) := by
            rw [ih]
            ring
        _ = _ := by
            rw [step]
            ring

theorem Carried.flag (chain : Carried b c pairs sums last) (digits : ∀ p ∈ pairs, p.1 < b ∧ p.2 < b)
    (start : c ≤ 1) : last ≤ 1 := by
  induction chain with
  | nil => exact start
  | @cons s d x y c pairs sums last step rest ih =>
      have inside := digits (x,y) List.mem_cons_self
      have less : b*d < b*2 := by omega
      have small : d < 2 := Nat.lt_of_mul_lt_mul_left less
      exact ih (fun p later => digits p (List.mem_cons_of_mem _ later)) (by omega)

theorem complement_value (digits : List Nat) (small : ∀ d ∈ digits, d < b) :
    Nat.ofDigits b (digits.map fun d => b-1-d) + Nat.ofDigits b digits + 1 = b^digits.length := by
  induction digits with
  | nil => simp
  | cons d digits ih =>
      have inside := small d List.mem_cons_self
      have rest := ih fun e later => small e (List.mem_cons_of_mem d later)
      have pair : b-1-d + d + 1 = b := by omega
      simp only [List.map_cons,Nat.ofDigits_cons,List.length_cons,Nat.pow_succ,← rest]
      calc b-1-d + b*Nat.ofDigits b (digits.map fun d => b-1-d) + (d + b*Nat.ofDigits b digits) + 1
          = b-1-d + d + 1 + b*(Nat.ofDigits b (digits.map fun d => b-1-d) + Nat.ofDigits b digits) := by ring
        _ = b + b*(Nat.ofDigits b (digits.map fun d => b-1-d) + Nat.ofDigits b digits) := by rw [pair]
        _ = _ := by ring

-- Adding the complement and one subtracts, and the last carry compares.
theorem Carried.difference (base : 1 < b) (pairs : List (Nat × Nat)) (digits : ∀ p ∈ pairs, p.1 < b ∧ p.2 < b)
    (chain : Carried b 1 (pairs.map fun p => (p.2,b-1-p.1)) sums last) (small : ∀ s ∈ sums, s < b) :
    ((Nat.ofDigits b sums : Nat) : Int) =
        ((Nat.ofDigits b (pairs.map Prod.snd) : Nat) - (Nat.ofDigits b (pairs.map Prod.fst) : Nat)) %
          (b^pairs.length : Nat) ∧
      last = if Nat.ofDigits b (pairs.map Prod.fst) ≤ Nat.ofDigits b (pairs.map Prod.snd) then 1 else 0 := by
  have whole := chain.value
  have flag : last ≤ 1 := by
    refine chain.flag ?_ (Nat.le_refl 1)
    intro q present
    obtain ⟨p,member,rfl⟩ := List.mem_map.mp present
    exact ⟨(digits p member).2,by omega⟩
  have complement := complement_value (pairs.map Prod.fst) fun d present => by
    obtain ⟨p,member,rfl⟩ := List.mem_map.mp present
    exact (digits p member).1
  have high := Nat.ofDigits_lt_base_pow_length base (l:=pairs.map Prod.snd) fun d present => by
    obtain ⟨p,member,rfl⟩ := List.mem_map.mp present
    exact (digits p member).2
  have low := Nat.ofDigits_lt_base_pow_length base small
  rw [chain.length] at low
  simp only [List.map_map,List.length_map,Function.comp_def] at whole complement high low
  generalize Nat.ofDigits b sums = difference at whole low ⊢
  generalize Nat.ofDigits b (pairs.map Prod.fst) = subtrahend at complement ⊢
  generalize Nat.ofDigits b (pairs.map Prod.snd) = minuend at whole high ⊢
  generalize Nat.ofDigits b (pairs.map fun p => b-1-p.1) = complemented at whole complement
  generalize b^pairs.length = radix at whole complement high low ⊢
  have last_cases : last = 0 ∨ last = 1 := by omega
  rcases last_cases with rfl | rfl
  · have below : ¬ subtrahend ≤ minuend := by omega
    have borrowed : (minuend : Int) - subtrahend = difference + radix*(-1) := by omega
    rw [if_neg below,borrowed,Int.add_mul_emod_self_left,Int.emod_eq_of_lt (by omega) (by omega)]
    exact ⟨rfl,rfl⟩
  · have above : subtrahend ≤ minuend := by omega
    have exact_difference : (minuend : Int) - subtrahend = difference := by omega
    rw [if_pos above,exact_difference,Int.emod_eq_of_lt (by omega) (by omega)]
    exact ⟨rfl,rfl⟩

end BudokaiRuntime.CarryChain
