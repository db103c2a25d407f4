import Mathlib.Data.List.Nodup

-- Singly linked lists over any successor function, ended by a value that is no node.
namespace BudokaiRuntime.LinkedList

-- From `p` the links lead through exactly these nodes to `stop`.
inductive Chain (next : α → α) (stop : α) : α → List α → Prop
  | nil : Chain next stop stop []
  | cons : p ≠ stop → Chain next stop (next p) rest → Chain next stop p (p::rest)

section Chains
variable {next : α → α} {stop p q : α} {nodes rest : List α}

theorem chain_empty_iff (chain : Chain next stop p nodes) : nodes = [] ↔ p = stop := by
  cases chain with
  | nil => simp
  | cons node _ => simp [node]

theorem chain_head (chain : Chain next stop p (q::rest)) : p = q := by
  cases chain with
  | cons => rfl

theorem chain_tail (chain : Chain next stop p (q::rest)) : Chain next stop (next q) rest := by
  cases chain with
  | cons _ tail => exact tail

theorem chain_unique (one : Chain next stop p nodes) (two : Chain next stop p rest) : nodes = rest := by
  induction one generalizing rest with
  | nil =>
      cases two with
      | nil => rfl
      | cons node _ => exact absurd rfl node
  | cons node _ ih =>
      cases two with
      | nil => exact absurd rfl node
      | cons _ tail => exact congrArg _ (ih tail)

theorem chain_from (chain : Chain next stop p nodes) (member : q ∈ nodes) :
    ∃ later, Chain next stop q later ∧ later.length ≤ nodes.length := by
  induction chain with
  | nil => cases member
  | @cons p rest node tail ih =>
      rcases List.mem_cons.mp member with rfl | inside
      · exact ⟨_,.cons node tail,Nat.le_refl _⟩
      · obtain ⟨later,chained,shorter⟩ := ih inside
        exact ⟨later,chained,Nat.le_succ_of_le shorter⟩

-- A list that ends is acyclic: a node met twice would be followed by two chains.
theorem chain_nodup (chain : Chain next stop p nodes) : nodes.Nodup := by
  induction chain with
  | nil => exact List.nodup_nil
  | cons node tail ih =>
      refine List.nodup_cons.mpr ⟨?_,ih⟩
      intro again
      obtain ⟨later,chained,shorter⟩ := chain_from tail again
      have same := congrArg List.length (chain_unique chained (.cons node tail))
      rw [List.length_cons] at same
      omega
end Chains

end BudokaiRuntime.LinkedList
