import Mathlib.Algebra.Order.Ring.Nat
import Mathlib.Data.List.Range

-- The guest stacks of the threads, cut off below the main stack one after the other.
namespace BudokaiRuntime.Guest

abbrev THREAD_STACK_SIZE : BitVec 32 := 0x00100000
abbrev THREAD_STACK_BIAS : BitVec 32 := 0x00010000

structure PpuThreadParam where
  entry_addr : BitVec 32
  toc : BitVec 32
  arg : BitVec 64
  stack_top : BitVec 32
  thread_id : BitVec 32
deriving DecidableEq

theorem size_toNat : THREAD_STACK_SIZE.toNat = 0x100000 := rfl

theorem bias_toNat : THREAD_STACK_BIAS.toNat = 0x10000 := rfl

def g_thread_stack_cursor : BitVec 32 := 0xCFFF0000

-- The cursor is lowered whether or not the pages are committed; 0 is returned when they are not.
def alloc_thread_stack (commit : BitVec 32 → Bool) (cursor : BitVec 32) : BitVec 32 × BitVec 32 :=
  let top := cursor
  let base := top - THREAD_STACK_SIZE
  (cursor - THREAD_STACK_SIZE,if commit base then top - THREAD_STACK_BIAS else 0)

def thread_stacks (commit : BitVec 32 → Bool) : Nat → BitVec 32 → List (BitVec 32)
  | 0,_ => []
  | n+1,cursor =>
      let (next,sp) := alloc_thread_stack commit cursor
      sp::thread_stacks commit n next

def stack_base (sp : BitVec 32) : Nat := (sp + THREAD_STACK_BIAS - THREAD_STACK_SIZE).toNat

def stack_end (sp : BitVec 32) : Nat := stack_base sp + THREAD_STACK_SIZE.toNat

-- The range stays in the address space, holds its stack pointer, and misses main RAM and the main stack.
structure Placed (sp : BitVec 32) : Prop where
  within : stack_end sp ≤ 2^32
  pointer : stack_base sp ≤ sp.toNat ∧ sp.toNat < stack_end sp
  ram : stack_end sp ≤ 0x10000 ∨ 0x10010000 ≤ stack_base sp
  main : stack_end sp ≤ 0xD0000000

def Separate (one two : BitVec 32) : Prop := stack_end one ≤ stack_base two ∨ stack_end two ≤ stack_base one

structure Collisionless (sps : List (BitVec 32)) : Prop where
  placed : ∀ sp ∈ sps, Placed sp
  apart : sps.Pairwise Separate

def stack_pointer (k : Nat) : BitVec 32 := BitVec.ofNat 32 (0xCFFE0000 + (2^32 - 0x100000) * k)

theorem thread_stacks_eq (n : Nat) : thread_stacks (fun _ => true) n g_thread_stack_cursor =
    (List.range n).map stack_pointer := by
  have from_cursor (k : Nat) : thread_stacks (fun _ => true) n (BitVec.ofNat 32 (0xCFFF0000 + (2^32 - 0x100000) * k)) =
      (List.range n).map fun i => stack_pointer (k+i) := by
    induction n generalizing k with
    | zero => rfl
    | succ n ih =>
        have sp : BitVec.ofNat 32 (0xCFFF0000 + (2^32 - 0x100000) * k) - THREAD_STACK_BIAS = stack_pointer k := by
          apply BitVec.eq_of_toNat_eq
          rw [stack_pointer,BitVec.toNat_sub,bias_toNat,BitVec.toNat_ofNat,BitVec.toNat_ofNat]
          omega
        have next : BitVec.ofNat 32 (0xCFFF0000 + (2^32 - 0x100000) * k) - THREAD_STACK_SIZE =
            BitVec.ofNat 32 (0xCFFF0000 + (2^32 - 0x100000) * (k+1)) := by
          apply BitVec.eq_of_toNat_eq
          rw [BitVec.toNat_sub,size_toNat,BitVec.toNat_ofNat,BitVec.toNat_ofNat]
          omega
        rw [thread_stacks,alloc_thread_stack]
        dsimp only
        rw [if_pos rfl,sp,next,ih,List.range_succ_eq_map,List.map_cons,List.map_map]
        refine congrArg _ (List.map_congr_left fun i _ => ?_)
        exact congrArg stack_pointer (by omega)
  have all := from_cursor 0
  simp only [Nat.zero_add] at all
  exact all

theorem stack_base_eq (few : k ≤ 3070) : stack_base (stack_pointer k) = 0xCFEF0000 - 0x100000 * k := by
  rw [stack_base,stack_pointer,BitVec.toNat_sub,BitVec.toNat_add,bias_toNat,size_toNat,BitVec.toNat_ofNat]
  omega

theorem stack_end_eq (few : k ≤ 3070) : stack_end (stack_pointer k) = 0xCFFF0000 - 0x100000 * k := by
  rw [stack_end,stack_base_eq few,size_toNat]
  omega

theorem placed_early (few : k ≤ 3070) : Placed (stack_pointer k) := by
  have base := stack_base_eq few
  have top := stack_end_eq few
  have pointer : (stack_pointer k).toNat = 0xCFFE0000 - 0x100000 * k := by
    rw [stack_pointer,BitVec.toNat_ofNat]
    omega
  exact ⟨by omega,by omega,by omega,by omega⟩

-- Call number 3071 is the first whose range reaches down into main RAM.
theorem unplaced_late : ¬ Placed (stack_pointer 3071) := by
  intro placed
  have base : stack_base (stack_pointer 3071) = 0xFFF0000 := by decide
  have top : stack_end (stack_pointer 3071) = 0x100F0000 := by decide
  have ram := placed.ram
  omega

theorem thread_stacks_collisionless_iff (n : Nat) :
    Collisionless (thread_stacks (fun _ => true) n g_thread_stack_cursor) ↔ n ≤ 3071 := by
  rw [thread_stacks_eq]
  constructor
  · intro apart
    by_contra many
    exact unplaced_late (apart.placed _ (List.mem_map_of_mem (List.mem_range.mpr (Nat.not_le.mp many))))
  · intro few
    refine ⟨?_,?_⟩
    · intro sp member
      obtain ⟨k,inside,rfl⟩ := List.mem_map.mp member
      have bound := List.mem_range.mp inside
      exact placed_early (by omega)
    · refine List.pairwise_map.mpr (List.pairwise_lt_range.imp_of_mem fun {i j} first second earlier => ?_)
      have late := List.mem_range.mp second
      right
      rw [stack_end_eq (by omega),stack_base_eq (by omega)]
      omega

theorem stacks_reach_main_ram : ¬ ∀ n, Collisionless (thread_stacks (fun _ => true) n g_thread_stack_cursor) := by
  intro always
  have many := always 3072
  rw [thread_stacks_eq] at many
  exact unplaced_late (many.placed _ (List.mem_map_of_mem (List.mem_range.mpr (by decide))))

end BudokaiRuntime.Guest
