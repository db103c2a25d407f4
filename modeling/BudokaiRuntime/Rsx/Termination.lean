import BudokaiRuntime.Rsx.Fifo
import Mathlib.Data.FinEnum

-- When the parser comes to an end.
namespace BudokaiRuntime.Rsx
open Guest PartialLoop Relation

-- The header at `j` is a JUMP the parser takes, and leads to `target`.
def JumpsTo (vm : GuestMem) (put_ea j target : BitVec 32) : Prop :=
  Due put_ea j ∧ hdr_jump (rsx_r32 vm j) = true ∧ hdr_target (rsx_r32 vm j) = target ∧
    CMD_BUF ≤ target ∧ target < CMD_BUF_END

instance (vm : GuestMem) (put_ea j target : BitVec 32) : Decidable (JumpsTo vm put_ea j target) :=
  inferInstanceAs (Decidable (_ ∧ _))

-- The order in which the words of the buffer lead from header to header.
inductive Follows (vm : GuestMem) (put_ea : BitVec 32) : BitVec 32 → BitVec 32 → Prop where
  | header : Due put_ea p → hdr_jump (rsx_r32 vm p) = false → Follows vm put_ea p (fifo_advance vm p)
  | jump : JumpsTo vm put_ea p q → Follows vm put_ea p q

abbrev Leads (vm : GuestMem) (put_ea : BitVec 32) : BitVec 32 → BitVec 32 → Prop :=
  ReflTransGen (Follows vm put_ea)

def fifo_next (vm : GuestMem) (put_ea p : BitVec 32) : Option (BitVec 32) :=
  if Due put_ea p then
    if hdr_jump (rsx_r32 vm p) then
      if hdr_target (rsx_r32 vm p) < CMD_BUF ∨ hdr_target (rsx_r32 vm p) ≥ CMD_BUF_END then none
      else some (hdr_target (rsx_r32 vm p))
    else some (fifo_advance vm p)
  else none

section Control
variable (vm : GuestMem) (put_ea : BitVec 32)

-- Where the loop goes depends on ptr alone, never on what has been handled.
theorem body_next (s : FifoState) : (fifo_body vm put_ea s).map FifoState.ptr = fifo_next vm put_ea s.ptr := by
  unfold fifo_next
  by_cases due : Due put_ea s.ptr
  · rw [if_pos due]
    cases word : hdr_jump (rsx_r32 vm s.ptr) with
    | false =>
        rw [body_header due word]
        rfl
    | true =>
        rw [body_jump due word,if_pos rfl,apply_ite (Option.map FifoState.ptr)]
        rfl
  · rw [if_neg due,body_exit due]
    rfl

theorem next_follows : Moves (fifo_next vm put_ea) p q ↔ Follows vm put_ea p q := by
  unfold Moves fifo_next
  constructor
  · intro moved
    split at moved
    · rename_i due
      split at moved
      · rename_i jumps
        split at moved
        · cases moved
        · rename_i inside
          cases moved
          rw [not_or] at inside
          exact .jump ⟨due,jumps,rfl,BitVec.not_lt.mp inside.1,BitVec.not_le.mp inside.2⟩
      · rename_i plain
        cases moved
        exact .header due (Bool.eq_false_iff.mpr plain)
    · cases moved
  · intro follows
    cases follows with
    | header due plain => rw [if_pos due,plain,if_neg (by decide)]
    | jump jumps =>
        obtain ⟨due,word,rfl,low,high⟩ := jumps
        have inside : ¬ (hdr_target (rsx_r32 vm p) < CMD_BUF ∨ hdr_target (rsx_r32 vm p) ≥ CMD_BUF_END) :=
          not_or.mpr ⟨BitVec.not_lt.mpr low,BitVec.not_le.mpr high⟩
        rw [if_pos due,word,if_pos rfl,if_neg inside]

theorem moves_follows : Moves (fifo_next vm put_ea) = Follows vm put_ea := by
  funext p q
  exact propext (next_follows vm put_ea)

theorem follows_due (follows : Follows vm put_ea p q) : Due put_ea p := by
  cases follows with
  | header due _ => exact due
  | jump jumps => exact jumps.1

theorem follows_forward (follows : Follows vm put_ea p q) : p.toNat < q.toNat ∨ JumpsTo vm put_ea p q := by
  cases follows with
  | header due plain =>
      have ahead := fifo_advance_gt p vm due.2
      exact .inl (by omega)
  | jump jumps => exact .inr jumps

theorem path_forward (path : TransGen (Follows vm put_ea) p q) :
    p.toNat < q.toNat ∨ ∃ j target, Leads vm put_ea p j ∧ JumpsTo vm put_ea j target ∧ Leads vm put_ea target q := by
  induction path with
  | single follows =>
      rcases follows_forward vm put_ea follows with ahead | jumps
      · exact .inl ahead
      · exact .inr ⟨_,_,.refl,jumps,.refl⟩
  | tail path follows ih =>
      rcases ih with ahead | ⟨j,target,there,jumps,back⟩
      · rcases follows_forward vm put_ea follows with further | jumps
        · exact .inl (Nat.lt_trans ahead further)
        · exact .inr ⟨_,_,path.to_reflTransGen,jumps,.refl⟩
      · exact .inr ⟨j,target,there,jumps,back.tail follows⟩

-- So every cycle the parser could be caught in goes through a JUMP.
theorem cycle_jumps : (∃ p, Leads vm put_ea s p ∧ TransGen (Follows vm put_ea) p p) ↔
    ∃ j target, Leads vm put_ea s j ∧ JumpsTo vm put_ea j target ∧ Leads vm put_ea target j := by
  constructor
  · rintro ⟨p,path,cycle⟩
    rcases path_forward vm put_ea cycle with ahead | ⟨j,target,there,jumps,back⟩
    · exact absurd ahead (Nat.lt_irrefl _)
    · exact ⟨j,target,path.trans there,jumps,back.trans there⟩
  · rintro ⟨j,target,path,jumps,back⟩
    exact ⟨j,path,.head' (.jump jumps) back⟩

theorem loop_terminates (s : FifoState) : Terminates (fifo_body vm put_ea) s ↔
    ¬ ∃ j target, Leads vm put_ea s.ptr j ∧ JumpsTo vm put_ea j target ∧ Leads vm put_ea target j := by
  rw [terminates_project FifoState.ptr (body_next vm put_ea),terminates_iff_acyclic,moves_follows,
    ← cycle_jumps vm put_ea,not_exists]
  exact forall_congr' fun p => not_and.symm
end Control

section Results
variable (vm : GuestMem) (rsx : Renderer) (put_val : BitVec 32)

theorem process_terminates : (∃ fuel result, rsx_process_fifo fuel vm rsx put_val = some result) ↔
    rsx_io_to_ea put_val ≤ rsx_io_to_ea rsx.rsx_get_ea ∨
      Terminates (fifo_body vm (rsx_io_to_ea put_val)) ⟨rsx_io_to_ea rsx.rsx_get_ea,rsx,[]⟩ := by
  by_cases behind : rsx_io_to_ea put_val ≤ rsx_io_to_ea rsx.rsx_get_ea
  · exact ⟨fun _ => .inl behind,fun _ => ⟨0,([],{rsx with rsx_get_ea := put_val}),if_pos behind⟩⟩
  · rw [or_iff_right behind]
    unfold rsx_process_fifo
    simp only [if_neg behind]
    constructor
    · rintro ⟨fuel,result,done⟩
      obtain ⟨s,looped,_⟩ := Option.map_eq_some_iff.mp done
      exact ⟨fuel,s,looped⟩
    · rintro ⟨fuel,s,looped⟩
      exact ⟨fuel,_,Option.map_eq_some_iff.mpr ⟨s,looped,rfl⟩⟩

theorem behind_leads_nowhere (behind : put_ea ≤ get_ea) (path : Leads vm put_ea get_ea j) :
    ¬ Due put_ea j := by
  have below : put_ea.toNat ≤ get_ea.toNat := behind
  have stuck : ¬ Due put_ea get_ea := fun due => absurd due.1 (by omega)
  rcases ReflTransGen.cases_head path with rfl | ⟨q,first,_⟩
  · exact stuck
  · exact absurd (follows_due vm put_ea first) stuck

theorem caught_in_cycle (path : Leads vm (rsx_io_to_ea put_val) (rsx_io_to_ea rsx.rsx_get_ea) j)
    (jumps : JumpsTo vm (rsx_io_to_ea put_val) j target) (back : Leads vm (rsx_io_to_ea put_val) target j) :
    ¬ ∃ fuel result, rsx_process_fifo fuel vm rsx put_val = some result := by
  rw [process_terminates,loop_terminates,not_or,not_not]
  refine ⟨fun behind => behind_leads_nowhere vm behind path jumps.1,?_⟩
  exact ⟨j,target,path,jumps,back⟩

theorem fifo_terminates_iff : (∃ fuel result, rsx_process_fifo fuel vm rsx put_val = some result) ↔
    ¬ ∃ j target, Leads vm (rsx_io_to_ea put_val) (rsx_io_to_ea rsx.rsx_get_ea) j ∧
      JumpsTo vm (rsx_io_to_ea put_val) j target ∧ Leads vm (rsx_io_to_ea put_val) target j := by
  rw [process_terminates,loop_terminates]
  refine ⟨?_,.inr⟩
  rintro (behind | acyclic)
  · rintro ⟨j,target,path,jumps,_⟩
    exact behind_leads_nowhere vm behind path jumps.1
  · exact acyclic
end Results

-- A JUMP to itself at the start of the buffer, the usual idle loop of a command ring.
def selfJump : GuestMem := commandImage [0x20000000]

theorem self_jump_runs_forever :
    ¬ ∀ (vm : GuestMem) (rsx : Renderer) (put_val : BitVec 32),
      ∃ fuel result, rsx_process_fifo fuel vm rsx put_val = some result := by
  intro ends
  have jumps : JumpsTo selfJump (rsx_io_to_ea 4) (rsx_io_to_ea rsx_init.rsx_get_ea) CMD_BUF := by decide
  exact caught_in_cycle selfJump rsx_init 4 .refl jumps .refl (ends selfJump rsx_init 4)

end BudokaiRuntime.Rsx
