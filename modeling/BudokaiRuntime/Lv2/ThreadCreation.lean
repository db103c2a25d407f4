import BudokaiRuntime.Guest.Stores
import BudokaiRuntime.Guest.ThreadStacks
import BudokaiRuntime.Lv2.ThreadTable

-- sys_ppu_thread_create as a whole, with both of its failure exits.
namespace BudokaiRuntime.Lv2
open Guest

-- Guest memory and the thread globals; `started` are the threads CreateThread has started.
structure ThreadHost where
  machine : Machine
  g_thread_stack_cursor : BitVec 32
  g_thread_id_next : BitVec 32
  table : List ThreadEntry
  started : List PpuThreadParam

-- r3, r4 and r5. Priority, stack size, flags and name are only logged.
structure CreateCall where
  id_out : BitVec 32
  opd_ptr : BitVec 32
  arg : BitVec 64

structure HostAnswer where
  commit : BitVec 32 → Bool
  thread : Bool

abbrev CREATED : BitVec 64 := 0
abbrev NOT_CREATED : BitVec 64 := ~~~0

def report_id (fuel : Nat) (m : Machine) (id_out id : BitVec 32) : Option Machine :=
  if id_out ≠ 0 then vm_write32 fuel m (id_out.setWidth 64) id else some m

-- `none`: the ID went to the RSX PUT register and the parser has not returned within its fuel.
def sys_ppu_thread_create (fuel : Nat) (host : HostAnswer) (s : ThreadHost) (call : CreateCall) :
    Option (ThreadHost × BitVec 64) :=
  let code_addr := vm_read32 s.machine.vm (call.opd_ptr.setWidth 64)
  let toc := vm_read32 s.machine.vm ((call.opd_ptr+4).setWidth 64)
  let (cursor,stack_top) := alloc_thread_stack host.commit s.g_thread_stack_cursor
  let s := {s with g_thread_stack_cursor := cursor}
  if stack_top = 0 then some (s,NOT_CREATED)
  else
    let tp : PpuThreadParam := ⟨code_addr,toc,call.arg,stack_top,s.g_thread_id_next⟩
    let s := {s with g_thread_id_next := s.g_thread_id_next+1}
    (report_id fuel s.machine call.id_out tp.thread_id).map fun machine =>
      let s := {s with machine}
      if host.thread then
        ({s with
          table := thread_table_add s.table ⟨tp.thread_id,s.started.length⟩
          started := s.started ++ [tp]},CREATED)
      else (s,NOT_CREATED)

structure Traceless (before after : ThreadHost) : Prop where
  memory : after.machine.vm = before.machine.vm
  cursor : after.g_thread_stack_cursor = before.g_thread_stack_cursor
  table : after.table = before.table

-- Both requests are granted, and the stack pointer is not the 0 that stands for a failure.
structure Granted (host : HostAnswer) (cursor : BitVec 32) : Prop where
  commit : host.commit (cursor - THREAD_STACK_SIZE) = true
  pointer : cursor ≠ THREAD_STACK_BIAS
  thread : host.thread = true

section Create
variable {fuel : Nat} {host : HostAnswer} {s after : ThreadHost} {call : CreateCall} {r3 : BitVec 64}

theorem alloc_fails_iff (commit : BitVec 32 → Bool) (cursor : BitVec 32) :
    (alloc_thread_stack commit cursor).2 = 0 ↔
      ¬ (commit (cursor - THREAD_STACK_SIZE) = true ∧ cursor ≠ THREAD_STACK_BIAS) := by
  have top : cursor - THREAD_STACK_BIAS = 0 ↔ cursor = THREAD_STACK_BIAS := by
    have zero : 0 + THREAD_STACK_BIAS = THREAD_STACK_BIAS := BitVec.zero_add _
    rw [BitVec.sub_eq_iff_eq_add,zero]
  have unfolded : (alloc_thread_stack commit cursor).2 =
      if commit (cursor - THREAD_STACK_SIZE) then cursor - THREAD_STACK_BIAS else 0 := rfl
  rw [unfolded]
  split
  case isTrue committed =>
    rw [top]
    exact ⟨fun same both => both.2 same,fun refused => not_not.mp fun other => refused ⟨committed,other⟩⟩
  case isFalse refused => exact iff_of_true rfl fun both => refused both.1

theorem create_cursor (went : sys_ppu_thread_create fuel host s call = some (after,r3)) :
    after.g_thread_stack_cursor = s.g_thread_stack_cursor - THREAD_STACK_SIZE := by
  unfold sys_ppu_thread_create at went
  dsimp only at went
  split at went
  · cases went
    rfl
  · obtain ⟨machine,_,outcome⟩ := Option.map_eq_some_iff.mp went
    split at outcome <;> cases outcome <;> rfl

theorem create_result (went : sys_ppu_thread_create fuel host s call = some (after,r3)) :
    r3 = NOT_CREATED ↔ ¬ Granted host s.g_thread_stack_cursor := by
  unfold sys_ppu_thread_create at went
  dsimp only at went
  split at went
  case isTrue refused =>
    cases went
    have failed := (alloc_fails_iff host.commit s.g_thread_stack_cursor).mp refused
    exact iff_of_true rfl fun granted => failed ⟨granted.commit,granted.pointer⟩
  case isFalse stack =>
    have granted := not_not.mp (mt (alloc_fails_iff host.commit s.g_thread_stack_cursor).mpr stack)
    obtain ⟨machine,_,outcome⟩ := Option.map_eq_some_iff.mp went
    split at outcome
    case isTrue started =>
      cases outcome
      exact iff_of_false (by decide) (not_not.mpr ⟨granted.1,granted.2,started⟩)
    case isFalse unstarted =>
      cases outcome
      exact iff_of_true rfl fun granted => unstarted granted.thread

theorem cursor_moves (cursor : BitVec 32) : cursor - THREAD_STACK_SIZE ≠ cursor := by
  intro same
  have value := congrArg BitVec.toNat same
  rw [BitVec.toNat_sub,size_toNat] at value
  omega
end Create

-- A failed call is never undone: it leaves no trace exactly when it does not fail.
theorem failed_creation_traceless_iff (fuel : Nat) (host : HostAnswer) (s after : ThreadHost) (call : CreateCall)
    (r3 : BitVec 64) (went : sys_ppu_thread_create fuel host s call = some (after,r3)) :
    (r3 = NOT_CREATED → Traceless s after) ↔ Granted host s.g_thread_stack_cursor := by
  rw [create_result went]
  constructor
  · intro kept
    by_contra refused
    exact cursor_moves _ ((create_cursor went).symm.trans (kept refused).cursor)
  · exact fun granted refused => absurd granted refused

def newHost : ThreadHost := ⟨⟨fun _ => 0,Rsx.rsx_init⟩,g_thread_stack_cursor,1,[],[]⟩
def newThread : CreateCall := ⟨0,0x10000,0⟩

theorem failed_creation_traceless_iff_granted :
    ∃ after r3, sys_ppu_thread_create 0 ⟨fun _ => true,true⟩ newHost newThread = some (after,r3) ∧
      ((r3 = NOT_CREATED → Traceless newHost after) ↔
        Granted ⟨fun _ => true,true⟩ newHost.g_thread_stack_cursor) :=
  ⟨_,_,rfl,failed_creation_traceless_iff 0 _ newHost _ newThread _ rfl⟩

-- No page of the stack can be committed: the call fails with the cursor 1 MiB down.
theorem failed_commit_keeps_cursor_down :
    ¬ ∀ (fuel : Nat) (host : HostAnswer) (s after : ThreadHost) (call : CreateCall) (r3 : BitVec 64),
      sys_ppu_thread_create fuel host s call = some (after,r3) → r3 = NOT_CREATED → Traceless s after := by
  intro undone
  have cursor := (undone 0 ⟨fun _ => false,true⟩ newHost _ newThread _ rfl rfl).cursor
  exact cursor_moves newHost.g_thread_stack_cursor cursor

-- Any number of calls, failed or not: the next stack is cut off that many MiB further down.
theorem creations_cursor (fuel : Nat) (calls : List (HostAnswer × CreateCall)) (s after : ThreadHost)
    (went : calls.foldlM (fun s c => (sys_ppu_thread_create fuel c.1 s c.2).map Prod.fst) s = some after) :
    after.g_thread_stack_cursor = s.g_thread_stack_cursor - BitVec.ofNat 32 calls.length * THREAD_STACK_SIZE := by
  induction calls generalizing s with
  | nil =>
      cases went
      simp
  | cons c calls ih =>
      rw [List.foldlM_cons] at went
      obtain ⟨middle,first,rest⟩ := Option.bind_eq_some_iff.mp went
      obtain ⟨⟨_,r3⟩,created,rfl⟩ := Option.map_eq_some_iff.mp first
      rw [ih _ rest,create_cursor created,List.length_cons]
      have one_more : BitVec.ofNat 32 (calls.length+1) = 1#32 + BitVec.ofNat 32 calls.length := by
        rw [Nat.add_comm,BitVec.ofNat_add]
      rw [one_more,BitVec.add_mul,BitVec.one_mul,BitVec.sub_sub]

end BudokaiRuntime.Lv2
