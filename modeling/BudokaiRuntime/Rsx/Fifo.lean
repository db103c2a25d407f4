import BudokaiRuntime.Foundations.ByteLanes
import BudokaiRuntime.Foundations.PartialLoop
import BudokaiRuntime.Guest.Memory
import BudokaiRuntime.Rsx.Renderer

-- The RSX command parser that a write to the PUT register runs.
namespace BudokaiRuntime.Rsx
open Guest PartialLoop

abbrev CMD_BUF : BitVec 32 := 0xD0100000
abbrev CMD_BUF_END : BitVec 32 := 0xD0200000

def rsx_r32 (vm : GuestMem) (ea : BitVec 32) : BitVec 32 :=
  (vm ea).setWidth 32 <<< 24 ||| (vm (ea+1)).setWidth 32 <<< 16 ||| (vm (ea+2)).setWidth 32 <<< 8 |||
    (vm (ea+3)).setWidth 32

def hdr_jump (hdr : BitVec 32) : Bool := hdr &&& 0x20000000 != 0
def hdr_target (hdr : BitVec 32) : BitVec 32 := rsx_io_to_ea (hdr &&& ~~~0x20000000)
def hdr_method (hdr : BitVec 32) : BitVec 32 := hdr &&& 0x3FFFF
def hdr_count (hdr : BitVec 32) : BitVec 32 := (hdr >>> 18) &&& 0x7FF
def hdr_no_inc (hdr : BitVec 32) : Bool := hdr &&& 0x40000000 != 0

structure RsxCall where
  method : BitVec 32
  arg : BitVec 32
deriving DecidableEq

def packet_calls (vm : GuestMem) (ptr : BitVec 32) : List RsxCall :=
  let hdr := rsx_r32 vm ptr
  let method := hdr_method hdr
  (List.range (hdr_count hdr).toNat).map fun i =>
    let i := BitVec.ofNat 32 i
    {method := if hdr_no_inc hdr then method else method + i*4,arg := rsx_r32 vm (ptr + 4 + i*4)}

-- `calls` records what rsx_handle has been called with so far.
structure FifoState where
  ptr : BitVec 32
  rsx : Renderer
  calls : List RsxCall

def FifoState.handle (s : FifoState) (call : RsxCall) : FifoState :=
  {s with rsx := rsx_handle s.rsx call.method call.arg,calls := s.calls ++ [call]}

def fifo_body (vm : GuestMem) (put_ea : BitVec 32) (s : FifoState) : Option FifoState :=
  let ptr := s.ptr
  if ptr + 4 ≤ put_ea ∧ ptr < CMD_BUF_END then
    let hdr := rsx_r32 vm ptr
    if hdr = 0 then some {s with ptr := ptr + 4}
    else if hdr_jump hdr then
      let jmp := hdr_target hdr
      if jmp < CMD_BUF ∨ jmp ≥ CMD_BUF_END then none else some {s with ptr := jmp}
    else
      let count := hdr_count hdr
      if count = 0 ∨ ptr + 4 + count*4 > CMD_BUF_END then some {s with ptr := ptr + 4}
      else some {(packet_calls vm ptr).foldl FifoState.handle s with ptr := ptr + 4 + count*4}
  else none

-- The loop is unbounded in the source: a result is a result at some fuel.
def rsx_process_fifo (fuel : Nat) (vm : GuestMem) (rsx : Renderer) (put_val : BitVec 32) :
    Option (List RsxCall × Renderer) :=
  let get_ea := rsx_io_to_ea rsx.rsx_get_ea
  let put_ea := rsx_io_to_ea put_val
  if put_ea ≤ get_ea then some ([],{rsx with rsx_get_ea := put_val})
  else
    (loop (fifo_body vm put_ea) fuel {ptr := get_ea,rsx,calls := []}).map fun s =>
      (s.calls,{s.rsx with rsx_get_ea := put_val})

def commandImage (words : List (BitVec 32)) : GuestMem := fun a =>
  if a < CMD_BUF then 0
  else ByteLanes.byteAt (k:=4) (words.getD ((a - CMD_BUF).toNat/4) 0) ⟨(a - CMD_BUF).toNat%4,by omega⟩

-- A header is read at `p`: it lies below PUT and starts inside the buffer.
def Due (put_ea p : BitVec 32) : Prop := p.toNat+4 ≤ put_ea.toNat ∧ p.toNat < 0xD0200000

instance (put_ea p : BitVec 32) : Decidable (Due put_ea p) := inferInstanceAs (Decidable (_ ∧ _))

-- The packet would run over the end of the buffer; its header is then skipped.
def overlong (vm : GuestMem) (p : BitVec 32) : Bool :=
  p.toNat+4+4*(hdr_count (rsx_r32 vm p)).toNat > 0xD0200000

def fifo_advance (vm : GuestMem) (p : BitVec 32) : BitVec 32 :=
  if overlong vm p then p + 4 else p + 4 + hdr_count (rsx_r32 vm p)*4

def header_calls (vm : GuestMem) (p : BitVec 32) : List RsxCall :=
  if overlong vm p then [] else packet_calls vm p

def handled (rsx : Renderer) (calls : List RsxCall) : Renderer :=
  calls.foldl (fun rsx call => rsx_handle rsx call.method call.arg) rsx

theorem handled_append (rsx : Renderer) (one two : List RsxCall) :
    handled rsx (one++two) = handled (handled rsx one) two := List.foldl_append

theorem foldl_handle (s : FifoState) (calls : List RsxCall) :
    calls.foldl FifoState.handle s = {s with rsx := handled s.rsx calls,calls := s.calls ++ calls} := by
  induction calls generalizing s with
  | nil => simp [handled]
  | cons call calls ih =>
      rw [List.foldl_cons,ih]
      simp [FifoState.handle,handled]

section Arithmetic
variable (put_ea p : BitVec 32)

theorem hdr_count_le (hdr : BitVec 32) : (hdr_count hdr).toNat ≤ 0x7FF := by
  rw [hdr_count,BitVec.toNat_and]
  exact Nat.and_le_right

theorem next_header (inside : p.toNat < 0xD0200000) : (p + 4).toNat = p.toNat+4 := by
  have four : (4 : BitVec 32).toNat = 4 := rfl
  rw [BitVec.toNat_add,four,Nat.mod_eq_of_lt (by omega)]

theorem packet_end (count : BitVec 32) (inside : p.toNat < 0xD0200000) (small : count.toNat ≤ 0x7FF) :
    (p + 4 + count*4).toNat = p.toNat+4+4*count.toNat := by
  have four : (4 : BitVec 32).toNat = 4 := rfl
  rw [BitVec.toNat_add,next_header p inside,BitVec.toNat_mul,four,Nat.mod_eq_of_lt (a:=count.toNat*4) (by omega),
    Nat.mod_eq_of_lt (by omega)]
  omega

theorem fifo_advance_gt (vm : GuestMem) (inside : p.toNat < 0xD0200000) :
    p.toNat+4 ≤ (fifo_advance vm p).toNat := by
  unfold fifo_advance
  split
  · rw [next_header p inside]
  · rw [packet_end p _ inside (hdr_count_le _)]
    omega

theorem due_guard : (p + 4 ≤ put_ea ∧ p < CMD_BUF_END) ↔ Due put_ea p := by
  have limit : CMD_BUF_END.toNat = 0xD0200000 := rfl
  constructor
  · rintro ⟨below,inside⟩
    have inside : p.toNat < 0xD0200000 := inside
    have below : (p + 4).toNat ≤ put_ea.toNat := below
    rw [next_header p inside] at below
    exact ⟨below,inside⟩
  · rintro ⟨below,inside⟩
    refine ⟨?_,inside⟩
    show (p + 4).toNat ≤ put_ea.toNat
    rw [next_header p inside]
    exact below
end Arithmetic

section Rounds
variable {vm : GuestMem} {put_ea : BitVec 32} {s : FifoState}

theorem body_exit (out : ¬ Due put_ea s.ptr) : fifo_body vm put_ea s = none :=
  if_neg fun guard => out ((due_guard put_ea s.ptr).mp guard)

theorem body_jump (due : Due put_ea s.ptr) (jumps : hdr_jump (rsx_r32 vm s.ptr) = true) :
    fifo_body vm put_ea s =
      if hdr_target (rsx_r32 vm s.ptr) < CMD_BUF ∨ hdr_target (rsx_r32 vm s.ptr) ≥ CMD_BUF_END then none
      else some {s with ptr := hdr_target (rsx_r32 vm s.ptr)} := by
  have word : rsx_r32 vm s.ptr ≠ 0 := by
    intro zero
    rw [zero] at jumps
    exact absurd jumps (by decide)
  unfold fifo_body
  simp only [if_pos ((due_guard put_ea s.ptr).mpr due),if_neg word,jumps,if_true]

theorem body_header (due : Due put_ea s.ptr) (plain : hdr_jump (rsx_r32 vm s.ptr) = false) :
    fifo_body vm put_ea s =
      some {ptr := fifo_advance vm s.ptr
            rsx := handled s.rsx (header_calls vm s.ptr)
            calls := s.calls ++ header_calls vm s.ptr} := by
  have size := packet_end s.ptr (hdr_count (rsx_r32 vm s.ptr)) due.2 (hdr_count_le _)
  have beyond : s.ptr + 4 + hdr_count (rsx_r32 vm s.ptr)*4 > CMD_BUF_END ↔ overlong vm s.ptr = true := by
    unfold overlong
    rw [decide_eq_true_eq,← size]
    rfl
  have idle : fifo_advance vm s.ptr = s.ptr + 4 → header_calls vm s.ptr = [] →
      some {s with ptr := s.ptr + 4} = some
        ({ptr := fifo_advance vm s.ptr,rsx := handled s.rsx (header_calls vm s.ptr)
          calls := s.calls ++ header_calls vm s.ptr} : FifoState) := by
    intro next none
    rw [next,none,List.append_nil]
    rfl
  have empty : hdr_count (rsx_r32 vm s.ptr) = 0 →
      fifo_advance vm s.ptr = s.ptr + 4 ∧ header_calls vm s.ptr = [] := by
    intro none
    unfold fifo_advance header_calls packet_calls
    simp [none]
  unfold fifo_body
  simp only [if_pos ((due_guard put_ea s.ptr).mpr due),plain,Bool.false_eq_true,if_false]
  by_cases nop : rsx_r32 vm s.ptr = 0
  · have none := empty (by rw [nop]; rfl)
    rw [if_pos nop]
    exact idle none.1 none.2
  · rw [if_neg nop]
    by_cases skips : hdr_count (rsx_r32 vm s.ptr) = 0 ∨ s.ptr + 4 + hdr_count (rsx_r32 vm s.ptr)*4 > CMD_BUF_END
    · rw [if_pos skips]
      rcases skips with zero | long
      · exact idle (empty zero).1 (empty zero).2
      · have long := beyond.mp long
        exact idle (if_pos long) (if_pos long)
    · rw [if_neg skips,foldl_handle]
      have fits : ¬ overlong vm s.ptr = true := fun long => skips (.inr (beyond.mpr long))
      rw [show fifo_advance vm s.ptr = _ from if_neg fits,show header_calls vm s.ptr = _ from if_neg fits]
end Rounds

section Results
variable (vm : GuestMem) (rsx : Renderer) (put_val : BitVec 32)

def Processes (calls : List RsxCall) (after : Renderer) : Prop :=
  ∃ fuel, rsx_process_fifo fuel vm rsx put_val = some (calls,after)

theorem processes_behind (behind : rsx_io_to_ea put_val ≤ rsx_io_to_ea rsx.rsx_get_ea) :
    Processes vm rsx put_val calls after ↔ calls = [] ∧ after = {rsx with rsx_get_ea := put_val} := by
  unfold Processes rsx_process_fifo
  simp only [if_pos behind,Option.some.injEq,Prod.mk.injEq,exists_const]
  exact ⟨fun ⟨one,two⟩ => ⟨one.symm,two.symm⟩,fun ⟨one,two⟩ => ⟨one.symm,two.symm⟩⟩

theorem processes_ahead (ahead : ¬ rsx_io_to_ea put_val ≤ rsx_io_to_ea rsx.rsx_get_ea) :
    Processes vm rsx put_val calls after ↔
      ∃ s, Exits (fifo_body vm (rsx_io_to_ea put_val)) ⟨rsx_io_to_ea rsx.rsx_get_ea,rsx,[]⟩ s ∧
        calls = s.calls ∧ after = {s.rsx with rsx_get_ea := put_val} := by
  unfold Processes rsx_process_fifo
  simp only [if_neg ahead,Option.map_eq_some_iff,Prod.mk.injEq]
  constructor
  · rintro ⟨fuel,s,done,rfl,rfl⟩
    exact ⟨s,loop_exits.mp ⟨fuel,done⟩,rfl,rfl⟩
  · rintro ⟨s,exits,rfl,rfl⟩
    obtain ⟨fuel,done⟩ := loop_exits.mpr exits
    exact ⟨fuel,s,done,rfl,rfl⟩
end Results

end BudokaiRuntime.Rsx
