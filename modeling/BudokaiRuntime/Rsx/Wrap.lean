import BudokaiRuntime.Rsx.Stream

-- What becomes of the commands when the ring wraps.
namespace BudokaiRuntime.Rsx
open Guest PartialLoop Relation

-- Well-formed packets from GET to a JUMP at `j`, and from its target to PUT.
structure RingBuffer (vm : GuestMem) (get_ea put_ea j : BitVec 32) (first second : List (BitVec 32)) : Prop where
  front : Stream vm get_ea j first
  jump : hdr_jump (rsx_r32 vm j) = true
  inside : j.toNat < 0xD0200000
  low : CMD_BUF ≤ hdr_target (rsx_r32 vm j)
  high : hdr_target (rsx_r32 vm j) < CMD_BUF_END
  back : Stream vm (hdr_target (rsx_r32 vm j)) put_ea second
  whole : ∀ h ∈ first++second, overlong vm h = false

def Delivers (vm : GuestMem) (rsx : Renderer) (put_val : BitVec 32) (first second : List (BitVec 32)) : Prop :=
  Processes vm rsx put_val (streamCalls vm (first++second))
    {handled rsx (streamCalls vm (first++second)) with rsx_get_ea := put_val}

section Wrap
variable {vm : GuestMem} {rsx : Renderer} {put_val j : BitVec 32} {first second : List (BitVec 32)}
  (ring : RingBuffer vm (rsx_io_to_ea rsx.rsx_get_ea) (rsx_io_to_ea put_val) j first second)
include ring

-- PUT behind the JUMP: the parser takes it and goes on to PUT.
theorem ring_taken (reached : j.toNat+4 ≤ (rsx_io_to_ea put_val).toNat) : Delivers vm rsx put_val first second := by
  have start := stream_le ring.front
  have ahead : ¬ rsx_io_to_ea put_val ≤ rsx_io_to_ea rsx.rsx_get_ea := by
    intro behind
    have behind : (rsx_io_to_ea put_val).toNat ≤ (rsx_io_to_ea rsx.rsx_get_ea).toNat := behind
    omega
  have leading : ∀ h ∈ first, h.toNat+4 ≤ (rsx_io_to_ea put_val).toNat := by
    intro h member
    have bound := (stream_bounds ring.front h member).2.1
    omega
  have trailing : ∀ h ∈ second, h.toNat+4 ≤ (rsx_io_to_ea put_val).toNat :=
    fun h member => (stream_bounds ring.back h member).2.1
  have path := (stream_runs ring.front leading rsx []).trans
    (.head (jump_runs ⟨reached,ring.inside⟩ ring.jump ring.low ring.high _ _)
      (stream_runs ring.back trailing _ _))
  rw [← handled_append,List.append_assoc,← streamCalls_append,List.nil_append] at path
  refine processes_path ahead path ?_
  intro due
  have below := due.1
  omega

-- Otherwise PUT cuts the first stretch, and nothing behind the cut is handled.
theorem ring_cut (missed : ¬ j.toNat+4 ≤ (rsx_io_to_ea put_val).toNat) :
    ∃ before rest, first = before++rest ∧
      (∀ h ∈ before, h.toNat+4 ≤ (rsx_io_to_ea put_val).toNat) ∧
      (∀ h ∈ rest, (rsx_io_to_ea put_val).toNat < h.toNat+4) ∧
      Processes vm rsx put_val (streamCalls vm before)
        {handled rsx (streamCalls vm before) with rsx_get_ea := put_val} := by
  by_cases behind : rsx_io_to_ea put_val ≤ rsx_io_to_ea rsx.rsx_get_ea
  · refine ⟨[],first,rfl,?_,?_,?_⟩
    · intro h member
      cases member
    · intro h member
      have low := (stream_bounds ring.front h member).1
      have behind : (rsx_io_to_ea put_val).toNat ≤ (rsx_io_to_ea rsx.rsx_get_ea).toNat := behind
      omega
    · exact (processes_behind vm rsx put_val behind).mpr ⟨rfl,rfl⟩
  · obtain ⟨cut,before,rest,parts,front,below,beyond,last⟩ := stream_cut (rsx_io_to_ea put_val) ring.front
    refine ⟨before,rest,parts,below,beyond,?_⟩
    have path := stream_runs front below rsx []
    rw [List.nil_append] at path
    refine processes_path behind path ?_
    intro due
    have bound := due.1
    rcases last with ⟨_,rfl⟩ | past
    · exact missed bound
    · omega

-- So all commands are delivered exactly when PUT lies behind the JUMP, or nothing
-- that the parser does not come to carries an argument.
theorem ring_wrap_iff : Delivers vm rsx put_val first second ↔
    j.toNat+4 ≤ (rsx_io_to_ea put_val).toNat ∨
    (∀ h ∈ first, (rsx_io_to_ea put_val).toNat < h.toNat+4 → hdr_count (rsx_r32 vm h) = 0) ∧
      ∀ h ∈ second, hdr_count (rsx_r32 vm h) = 0 := by
  by_cases reached : j.toNat+4 ≤ (rsx_io_to_ea put_val).toNat
  · exact ⟨fun _ => .inl reached,fun _ => ring_taken ring reached⟩
  obtain ⟨before,rest,parts,below,beyond,done⟩ := ring_cut ring reached
  have whole := ring.whole
  have lost : streamCalls vm (rest++second) = [] ↔ ∀ h ∈ rest++second, hdr_count (rsx_r32 vm h) = 0 := by
    refine streamCalls_empty fun h member => whole h ?_
    rw [parts,List.append_assoc]
    exact List.mem_append_right before member
  have split : streamCalls vm (first++second) = streamCalls vm before ++ streamCalls vm (rest++second) := by
    rw [parts,List.append_assoc,streamCalls_append]
  rw [or_iff_right reached]
  constructor
  · intro delivers
    have same := (processes_unique done delivers).1
    rw [split,List.self_eq_append_right,lost] at same
    refine ⟨?_,fun h member => same h (List.mem_append_right rest member)⟩
    intro h member late
    rw [parts] at member
    rcases List.mem_append.mp member with early | there
    · exact absurd (below h early) (by omega)
    · exact same h (List.mem_append_left second there)
  · rintro ⟨late,after⟩
    have none : streamCalls vm (rest++second) = [] := by
      rw [lost]
      intro h member
      rcases List.mem_append.mp member with there | there
      · exact late h (parts ▸ List.mem_append_right before there) (beyond h there)
      · exact after h there
    rw [Delivers,split,none,List.append_nil]
    exact done
end Wrap

-- GET at a JUMP back to the start of the buffer, where SET_COLOR_CLEAR_VALUE waits.
def wrappedRing : GuestMem := commandImage [0x00041820,0x11223344,0,0,0x20000000]

def wrappedRenderer : Renderer := {rsx_init with rsx_get_ea := 0x10}

theorem wrappedRing_formed : RingBuffer wrappedRing (rsx_io_to_ea wrappedRenderer.rsx_get_ea) (rsx_io_to_ea 8)
    0xD0100010 [] [CMD_BUF] where
  front := .nil
  jump := by decide
  inside := by decide
  low := by decide
  high := by decide
  back := by
    have target : hdr_target (rsx_r32 wrappedRing 0xD0100010) = CMD_BUF := by decide
    have put : fifo_advance wrappedRing CMD_BUF = rsx_io_to_ea 8 := by decide
    rw [target]
    exact .cons (by decide) (by decide) (put ▸ .nil)
  whole := by
    intro h member
    cases List.mem_singleton.mp member
    decide

theorem ring_wrap_iff_put_behind : Delivers wrappedRing wrappedRenderer 8 [] [CMD_BUF] ↔
    (0xD0100010 : BitVec 32).toNat+4 ≤ (rsx_io_to_ea 8).toNat ∨
    (∀ h ∈ ([] : List (BitVec 32)), (rsx_io_to_ea 8).toNat < h.toNat+4 → hdr_count (rsx_r32 wrappedRing h) = 0) ∧
      ∀ h ∈ [CMD_BUF], hdr_count (rsx_r32 wrappedRing h) = 0 :=
  ring_wrap_iff wrappedRing_formed

theorem wrapped_commands_are_lost :
    ¬ ∀ (vm : GuestMem) (rsx : Renderer) (put_val j : BitVec 32) (first second : List (BitVec 32)),
      RingBuffer vm (rsx_io_to_ea rsx.rsx_get_ea) (rsx_io_to_ea put_val) j first second →
      Delivers vm rsx put_val first second := by
  intro delivers
  have all := delivers wrappedRing wrappedRenderer 8 _ _ _ wrappedRing_formed
  have none := ((processes_behind wrappedRing wrappedRenderer 8 (by decide)).mp all).1
  exact absurd none (by decide)

end BudokaiRuntime.Rsx
