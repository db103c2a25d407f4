import BudokaiRuntime.Rsx.PutBound

-- PUT moved in one step and in two.
namespace BudokaiRuntime.Rsx
open Guest PartialLoop Relation

def PositionReached (vm : GuestMem) (get_ea put_ea q : BitVec 32) : Prop :=
  ∃ headers, Stream vm get_ea q headers ∧ ∀ h ∈ headers, Due put_ea h

-- Stopping at p1 on the way to p2 changes neither the calls nor GET nor the renderer.
def SplitsAt (vm : GuestMem) (rsx : Renderer) (p1 p2 : BitVec 32) : Prop :=
  ∃ first middle second after, Processes vm rsx p1 first middle ∧ Processes vm middle p2 second after ∧
    Processes vm rsx p2 (first++second) after

section Get
variable (rsx : Renderer) (get : BitVec 32)

theorem rsx_handle_get (method arg : BitVec 32) :
    rsx_handle {rsx with rsx_get_ea := get} method arg = {rsx_handle rsx method arg with rsx_get_ea := get} := by
  unfold rsx_handle
  dsimp only
  split
  · rfl
  · rfl
  · unfold clear_surface
    split <;> rfl
  · rfl
  · rfl
  · split
    · rfl
    · split <;> rfl

theorem handled_get (calls : List RsxCall) :
    handled {rsx with rsx_get_ea := get} calls = {handled rsx calls with rsx_get_ea := get} := by
  induction calls generalizing rsx with
  | nil => rfl
  | cons call calls ih =>
      have step : handled rsx (call::calls) = handled (rsx_handle rsx call.method call.arg) calls := rfl
      have moved : handled {rsx with rsx_get_ea := get} (call::calls) =
        handled (rsx_handle {rsx with rsx_get_ea := get} call.method call.arg) calls := rfl
      rw [moved,rsx_handle_get,ih,step]
end Get

section Stretch
variable {vm : GuestMem} (rsx : Renderer) {put_val : BitVec 32}

theorem stretch_processes (stream : Stream vm (rsx_io_to_ea rsx.rsx_get_ea) q headers)
    (due : ∀ h ∈ headers, Due (rsx_io_to_ea put_val) h) (out : ¬ Due (rsx_io_to_ea put_val) q) :
    Processes vm rsx put_val (streamCalls vm headers)
      {handled rsx (streamCalls vm headers) with rsx_get_ea := put_val} := by
  by_cases ahead : rsx_io_to_ea rsx.rsx_get_ea < rsx_io_to_ea put_val
  · exact stream_processes ahead stream due out
  · have behind : rsx_io_to_ea put_val ≤ rsx_io_to_ea rsx.rsx_get_ea := BitVec.not_lt.mp ahead
    have reach : (rsx_io_to_ea put_val).toNat ≤ (rsx_io_to_ea rsx.rsx_get_ea).toNat := behind
    cases stream with
    | nil => exact (processes_behind vm rsx put_val behind).mpr ⟨rfl,rfl⟩
    | cons _ _ _ =>
        have below := (due _ List.mem_cons_self).1
        omega

theorem position_jump_free (free : JumpFree vm get_ea put_ea) (stream : Stream vm get_ea p headers) :
    JumpFree vm p put_ea := by
  intro q ⟨due,others,rest⟩
  exact free q ⟨due,headers++others,stream_append stream rest⟩
end Stretch

theorem incremental_fifo_agrees (vm : GuestMem) (rsx : Renderer) (p1 p2 : BitVec 32)
    (free : JumpFree vm (rsx_io_to_ea rsx.rsx_get_ea) (rsx_io_to_ea p2))
    (reached : PositionReached vm (rsx_io_to_ea rsx.rsx_get_ea) (rsx_io_to_ea p2) (rsx_io_to_ea p1)) :
    SplitsAt vm rsx p1 p2 := by
  obtain ⟨headers,front,due⟩ := reached
  obtain ⟨q,rest,back,later,out⟩ := jump_free_exhausts (position_jump_free free front)
  have early : ∀ h ∈ headers, Due (rsx_io_to_ea p1) h := by
    intro h member
    obtain ⟨_,high,inside⟩ := stream_bounds front h member
    exact ⟨high,inside⟩
  have stopped : ¬ Due (rsx_io_to_ea p1) (rsx_io_to_ea p1) := by
    intro beyond
    have below := beyond.1
    omega
  have whole : ∀ h ∈ headers++rest, Due (rsx_io_to_ea p2) h := by
    intro h member
    rcases List.mem_append.mp member with before | behind
    · exact due h before
    · exact later h behind
  have one := stretch_processes rsx front early stopped
  have two := stretch_processes {handled rsx (streamCalls vm headers) with rsx_get_ea := p1} back later out
  have once := stretch_processes rsx (stream_append front back) whole out
  refine ⟨_,_,_,_,one,two,?_⟩
  rw [handled_get,← handled_append,← streamCalls_append]
  exact once

-- Two packets, PUT stopping between them as an IO offset and going on as a guest address.
def twoPackets : GuestMem := commandImage [0x00041820,0x11223344,0x00041820,0x55667788]

theorem twoPackets_next : fifo_advance twoPackets 0xD0100000 = 0xD0100008 ∧
    fifo_advance twoPackets 0xD0100008 = 0xD0100010 := ⟨by decide,by decide⟩

theorem twoPackets_jump_free : JumpFree twoPackets (rsx_io_to_ea 0) (rsx_io_to_ea 0xD0100010) := by
  have put : (rsx_io_to_ea 0xD0100010).toNat = 0xD0100010 := by decide
  have get : rsx_io_to_ea 0 = 0xD0100000 := by decide
  rintro q ⟨due,headers,stream⟩
  rw [get] at stream
  cases stream with
  | nil => decide
  | cons _ _ stream =>
      rw [twoPackets_next.1] at stream
      cases stream with
      | nil => decide
      | cons _ _ stream =>
          rw [twoPackets_next.2] at stream
          have low : 0xD0100010 ≤ q.toNat := stream_le stream
          have high := due.1
          omega

theorem twoPackets_reached :
    PositionReached twoPackets (rsx_io_to_ea 0) (rsx_io_to_ea 0xD0100010) (rsx_io_to_ea 8) := by
  have position : rsx_io_to_ea 8 = fifo_advance twoPackets 0xD0100000 := by decide
  refine ⟨[0xD0100000],?_,?_⟩
  · rw [position]
    exact .cons (by decide) (by decide) .nil
  · intro h member
    cases List.mem_singleton.mp member
    decide

theorem incremental_fifo_agrees_two_packets : SplitsAt twoPackets rsx_init 8 0xD0100010 :=
  incremental_fifo_agrees twoPackets rsx_init 8 0xD0100010 twoPackets_jump_free twoPackets_reached

end BudokaiRuntime.Rsx
