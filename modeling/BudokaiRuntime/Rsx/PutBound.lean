import BudokaiRuntime.Rsx.Stream

-- What of guest memory a run of the parser up to PUT depends on.
namespace BudokaiRuntime.Rsx
open Guest PartialLoop Relation

def Agree (get_ea put_ea : BitVec 32) (vm vm' : GuestMem) : Prop :=
  ∀ a, get_ea.toNat ≤ a.toNat → a.toNat < put_ea.toNat → vm a = vm' a

def HeaderReached (vm : GuestMem) (get_ea put_ea q : BitVec 32) : Prop :=
  Due put_ea q ∧ ∃ headers, Stream vm get_ea q headers

def JumpFree (vm : GuestMem) (get_ea put_ea : BitVec 32) : Prop :=
  ∀ q, HeaderReached vm get_ea put_ea q → hdr_jump (rsx_r32 vm q) = false

-- A packet with arguments at or behind PUT.
def Straddles (vm : GuestMem) (put_ea q : BitVec 32) : Prop :=
  overlong vm q = false ∧ put_ea.toNat < q.toNat+4+4*(hdr_count (rsx_r32 vm q)).toNat

-- Nothing outside [GET, PUT) is executed: every jump-free memory with the same bytes
-- there has the parser make the same calls and leave the same GET.
def Confined (vm : GuestMem) (rsx : Renderer) (put_val : BitVec 32) : Prop :=
  ∀ vm', Agree (rsx_io_to_ea rsx.rsx_get_ea) (rsx_io_to_ea put_val) vm vm' →
    JumpFree vm' (rsx_io_to_ea rsx.rsx_get_ea) (rsx_io_to_ea put_val) →
    ∃ calls after after', Processes vm rsx put_val calls after ∧ Processes vm' rsx put_val calls after' ∧
      after.rsx_get_ea = after'.rsx_get_ea

section Words
variable {vm vm' : GuestMem} {get_ea put_ea p : BitVec 32}

theorem agree_word (agree : Agree get_ea put_ea vm vm') (low : get_ea.toNat ≤ p.toNat)
    (high : p.toNat+4 ≤ put_ea.toNat) : rsx_r32 vm p = rsx_r32 vm' p := by
  have size := put_ea.isLt
  have byte : ∀ k : BitVec 32, k.toNat < 4 → vm (p + k) = vm' (p + k) := by
    intro k bound
    have place : (p + k).toNat = p.toNat+k.toNat := by
      rw [BitVec.toNat_add,Nat.mod_eq_of_lt (by omega)]
    refine agree (p + k) ?_ ?_
    · omega
    · omega
  have first : vm p = vm' p := agree p low (by omega)
  rw [rsx_r32,rsx_r32,first,byte 1 (by decide),byte 2 (by decide),byte 3 (by decide)]

theorem agree_advance (same : rsx_r32 vm p = rsx_r32 vm' p) : fifo_advance vm p = fifo_advance vm' p := by
  rw [fifo_advance,fifo_advance,overlong,overlong,same]

theorem agree_calls (agree : Agree get_ea put_ea vm vm') (low : get_ea.toNat ≤ p.toNat)
    (due : Due put_ea p) (within : ¬ Straddles vm put_ea p) : header_calls vm p = header_calls vm' p := by
  have same := agree_word agree low due.1
  have long : overlong vm p = overlong vm' p := by rw [overlong,overlong,same]
  rw [header_calls,header_calls,← long]
  cases fits : overlong vm p with
  | true => rw [if_pos rfl,if_pos rfl]
  | false =>
      have ends : p.toNat+4+4*(hdr_count (rsx_r32 vm p)).toNat ≤ put_ea.toNat := by
        by_contra beyond
        exact within ⟨fits,Nat.lt_of_not_le beyond⟩
      rw [if_neg (by decide),if_neg (by decide),packet_calls,packet_calls,← same]
      refine List.map_congr_left fun i member => ?_
      have bound := List.mem_range.mp member
      have few := hdr_count_le (rsx_r32 vm p)
      have small : (BitVec.ofNat 32 i).toNat = i := Nat.mod_eq_of_lt (by omega)
      have place := packet_end p (BitVec.ofNat 32 i) due.2 (by omega)
      have word := agree_word agree (p:=p + 4 + BitVec.ofNat 32 i*4) (by omega) (by omega)
      simp only [word]

theorem agree_stream (agree : Agree get_ea put_ea vm vm') (stream : Stream vm p q headers)
    (low : get_ea.toNat ≤ p.toNat) (due : ∀ h ∈ headers, h.toNat+4 ≤ put_ea.toNat) : Stream vm' p q headers := by
  induction stream with
  | nil => exact .nil
  | @cons p _ _ inside plain _ ih =>
      have same := agree_word agree low (due p List.mem_cons_self)
      have ahead := fifo_advance_gt p vm inside
      refine .cons inside (same ▸ plain) ?_
      rw [← agree_advance same]
      exact ih (by omega) fun h member => due h (List.mem_cons_of_mem p member)

theorem Agree.symm (agree : Agree get_ea put_ea vm vm') : Agree get_ea put_ea vm' vm :=
  fun a low high => (agree a low high).symm

theorem agree_jump_free (agree : Agree get_ea put_ea vm vm') (free : JumpFree vm get_ea put_ea) :
    JumpFree vm' get_ea put_ea := by
  rintro q ⟨due,headers,stream⟩
  have early : ∀ h ∈ headers, h.toNat+4 ≤ put_ea.toNat := by
    intro h member
    have high := (stream_bounds stream h member).2.1
    have below := due.1
    omega
  have reached : HeaderReached vm get_ea put_ea q :=
    ⟨due,headers,agree_stream agree.symm stream (Nat.le_refl _) early⟩
  rw [← agree_word agree (stream_le stream) due.1]
  exact free q reached
end Words

section Reached
variable {vm : GuestMem} {get_ea put_ea : BitVec 32}

theorem jump_free_exhausts (free : JumpFree vm get_ea put_ea) :
    ∃ q headers, Stream vm get_ea q headers ∧ (∀ h ∈ headers, Due put_ea h) ∧ ¬ Due put_ea q := by
  have onward : ∀ room p headers, 0xD0200000 - p.toNat ≤ room → Stream vm get_ea p headers →
      (∀ h ∈ headers, Due put_ea h) →
      ∃ q headers, Stream vm get_ea q headers ∧ (∀ h ∈ headers, Due put_ea h) ∧ ¬ Due put_ea q := by
    intro room
    induction room with
    | zero =>
        intro p headers room stream due
        exact ⟨p,headers,stream,due,fun inside => absurd inside.2 (by omega)⟩
    | succ room ih =>
        intro p headers room stream due
        by_cases inside : Due put_ea p
        · have plain := free p ⟨inside,headers,stream⟩
          have ahead := fifo_advance_gt p vm inside.2
          refine ih (fifo_advance vm p) (headers++[p]) (by omega)
            (stream_append stream (.cons inside.2 plain .nil)) ?_
          intro h member
          rcases List.mem_append.mp member with early | last
          · exact due h early
          · cases List.mem_singleton.mp last
            exact inside
        · exact ⟨p,headers,stream,due,inside⟩
  exact onward _ get_ea [] (Nat.le_refl _) .nil fun h member => by cases member

theorem stream_header (stream : Stream vm p q headers) (member : h ∈ headers) :
    ∃ before, Stream vm p h before := by
  induction stream with
  | nil => cases member
  | cons inside plain _ ih =>
      rcases List.mem_cons.mp member with rfl | later
      · exact ⟨[],.nil⟩
      · obtain ⟨before,stream⟩ := ih later
        exact ⟨_,.cons inside plain stream⟩
end Reached

section Bytes
variable (vm : GuestMem) (p : BitVec 32)

theorem rsx_r32_low : (rsx_r32 vm p).setWidth 8 = vm (p + 3) := by
  apply BitVec.eq_of_getLsbD_eq
  intro i bound
  unfold rsx_r32
  simp (disch:=omega)

theorem last_call (fits : overlong vm p = false) (count : (hdr_count (rsx_r32 vm p)).toNat = n+1) :
    ∃ method, (header_calls vm p).getLast? = some ⟨method,rsx_r32 vm (p + 4 + BitVec.ofNat 32 n*4)⟩ := by
  have calls : header_calls vm p = packet_calls vm p := if_neg (by rw [fits]; decide)
  rw [calls,packet_calls,count,List.range_succ,List.map_append,List.map_singleton,List.getLast?_append]
  exact ⟨_,rfl⟩
end Bytes

section Flip
variable (vm : GuestMem) (put_ea p : BitVec 32)

def flipLast : GuestMem :=
  let last := p + 4 + BitVec.ofNat 32 ((hdr_count (rsx_r32 vm p)).toNat-1)*4 + 3
  Function.update vm last (vm last + 1)

theorem straddles_count (due : Due put_ea p) (straddles : Straddles vm put_ea p) :
    ∃ n, (hdr_count (rsx_r32 vm p)).toNat = n+1 := by
  refine Nat.exists_eq_succ_of_ne_zero fun none => ?_
  have beyond := straddles.2
  have below := due.1
  omega

theorem flipLast_place (inside : p.toNat < 0xD0200000) (count : (hdr_count (rsx_r32 vm p)).toNat = n+1) :
    (p + 4 + BitVec.ofNat 32 n*4 + 3).toNat = p.toNat+4+4*n+3 := by
  have few := hdr_count_le (rsx_r32 vm p)
  have small : (BitVec.ofNat 32 n).toNat = n := Nat.mod_eq_of_lt (by omega)
  have three : (3 : BitVec 32).toNat = 3 := rfl
  rw [BitVec.toNat_add,packet_end p _ inside (by omega),small,three,Nat.mod_eq_of_lt (by omega)]

theorem flipLast_agrees (due : Due put_ea p) (straddles : Straddles vm put_ea p) (get_ea : BitVec 32) :
    Agree get_ea put_ea vm (flipLast vm p) := by
  intro a low high
  obtain ⟨n,count⟩ : ∃ n, (hdr_count (rsx_r32 vm p)).toNat = n+1 :=
    straddles_count vm put_ea p due straddles
  have place := flipLast_place vm p due.2 count
  have beyond := straddles.2
  unfold flipLast
  rw [count,Nat.add_sub_cancel]
  refine (Function.update_of_ne ?_ _ _).symm
  rintro rfl
  omega

theorem flipLast_calls (due : Due put_ea p) (straddles : Straddles vm put_ea p) (before before' : List RsxCall) :
    before ++ header_calls vm p ≠ before' ++ header_calls (flipLast vm p) p := by
  obtain ⟨n,count⟩ := straddles_count vm put_ea p due straddles
  have same := agree_word (flipLast_agrees vm put_ea p due straddles p) (Nat.le_refl _) due.1
  have fits : overlong (flipLast vm p) p = false := by
    rw [overlong,← same]
    exact straddles.1
  obtain ⟨method,last⟩ := last_call vm p straddles.1 count
  obtain ⟨method',last'⟩ := last_call (flipLast vm p) p fits (same ▸ count)
  intro equal
  have ends := congrArg List.getLast? equal
  rw [List.getLast?_append,List.getLast?_append,last,last'] at ends
  have words := congrArg RsxCall.arg (Option.some.inj ends)
  have bytes := congrArg (BitVec.setWidth 8) words
  rw [rsx_r32_low,rsx_r32_low,flipLast,count,Nat.add_sub_cancel,Function.update_self] at bytes
  have moved := congrArg BitVec.toNat bytes
  have one : (1 : BitVec 8).toNat = 1 := rfl
  rw [BitVec.toNat_add] at moved
  omega
end Flip

section Results
variable {vm : GuestMem} {rsx : Renderer} {put_val : BitVec 32}
  (ahead : rsx_io_to_ea rsx.rsx_get_ea < rsx_io_to_ea put_val)
include ahead

theorem stream_processes (stream : Stream vm (rsx_io_to_ea rsx.rsx_get_ea) q headers)
    (due : ∀ h ∈ headers, Due (rsx_io_to_ea put_val) h) (out : ¬ Due (rsx_io_to_ea put_val) q) :
    Processes vm rsx put_val (streamCalls vm headers)
      {handled rsx (streamCalls vm headers) with rsx_get_ea := put_val} :=
  processes_path (BitVec.not_le.mpr ahead) (stream_runs stream (fun h member => (due h member).1) rsx []) out

theorem straddling_shows (free : JumpFree vm (rsx_io_to_ea rsx.rsx_get_ea) (rsx_io_to_ea put_val))
    (reached : HeaderReached vm (rsx_io_to_ea rsx.rsx_get_ea) (rsx_io_to_ea put_val) q)
    (straddles : Straddles vm (rsx_io_to_ea put_val) q) : ¬ Confined vm rsx put_val := by
  intro confined
  have plain := free q reached
  obtain ⟨due,headers,stream⟩ := reached
  have low := stream_le stream
  have agree := flipLast_agrees vm (rsx_io_to_ea put_val) q due straddles (rsx_io_to_ea rsx.rsx_get_ea)
  have early : ∀ h ∈ headers++[q], Due (rsx_io_to_ea put_val) h := by
    intro h member
    rcases List.mem_append.mp member with before | last
    · obtain ⟨_,high,inside⟩ := stream_bounds stream h before
      have := due.1
      exact ⟨by omega,inside⟩
    · cases List.mem_singleton.mp last
      exact due
  have whole := stream_append stream (.cons due.2 plain .nil)
  have whole' := agree_stream agree whole (Nat.le_refl _) fun h member => (early h member).1
  have ends : ¬ Due (rsx_io_to_ea put_val) (fifo_advance vm q) := by
    have beyond := straddles.2
    rw [fifo_advance,if_neg (by rw [straddles.1]; decide)]
    intro next
    have bound := next.1
    rw [packet_end q _ due.2 (hdr_count_le _)] at bound
    omega
  obtain ⟨calls,after,after',done,done',_⟩ := confined _ agree (agree_jump_free agree free)
  have one := (processes_unique done (stream_processes ahead whole early ends)).1
  have two := (processes_unique done' (stream_processes ahead whole' early ends)).1
  rw [one,streamCalls_append,streamCalls_append] at two
  have single : ∀ vm, streamCalls vm [q] = header_calls vm q := fun vm => List.append_nil _
  rw [single,single] at two
  exact flipLast_calls vm _ q due straddles _ _ two

-- The calls and GET depend on [GET, PUT) alone exactly when no packet straddles PUT.
theorem put_bound_iff (free : JumpFree vm (rsx_io_to_ea rsx.rsx_get_ea) (rsx_io_to_ea put_val)) :
    Confined vm rsx put_val ↔
      ∀ q, HeaderReached vm (rsx_io_to_ea rsx.rsx_get_ea) (rsx_io_to_ea put_val) q →
        ¬ Straddles vm (rsx_io_to_ea put_val) q := by
  constructor
  · intro confined q reached straddles
    exact straddling_shows ahead free reached straddles confined
  · intro within vm' agree _
    obtain ⟨q,headers,stream,due,out⟩ := jump_free_exhausts free
    have stream' := agree_stream agree stream (Nat.le_refl _) fun h member => (due h member).1
    have calls : streamCalls vm headers = streamCalls vm' headers := by
      refine List.flatMap_congr fun h member => ?_
      obtain ⟨low,_,_⟩ := stream_bounds stream h member
      exact agree_calls agree low (due h member) (within h ⟨due h member,stream_header stream member⟩)
    have done := stream_processes ahead stream due out
    have done' := stream_processes ahead stream' due out
    rw [← calls] at done'
    exact ⟨_,_,_,done,done',rfl⟩
end Results

-- SET_COLOR_CLEAR_VALUE at GET, with PUT behind its header and before its argument.
def halfPacket : GuestMem := commandImage [0x00041820]

theorem halfPacket_jump_free : JumpFree halfPacket (rsx_io_to_ea rsx_init.rsx_get_ea) (rsx_io_to_ea 4) := by
  rintro q ⟨due,headers,stream⟩
  have low := stream_le stream
  have get : (rsx_io_to_ea rsx_init.rsx_get_ea).toNat = 0xD0100000 := by decide
  have put : (rsx_io_to_ea 4).toNat = 0xD0100004 := by decide
  have high := due.1
  obtain rfl : q = CMD_BUF := BitVec.eq_of_toNat_eq (by show q.toNat = 0xD0100000; omega)
  decide

theorem put_bound_iff_half_packet : Confined halfPacket rsx_init 4 ↔
    ∀ q, HeaderReached halfPacket (rsx_io_to_ea rsx_init.rsx_get_ea) (rsx_io_to_ea 4) q →
      ¬ Straddles halfPacket (rsx_io_to_ea 4) q :=
  put_bound_iff (by decide) halfPacket_jump_free

theorem stale_argument_is_executed :
    ¬ ∀ (vm : GuestMem) (rsx : Renderer) (put_val : BitVec 32),
      rsx_io_to_ea rsx.rsx_get_ea < rsx_io_to_ea put_val →
      JumpFree vm (rsx_io_to_ea rsx.rsx_get_ea) (rsx_io_to_ea put_val) → Confined vm rsx put_val := by
  intro confined
  have reached : HeaderReached halfPacket (rsx_io_to_ea rsx_init.rsx_get_ea) (rsx_io_to_ea 4) CMD_BUF :=
    ⟨by decide,[],.nil⟩
  have straddles : Straddles halfPacket (rsx_io_to_ea 4) CMD_BUF := ⟨by decide,by decide⟩
  exact straddling_shows (by decide) halfPacket_jump_free reached straddles
    (confined halfPacket rsx_init 4 (by decide) halfPacket_jump_free)

end BudokaiRuntime.Rsx
