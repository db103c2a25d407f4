import BudokaiRuntime.Rsx.Fifo

-- Jump-free stretches of the command buffer: the headers met from one address to another.
namespace BudokaiRuntime.Rsx
open Guest PartialLoop Relation

inductive Stream (vm : GuestMem) : BitVec 32 → BitVec 32 → List (BitVec 32) → Prop where
  | nil : Stream vm p p []
  | cons : p.toNat < 0xD0200000 → hdr_jump (rsx_r32 vm p) = false → Stream vm (fifo_advance vm p) q headers →
      Stream vm p q (p::headers)

def streamCalls (vm : GuestMem) (headers : List (BitVec 32)) : List RsxCall := headers.flatMap (header_calls vm)

section Shape
variable {vm : GuestMem} {p q r : BitVec 32} {headers others : List (BitVec 32)}

theorem streamCalls_append : streamCalls vm (headers++others) = streamCalls vm headers ++ streamCalls vm others :=
  List.flatMap_append

theorem stream_append (one : Stream vm p q headers) (two : Stream vm q r others) :
    Stream vm p r (headers++others) := by
  induction one with
  | nil => exact two
  | cons inside plain _ ih => exact .cons inside plain (ih two)

theorem stream_le (stream : Stream vm p q headers) : p.toNat ≤ q.toNat := by
  induction stream with
  | nil => exact Nat.le_refl _
  | @cons p _ _ inside _ _ ih =>
      have ahead := fifo_advance_gt p vm inside
      omega

theorem stream_bounds (stream : Stream vm p q headers) :
    ∀ h ∈ headers, p.toNat ≤ h.toNat ∧ h.toNat+4 ≤ q.toNat ∧ h.toNat < 0xD0200000 := by
  induction stream with
  | nil =>
      intro h member
      cases member
  | @cons p _ _ inside _ rest ih =>
      have ahead := fifo_advance_gt p vm inside
      have reach := stream_le rest
      intro h member
      rcases List.mem_cons.mp member with rfl | later
      · exact ⟨Nat.le_refl _,by omega,inside⟩
      · obtain ⟨low,high,within⟩ := ih h later
        exact ⟨by omega,high,within⟩

theorem stream_cut (put_ea : BitVec 32) (stream : Stream vm p q headers) :
    ∃ cut before rest, headers = before++rest ∧ Stream vm p cut before ∧
      (∀ h ∈ before, h.toNat+4 ≤ put_ea.toNat) ∧ (∀ h ∈ rest, put_ea.toNat < h.toNat+4) ∧
      (rest = [] ∧ cut = q ∨ put_ea.toNat < cut.toNat+4) := by
  induction stream with
  | @nil p =>
      refine ⟨p,[],[],rfl,.nil,?_,?_,.inl ⟨rfl,rfl⟩⟩
      · intro h member
        cases member
      · intro h member
        cases member
  | @cons p _ _ inside plain stream ih =>
      by_cases due : p.toNat+4 ≤ put_ea.toNat
      · obtain ⟨cut,before,rest,rfl,front,below,beyond,last⟩ := ih
        refine ⟨cut,p::before,rest,rfl,.cons inside plain front,?_,beyond,last⟩
        intro h member
        rcases List.mem_cons.mp member with rfl | later
        · exact due
        · exact below h later
      · have bounds := stream_bounds (.cons inside plain stream)
        refine ⟨p,[],_,rfl,.nil,?_,?_,.inr (by omega)⟩
        · intro h member
          cases member
        · intro h member
          have low := (bounds h member).1
          omega

theorem calls_empty (fits : overlong vm p = false) : header_calls vm p = [] ↔ hdr_count (rsx_r32 vm p) = 0 := by
  have calls : header_calls vm p = packet_calls vm p := if_neg (by rw [fits]; decide)
  rw [calls,packet_calls,List.map_eq_nil_iff,List.range_eq_nil,← BitVec.toNat_inj]
  rfl

theorem streamCalls_empty (fit : ∀ h ∈ headers, overlong vm h = false) :
    streamCalls vm headers = [] ↔ ∀ h ∈ headers, hdr_count (rsx_r32 vm h) = 0 := by
  rw [streamCalls,List.flatMap_eq_nil_iff]
  exact forall₂_congr fun h member => calls_empty (fit h member)
end Shape

section Runs
variable {vm : GuestMem} {put_ea : BitVec 32}

theorem stream_runs (stream : Stream vm p q headers) (due : ∀ h ∈ headers, h.toNat+4 ≤ put_ea.toNat)
    (rsx : Renderer) (calls : List RsxCall) :
    ReflTransGen (Moves (fifo_body vm put_ea)) ⟨p,rsx,calls⟩
      ⟨q,handled rsx (streamCalls vm headers),calls ++ streamCalls vm headers⟩ := by
  induction stream generalizing rsx calls with
  | nil =>
      rw [streamCalls,List.flatMap_nil,List.append_nil]
      exact .refl
  | @cons p _ rest inside plain stream ih =>
      have round : fifo_body vm put_ea ⟨p,rsx,calls⟩ = some
          ⟨fifo_advance vm p,handled rsx (header_calls vm p),calls ++ header_calls vm p⟩ :=
        body_header ⟨due p List.mem_cons_self,inside⟩ plain
      have later := ih (fun h member => due h (List.mem_cons_of_mem p member))
        (handled rsx (header_calls vm p)) (calls ++ header_calls vm p)
      rw [← handled_append,List.append_assoc] at later
      exact .head round later

theorem jump_runs (due : Due put_ea j) (jumps : hdr_jump (rsx_r32 vm j) = true)
    (low : CMD_BUF ≤ hdr_target (rsx_r32 vm j)) (high : hdr_target (rsx_r32 vm j) < CMD_BUF_END)
    (rsx : Renderer) (calls : List RsxCall) :
    Moves (fifo_body vm put_ea) ⟨j,rsx,calls⟩ ⟨hdr_target (rsx_r32 vm j),rsx,calls⟩ := by
  have round := body_jump (s:=⟨j,rsx,calls⟩) due jumps
  have inside : ¬ (hdr_target (rsx_r32 vm j) < CMD_BUF ∨ hdr_target (rsx_r32 vm j) ≥ CMD_BUF_END) :=
    not_or.mpr ⟨BitVec.not_lt.mpr low,BitVec.not_le.mpr high⟩
  rw [if_neg inside] at round
  exact round
end Runs

section Results
variable {vm : GuestMem} {rsx : Renderer} {put_val : BitVec 32}

theorem processes_unique (one : Processes vm rsx put_val calls after) (two : Processes vm rsx put_val calls' after') :
    calls = calls' ∧ after = after' := by
  by_cases behind : rsx_io_to_ea put_val ≤ rsx_io_to_ea rsx.rsx_get_ea
  · rw [processes_behind vm rsx put_val behind] at one two
    exact ⟨one.1.trans two.1.symm,one.2.trans two.2.symm⟩
  · rw [processes_ahead vm rsx put_val behind] at one two
    obtain ⟨s,exits,rfl,rfl⟩ := one
    obtain ⟨t,exits',rfl,rfl⟩ := two
    cases exits_unique exits exits'
    exact ⟨rfl,rfl⟩

theorem processes_get (done : Processes vm rsx put_val calls after) : after.rsx_get_ea = put_val := by
  by_cases behind : rsx_io_to_ea put_val ≤ rsx_io_to_ea rsx.rsx_get_ea
  · rw [processes_behind vm rsx put_val behind] at done
    rw [done.2]
  · rw [processes_ahead vm rsx put_val behind] at done
    obtain ⟨s,_,_,rfl⟩ := done
    rfl

theorem processes_path (ahead : ¬ rsx_io_to_ea put_val ≤ rsx_io_to_ea rsx.rsx_get_ea)
    (path : ReflTransGen (Moves (fifo_body vm (rsx_io_to_ea put_val))) ⟨rsx_io_to_ea rsx.rsx_get_ea,rsx,[]⟩
      ⟨q,handled rsx calls,calls⟩) (out : ¬ Due (rsx_io_to_ea put_val) q) :
    Processes vm rsx put_val calls {handled rsx calls with rsx_get_ea := put_val} :=
  (processes_ahead vm rsx put_val ahead).mpr ⟨_,⟨path,body_exit out⟩,rfl,rfl⟩
end Results

end BudokaiRuntime.Rsx
