import BudokaiRuntime.Rsx.Stream

-- Where the words lie that the parser reads over a history of PUT writes.
namespace BudokaiRuntime.Rsx
open Guest PartialLoop Relation

def body_reads (vm : GuestMem) (put_ea : BitVec 32) (s : FifoState) : List (BitVec 32) :=
  let ptr := s.ptr
  if ptr + 4 ≤ put_ea ∧ ptr < CMD_BUF_END then
    let hdr := rsx_r32 vm ptr
    let count := hdr_count hdr
    if hdr = 0 ∨ hdr_jump hdr ∨ count = 0 ∨ ptr + 4 + count*4 > CMD_BUF_END then [ptr]
    else ptr :: (List.range count.toNat).map fun i => ptr + 4 + BitVec.ofNat 32 i*4
  else []

def FifoReads (vm : GuestMem) (rsx : Renderer) (put_val a : BitVec 32) : Prop :=
  ¬ rsx_io_to_ea put_val ≤ rsx_io_to_ea rsx.rsx_get_ea ∧
    ∃ s, ReflTransGen (Moves (fifo_body vm (rsx_io_to_ea put_val))) ⟨rsx_io_to_ea rsx.rsx_get_ea,rsx,[]⟩ s ∧
      a ∈ body_reads vm (rsx_io_to_ea put_val) s

def WordInside (a : BitVec 32) : Prop := 0xD0100000 ≤ a.toNat ∧ a.toNat+4 ≤ 0xD0200000

-- PUT values written one after another, each with guest memory as it then is; every
-- processing returns.
inductive FifoRun : Renderer → List (GuestMem × BitVec 32) → Renderer → Prop where
  | nil : FifoRun rsx [] rsx
  | snoc : FifoRun rsx writes middle → Processes vm middle put_val calls after →
      FifoRun rsx (writes++[(vm,put_val)]) after

def ReadsInside (writes : List (GuestMem × BitVec 32)) : Prop :=
  ∀ before vm put_val rest rsx, writes = before++(vm,put_val)::rest → FifoRun rsx_init before rsx →
    ∀ a, FifoReads vm rsx put_val a → WordInside a

-- GET is the PUT value before, 0 at first.
def lastPut (writes : List (GuestMem × BitVec 32)) : BitVec 32 := (writes.getLast?.map Prod.snd).getD 0

-- The header positions of a command stream: from GET on, packet by packet, and along JUMPs
-- into the buffer.
inductive Visited (vm : GuestMem) (get_ea put_ea : BitVec 32) : BitVec 32 → Prop where
  | start : Due put_ea get_ea → Visited vm get_ea put_ea get_ea
  | packet : Visited vm get_ea put_ea p → hdr_jump (rsx_r32 vm p) = false → Due put_ea (fifo_advance vm p) →
      Visited vm get_ea put_ea (fifo_advance vm p)
  | jump : Visited vm get_ea put_ea p → hdr_jump (rsx_r32 vm p) = true → CMD_BUF ≤ hdr_target (rsx_r32 vm p) →
      hdr_target (rsx_r32 vm p) < CMD_BUF_END → Due put_ea (hdr_target (rsx_r32 vm p)) →
      Visited vm get_ea put_ea (hdr_target (rsx_r32 vm p))

-- PUT goes on from below the buffer by less than a word, and no header starts in the last
-- three bytes of the buffer.
structure StartsInside (vm : GuestMem) (get_ea put_ea : BitVec 32) : Prop where
  low : get_ea.toNat < 0xD0100000 → put_ea.toNat < get_ea.toNat+4
  high : ∀ p, Visited vm get_ea put_ea p → p.toNat ≤ 0xD01FFFFC

section Reads
variable {vm : GuestMem} {put_ea get_ea a : BitVec 32}

theorem body_reads_due (read : a ∈ body_reads vm put_ea s) : Due put_ea s.ptr := by
  unfold body_reads at read
  dsimp only at read
  split at read
  case isTrue guard => exact (due_guard put_ea s.ptr).mp guard
  case isFalse => cases read

theorem body_reads_header (due : Due put_ea s.ptr) : s.ptr ∈ body_reads vm put_ea s := by
  unfold body_reads
  dsimp only
  rw [if_pos ((due_guard put_ea s.ptr).mpr due)]
  split
  · exact List.mem_singleton_self _
  · exact List.mem_cons_self

theorem body_reads_bounds (read : a ∈ body_reads vm put_ea s) :
    a = s.ptr ∨ s.ptr.toNat ≤ a.toNat ∧ a.toNat+4 ≤ 0xD0200000 := by
  have due := body_reads_due read
  have size := packet_end s.ptr (hdr_count (rsx_r32 vm s.ptr)) due.2 (hdr_count_le _)
  unfold body_reads at read
  dsimp only at read
  rw [if_pos ((due_guard put_ea s.ptr).mpr due)] at read
  split at read
  case isTrue => exact .inl (List.mem_singleton.mp read)
  case isFalse handles =>
    simp only [not_or] at handles
    rcases List.mem_cons.mp read with header | argument
    · exact .inl header
    · obtain ⟨i,member,rfl⟩ := List.mem_map.mp argument
      have bound := List.mem_range.mp member
      have few := hdr_count_le (rsx_r32 vm s.ptr)
      have small : (BitVec.ofNat 32 i).toNat = i := Nat.mod_eq_of_lt (by omega)
      have place := packet_end s.ptr (BitVec.ofNat 32 i) due.2 (by omega)
      have limit : (s.ptr + 4 + hdr_count (rsx_r32 vm s.ptr)*4).toNat ≤ CMD_BUF_END.toNat :=
        BitVec.not_lt.mp handles.2.2.2
      have ends : CMD_BUF_END.toNat = 0xD0200000 := rfl
      omega

theorem moves_visited (moves : ReflTransGen (Moves (fifo_body vm put_ea)) ⟨get_ea,rsx,[]⟩ s)
    (due : Due put_ea s.ptr) : Visited vm get_ea put_ea s.ptr := by
  induction moves with
  | refl => exact .start due
  | @tail t u _ last ih =>
      have from_ : Due put_ea t.ptr := by
        by_contra out
        have stuck : fifo_body vm put_ea t = none := body_exit out
        exact absurd (stuck.symm.trans last) (by simp)
      have visited := ih from_
      cases jumps : hdr_jump (rsx_r32 vm t.ptr) with
      | false =>
          have round := (body_header from_ jumps).symm.trans last
          cases Option.some.inj round
          exact .packet visited jumps due
      | true =>
          have round := (body_jump from_ jumps).symm.trans last
          split at round
          · cases round
          case isFalse inside =>
            obtain ⟨low,high⟩ := not_or.mp inside
            cases Option.some.inj round
            exact .jump visited jumps (BitVec.not_lt.mp low) (BitVec.not_le.mp high) due

theorem visited_due (visited : Visited vm get_ea put_ea p) : Due put_ea p := by
  cases visited with
  | start due => exact due
  | packet _ _ due => exact due
  | jump _ _ _ _ due => exact due

theorem visited_start (visited : Visited vm get_ea put_ea p) : Due put_ea get_ea := by
  induction visited with
  | start due => exact due
  | packet _ _ _ ih => exact ih
  | jump _ _ _ _ _ ih => exact ih

theorem visited_moves (rsx : Renderer) (visited : Visited vm get_ea put_ea p) :
    ∃ s, ReflTransGen (Moves (fifo_body vm put_ea)) ⟨get_ea,rsx,[]⟩ s ∧ s.ptr = p := by
  induction visited with
  | start _ => exact ⟨_,.refl,rfl⟩
  | packet before plain _ ih =>
      obtain ⟨s,moves,rfl⟩ := ih
      exact ⟨_,moves.tail (body_header (visited_due before) plain),rfl⟩
  | jump before jumps low high _ ih =>
      obtain ⟨s,moves,rfl⟩ := ih
      refine ⟨_,moves.tail (jump_runs (visited_due before) jumps low high s.rsx s.calls),rfl⟩

theorem visited_low (start : 0xD0100000 ≤ get_ea.toNat) (visited : Visited vm get_ea put_ea p) :
    0xD0100000 ≤ p.toNat := by
  induction visited with
  | start _ => exact start
  | packet before _ _ ih =>
      have ahead := fifo_advance_gt _ vm (visited_due before).2
      omega
  | jump _ _ low _ _ _ => exact low

-- With PUT at most at the end of the buffer the last three bytes are out of reach.
theorem visited_below_put (bounded : put_ea.toNat ≤ 0xD0200000) (visited : Visited vm get_ea put_ea p) :
    p.toNat ≤ 0xD01FFFFC := by
  have due := (visited_due visited).1
  omega
end Reads

section Step
variable (vm : GuestMem) (rsx : Renderer) (put_val : BitVec 32)

theorem due_ahead (due : Due put_ea get_ea) : ¬ put_ea ≤ get_ea := by
  intro behind
  have reach : put_ea.toNat ≤ get_ea.toNat := behind
  have below := due.1
  omega

theorem visited_read (visited : Visited vm (rsx_io_to_ea rsx.rsx_get_ea) (rsx_io_to_ea put_val) p) :
    FifoReads vm rsx put_val p := by
  obtain ⟨s,moves,rfl⟩ := visited_moves rsx visited
  exact ⟨due_ahead (visited_start visited),s,moves,body_reads_header (visited_due visited)⟩

theorem fifo_reads_inside_step : (∀ a, FifoReads vm rsx put_val a → WordInside a) ↔
    StartsInside vm (rsx_io_to_ea rsx.rsx_get_ea) (rsx_io_to_ea put_val) := by
  constructor
  · intro inside
    constructor
    · intro outside
      by_contra onward
      have due : Due (rsx_io_to_ea put_val) (rsx_io_to_ea rsx.rsx_get_ea) := ⟨by omega,by omega⟩
      have first := (inside _ (visited_read vm rsx put_val (.start due))).1
      omega
    · intro p visited
      have last := (inside p (visited_read vm rsx put_val visited)).2
      omega
  · intro ⟨low,high⟩ a ⟨_,s,moves,read⟩
    have due := body_reads_due read
    have visited := moves_visited moves due
    have start : 0xD0100000 ≤ (rsx_io_to_ea rsx.rsx_get_ea).toNat := by
      by_contra outside
      have short := low (by omega)
      have below := (visited_start visited).1
      omega
    have above := visited_low start visited
    have below := high s.ptr visited
    rcases body_reads_bounds read with rfl | ⟨behind,before⟩
    · exact ⟨above,by omega⟩
    · exact ⟨by omega,before⟩
end Step

theorem fifo_run_get (run : FifoRun rsx_init writes rsx) : rsx.rsx_get_ea = lastPut writes := by
  cases run with
  | nil => rfl
  | snoc _ done =>
      rw [processes_get done,lastPut,List.getLast?_concat]
      rfl

theorem puts_inside_read_inside (writes : List (GuestMem × BitVec 32)) (puts : ∀ write ∈ writes,
    0xD0100000 ≤ (rsx_io_to_ea write.2).toNat ∧ (rsx_io_to_ea write.2).toNat ≤ 0xD0200000) : ReadsInside writes := by
  intro before vm put_val rest rsx split run
  have here := puts (vm,put_val) (by simp [split])
  refine (fifo_reads_inside_step vm rsx put_val).mpr ⟨fun outside => ?_,fun p => visited_below_put here.2⟩
  have get : 0xD0100000 ≤ (rsx_io_to_ea rsx.rsx_get_ea).toNat := by
    cases run with
    | nil => decide
    | snoc _ done =>
        rw [processes_get done]
        exact (puts _ (by rw [split]; exact List.mem_append_left _ (List.mem_append_right _ List.mem_cons_self))).1
  omega

theorem fifo_reads_inside_iff (writes : List (GuestMem × BitVec 32)) : ReadsInside writes ↔
    ∀ before vm put_val rest, writes = before++(vm,put_val)::rest → (∃ rsx, FifoRun rsx_init before rsx) →
      StartsInside vm (rsx_io_to_ea (lastPut before)) (rsx_io_to_ea put_val) := by
  constructor
  · intro inside before vm put_val rest split ⟨rsx,run⟩
    rw [← fifo_run_get run]
    exact (fifo_reads_inside_step vm rsx put_val).mp (inside before vm put_val rest rsx split run)
  · intro starts before vm put_val rest rsx split run
    refine (fifo_reads_inside_step vm rsx put_val).mpr ?_
    rw [fifo_run_get run]
    exact starts before vm put_val rest split ⟨rsx,run⟩

-- PUT to 0x02000000, which only moves GET there, then one word further.
def strayPuts : List (GuestMem × BitVec 32) := [(fun _ => 0,0x02000000),(fun _ => 0,0x02000004)]

theorem stray_put_reads_outside : ¬ ∀ writes, ReadsInside writes := by
  intro inside
  have first : Processes (fun _ => 0) rsx_init 0x02000000 [] {rsx_init with rsx_get_ea := 0x02000000} :=
    (processes_behind _ _ _ (by decide)).mpr ⟨rfl,rfl⟩
  have run : FifoRun rsx_init ([]++[(fun _ => 0,0x02000000)]) {rsx_init with rsx_get_ea := 0x02000000} :=
    .snoc .nil first
  have due : Due (rsx_io_to_ea 0x02000004) (rsx_io_to_ea 0x02000000) := by decide
  have word := inside strayPuts _ _ 0x02000004 [] _ rfl run _ (visited_read _ _ _ (.start due))
  exact absurd word.1 (by decide)

end BudokaiRuntime.Rsx
