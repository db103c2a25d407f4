import BudokaiRuntime.Guest.Words
import BudokaiRuntime.Rsx.Incremental

-- Command packets as the guest writes them into the buffer and kicks them off through PUT.
namespace BudokaiRuntime.Rsx
open Guest

structure Packet where
  method : BitVec 32
  no_inc : Bool
  args : List (BitVec 32)
  method_fits : method.toNat < 2^18
  args_fit : args.length ≤ 0x7FF

def Packet.header (p : Packet) : BitVec 32 :=
  p.method ||| BitVec.ofNat 32 p.args.length <<< 18 ||| if p.no_inc then 0x40000000 else 0

def Packet.words (p : Packet) : List (BitVec 32) := p.header::p.args

def Packet.calls (p : Packet) : List RsxCall :=
  p.args.mapIdx fun i arg => ⟨if p.no_inc then p.method else p.method + BitVec.ofNat 32 i*4,arg⟩

-- The guest stores words one after another, then PUT; `put` is how it names an address.
def store_words (fuel : Nat) (m : Machine) (a : BitVec 32) : List (BitVec 32) → Option Machine
  | [] => some m
  | w::words => (vm_write32 fuel m (a.setWidth 64) w).bind fun m => store_words fuel m (a + 4) words

def submit (fuel : Nat) (put : BitVec 32 → BitVec 32) (m : Machine) (packets : List Packet) : Option Machine :=
  let words := packets.flatMap Packet.words
  let g := rsx_io_to_ea m.rsx.rsx_get_ea
  (store_words fuel m g words).bind fun m =>
    vm_write32 fuel m (RSX_PUT.setWidth 64) (put (g + BitVec.ofNat 32 words.length*4))

def submit_all (fuel : Nat) (put : BitVec 32 → BitVec 32) : Machine → List (List Packet) → Option Machine
  | m,[] => some m
  | m,packets::rest => (submit fuel put m packets).bind fun m => submit_all fuel put m rest

def Laid (vm : GuestMem) (a : BitVec 32) : List (BitVec 32) → Prop
  | [] => True
  | w::words => rsx_r32 vm a = w ∧ Laid vm (a + 4) words

section Header
variable (p : Packet)

theorem method_bit (high : 18 ≤ i) : p.method.getLsbD i = false :=
  Nat.testBit_lt_two_pow (Nat.lt_of_lt_of_le p.method_fits (Nat.pow_le_pow_right (by decide) high))

theorem count_bit (high : 11 ≤ i) : (BitVec.ofNat 32 p.args.length).getLsbD i = false := by
  have fits := p.args_fit
  refine Nat.testBit_lt_two_pow (Nat.lt_of_lt_of_le ?_ (Nat.pow_le_pow_right (by decide) high))
  rw [BitVec.toNat_ofNat]
  omega

theorem header_bit (bound : i < 32) : p.header.getLsbD i =
    if i < 18 then p.method.getLsbD i
    else if i < 29 then (BitVec.ofNat 32 p.args.length).getLsbD (i-18)
    else p.no_inc && decide (i = 30) := by
  have flag : (if p.no_inc then 0x40000000 else 0 : BitVec 32).getLsbD i = (p.no_inc && decide (i = 30)) := by
    cases p.no_inc with
    | false => exact BitVec.getLsbD_zero
    | true => exact (show ∀ j < 32, (0x40000000 : BitVec 32).getLsbD j = decide (j = 30) by decide) i bound
  rw [Packet.header,BitVec.getLsbD_or,BitVec.getLsbD_or,BitVec.getLsbD_shiftLeft,flag]
  by_cases low : i < 18
  · simp [low,show i ≠ 30 by omega]
  · rw [method_bit p (by omega)]
    by_cases middle : i < 29
    · simp [low,middle,bound,show i ≠ 30 by omega]
    · simp [low,middle,count_bit p (show 11 ≤ i-18 by omega)]

theorem header_method : hdr_method p.header = p.method := by
  apply BitVec.eq_of_getLsbD_eq
  intro i bound
  have mask : (0x3FFFF : BitVec 32).getLsbD i = decide (i < 18) :=
    (show ∀ j < 32, (0x3FFFF : BitVec 32).getLsbD j = decide (j < 18) by decide) i bound
  rw [hdr_method,BitVec.getLsbD_and,mask,header_bit p bound]
  by_cases low : i < 18
  · simp [low]
  · rw [decide_eq_false low,Bool.and_false,method_bit p (by omega)]

theorem header_count : hdr_count p.header = BitVec.ofNat 32 p.args.length := by
  apply BitVec.eq_of_getLsbD_eq
  intro i bound
  have mask : (0x7FF : BitVec 32).getLsbD i = decide (i < 11) :=
    (show ∀ j < 32, (0x7FF : BitVec 32).getLsbD j = decide (j < 11) by decide) i bound
  rw [hdr_count,BitVec.getLsbD_and,mask,BitVec.getLsbD_ushiftRight]
  by_cases low : i < 11
  · rw [header_bit p (by omega),if_neg (by omega),if_pos (by omega),Nat.add_sub_cancel_left,decide_eq_true low,
      Bool.and_true]
  · rw [decide_eq_false low,Bool.and_false,count_bit p (by omega)]

theorem single_bit (x : BitVec 32) (i : Nat) (bound : i < 32) : (x &&& BitVec.twoPow 32 i != 0) = x.getLsbD i := by
  have picked (j : Nat) : (x &&& BitVec.twoPow 32 i).getLsbD j = (x.getLsbD j && (decide (i < 32) && decide (i = j))) := by
    rw [BitVec.getLsbD_and,BitVec.getLsbD_twoPow]
  have zero_bit (j : Nat) : (0 : BitVec 32).getLsbD j = false := BitVec.getLsbD_zero
  cases bit : x.getLsbD i with
  | true =>
      refine bne_iff_ne.mpr fun zero => ?_
      have one := picked i
      rw [zero,bit,decide_eq_true bound,decide_eq_true rfl,zero_bit] at one
      cases one
  | false =>
      refine bne_eq_false_iff_eq.mpr (BitVec.eq_of_getLsbD_eq fun j inside => ?_)
      rw [picked,zero_bit]
      by_cases same : i = j
      · rw [← same,bit,Bool.false_and]
      · rw [decide_eq_false same,Bool.and_false,Bool.and_false]

theorem header_plain : hdr_jump p.header = false := by
  have mask : (0x20000000 : BitVec 32) = BitVec.twoPow 32 29 := rfl
  rw [hdr_jump,mask,single_bit p.header 29 (by decide),header_bit p (by decide)]
  simp

theorem header_no_inc : hdr_no_inc p.header = p.no_inc := by
  have mask : (0x40000000 : BitVec 32) = BitVec.twoPow 32 30 := rfl
  rw [hdr_no_inc,mask,single_bit p.header 30 (by decide),header_bit p (by decide)]
  simp
end Header

section Parsing
variable {vm : GuestMem} {a : BitVec 32} {words : List (BitVec 32)}

theorem words_on (a : BitVec 32) (n k : Nat) :
    a + BitVec.ofNat 32 (n+k)*4 = a + BitVec.ofNat 32 n*4 + BitVec.ofNat 32 k*4 := by
  apply BitVec.eq_of_toNat_eq
  simp only [BitVec.toNat_add,BitVec.toNat_mul,BitVec.toNat_ofNat,four_toNat]
  omega

theorem words_next (a : BitVec 32) (n : Nat) : a + BitVec.ofNat 32 (n+1)*4 = a + 4 + BitVec.ofNat 32 n*4 := by
  rw [Nat.add_comm,words_on]
  rfl

theorem laid_word (laid : Laid vm a words) (i : Nat) (bound : i < words.length) :
    rsx_r32 vm (a + BitVec.ofNat 32 i*4) = words[i] := by
  induction words generalizing a i with
  | nil => cases bound
  | cons w words ih =>
      cases i with
      | zero => simpa using laid.1
      | succ i =>
          rw [words_next]
          exact ih laid.2 i (Nat.lt_of_succ_lt_succ bound)

theorem laid_append {one two : List (BitVec 32)} (laid : Laid vm a (one ++ two)) :
    Laid vm a one ∧ Laid vm (a + BitVec.ofNat 32 one.length*4) two := by
  induction one generalizing a with
  | nil => exact ⟨trivial,by simpa using laid⟩
  | cons w one ih =>
      obtain ⟨front,back⟩ := ih laid.2
      rw [List.length_cons,words_next]
      exact ⟨⟨laid.1,front⟩,back⟩

theorem count_toNat (p : Packet) : (BitVec.ofNat 32 p.args.length).toNat = p.args.length := by
  have fits := p.args_fit
  rw [BitVec.toNat_ofNat]
  omega

theorem laid_calls (p : Packet) (laid : Laid vm a p.words) : packet_calls vm a = p.calls := by
  obtain ⟨header,args⟩ := laid
  unfold packet_calls Packet.calls
  dsimp only
  rw [header,header_method,header_count,header_no_inc,count_toNat]
  refine List.ext_getElem (by simp) fun i left right => ?_
  simp only [List.getElem_map,List.getElem_range,List.getElem_mapIdx]
  rw [laid_word args i (by simpa using left)]

theorem laid_stream (packets : List Packet) (laid : Laid vm a (packets.flatMap Packet.words))
    (room : a.toNat + 4*(packets.flatMap Packet.words).length ≤ 0xD0200000) : ∃ headers,
      Stream vm a (a + BitVec.ofNat 32 (packets.flatMap Packet.words).length*4) headers ∧
        streamCalls vm headers = packets.flatMap Packet.calls := by
  induction packets generalizing a with
  | nil => exact ⟨[],by simpa using Stream.nil,rfl⟩
  | cons p packets ih =>
      rw [List.flatMap_cons] at laid room ⊢
      obtain ⟨here,later⟩ := laid_append laid
      have size : p.words.length = p.args.length + 1 := rfl
      rw [List.length_append,size] at room
      have fits := p.args_fit
      have header : rsx_r32 vm a = p.header := here.1
      have inside : a.toNat < 0xD0200000 := by omega
      have short : overlong vm a = false := by
        rw [overlong,header,header_count,count_toNat]
        exact decide_eq_false (by omega)
      have next : fifo_advance vm a = a + BitVec.ofNat 32 p.words.length*4 := by
        rw [fifo_advance,short,header,header_count,size,words_next]
        rfl
      have reach : (a + BitVec.ofNat 32 p.words.length*4).toNat = a.toNat + 4*(p.args.length+1) := by
        rw [← next,fifo_advance,short,if_neg Bool.false_ne_true,packet_end a _ inside (hdr_count_le _),header,
          header_count,count_toNat]
        omega
      obtain ⟨headers,stream,calls⟩ := ih later (by rw [reach]; omega)
      refine ⟨a::headers,?_,?_⟩
      · rw [List.length_append,words_on]
        refine .cons inside (by rw [header,header_plain]) ?_
        rw [next]
        exact stream
      · have here_calls : header_calls vm a = p.calls := by
          rw [header_calls,short]
          exact laid_calls p here
        rw [streamCalls,List.flatMap_cons,List.flatMap_cons,here_calls]
        exact congrArg (p.calls ++ ·) calls
end Parsing

section Storing
variable {m : Machine} {a : BitVec 32}

def put_words (vm : GuestMem) (a : BitVec 32) : List (BitVec 32) → GuestMem
  | [] => vm
  | w::words => put_words (vm.put32 a w) (a + 4) words

theorem r32_eq (vm : GuestMem) (a : BitVec 32) : rsx_r32 vm a = vm.be32 a := by
  have wide : (a.setWidth 64).setWidth 32 = a := BitVec.setWidth_setWidth_of_le a (by decide)
  have read := vm_read32_eq vm (a.setWidth 64)
  rw [vm_read32,wide] at read
  exact read

theorem buffer_plain (low : 0xD0100000 ≤ a.toNat) : a ∉ RSX_PUT::cells := by
  intro cell
  have small : ∀ c ∈ RSX_PUT::cells, c.toNat < 0x300000 := by simp [cells]
  have below := small a cell
  omega

theorem store_words_plain (fuel : Nat) (words : List (BitVec 32)) (low : 0xD0100000 ≤ a.toNat)
    (room : a.toNat + 4*words.length ≤ 0xD0200000) :
    store_words fuel m a words = some {m with vm := put_words m.vm a words} := by
  induction words generalizing m a with
  | nil => rfl
  | cons w words ih =>
      have wide : (a.setWidth 64).setWidth 32 = a := BitVec.setWidth_setWidth_of_le a (by decide)
      have plain : (a.setWidth 64).setWidth 32 ∉ RSX_PUT::cells := by
        rw [wide]
        exact buffer_plain low
      rw [List.length_cons] at room
      have next : (a + 4).toNat = a.toNat + 4 := next_header a (by omega)
      rw [store_words,write32_plain plain,Option.bind_some,wide]
      rw [ih (by omega) (by omega)]
      rfl

theorem put_words_below (words : List (BitVec 32)) (vm : GuestMem) (b : BitVec 32) (below : b.toNat + 4 ≤ a.toNat)
    (room : a.toNat + 4*words.length ≤ 0xD0200000) : rsx_r32 (put_words vm a words) b = rsx_r32 vm b := by
  induction words generalizing vm a with
  | nil => rfl
  | cons w words ih =>
      rw [List.length_cons] at room
      have next : (a + 4).toNat = a.toNat + 4 := next_header a (by omega)
      rw [put_words,ih _ (by omega) (by omega),r32_eq,r32_eq]
      refine be32_put32_clear ?_
      constructor
      · rw [BitVec.toNat_sub]
        omega
      · rw [BitVec.toNat_sub]
        omega

theorem put_words_laid (words : List (BitVec 32)) (vm : GuestMem) (room : a.toNat + 4*words.length ≤ 0xD0200000) :
    Laid (put_words vm a words) a words := by
  induction words generalizing vm a with
  | nil => exact trivial
  | cons w words ih =>
      rw [List.length_cons] at room
      have next : (a + 4).toNat = a.toNat + 4 := next_header a (by omega)
      refine ⟨?_,ih _ (by omega)⟩
      rw [put_words,put_words_below words _ a (by omega) (by omega),r32_eq,be32_put32]
end Storing

-- A way of naming the addresses of the buffer to PUT: the address itself, or its IO offset.
def Names (put : BitVec 32 → BitVec 32) : Prop := ∀ a, 0xD0100000 ≤ a.toNat → a.toNat ≤ 0xD0200000 → rsx_io_to_ea (put a) = a

theorem names_self : Names id := by
  intro a low high
  refine if_neg (BitVec.not_lt.mpr ?_)
  show 0x1000000 ≤ a.toNat
  omega

theorem names_offset : Names fun a => a - CMD_BUF := by
  intro a low high
  have base : CMD_BUF.toNat = 0xD0100000 := rfl
  have small : a - CMD_BUF < 0x1000000 := by
    show (a - CMD_BUF).toNat < 0x1000000
    rw [BitVec.toNat_sub,base]
    omega
  rw [rsx_io_to_ea,if_pos small,BitVec.add_comm,BitVec.sub_add_cancel]

section Submitting
variable {put : BitVec 32 → BitVec 32} {m : Machine}

theorem kick (m : Machine) (val : BitVec 32) (done : Processes m.vm m.rsx val calls after) :
    ∃ fuel vm, vm_write32 fuel m (RSX_PUT.setWidth 64) val = some ⟨vm,after⟩ := by
  obtain ⟨fuel,ran⟩ := done
  have chain : chain_val RSX_PUT val = val := by
    rw [chain_val,if_neg fun both => absurd both.1 (by decide),if_neg fun both => absurd both.1 (by decide)]
  refine ⟨fuel,(m.vm.put32 0 val).put32 RSX_PUT val,?_⟩
  have wide : (RSX_PUT.setWidth 64).setWidth 32 = RSX_PUT := rfl
  unfold vm_write32
  dsimp only
  rw [wide,chain,if_neg fun both => absurd both.1 (by decide),if_pos rfl,write_put,ran]
  rfl

-- One submission: every packet is handled, in order, once.
theorem submit_handles (names : Names put) (m : Machine) (packets : List Packet)
    (low : 0xD0100000 ≤ (rsx_io_to_ea m.rsx.rsx_get_ea).toNat)
    (room : (rsx_io_to_ea m.rsx.rsx_get_ea).toNat + 4*(packets.flatMap Packet.words).length ≤ 0xD0200000) :
    ∃ fuel after get, submit fuel put m packets = some after ∧
      after.rsx = {handled m.rsx (packets.flatMap Packet.calls) with rsx_get_ea := get} ∧
      (rsx_io_to_ea get).toNat =
        (rsx_io_to_ea m.rsx.rsx_get_ea).toNat + 4*(packets.flatMap Packet.words).length := by
  generalize start : rsx_io_to_ea m.rsx.rsx_get_ea = g at low room
  generalize count : (packets.flatMap Packet.words).length = n at room
  have reach : (g + BitVec.ofNat 32 n*4).toNat = g.toNat + 4*n := by
    rw [BitVec.toNat_add,BitVec.toNat_mul,BitVec.toNat_ofNat,four_toNat]
    omega
  have target : rsx_io_to_ea (put (g + BitVec.ofNat 32 n*4)) = g + BitVec.ofNat 32 n*4 :=
    names _ (by omega) (by omega)
  obtain ⟨headers,stream,calls⟩ := laid_stream packets (put_words_laid _ m.vm (count ▸ room)) (count ▸ room)
  rw [count] at stream
  have due : ∀ h ∈ headers, Due (rsx_io_to_ea (put (g + BitVec.ofNat 32 n*4))) h := by
    intro h member
    obtain ⟨_,high,inside⟩ := stream_bounds stream h member
    rw [target]
    exact ⟨high,inside⟩
  have out : ¬ Due (rsx_io_to_ea (put (g + BitVec.ofNat 32 n*4))) (g + BitVec.ofNat 32 n*4) := by
    rw [target]
    rintro ⟨below,_⟩
    omega
  subst start
  have done := stretch_processes m.rsx stream due out
  rw [calls] at done
  obtain ⟨fuel,vm,ran⟩ := kick ⟨put_words m.vm _ (packets.flatMap Packet.words),m.rsx⟩ _ done
  refine ⟨fuel,⟨vm,_⟩,put (rsx_io_to_ea m.rsx.rsx_get_ea + BitVec.ofNat 32 n*4),?_,rfl,?_⟩
  · unfold submit
    dsimp only
    rw [store_words_plain fuel _ low (count ▸ room),Option.bind_some,count,ran]
  · rw [target,reach]

theorem store_words_more {words : List (BitVec 32)} (went : store_words n m a words = some after) (more : n ≤ k) :
    store_words k m a words = some after := by
  induction words generalizing m a with
  | nil => exact went
  | cons w words ih =>
      obtain ⟨mid,one,rest⟩ := Option.bind_eq_some_iff.mp went
      exact Option.bind_eq_some_iff.mpr ⟨mid,write32_more one more,ih rest⟩

theorem submit_more (went : submit n put m packets = some after) (more : n ≤ k) :
    submit k put m packets = some after := by
  obtain ⟨mid,stored,kicked⟩ := Option.bind_eq_some_iff.mp went
  exact Option.bind_eq_some_iff.mpr ⟨mid,store_words_more stored more,write32_more kicked more⟩

theorem submit_all_more {batches : List (List Packet)} (went : submit_all n put m batches = some after) (more : n ≤ k) :
    submit_all k put m batches = some after := by
  induction batches generalizing m with
  | nil => exact went
  | cons packets batches ih =>
      obtain ⟨mid,one,rest⟩ := Option.bind_eq_some_iff.mp went
      exact Option.bind_eq_some_iff.mpr ⟨mid,submit_more one more,ih rest⟩

-- Packets are handled once each and in order, however they are split into submissions.
theorem submissions_handled (names : Names put) (m : Machine) (batches : List (List Packet))
    (low : 0xD0100000 ≤ (rsx_io_to_ea m.rsx.rsx_get_ea).toNat)
    (room : (rsx_io_to_ea m.rsx.rsx_get_ea).toNat + 4*(batches.flatten.flatMap Packet.words).length ≤ 0xD0200000) :
    ∃ fuel after get, submit_all fuel put m batches = some after ∧
      after.rsx = {handled m.rsx (batches.flatten.flatMap Packet.calls) with rsx_get_ea := get} ∧
      (rsx_io_to_ea get).toNat =
        (rsx_io_to_ea m.rsx.rsx_get_ea).toNat + 4*(batches.flatten.flatMap Packet.words).length := by
  induction batches generalizing m with
  | nil => exact ⟨0,m,m.rsx.rsx_get_ea,rfl,rfl,rfl⟩
  | cons packets batches ih =>
      rw [List.flatten_cons,List.flatMap_append,List.length_append] at room
      obtain ⟨n,mid,get,one,drawn,reached⟩ := submit_handles names m packets low (by omega)
      have at_ : mid.rsx.rsx_get_ea = get := congrArg Renderer.rsx_get_ea drawn
      obtain ⟨k,after,last,rest,final,ends⟩ := ih mid (by rw [at_]; omega) (by rw [at_]; omega)
      refine ⟨max n k,after,last,?_,?_,?_⟩
      · exact Option.bind_eq_some_iff.mpr
          ⟨mid,submit_more one (Nat.le_max_left n k),submit_all_more rest (Nat.le_max_right n k)⟩
      · rw [final,drawn,handled_get,List.flatten_cons,List.flatMap_append,handled_append]
      · rw [ends,at_,reached,List.flatten_cons,List.flatMap_append,List.length_append]
        omega

theorem submissions_handled_clear : ∃ fuel after get,
    submit_all fuel (· - CMD_BUF) ⟨fun _ => 0,rsx_init⟩
      [[⟨0x1820,false,[0x11223344],by decide,by decide⟩],[⟨0x1D94,false,[0xF0],by decide,by decide⟩]] = some after ∧
    after.rsx = {handled rsx_init [⟨0x1820,0x11223344⟩,⟨0x1D94,0xF0⟩] with rsx_get_ea := get} := by
  obtain ⟨fuel,after,get,ran,final,_⟩ := submissions_handled names_offset ⟨fun _ => 0,rsx_init⟩
    [[⟨0x1820,false,[0x11223344],by decide,by decide⟩],[⟨0x1D94,false,[0xF0],by decide,by decide⟩]]
    (by decide) (by decide)
  exact ⟨fuel,after,get,ran,final⟩
end Submitting

end BudokaiRuntime.Rsx
