import BudokaiRuntime.Foundations.LinkedList
import BudokaiRuntime.Ppu.TableSlots

-- func_000E775C as a whole: the lock, the nodes in list order, the emptied list, the unlock.
namespace BudokaiRuntime.Ppu
open Guest Programs Rsx LinkedList

section Node
variable {ω : Type} {w : Walk} (env : Env ω) (fuel : Nat) {rest : List (BitVec 32)} {log : List Event}
  {s : PpuState (ω × List Event)} {n : BitVec 32}

def Walk.SlotsLeft (w : Walk) (live : List (BitVec 32)) (log : List Event) (n : BitVec 32) (left : List Nat)
    (s : PpuState (ω × List Event)) : Prop :=
  ∃ k made, k + left.length = 4 ∧ left = List.range' k left.length ∧
    List.Forall₂ Event.Does made ((List.range k).flatMap (slotActions w.vm w.base n)) ∧ w.AtSlot live (log ++ made) n k k s

theorem slot_round (apart : w.Apart) (callees : w.Callees env) (member : n ∈ live) (i : Nat) (left : List Nat)
    (s : PpuState (ω × List Event)) (before : w.SlotsLeft live log n (i::left) s) :
    ∃ t, slot_E77A8 (recorded env) fuel s = some t ∧ w.SlotsLeft live log n left t ∧
      ((!t.eq 0) = true ↔ left ≠ []) := by
  obtain ⟨k,made,total,order,does,here⟩ := before
  rw [List.length_cons] at total order
  rw [List.range'_succ] at order
  obtain ⟨rfl,later⟩ := List.cons.inj order
  obtain ⟨t,more,ran,does',back,exit⟩ := slot_run env fuel apart callees here (by omega) member
  refine ⟨t,ran,⟨i+1,made ++ more,by omega,later,?_,?_⟩,?_⟩
  · rw [List.range_succ,List.flatMap_append,List.flatMap_singleton]
    exact List.rel_append does does'
  · rw [← List.append_assoc]
    exact back
  · rw [exit,Bool.not_eq_true',decide_eq_false_iff_not,← List.length_pos_iff]
    omega

theorem slots_run (apart : w.Apart) (callees : w.Callees env) (member : n ∈ live) (at_ : w.AtSlot live log n 0 0 s)
    (enough : 4 ≤ fuel) : ∃ t made, do_while (slot_E77A8 (recorded env) fuel) (!·.eq 0) fuel s = some t ∧
      List.Forall₂ Event.Does made ((List.range 4).flatMap (slotActions w.vm w.base n)) ∧
      w.AtSlot live (log ++ made) n 4 4 t := by
  have start : w.SlotsLeft live log n (List.range' 0 4) s :=
    ⟨0,[],rfl,rfl,.nil,by rwa [List.append_nil]⟩
  obtain ⟨t,ran,k,made,total,_,does,back⟩ := do_while_items (w.SlotsLeft live log n)
    (slot_round env fuel apart callees member) (List.range' 0 4) (by decide) enough start
  obtain rfl : k = 4 := total
  exact ⟨t,made,ran,does,back⟩

theorem set_inside (inside : w.Inside live log s) (node : low32 (s.gpr 28) = n) : ∃ t,
    straight (recorded env) fuel [.addi 30 28 0x10,.addi 31 29 0x30] s = some t ∧ w.AtSlot live log n 0 0 t := by
  refine ⟨_,rfl,⟨?_,?_,?_,?_⟩⟩
  · exact (inside.set 30 _).set 31 _
  · simp [gpr_set,node]
  · simp only [gpr_set,Fin.reduceEq,reduceIte,low32_sext32,low32_add,node]
    exact (BitVec.add_zero _).symm
  · simp only [gpr_set,Fin.reduceEq,reduceIte,low32_sext32,low32_add,inside.table]
    exact (BitVec.add_zero _).symm

theorem free_run (callees : w.Callees env) (inside : w.Inside (n::rest) log s) (node : low32 (s.gpr 28) = n)
    (fresh : n ∉ rest) : ∃ t e,
    straight (recorded env) fuel [.clrldi 9 28,.mr 3 9,.lwz 31 9 0,.call .func_000D90FC,.cmpwi 0 31 0] s = some t ∧
      e.Does (.free n (w.vm.be32 n)) ∧ w.Inside rest (log ++ [e]) t ∧ low32 (t.gpr 31) = w.vm.be32 n ∧
      t.eq 0 = decide (w.vm.be32 n = 0) := by
  let one := s.set 9 (ppc_rldicl (s.gpr 28) 0 32)
  let two := one.set 3 (one.gpr 9 ||| one.gpr 9)
  let three := two.set 31 ((vm_read32 two.mem.vm (two.gpr 9 + 0)).setWidth 64)
  have within := ((inside.set 9 (ppc_rldicl (s.gpr 28) 0 32)).set 3 (one.gpr 9 ||| one.gpr 9)).set 31
    ((vm_read32 two.mem.vm (two.gpr 9 + 0)).setWidth 64)
  have address : one.gpr 9 = n.setWidth 64 := (gpr_set_same _ _).trans (by rw [clrldi_low,node])
  have argument : three.gpr 3 = n.setWidth 64 := by
    have kept : three.gpr 3 = one.gpr 9 ||| one.gpr 9 :=
      (gpr_set_other (s:=two) _ (by decide)).trans (gpr_set_same (s:=one) _ _)
    rw [kept,BitVec.or_self,address]
  have next : vm_read32 two.mem.vm (two.gpr 9 + 0) = w.vm.be32 n := by
    have kept : two.gpr 9 = n.setWidth 64 := (gpr_set_other (s:=one) _ (by decide)).trans address
    have zero : n + low32 0 = n := BitVec.add_zero n
    rw [kept,word_at,zero]
    exact within.word n fun j byte => .inr ⟨n,List.mem_cons_self,link_inside n j byte⟩
  obtain ⟨t,called,_,left,registers⟩ := call_run env fuel callees within .func_000D90FC (by decide) rest
    (fun _ member => List.mem_cons_of_mem _ member) (by
      rintro m member ⟨_,freed⟩
      have same : low32 (three.gpr 3) = n := by rw [argument,low32_zext]
      exact fresh ((same.symm.trans freed) ▸ member))
  have successor : low32 (three.gpr 31) = w.vm.be32 n := by rw [gpr_set_same,low32_zext,next]
  have kept : low32 (t.gpr 31) = w.vm.be32 n := (congrArg low32 (registers 31 (by decide))).trans successor
  refine ⟨t.compare 0 (low32 (t.gpr 31)) 0,⟨.func_000D90FC,three.ctx,three.mem⟩,?_,⟨rfl,argument,successor⟩,
    left.compare _ _ _,kept,?_⟩
  · refine straight_cons.mpr ⟨one,rfl,straight_cons.mpr ⟨two,rfl,straight_cons.mpr ⟨three,rfl,?_⟩⟩⟩
    exact straight_cons.mpr ⟨t,called,straight_cons.mpr ⟨_,rfl,straight_nil.mpr rfl⟩⟩
  · rw [compare_eq (by decide),kept]

theorem node_run (apart : w.Apart) (callees : w.Callees env) (inside : w.Inside (n::rest) log s)
    (node : low32 (s.gpr 28) = n) (fresh : n ∉ rest) (enough : 4 ≤ fuel) : ∃ t made,
    node_E77A0 (recorded env) fuel s = some t ∧ List.Forall₂ Event.Does made (nodeActions w.vm w.base n) ∧
      w.Inside rest (log ++ made) t ∧ (w.vm.be32 n ≠ 0 → low32 (t.gpr 28) = w.vm.be32 n) ∧
      t.eq 0 = decide (w.vm.be32 n = 0) := by
  obtain ⟨u,set,here⟩ := set_inside env fuel inside node
  obtain ⟨v,made,slots,does,after⟩ := slots_run env fuel apart callees List.mem_cons_self here enough
  obtain ⟨x,e,freed,frees,left,successor,exit⟩ := free_run env fuel callees after.toInside after.node fresh
  have all : List.Forall₂ Event.Does (made ++ [e]) (nodeActions w.vm w.base n) :=
    List.rel_append does (.cons frees .nil)
  by_cases last : w.vm.be32 n = 0
  · refine ⟨x,made ++ [e],?_,all,List.append_assoc _ _ _ ▸ left,fun more => absurd last more,exit⟩
    refine block_cons.mpr ⟨u,set,block_cons.mpr ⟨v,slots,block_cons.mpr ⟨x,freed,block_cons.mpr ⟨x,?_,rfl⟩⟩⟩⟩
    exact when_skip (by rw [exit,decide_eq_true last]; rfl)
  · have moved : low32 ((x.set 28 (x.gpr 31 ||| x.gpr 31)).gpr 28) = w.vm.be32 n := by
      rw [gpr_set_same,BitVec.or_self,successor]
    refine ⟨x.set 28 (x.gpr 31 ||| x.gpr 31),made ++ [e],?_,all,?_,fun _ => moved,exit⟩
    · refine block_cons.mpr ⟨u,set,block_cons.mpr ⟨v,slots,block_cons.mpr ⟨x,freed,block_cons.mpr ⟨_,?_,rfl⟩⟩⟩⟩
      exact when_take (by rw [exit,decide_eq_false last]; rfl)
    · rw [← List.append_assoc]
      exact left.set 28 _

def Walk.NodesLeft (w : Walk) (log : List Event) (left : List (BitVec 32)) (s : PpuState (ω × List Event)) : Prop :=
  ∃ done made p, done ++ left = w.nodes ∧ List.Forall₂ Event.Does made (done.flatMap (nodeActions w.vm w.base)) ∧
    w.Inside left (log ++ made) s ∧ Chain w.vm.be32 0 p left ∧ (left ≠ [] → low32 (s.gpr 28) = p)

theorem node_round (apart : w.Apart) (callees : w.Callees env) (enough : 4 ≤ fuel) (n : BitVec 32)
    (left : List (BitVec 32)) (s : PpuState (ω × List Event)) (before : w.NodesLeft log (n::left) s) :
    ∃ t, node_E77A0 (recorded env) fuel s = some t ∧ w.NodesLeft log left t ∧ ((!t.eq 0) = true ↔ left ≠ []) := by
  obtain ⟨done,made,p,all,does,inside,chain,node⟩ := before
  obtain rfl := chain_head chain
  have fresh := (List.nodup_cons.mp (chain_nodup chain)).1
  obtain ⟨t,more,ran,does',inside',next,exit⟩ := node_run env fuel apart callees inside (node (by simp)) fresh enough
  have tail := chain_tail chain
  refine ⟨t,ran,⟨done ++ [p],made ++ more,_,?_,?_,?_,tail,?_⟩,?_⟩
  · rw [List.append_assoc]
    exact all
  · rw [List.flatMap_append,List.flatMap_singleton]
    exact List.rel_append does does'
  · rw [← List.append_assoc]
    exact inside'
  · exact fun more => next fun zero => more ((chain_empty_iff tail).mpr zero)
  · rw [exit,Bool.not_eq_true',decide_eq_false_iff_not,not_iff_not,chain_empty_iff tail]

theorem list_run (apart : w.Apart) (callees : w.Callees env) (inside : w.Inside w.nodes log s)
    (chain : Chain w.vm.be32 0 (w.vm.be32 (w.base+0x78)) w.nodes) (enough : 4 ≤ fuel ∧ w.nodes.length ≤ fuel) :
    ∃ u t made, straight (recorded env) fuel [.lwz 28 29 0x78,.cmpwi 0 28 0] s = some u ∧
      when_ (!·.eq 0) (do_while (node_E77A0 (recorded env) fuel) (!·.eq 0) fuel) u = some t ∧
      List.Forall₂ Event.Does made (w.nodes.flatMap (nodeActions w.vm w.base)) ∧ w.Inside [] (log ++ made) t := by
  have head : vm_read32 s.mem.vm (s.gpr 29 + 0x78) = w.vm.be32 (w.base+0x78) := by
    have place : (s.gpr 29 + 0x78).setWidth 32 = w.base + 0x78 :=
      (low32_add _ _).trans (congrArg (· + low32 0x78) inside.table)
    rw [vm_read32_eq,place]
    exact inside.word _ fun j byte => .inl (head_inside _ j byte)
  let one := s.set 28 ((vm_read32 s.mem.vm (s.gpr 29 + 0x78)).setWidth 64)
  have node : low32 (one.gpr 28) = w.vm.be32 (w.base+0x78) := by rw [gpr_set_same,low32_zext,head]
  let two := one.compare 0 (low32 (one.gpr 28)) 0
  have ready : w.Inside w.nodes log two := (inside.set 28 _).compare _ _ _
  have empty : two.eq 0 = decide (w.vm.be32 (w.base+0x78) = 0) := by rw [compare_eq (by decide),node]
  by_cases none : w.nodes = []
  · have zero := (chain_empty_iff chain).mp none
    refine ⟨two,two,[],rfl,when_skip (by rw [empty,decide_eq_true zero]; rfl),?_,?_⟩
    · rw [none]
      exact .nil
    · rw [List.append_nil]
      exact none ▸ ready
  · have some_left : w.vm.be32 (w.base+0x78) ≠ 0 := fun zero => none ((chain_empty_iff chain).mpr zero)
    have start : w.NodesLeft log w.nodes two :=
      ⟨[],[],_,rfl,.nil,by rwa [List.append_nil],chain,fun _ => node⟩
    obtain ⟨t,ran,done,made,_,all,does,back,_⟩ := do_while_items (w.NodesLeft log) (node_round env fuel apart callees enough.1)
      w.nodes none enough.2 start
    rw [List.append_nil] at all
    refine ⟨two,t,made,rfl,?_,all ▸ does,back⟩
    rw [when_take (by rw [empty,decide_eq_false some_left]; rfl)]
    exact ran

theorem put32_same {one two : GuestMem} {a val b : BitVec 32} (same : one b = two b) :
    one.put32 a val b = two.put32 a val b := by
  rw [put32_at,put32_at,same]

theorem unlock_run (callees : w.Callees env) (inside : w.Inside [] log s) (plain : w.base + 0x78 ∉ RSX_PUT::cells) :
    ∃ t e, straight (recorded env) fuel [.li 0 0,.addi 3 29 0x18,.stw 0 29 0x78,.call .func_000F1E9C,.ld 2 1 0x28] s =
      some t ∧ e.Does (.unlock (w.base+0x18) (w.base+0x78)) ∧ t.world.2 = log ++ [e] ∧
      t.mem.vm.be32 (w.base+0x78) = 0 := by
  let one := s.set 0 (sext32 0)
  let two := one.set 3 (sext32 (one.gpr 29 + 0x18))
  have table : low32 (two.gpr 29) = w.base :=
    (congrArg low32 ((gpr_set_other (s:=one) _ (by decide)).trans (gpr_set_other _ (by decide)))).trans inside.table
  have place : (two.gpr 29 + 0x78).setWidth 32 = w.base + 0x78 := (low32_add _ _).trans (congrArg (· + low32 0x78) table)
  have zero : low32 (two.gpr 0) = 0 := by
    rw [gpr_set_other _ (by decide),gpr_set_same]
    rfl
  let cleared : Machine := {two.mem with vm := two.mem.vm.put32 (w.base+0x78) 0}
  let three := two.store (two.gpr 29 + 0x78) cleared
  have stored : (Insn.stw 0 29 0x78).run two (recorded env) fuel = some three := by
    have wrote : vm_write32 fuel two.mem (two.gpr 29 + 0x78) 0 = some cleared :=
      (write32_plain (place ▸ plain)).trans (by rw [place])
    show (vm_write32 fuel two.mem (two.gpr 29 + 0x78) (low32 (two.gpr 0))).map _ = _
    rw [zero,wrote]
    rfl
  let emptied : Walk := {w with vm := w.vm.put32 (w.base+0x78) 0}
  have within : emptied.Inside [] log three := by
    have before := (inside.set 0 (sext32 0)).set 3 (sext32 (one.gpr 29 + 0x18))
    exact ⟨before.pointer,before.table,before.listed,fun a needed => put32_same (before.kept a needed),before.logged⟩
  have same : emptied.Callees env := ⟨callees.returns,callees.registers,callees.memory⟩
  have head (u : PpuState (ω × List Event)) (log' : List Event) (held : emptied.Inside [] log' u) :
      u.mem.vm.be32 (w.base+0x78) = 0 :=
    (held.word _ fun j byte => .inl (head_inside _ j byte)).trans (be32_put32 _ _ _)
  obtain ⟨t,called,_,back,_⟩ := call_run env fuel same within .func_000F1E9C (by decide) [] nofun nofun
  refine ⟨t.set 2 (vm_read64 t.mem.vm (t.gpr 1 + 0x28)),⟨.func_000F1E9C,three.ctx,three.mem⟩,?_,⟨rfl,?_,head _ _ within⟩,
    back.logged,head t _ back⟩
  · refine straight_cons.mpr ⟨one,rfl,straight_cons.mpr ⟨two,rfl,straight_cons.mpr ⟨three,stored,?_⟩⟩⟩
    exact straight_cons.mpr ⟨t,called,straight_cons.mpr ⟨_,rfl,straight_nil.mpr rfl⟩⟩
  · show low32 (two.gpr 3) = _
    have mutex : one.gpr 29 = s.gpr 29 := gpr_set_other _ (by decide)
    rw [gpr_set_same,low32_sext32,low32_add,mutex,inside.table]
    rfl
end Node

structure Walk.Starts (w : Walk) (ctx : PpuCtx) (vm : GuestMem) : Prop where
  frame : ctx.gpr 1 + -0x90 = w.sp
  table : ((vm.put64 (low32 w.sp) (ctx.gpr 1)).put64 (low32 w.sp + 0x78) (ctx.gpr 29)).be32
    (low32 (ctx.gpr 2 + -0x5B50)) = w.base
  memory : vm = w.vm

section Whole
variable {ω : Type} {w : Walk} (env : Env ω) (fuel : Nat) {ctx : PpuCtx} {mem : Machine} {world : ω}
  {s : PpuState (ω × List Event)}

theorem Walk.Apart.keeps {w : Walk} (apart : w.Apart) {one two : GuestMem} (agree : Agree (InFrame w.sp 0x90) one two)
    (a : BitVec 32) (needed : InTable w.base a ∨ ∃ n ∈ w.nodes, InNode n a) : one a = two a := by
  refine agree a fun framed => ?_
  rcases needed with table | ⟨n,member,node⟩
  · exact apart.table a framed table
  · exact apart.list a framed n member node

theorem put_agree (pointer : s.gpr 1 = w.sp) (o : BitVec 32) (v : BitVec 64) (small : o.toNat + 8 ≤ 0xA8) :
    Agree (InFrame w.sp 0x90) (s.put o v).mem.vm s.mem.vm :=
  fun a outside => put_beside o v small a (pointer ▸ outside)

def PpuState.open_ (s : PpuState (ω × List Event)) (sp : BitVec 64) : PpuState (ω × List Event) :=
  {s with mem := {s.mem with vm := s.mem.vm.put64 (low32 sp) (s.gpr 1)}}.set 1 sp

theorem stdu_run (apart : w.Apart) (d : BitVec 64) (frame : s.gpr 1 + d = w.sp) :
    (Insn.stdu d).run s (recorded env) fuel = some (s.open_ w.sp) := by
  have place : low32 w.sp + low32 0 = low32 w.sp := BitVec.add_zero _
  show (vm_write64 fuel s.mem (s.gpr 1 + d) (s.gpr 1)).map _ = _
  rw [frame,store_origin (frame_write fuel apart s.mem 0 (s.gpr 1) (by decide)),place,Option.map_some]
  rfl

theorem open_agree (s : PpuState (ω × List Event)) : Agree (InFrame w.sp 0x90) (s.open_ w.sp).mem.vm s.mem.vm := by
  intro a outside
  refine put64_beside (Nat.le_trans ?_ (Nat.not_lt.mp outside))
  decide

theorem open_run (apart : w.Apart) (starts : w.Starts s.ctx s.mem.vm) (fresh : s.world.2 = []) : ∃ t,
    straight (recorded env) fuel [.stdu (-0x90),.mflr 0,.std 29 1 0x78,.lwz 29 2 (-0x5B50)] s = some t ∧
      w.Inside w.nodes [] t ∧ Agree (InFrame w.sp 0x90) t.mem.vm s.mem.vm ∧ t.world = s.world := by
  let one := s.open_ w.sp
  let two := one.set 0 one.ctx.lr
  let three := two.put (low32 0x78) (two.gpr 29)
  have pointer : two.gpr 1 = w.sp := (gpr_set_other _ (by decide)).trans (gpr_set_same _ _)
  have kept (r : Fin 32) (other : r ≠ 0 ∧ r ≠ 1) : two.gpr r = s.gpr r :=
    (gpr_set_other _ other.1).trans (gpr_set_other _ other.2)
  have agree : Agree (InFrame w.sp 0x90) three.mem.vm s.mem.vm := (put_agree pointer _ _ (by decide)).trans (open_agree s)
  have frame : three.mem.vm = (s.mem.vm.put64 (low32 w.sp) (s.gpr 1)).put64 (low32 w.sp + 0x78) (s.gpr 29) := by
    rw [← pointer,← kept 29 (by decide)]
    rfl
  have toc : vm_read32 three.mem.vm (three.gpr 2 + -0x5B50) = w.base := by
    rw [vm_read32_eq,gpr_put,kept 2 (by decide),frame]
    exact starts.table
  refine ⟨three.set 29 ((vm_read32 three.mem.vm (three.gpr 2 + -0x5B50)).setWidth 64),?_,⟨?_,?_,fun _ member => member,?_,fresh⟩,
    agree,rfl⟩
  · refine straight_cons.mpr ⟨one,stdu_run env fuel apart _ starts.frame,straight_cons.mpr ⟨two,rfl,?_⟩⟩
    refine straight_cons.mpr ⟨three,std_run env fuel apart pointer 29 0x78 (by decide),?_⟩
    exact straight_cons.mpr ⟨_,rfl,straight_nil.mpr rfl⟩
  · have same : three.gpr 1 = two.gpr 1 := gpr_put _ _ 1
    exact (gpr_set_other _ (by decide)).trans (same.trans pointer)
  · rw [gpr_set_same,low32_zext,toc]
  · exact fun a needed => (apart.keeps agree a needed).trans (congrFun starts.memory a)

theorem save_run (apart : w.Apart) (inside : w.Inside w.nodes [] s) : ∃ t,
    straight (recorded env) fuel [.li 4 0,.std 28 1 0x70,.addi 3 29 0x18,.std 30 1 0x80,.std 31 1 0x88,.std 0 1 0xA0] s =
      some t ∧ w.Inside w.nodes [] t ∧ low32 (t.gpr 3) = w.base + 0x18 ∧ Agree (InFrame w.sp 0x90) t.mem.vm s.mem.vm ∧
      t.world = s.world := by
  let one := s.set 4 (sext32 0)
  let two := one.put (low32 0x70) (one.gpr 28)
  let three := two.set 3 (sext32 (two.gpr 29 + 0x18))
  let four := three.put (low32 0x80) (three.gpr 30)
  let five := four.put (low32 0x88) (four.gpr 31)
  let six := five.put (low32 0xA0) (five.gpr 0)
  have first : w.Inside w.nodes [] one := inside.set 4 _
  have second : w.Inside w.nodes [] two := first.put apart _ _ (by decide)
  have third : w.Inside w.nodes [] three := second.set 3 _
  have fourth : w.Inside w.nodes [] four := third.put apart _ _ (by decide)
  have fifth : w.Inside w.nodes [] five := fourth.put apart _ _ (by decide)
  refine ⟨six,?_,fifth.put apart _ _ (by decide),?_,?_,rfl⟩
  · refine straight_cons.mpr ⟨one,rfl,straight_cons.mpr ⟨two,std_run env fuel apart first.pointer 28 0x70 (by decide),?_⟩⟩
    refine straight_cons.mpr ⟨three,rfl,straight_cons.mpr ⟨four,std_run env fuel apart third.pointer 30 0x80 (by decide),?_⟩⟩
    refine straight_cons.mpr ⟨five,std_run env fuel apart fourth.pointer 31 0x88 (by decide),?_⟩
    exact straight_cons.mpr ⟨six,std_run env fuel apart fifth.pointer 0 0xA0 (by decide),straight_nil.mpr rfl⟩
  · have same : six.gpr 3 = three.gpr 3 := (gpr_put _ _ 3).trans ((gpr_put _ _ 3).trans (gpr_put _ _ 3))
    rw [same,gpr_set_same,low32_sext32,low32_add,second.table]
    rfl
  · have inner : Agree (InFrame w.sp 0x90) four.mem.vm s.mem.vm :=
      (put_agree third.pointer _ _ (by decide)).trans (put_agree first.pointer _ _ (by decide))
    exact (put_agree fifth.pointer _ _ (by decide)).trans ((put_agree fourth.pointer _ _ (by decide)).trans inner)

theorem lock_run (callees : w.Callees env) (inside : w.Inside w.nodes [] s) : ∃ t locked,
    straight (recorded env) fuel [.call .func_000F1E7C,.ld 2 1 0x28,.cmpwi 0 3 0] s = some t ∧
      env .func_000F1E7C (s.ctx,s.mem,s.world.1) = some locked ∧ w.Inside w.nodes [⟨.func_000F1E7C,s.ctx,s.mem⟩] t ∧
      t.mem = locked.2.1 ∧ t.eq 0 = decide (low32 (locked.1.gpr 3) = 0) := by
  obtain ⟨t,called,left,back,_⟩ := call_run env fuel callees inside .func_000F1E7C (by decide) w.nodes
    (fun _ member => member) (fun _ _ freed => by cases freed.1)
  let two := t.set 2 (vm_read64 t.mem.vm (t.gpr 1 + 0x28))
  have answer : low32 (two.gpr 3) = low32 (t.gpr 3) := congrArg low32 (gpr_set_other _ (by decide))
  refine ⟨two.compare 0 (low32 (two.gpr 3)) 0,_,?_,left,(back.set 2 _).compare _ _ _,rfl,?_⟩
  · refine straight_cons.mpr ⟨t,called,straight_cons.mpr ⟨two,rfl,straight_cons.mpr ⟨_,rfl,straight_nil.mpr rfl⟩⟩⟩
  · rw [compare_eq (by decide),answer]
    rfl

theorem straight_then {one two : List Insn} {s t u : PpuState (ω × List Event)}
    (first : straight (recorded env) fuel one s = some t) (second : straight (recorded env) fuel two t = some u) :
    straight (recorded env) fuel (one ++ two) s = some u := by
  rw [straight_append,seq,first]
  exact second

structure Walk.Outcome (w : Walk) (locked : PpuCtx × Machine × ω) (calls : List Event)
    (t : PpuState (ω × List Event)) : Prop where
  refused : low32 (locked.1.gpr 3) ≠ 0 → calls = [] ∧ t.mem = locked.2.1
  granted : low32 (locked.1.gpr 3) = 0 → w.nodes.Nodup ∧ List.Forall₂ Event.Does calls
    (w.nodes.flatMap (nodeActions w.vm w.base) ++ [.unlock (w.base+0x18) (w.base+0x78)]) ∧
    t.mem.vm.be32 (w.base+0x78) = 0

theorem destructor_walk (starts : w.Starts ctx mem.vm) (apart : w.Apart) (plain : w.base + 0x78 ∉ RSX_PUT::cells)
    (callees : w.Callees env) (chain : Chain w.vm.be32 0 (w.vm.be32 (w.base+0x78)) w.nodes)
    (enough : 4 ≤ fuel ∧ w.nodes.length ≤ fuel) : ∃ t locking calls locked,
      func_000E775C (recorded env) fuel (entered ctx mem (world,[])) = some t ∧
      func_000E775C env fuel (entered ctx mem world) = some t.erase ∧
      t.world.2 = locking::calls ∧ locking.Does (.lock (w.base+0x18)) ∧
      Agree (InFrame w.sp 0x90) locking.mem.vm mem.vm ∧
      env .func_000F1E7C (locking.ctx,locking.mem,world) = some locked ∧ w.Outcome locked calls t := by
  obtain ⟨a,opened,within,framed,unlogged⟩ := open_run env fuel (s:=entered ctx mem (world,[])) apart starts rfl
  obtain ⟨b,saved,ready,mutex,framed',unlogged'⟩ := save_run env fuel apart within
  obtain ⟨c,locked,locks,returned,inside,memory,answer⟩ := lock_run env fuel callees ready
  have prologue := straight_then env fuel opened (straight_then env fuel saved locks)
  have first : b.world.1 = world := congrArg Prod.fst (unlogged'.trans unlogged)
  have frame : Agree (InFrame w.sp 0x90) b.mem.vm mem.vm := framed'.trans framed
  have whole {d t : PpuState (ω × List Event)} (middle : when_ (·.eq 0) (block [
      straight (recorded env) fuel [.lwz 28 29 0x78,.cmpwi 0 28 0],
      when_ (!·.eq 0) (do_while (node_E77A0 (recorded env) fuel) (!·.eq 0) fuel),
      straight (recorded env) fuel [.li 0 0,.addi 3 29 0x18,.stw 0 29 0x78,.call .func_000F1E9C,.ld 2 1 0x28]]) c = some d)
      (last : straight (recorded env) fuel [.ld 0 1 0xA0,.ld 28 1 0x70,.ld 29 1 0x78,.mtlr 0,.ld 30 1 0x80,.ld 31 1 0x88,
        .addi 1 1 0x90] d = some t) : func_000E775C (recorded env) fuel (entered ctx mem (world,[])) = some t :=
    block_cons.mpr ⟨c,prologue,block_cons.mpr ⟨d,middle,block_cons.mpr ⟨t,last,rfl⟩⟩⟩
  have plainly {t : PpuState (ω × List Event)}
      (ran : func_000E775C (recorded env) fuel (entered ctx mem (world,[])) = some t) :
      func_000E775C env fuel (entered ctx mem world) = some t.erase :=
    (func_000E775C_erase env fuel (entered ctx mem (world,[]))).trans (by rw [ran]; rfl)
  by_cases granted : low32 (locked.1.gpr 3) = 0
  · obtain ⟨d,e,calls,headed,walked,does,inside'⟩ := list_run env fuel apart callees inside chain enough
    obtain ⟨f,unlock,cleared,releases,log,empty⟩ := unlock_run env fuel callees inside' plain
    have ran := whole (d:=f) (by
      rw [when_take (by rw [answer,decide_eq_true granted])]
      exact block_cons.mpr ⟨d,headed,block_cons.mpr ⟨e,walked,block_cons.mpr ⟨f,cleared,rfl⟩⟩⟩) rfl
    refine ⟨_,⟨.func_000F1E7C,b.ctx,b.mem⟩,calls ++ [unlock],locked,ran,plainly ran,?_,⟨rfl,mutex⟩,frame,first ▸ returned,?_,?_⟩
    · exact log
    · exact fun refused => absurd granted refused
    · exact fun _ => ⟨chain_nodup chain,List.rel_append does (.cons releases .nil),empty⟩
  · have ran := whole (when_skip (answer.trans (decide_eq_false granted))) rfl
    refine ⟨_,⟨.func_000F1E7C,b.ctx,b.mem⟩,[],locked,ran,plainly ran,inside.logged,⟨rfl,mutex⟩,frame,first ▸ returned,?_,?_⟩
    · exact fun _ => ⟨rfl,memory⟩
    · exact fun zero => absurd zero granted
end Whole

-- Callees that return 0, two nodes with values in both slots and a destructor for each.
def granting : Env Unit := fun _ s => some ({s.1 with gpr := Function.update s.1.gpr 3 0},s.2)

def two_nodes : Machine := {zeroed with vm := fun a =>
  if a = 0xFFFFA4B1 then 0x10 else if a = 0x100079 then 0x20
  else if a = 0x200001 then 0x21 else if a = 0x200013 then 1 else if a = 0x200017 then 2
  else if a = 0x210013 then 3 else if a = 0x210017 then 4
  else if a = 0x100030 then 1 else if a = 0x100035 then 0x30 else if a = 0x100038 then 1 else if a = 0x10003D then 0x31 else 0}

def short_walk : Walk := ⟨0xD000FF70,0x100000,[0x200000,0x210000],two_nodes.vm⟩

theorem short_apart : short_walk.Apart := by
  have high (a : BitVec 32) (framed : InFrame short_walk.sp 0x90 a) : 0xD000FF70 ≤ a.toNat := by
    have near : (a - (0xD000FF70 : BitVec 32)).toNat < 0x90 + 0x18 := framed
    have place : (0xD000FF70 : BitVec 32).toNat = 0xD000FF70 := rfl
    rw [BitVec.toNat_sub,place] at near
    omega
  constructor
  · intro a framed cell
    have above := high a framed
    have low := cells_low a cell
    omega
  · intro a framed table
    have above := high a framed
    have slots : ((0x100000 : BitVec 32) + 0x30).toNat = 0x100030 := rfl
    have head : ((0x100000 : BitVec 32) + 0x78).toNat = 0x100078 := rfl
    rcases table with near | near
    · rw [BitVec.toNat_sub,show (short_walk.base + 0x30).toNat = 0x100030 from slots] at near
      omega
    · rw [BitVec.toNat_sub,show (short_walk.base + 0x78).toNat = 0x100078 from head] at near
      omega
  · intro a framed n member node
    have above := high a framed
    have low : n.toNat = 0x200000 ∨ n.toNat = 0x210000 := by
      rcases List.mem_pair.mp member with rfl | rfl
      · exact .inl rfl
      · exact .inr rfl
    unfold InNode at node
    rw [BitVec.toNat_sub] at node
    omega

theorem granting_callees : short_walk.Callees granting := by
  constructor
  · exact fun _ _ _ _ _ _ => ⟨_,rfl⟩
  · intro f _ ctx mem world _ _ _ pointer went
    cases went
    have other (r : Fin 32) (kept : r ≠ 3) : Function.update ctx.gpr 3 0 r = ctx.gpr r := Function.update_of_ne kept _ _
    exact ⟨(other 1 (by decide)).trans pointer,fun r high => other r (by omega)⟩
  · intro f _ ctx mem world _ _ _ _ went a _
    cases went
    rfl

theorem destructor_walk_two : ∃ t locking calls locked,
    func_000E775C (recorded granting) 4 (entered (at_stack 0xD0010000) two_nodes ((),[])) = some t ∧
      func_000E775C granting 4 (entered (at_stack 0xD0010000) two_nodes ()) = some t.erase ∧
      t.world.2 = locking::calls ∧ locking.Does (.lock (short_walk.base+0x18)) ∧
      Agree (InFrame short_walk.sp 0x90) locking.mem.vm two_nodes.vm ∧
      granting .func_000F1E7C (locking.ctx,locking.mem,()) = some locked ∧ short_walk.Outcome locked calls t := by
  have head : two_nodes.vm.be32 (short_walk.base+0x78) = 0x200000 := by decide +kernel
  have next : two_nodes.vm.be32 0x200000 = 0x210000 := by decide +kernel
  have last : two_nodes.vm.be32 0x210000 = 0 := by decide +kernel
  have chain : Chain two_nodes.vm.be32 0 (two_nodes.vm.be32 (short_walk.base+0x78)) [0x200000,0x210000] := by
    rw [head]
    refine .cons (by decide) ?_
    rw [next]
    refine .cons (by decide) ?_
    rw [last]
    exact .nil
  exact destructor_walk granting 4 ⟨by decide,by decide +kernel,rfl⟩ short_apart (by decide) granting_callees chain (by decide)

end BudokaiRuntime.Ppu
