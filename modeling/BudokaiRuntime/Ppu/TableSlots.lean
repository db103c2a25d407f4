import BudokaiRuntime.Ppu.Recorded
import BudokaiRuntime.Ppu.ReferenceCounts

-- One node of the per-thread list: what its walk over the four table slots calls.
namespace BudokaiRuntime.Ppu
open Guest Programs Rsx

-- The four slots at +0x30, a flag byte and a descriptor pointer each, and the list head at +0x78.
def InTable (base a : BitVec 32) : Prop := (a - (base+0x30)).toNat < 0x20 ∨ (a - (base+0x78)).toNat < 4

def InNode (n a : BitVec 32) : Prop := (a - n).toNat < 4 ∨ (0x10 ≤ (a - n).toNat ∧ (a - n).toNat < 0x20)

inductive Action where
  | lock (mutex : BitVec 32)
  | destroy (descriptor value : BitVec 32)
  | free (node next : BitVec 32)
  | unlock (mutex head : BitVec 32)

-- What a call is. The code address of a descriptor is read before the TOC is saved in
-- the frame, its TOC behind that store. `next` is in a register by the time of a free,
-- and the list head is 0 by the time of the unlock.
def Event.Does (e : Event) : Action → Prop
  | .lock mutex => e.callee = .func_000F1E7C ∧ low32 (e.ctx.gpr 3) = mutex
  | .destroy descriptor value => e.callee = .ps3_indirect_call ∧ e.ctx.gpr 3 = value.setWidth 64 ∧
      e.ctx.gpr 2 = (e.mem.vm.be32 (descriptor+4)).setWidth 64 ∧
      ∃ (vm : GuestMem) (toc : BitVec 64), e.mem.vm = vm.put64 (low32 (e.ctx.gpr 1) + 0x28) toc ∧ e.ctx.ctr = (vm.be32 descriptor).setWidth 64
  | .free node next => e.callee = .func_000D90FC ∧ e.ctx.gpr 3 = node.setWidth 64 ∧ low32 (e.ctx.gpr 31) = next
  | .unlock mutex head => e.callee = .func_000F1E9C ∧ low32 (e.ctx.gpr 3) = mutex ∧ e.mem.vm.be32 head = 0

section Plan
variable (vm : GuestMem) (base n : BitVec 32)

def entryAt (i : Nat) : BitVec 32 := base + 0x30 + BitVec.ofNat 32 (8*i)

def valueAt (i : Nat) : BitVec 32 := n + 0x10 + BitVec.ofNat 32 (4*i)

-- Slot `i` for the node `n`: skipped unless enabled, with a destructor and a value.
def slotActions (i : Nat) : List Action :=
  if vm (entryAt base i) = 0 ∨ vm.be32 (entryAt base i + 4) = 0 ∨ vm.be32 (valueAt n i) = 0 then []
  else [.destroy (vm.be32 (entryAt base i + 4)) (vm.be32 (valueAt n i))]

def nodeActions : List Action := (List.range 4).flatMap (slotActions vm base n) ++ [.free n (vm.be32 n)]
end Plan

-- What the walk rests on: the stack pointer inside the function, the table, the list
-- and the memory they are read from.
structure Walk where
  sp : BitVec 64
  base : BitVec 32
  nodes : List (BitVec 32)
  vm : GuestMem

structure Walk.Apart (w : Walk) : Prop where
  plain : ∀ a, InFrame w.sp 0x90 a → a ∉ RSX_PUT::cells
  table : ∀ a, InFrame w.sp 0x90 a → ¬ InTable w.base a
  list : ∀ a, InFrame w.sp 0x90 a → ∀ n ∈ w.nodes, ¬ InNode n a

-- The callees return, keep gpr[1] and gpr[28..31], and leave the table and the nodes
-- alone; the node that is being freed need not survive.
def walkCallees : List Callee := [.func_000F1E7C,.ps3_indirect_call,.func_000D90FC,.func_000F1E9C]

structure Walk.Callees {ω : Type} (w : Walk) (env : Env ω) : Prop where
  returns : ∀ f ∈ walkCallees, ∀ ctx mem world, ctx.gpr 1 = w.sp → ∃ left, env f (ctx,mem,world) = some left
  registers : ∀ f ∈ walkCallees, ∀ ctx mem world ctx' mem' world', ctx.gpr 1 = w.sp →
    env f (ctx,mem,world) = some (ctx',mem',world') → ctx'.gpr 1 = w.sp ∧ ∀ r, 28 ≤ r → ctx'.gpr r = ctx.gpr r
  memory : ∀ f ∈ walkCallees, ∀ ctx mem world ctx' mem' world', ctx.gpr 1 = w.sp →
    env f (ctx,mem,world) = some (ctx',mem',world') → ∀ a, (InTable w.base a ∨ ∃ n ∈ w.nodes, InNode n a ∧
      ¬ (f = .func_000D90FC ∧ low32 (ctx.gpr 3) = n)) → mem'.vm a = mem.vm a

structure Walk.Inside {ω : Type} (w : Walk) (live : List (BitVec 32)) (log : List Event)
    (s : PpuState (ω × List Event)) : Prop where
  pointer : s.gpr 1 = w.sp
  table : low32 (s.gpr 29) = w.base
  listed : ∀ n ∈ live, n ∈ w.nodes
  kept : ∀ a, (InTable w.base a ∨ ∃ n ∈ live, InNode n a) → s.mem.vm a = w.vm a
  logged : s.world.2 = log

section Steps
variable {ω : Type} {w : Walk} (env : Env ω) (fuel : Nat) {live : List (BitVec 32)} {log : List Event}
  {s t : PpuState (ω × List Event)}

theorem Walk.Inside.set (inside : w.Inside live log s) (r : Fin 32) (v : BitVec 64) (free : r ≠ 1 ∧ r ≠ 29 := by decide) :
    w.Inside live log (s.set r v) :=
  ⟨(gpr_set_other v free.1.symm).trans inside.pointer,(congrArg low32 (gpr_set_other v free.2.symm)).trans inside.table,
    inside.listed,inside.kept,inside.logged⟩

theorem Walk.Inside.compare (inside : w.Inside live log s) (sh : Nat) (a b : BitVec 32) :
    w.Inside live log (s.compare sh a b) := ⟨inside.pointer,inside.table,inside.listed,inside.kept,inside.logged⟩

theorem Walk.Inside.ctr (inside : w.Inside live log s) (v : BitVec 64) :
    w.Inside live log {s with ctx := {s.ctx with ctr := v}} :=
  ⟨inside.pointer,inside.table,inside.listed,inside.kept,inside.logged⟩

def PpuState.put (s : PpuState ω) (o : BitVec 32) (v : BitVec 64) : PpuState ω :=
  {s with mem := {s.mem with vm := s.mem.vm.put64 (low32 (s.gpr 1) + o) v}}

theorem frame_inside (sp : BitVec 64) (o : BitVec 32) (small : o.toNat < 0xA8) : InFrame sp 0x90 (low32 sp + o) := by
  unfold InFrame
  rw [BitVec.add_comm,BitVec.add_sub_cancel]
  exact small

theorem frame_write (apart : w.Apart) (m : Machine) (d v : BitVec 64) (small : (low32 d).toNat + 8 ≤ 0xA8) :
    vm_write64 fuel m (w.sp + d) v = some {m with vm := m.vm.put64 (low32 w.sp + low32 d) v} := by
  refine store_plain fuel m d v (apart.plain _ (frame_inside w.sp _ (by omega))) (apart.plain _ (frame_inside w.sp _ ?_))
  rw [BitVec.toNat_add,four_toNat]
  omega

theorem std_run (apart : w.Apart) (pointer : s.gpr 1 = w.sp) (rs : Fin 32) (d : BitVec 64)
    (small : (low32 d).toNat + 8 ≤ 0xA8) :
    (Insn.std rs 1 d).run s (recorded env) fuel = some (s.put (low32 d) (s.gpr rs)) := by
  show (vm_write64 fuel s.mem (s.gpr 1 + d) (s.gpr rs)).map _ = _
  rw [pointer,frame_write fuel apart s.mem d _ small,PpuState.put,pointer]
  rfl

theorem put_beside (o : BitVec 32) (v : BitVec 64) (small : o.toNat + 8 ≤ 0xA8) (a : BitVec 32)
    (outside : ¬ InFrame (s.gpr 1) 0x90 a) : (s.put o v).mem.vm a = s.mem.vm a :=
  frame_agree small (by decide) a outside

theorem Walk.Inside.put (inside : w.Inside live log s) (apart : w.Apart) (o : BitVec 32) (v : BitVec 64)
    (small : o.toNat + 8 ≤ 0xA8) : w.Inside live log (s.put o v) := by
  refine ⟨inside.pointer,inside.table,inside.listed,?_,inside.logged⟩
  intro a needed
  rw [put_beside o v small a]
  · exact inside.kept a needed
  · rw [inside.pointer]
    intro framed
    rcases needed with table | ⟨n,member,node⟩
    · exact apart.table a framed table
    · exact apart.list a framed n (inside.listed n member) node

theorem call_run (callees : w.Callees env) (inside : w.Inside live log s) (f : Callee) (named : f ∈ walkCallees)
    (left : List (BitVec 32)) (fewer : ∀ n ∈ left, n ∈ live)
    (survive : ∀ n ∈ left, ¬ (f = .func_000D90FC ∧ low32 (s.gpr 3) = n)) :
    ∃ t, (Insn.call f).run s (recorded env) fuel = some t ∧ env f (s.ctx,s.mem,s.world.1) = some (t.ctx,t.mem,t.world.1) ∧
      w.Inside left (log ++ [⟨f,s.ctx,s.mem⟩]) t ∧ ∀ r, 28 ≤ r → t.gpr r = s.gpr r := by
  obtain ⟨⟨ctx,mem,world⟩,went⟩ := callees.returns f named s.ctx s.mem s.world.1 inside.pointer
  obtain ⟨pointer,registers⟩ := callees.registers f named _ _ _ _ _ _ inside.pointer went
  have memory := callees.memory f named _ _ _ _ _ _ inside.pointer went
  refine ⟨s.return_from f (ctx,mem,world,log ++ [⟨f,s.ctx,s.mem⟩]),?_,went,⟨pointer,?_,?_,?_,rfl⟩,registers⟩
  · show (recorded env f (s.ctx,s.mem,s.world)).map _ = _
    unfold recorded
    dsimp only
    rw [went,inside.logged]
    rfl
  · exact (congrArg low32 (registers 29 (by decide))).trans inside.table
  · exact fun n member => inside.listed n (fewer n member)
  · intro a needed
    rcases needed with table | ⟨n,member,node⟩
    · exact (memory a (.inl table)).trans (inside.kept a (.inl table))
    · exact (memory a (.inr ⟨n,inside.listed n (fewer n member),node,survive n member⟩)).trans
        (inside.kept a (.inr ⟨n,fewer n member,node⟩))

@[simp] theorem gpr_compare (sh : Nat) (a b : BitVec 32) (r : Fin 32) : (s.compare sh a b).gpr r = s.gpr r := rfl
@[simp] theorem mem_compare (sh : Nat) (a b : BitVec 32) : (s.compare sh a b).mem = s.mem := rfl
@[simp] theorem mem_set (r : Fin 32) (v : BitVec 64) : (s.set r v).mem = s.mem := rfl
@[simp] theorem gpr_put (o : BitVec 32) (v : BitVec 64) (r : Fin 32) : (s.put o v).gpr r = s.gpr r := rfl

-- Between two slots: the node in gpr[28], the place of the next value in gpr[30] and of
-- the next slot in gpr[31], which runs ahead inside a slot.
structure Walk.AtSlot {ω : Type} (w : Walk) (live : List (BitVec 32)) (log : List Event) (n : BitVec 32) (value slot : Nat)
    (s : PpuState (ω × List Event)) : Prop extends w.Inside live log s where
  node : low32 (s.gpr 28) = n
  value : low32 (s.gpr 30) = valueAt n value
  slot : low32 (s.gpr 31) = entryAt w.base slot

theorem Walk.AtSlot.set (at_ : w.AtSlot live log n i k s) (r : Fin 32) (v : BitVec 64) (free : r ≠ 1 ∧ r < 28 := by decide) :
    w.AtSlot live log n i k (s.set r v) := by
  have other (q : Fin 32) (high : 28 ≤ q) : (s.set r v).gpr q = s.gpr q := gpr_set_other v (by omega)
  refine ⟨at_.toInside.set r v ⟨free.1,by omega⟩,?_,?_,?_⟩
  · rw [other 28 (by decide)]
    exact at_.node
  · rw [other 30 (by decide)]
    exact at_.value
  · rw [other 31 (by decide)]
    exact at_.slot

theorem Walk.AtSlot.compare (at_ : w.AtSlot live log n i k s) (sh : Nat) (a b : BitVec 32) :
    w.AtSlot live log n i k (s.compare sh a b) := ⟨at_.toInside.compare sh a b,at_.node,at_.value,at_.slot⟩

theorem Walk.AtSlot.put (at_ : w.AtSlot live log n i k s) (apart : w.Apart) (o : BitVec 32) (v : BitVec 64)
    (small : o.toNat + 8 ≤ 0xA8) : w.AtSlot live log n i k (s.put o v) :=
  ⟨at_.toInside.put apart o v small,at_.node,at_.value,at_.slot⟩

theorem next_entry (base : BitVec 32) (i : Nat) : entryAt base i + 8 = entryAt base (i+1) := by
  rw [entryAt,entryAt,BitVec.add_assoc,Nat.mul_add,BitVec.ofNat_add]
  rfl

theorem next_value (n : BitVec 32) (i : Nat) : valueAt n i + 4 = valueAt n (i+1) := by
  rw [valueAt,valueAt,BitVec.add_assoc,Nat.mul_add,BitVec.ofNat_add]
  rfl

theorem entry_inside (i : Nat) (small : i < 4) (j : Nat) (byte : j < 8) :
    InTable base (entryAt base i + BitVec.ofNat 32 j) := by
  left
  have place : entryAt base i + BitVec.ofNat 32 j - (base+0x30) = BitVec.ofNat 32 (8*i+j) := by
    rw [entryAt,BitVec.add_assoc,← BitVec.ofNat_add,BitVec.add_comm,BitVec.add_sub_cancel]
  rw [place,BitVec.toNat_ofNat]
  omega

theorem value_inside (i : Nat) (small : i < 4) (j : Nat) (byte : j < 4) : InNode n (valueAt n i + BitVec.ofNat 32 j) := by
  right
  have place : valueAt n i + BitVec.ofNat 32 j - n = BitVec.ofNat 32 (0x10+4*i+j) := by
    rw [valueAt,BitVec.add_assoc,BitVec.add_assoc,← BitVec.ofNat_add,BitVec.add_comm,BitVec.add_sub_cancel,
      Nat.add_assoc,BitVec.ofNat_add 0x10]
    rfl
  rw [place,BitVec.toNat_ofNat]
  omega

theorem head_inside (base : BitVec 32) (j : Nat) (byte : j < 4) : InTable base (base + 0x78 + BitVec.ofNat 32 j) := by
  right
  rw [BitVec.add_comm,BitVec.add_sub_cancel,BitVec.toNat_ofNat]
  omega

theorem link_inside (n : BitVec 32) (j : Nat) (byte : j < 4) : InNode n (n + BitVec.ofNat 32 j) := by
  left
  rw [BitVec.add_comm,BitVec.add_sub_cancel,BitVec.toNat_ofNat]
  omega

theorem Walk.Inside.word (inside : w.Inside live log s) (a : BitVec 32)
    (needed : ∀ j < 4, InTable w.base (a + BitVec.ofNat 32 j) ∨ ∃ n ∈ live, InNode n (a + BitVec.ofNat 32 j)) :
    s.mem.vm.be32 a = w.vm.be32 a := be32_congr fun j => inside.kept _ (needed j.val j.isLt)

theorem Walk.Inside.flag (inside : w.Inside live log s) (small : i < 4) :
    s.mem.vm (entryAt w.base i) = w.vm (entryAt w.base i) := by
  have same := inside.kept _ (.inl (entry_inside i small 0 (by decide)))
  rwa [BitVec.add_zero] at same

theorem Walk.Inside.descriptor (inside : w.Inside live log s) (small : i < 4) :
    s.mem.vm.be32 (entryAt w.base i + 4) = w.vm.be32 (entryAt w.base i + 4) := by
  refine inside.word _ fun j byte => .inl ?_
  rw [BitVec.add_assoc]
  exact BitVec.ofNat_add 4 j ▸ entry_inside i small (4+j) (by omega)

theorem Walk.Inside.nodeValue (inside : w.Inside live log s) (member : n ∈ live) (small : i < 4) :
    s.mem.vm.be32 (valueAt n i) = w.vm.be32 (valueAt n i) :=
  inside.word _ fun j byte => .inr ⟨n,member,value_inside i small j byte⟩

theorem byte_zero (b : BitVec 8) : low32 (b.setWidth 64) = 0 ↔ b = 0 := by
  have same : low32 (b.setWidth 64) = b.setWidth 32 := BitVec.setWidth_setWidth_of_le b (by decide)
  rw [same]
  constructor
  · intro zero
    have low := congrArg (BitVec.setWidth 8) zero
    rwa [BitVec.setWidth_setWidth_of_le b (by decide),BitVec.setWidth_eq] at low
  · rintro rfl
    rfl

theorem flag_run (at_ : w.AtSlot live log n i i s) (small : i < 4) : ∃ t,
    straight (recorded env) fuel [.clrldi 9 31,.addi 31 31 8,.lbz 0 9 0,.cmpwi 0 0 0] s = some t ∧
      w.AtSlot live log n i (i+1) t ∧ t.gpr 9 = (entryAt w.base i).setWidth 64 ∧
      t.eq 0 = decide (w.vm (entryAt w.base i) = 0) := by
  have opened : ppc_rldicl (s.gpr 31) 0 32 = (entryAt w.base i).setWidth 64 := by rw [clrldi_low,at_.slot]
  have read : vm_read8 s.mem.vm ((entryAt w.base i).setWidth 64 + 0) = w.vm (entryAt w.base i) := by
    have zero : (entryAt w.base i).setWidth 64 + 0 = (entryAt w.base i).setWidth 64 := BitVec.add_zero _
    rw [zero,vm_read8]
    exact (congrArg s.mem.vm (low32_zext _)).trans (at_.flag small)
  refine ⟨_,rfl,⟨?_,?_,?_,?_⟩,?_,?_⟩
  · exact (((at_.toInside.set 9 _).set 31 _).set 0 _).compare _ _ _
  · simp [gpr_set,at_.node]
  · simp [gpr_set,at_.value]
  · simp [gpr_set,low32_sext32,low32_add,at_.slot]
    exact next_entry _ _
  · simp [gpr_set,opened]
  · rw [compare_eq (by decide)]
    simp only [gpr_set,mem_set,opened,Fin.reduceEq,reduceIte,read,byte_zero]

theorem descriptor_run (at_ : w.AtSlot live log n i k s) (small : i < 4)
    (opened : s.gpr 9 = (entryAt w.base i).setWidth 64) : ∃ t,
    straight (recorded env) fuel [.lwz 0 9 4,.clrldi 3 30,.cmpwi 0 0 0] s = some t ∧ w.AtSlot live log n i k t ∧
      t.gpr 0 = (w.vm.be32 (entryAt w.base i + 4)).setWidth 64 ∧ t.gpr 3 = (valueAt n i).setWidth 64 ∧
      t.eq 0 = decide (w.vm.be32 (entryAt w.base i + 4) = 0) := by
  have read : vm_read32 s.mem.vm (s.gpr 9 + 4) = w.vm.be32 (entryAt w.base i + 4) := by
    rw [opened,word_at]
    exact at_.descriptor small
  refine ⟨_,rfl,?_,?_,?_,?_⟩
  · exact ((at_.set 0 _).set 3 _).compare _ _ _
  · simp only [gpr_compare,gpr_set,Fin.reduceEq,reduceIte,read]
  · simp [gpr_set,clrldi_low,at_.value]
  · rw [compare_eq (by decide)]
    simp only [gpr_set,Fin.reduceEq,reduceIte,read,low32_zext]

theorem value_run (at_ : w.AtSlot live log n i k s) (small : i < 4) (member : n ∈ live)
    (d : BitVec 32) (found : s.gpr 0 = d.setWidth 64) (place : s.gpr 3 = (valueAt n i).setWidth 64) : ∃ t,
    straight (recorded env) fuel [.clrldi 9 0,.lwz 0 3 0,.cmpwi 0 0 0,.clrldi 3 0] s = some t ∧
      w.AtSlot live log n i k t ∧ t.gpr 9 = d.setWidth 64 ∧ t.gpr 3 = (w.vm.be32 (valueAt n i)).setWidth 64 ∧
      t.eq 0 = decide (w.vm.be32 (valueAt n i) = 0) := by
  have read : vm_read32 s.mem.vm ((valueAt n i).setWidth 64 + 0) = w.vm.be32 (valueAt n i) := by
    have zero : valueAt n i + low32 0 = valueAt n i := BitVec.add_zero _
    rw [word_at,zero]
    exact at_.nodeValue member small
  refine ⟨_,rfl,?_,?_,?_,?_⟩
  · exact (((at_.set 9 _).set 0 _).compare _ _ _).set 3 _
  · simp [gpr_set,clrldi_low,found]
  · simp only [gpr_set,gpr_compare,mem_set,Fin.reduceEq,reduceIte,place,read,clrldi_low,low32_zext]
  · show (PpuState.compare _ _ _ _).eq 0 = _
    rw [compare_eq (by decide)]
    simp only [gpr_set,mem_set,Fin.reduceEq,reduceIte,place,read,low32_zext]

theorem destroy_run (apart : w.Apart) (callees : w.Callees env) (at_ : w.AtSlot live log n i k s) (d v : BitVec 32)
    (found : s.gpr 9 = d.setWidth 64) (argument : s.gpr 3 = v.setWidth 64) : ∃ t e,
    straight (recorded env) fuel [.lwz 0 9 0,.std 2 1 0x28,.mtctr 0,.lwz 2 9 4,.call .ps3_indirect_call,.ld 2 1 0x28] s =
      some t ∧ e.Does (.destroy d v) ∧ w.AtSlot live (log ++ [e]) n i k t := by
  let one := s.set 0 ((vm_read32 s.mem.vm (s.gpr 9 + 0)).setWidth 64)
  let two := one.put (low32 0x28) (one.gpr 2)
  let three : PpuState (ω × List Event) := {two with ctx := {two.ctx with ctr := (low32 (two.gpr 0)).setWidth 64}}
  let four := three.set 2 ((vm_read32 three.mem.vm (three.gpr 9 + 4)).setWidth 64)
  have first := at_.set 0 ((vm_read32 s.mem.vm (s.gpr 9 + 0)).setWidth 64)
  have second := first.put apart (low32 0x28) (one.gpr 2) (by decide)
  have third : w.AtSlot live log n i k three := ⟨second.toInside.ctr _,second.node,second.value,second.slot⟩
  have fourth := third.set 2 ((vm_read32 three.mem.vm (three.gpr 9 + 4)).setWidth 64)
  obtain ⟨t,called,_,inside,registers⟩ := call_run env fuel callees fourth.toInside .ps3_indirect_call (by decide) live
    (fun _ member => member) (fun _ _ freed => by cases freed.1)
  have zero : d + low32 0 = d := BitVec.add_zero d
  have loaded (r : Fin 32) (other : r ≠ 0) : three.gpr r = s.gpr r := show one.gpr r = s.gpr r from gpr_set_other _ other
  have opd : three.gpr 9 = d.setWidth 64 := (loaded 9 (by decide)).trans found
  refine ⟨t.set 2 (vm_read64 t.mem.vm (t.gpr 1 + 0x28)),⟨.ps3_indirect_call,four.ctx,four.mem⟩,?_,⟨rfl,?_,?_,?_⟩,?_⟩
  · refine straight_cons.mpr ⟨one,rfl,straight_cons.mpr ⟨two,std_run env fuel apart first.pointer 2 0x28 (by decide),?_⟩⟩
    refine straight_cons.mpr ⟨three,rfl,straight_cons.mpr ⟨four,rfl,straight_cons.mpr ⟨t,called,?_⟩⟩⟩
    exact straight_cons.mpr ⟨_,rfl,straight_nil.mpr rfl⟩
  · have kept : four.gpr 3 = three.gpr 3 := gpr_set_other _ (by decide)
    exact kept.trans ((loaded 3 (by decide)).trans argument)
  · show four.gpr 2 = _
    rw [gpr_set_same,opd,word_at]
    rfl
  · refine ⟨s.mem.vm,one.gpr 2,?_,?_⟩
    · have kept : four.gpr 1 = one.gpr 1 := gpr_set_other (s:=three) _ (by decide)
      show _ = s.mem.vm.put64 (low32 (four.gpr 1) + 0x28) _
      rw [kept]
      rfl
    · show (low32 (one.gpr 0)).setWidth 64 = _
      rw [gpr_set_same,low32_zext,found,word_at,zero]
  · have back : w.AtSlot live (log ++ [⟨.ps3_indirect_call,four.ctx,four.mem⟩]) n i k t := by
      refine ⟨inside,?_,?_,?_⟩
      · rw [registers 28 (by decide)]
        exact fourth.node
      · rw [registers 30 (by decide)]
        exact fourth.value
      · rw [registers 31 (by decide)]
        exact fourth.slot
    exact back.set 2 _

theorem tail_run (at_ : w.AtSlot live log n i (i+1) s) (small : i < 4) : ∃ t,
    straight (recorded env) fuel [.addi 0 29 0x50,.addi 30 30 4,.cmpw 0 31 0] s = some t ∧
      w.AtSlot live log n (i+1) (i+1) t ∧ t.eq 0 = decide (i = 3) := by
  -- The slots are told apart by their offsets in the table.
  have last : entryAt w.base (i+1) = w.base + 0x50 ↔ i = 3 := by
    have fifty : w.base + 0x50 = entryAt w.base 4 := by
      rw [entryAt,BitVec.add_assoc]
      rfl
    rw [fifty,entryAt,entryAt,BitVec.add_right_inj]
    exact (show ∀ i < 4, BitVec.ofNat 32 (8*(i+1)) = BitVec.ofNat 32 (8*4) ↔ i = 3 by decide) i small
  refine ⟨_,rfl,⟨?_,?_,?_,?_⟩,?_⟩
  · exact ((at_.toInside.set 0 _).set 30 _).compare _ _ _
  · simp [gpr_set,at_.node]
  · simp only [gpr_compare,gpr_set,Fin.reduceEq,reduceIte,low32_sext32,low32_add,at_.value]
    exact next_value _ _
  · simp [gpr_set,at_.slot]
  · rw [compare_eq (by decide),decide_eq_decide,← last]
    simp only [gpr_set,Fin.reduceEq,reduceIte,low32_sext32,low32_add,at_.slot,at_.table]
    rfl

theorem tests_run (apart : w.Apart) (callees : w.Callees env) (at_ : w.AtSlot live log n i (i+1) s) (small : i < 4)
    (member : n ∈ live) (opened : s.gpr 9 = (entryAt w.base i).setWidth 64)
    (flag : s.eq 0 = decide (w.vm (entryAt w.base i) = 0)) : ∃ t made,
    when_ (!·.eq 0) (block [
      straight (recorded env) fuel [.lwz 0 9 4,.clrldi 3 30,.cmpwi 0 0 0],
      when_ (!·.eq 0) (block [
        straight (recorded env) fuel [.clrldi 9 0,.lwz 0 3 0,.cmpwi 0 0 0,.clrldi 3 0],
        when_ (!·.eq 0) (straight (recorded env) fuel [.lwz 0 9 0,.std 2 1 0x28,.mtctr 0,.lwz 2 9 4,
          .call .ps3_indirect_call,.ld 2 1 0x28])])]) s = some t ∧
      List.Forall₂ Event.Does made (slotActions w.vm w.base n i) ∧ w.AtSlot live (log ++ made) n i (i+1) t := by
  have skipped (u : PpuState (ω × List Event)) (here : w.AtSlot live log n i (i+1) u)
      (reason : w.vm (entryAt w.base i) = 0 ∨ w.vm.be32 (entryAt w.base i + 4) = 0 ∨ w.vm.be32 (valueAt n i) = 0) :
      List.Forall₂ Event.Does [] (slotActions w.vm w.base n i) ∧ w.AtSlot live (log ++ []) n i (i+1) u := by
    rw [slotActions,if_pos reason,List.append_nil]
    exact ⟨.nil,here⟩
  by_cases disabled : w.vm (entryAt w.base i) = 0
  · exact ⟨s,[],when_skip (by rw [flag,decide_eq_true disabled]; rfl),skipped s at_ (.inl disabled)⟩
  · obtain ⟨u,ran,there,found,place,descriptor⟩ := descriptor_run env fuel at_ small opened
    rw [when_take (by rw [flag,decide_eq_false disabled]; rfl)]
    by_cases missing : w.vm.be32 (entryAt w.base i + 4) = 0
    · refine ⟨u,[],block_cons.mpr ⟨u,ran,block_cons.mpr ⟨u,?_,rfl⟩⟩,skipped u there (.inr (.inl missing))⟩
      exact when_skip (by rw [descriptor,decide_eq_true missing]; rfl)
    · obtain ⟨v,ran',there',code,argument,value⟩ := value_run env fuel there small member _ found place
      by_cases null : w.vm.be32 (valueAt n i) = 0
      · refine ⟨v,[],block_cons.mpr ⟨u,ran,block_cons.mpr ⟨v,?_,rfl⟩⟩,skipped v there' (.inr (.inr null))⟩
        rw [when_take (by rw [descriptor,decide_eq_false missing]; rfl)]
        refine block_cons.mpr ⟨v,ran',block_cons.mpr ⟨v,?_,rfl⟩⟩
        exact when_skip (by rw [value,decide_eq_true null]; rfl)
      · obtain ⟨t,e,called,does,back⟩ := destroy_run env fuel apart callees there' _ _ code argument
        refine ⟨t,[e],block_cons.mpr ⟨u,ran,block_cons.mpr ⟨t,?_,rfl⟩⟩,?_,back⟩
        · rw [when_take (by rw [descriptor,decide_eq_false missing]; rfl)]
          refine block_cons.mpr ⟨v,ran',block_cons.mpr ⟨t,?_,rfl⟩⟩
          rw [when_take (by rw [value,decide_eq_false null]; rfl)]
          exact called
        · rw [slotActions,if_neg (not_or.mpr ⟨disabled,not_or.mpr ⟨missing,null⟩⟩)]
          exact .cons does .nil

theorem slot_run (apart : w.Apart) (callees : w.Callees env) (at_ : w.AtSlot live log n i i s) (small : i < 4)
    (member : n ∈ live) : ∃ t made, slot_E77A8 (recorded env) fuel s = some t ∧
      List.Forall₂ Event.Does made (slotActions w.vm w.base n i) ∧ w.AtSlot live (log ++ made) n (i+1) (i+1) t ∧
      t.eq 0 = decide (i = 3) := by
  obtain ⟨u,first,there,opened,flag⟩ := flag_run env fuel at_ small
  obtain ⟨v,made,tests,does,there'⟩ := tests_run env fuel apart callees there small member opened flag
  obtain ⟨t,last,back,exit⟩ := tail_run env fuel there' small
  refine ⟨t,made,?_,does,back,exit⟩
  exact block_cons.mpr ⟨u,first,block_cons.mpr ⟨v,tests,block_cons.mpr ⟨t,last,rfl⟩⟩⟩
end Steps

end BudokaiRuntime.Ppu
