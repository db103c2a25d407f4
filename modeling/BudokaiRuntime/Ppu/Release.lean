import BudokaiRuntime.Ppu.Counting
import BudokaiRuntime.Ppu.CallingConvention

-- One pointer of the release functions: the two counts of its object and the two calls.
namespace BudokaiRuntime.Ppu
open Guest Programs Rsx

-- The frame below the entry stack pointer, with the header of the caller's frame that holds LR.
def InFrame (sp : BitVec 64) (size : Nat) (a : BitVec 32) : Prop := (a - low32 sp).toNat < size + 0x18

def Agree (frame : BitVec 32 → Prop) (one two : GuestMem) : Prop := ∀ a, ¬ frame a → one a = two a

def Call.Enters (c : Call) (p d : BitVec 32) : Prop :=
  let opd := c.before.be32 (c.before.be32 p + d)
  c.ctx.ctr = (c.before.be32 opd).setWidth 64 ∧ c.ctx.gpr 2 = (c.before.be32 (opd+4)).setWidth 64 ∧
    c.ctx.gpr 3 = p.setWidth 64

-- What releasing the object at `p` does to memory, and the calls it makes on the way.
def Released (frame : BitVec 32 → Prop) (p : BitVec 32) (vm vm' : GuestMem) (calls : List Call) : Prop :=
  if p = 0 then calls = [] ∧ Agree frame vm' vm
  else if vm.be32 (p+4) ≠ 1 then calls = [] ∧ Agree frame vm' (vm.put32 (p+4) (vm.be32 (p+4) - 1))
  else ∃ first rest, calls = first::rest ∧ first.Enters p 0x8 ∧
    Agree frame first.before (vm.put32 (p+4) (vm.be32 (p+4) - 1)) ∧
    if first.after.be32 (p+8) ≠ 1 then
      rest = [] ∧ Agree frame vm' (first.after.put32 (p+8) (first.after.be32 (p+8) - 1))
    else ∃ second, rest = [second] ∧ second.Enters p 0xC ∧
      Agree frame second.before (first.after.put32 (p+8) (first.after.be32 (p+8) - 1)) ∧
      Agree frame vm' second.after

-- What is assumed of the callees: they return, and keep gpr[1], gpr[2] and gpr[29..31].
def Returns {ω : Type} (env : Env ω) : Prop := ∀ ctx mem world, ∃ left : PpuCtx × Machine × ω,
  env .ps3_indirect_call (ctx,mem,world) = some left ∧ left.1.gpr 1 = ctx.gpr 1 ∧ left.1.gpr 2 = ctx.gpr 2 ∧
    ∀ r, 29 ≤ r → left.1.gpr r = ctx.gpr r

section Call
variable {ω : Type} {env : Env ω} {fuel : Nat} {s t : PpuState ω} {sp : BitVec 64} {ptr : Fin 32} {p : BitVec 32}
  {d : BitVec 64}

theorem clrldi_low (v : BitVec 64) : ppc_rldicl v 0 32 = (low32 v).setWidth 64 := by
  have mask : ppc_mask64 32 63 = BitVec.ofNat 64 (2^32-1) := by decide
  rw [ppc_rldicl,mask,rotl64_zero]
  apply BitVec.eq_of_toNat_eq
  rw [BitVec.toNat_and,BitVec.toNat_ofNat,low32,BitVec.toNat_setWidth,BitVec.toNat_setWidth]
  rw [Nat.mod_eq_of_lt (by decide : 2^32-1 < 2^64),Nat.and_two_pow_sub_one_eq_mod]
  omega

def fetching (ptr : Fin 32) (d : BitVec 64) (s : PpuState ω) : PpuState ω :=
  let one := s.set 4 ((vm_read32 s.mem.vm (s.gpr ptr + 0)).setWidth 64)
  let two := one.set 3 (one.gpr ptr ||| 0)
  let three := {two with mem := {two.mem with vm := two.mem.vm.put64 (low32 (two.gpr 1 + 0x28)) (two.gpr 2)}}
  three.set 4 ((vm_read32 three.mem.vm (three.gpr 4 + d)).setWidth 64)

def entering (s : PpuState ω) : PpuState ω :=
  let one := s.set 5 ((vm_read32 s.mem.vm (s.gpr 4 + 0)).setWidth 64)
  let two := one.set 2 ((vm_read32 one.mem.vm (one.gpr 4 + 4)).setWidth 64)
  {two with ctx := {two.ctx with ctr := (low32 (two.gpr 5)).setWidth 64}}

def calling (ptr : Fin 32) (d : BitVec 64) (s : PpuState ω) : PpuState ω := entering (fetching ptr d s)

theorem word_at (vm : GuestMem) (w : BitVec 32) (e : BitVec 64) :
    vm_read32 vm (w.setWidth 64 + e) = vm.be32 (w + low32 e) := by
  rw [vm_read32_eq]
  exact congrArg _ ((low32_add _ _).trans (congrArg (· + low32 e) (low32_zext w)))

theorem entering_ctx (opd : s.gpr 4 = w.setWidth 64) :
    (entering s).ctx.ctr = (s.mem.vm.be32 w).setWidth 64 ∧ (entering s).gpr 2 = (s.mem.vm.be32 (w+4)).setWidth 64 := by
  have zero : w + low32 0 = w := BitVec.add_zero w
  have four : (s.set 5 ((vm_read32 s.mem.vm (s.gpr 4 + 0)).setWidth 64)).gpr 4 = w.setWidth 64 := by
    rw [gpr_set_other _ (by decide),opd]
  constructor
  · unfold entering
    dsimp only
    rw [gpr_set_other _ (by decide),gpr_set_same,low32_zext,opd,word_at,zero]
  · have toc : (entering s).gpr 2 = ((s.set 5 ((vm_read32 s.mem.vm (s.gpr 4 + 0)).setWidth 64)).set 2
        ((vm_read32 s.mem.vm ((s.set 5 ((vm_read32 s.mem.vm (s.gpr 4 + 0)).setWidth 64)).gpr 4 + 4)).setWidth 64)).gpr 2 :=
      rfl
    rw [toc,gpr_set_same,four,word_at]
    rfl

theorem entering_gpr (r : Fin 32) (kept : r ≠ 5 ∧ r ≠ 2) : (entering s).gpr r = s.gpr r := by
  refine (gpr_set_other (s:=s.set 5 _) _ kept.2).trans ?_
  exact gpr_set_other _ kept.1

theorem fetching_gpr (r : Fin 32) (kept : r ≠ 4 ∧ r ≠ 3) : (fetching ptr d s).gpr r = s.gpr r := by
  refine (gpr_set_other _ kept.1).trans ?_
  refine (gpr_set_other (s:=s.set 4 _) _ kept.2).trans ?_
  exact gpr_set_other _ kept.1

theorem fetching_memory : (fetching ptr d s).mem.vm = s.mem.vm.put64 (low32 (s.gpr 1 + 0x28)) (s.gpr 2) := rfl

variable (fuel) in
theorem toc_plain (room : Room sp) (m : Machine) (v : BitVec 64) : vm_write64 fuel m (sp + 0x28) v =
    some {m with vm := m.vm.put64 (low32 (sp + 0x28)) v} := by
  rw [room_store room fuel m 0x28 v (by decide),low32_add]

variable (env) in
theorem fetch_run (room : Room (s.gpr 1)) :
    straight env fuel [.lwz 4 ptr 0,.ori 3 ptr 0,.std 2 1 0x28,.lwz 4 4 d] s = some (fetching ptr d s) := by
  refine straight_cons.mpr ⟨_,rfl,?_⟩
  refine straight_cons.mpr ⟨_,rfl,?_⟩
  refine straight_cons.mpr ⟨_,Option.map_eq_some_iff.mpr ⟨_,toc_plain fuel room s.mem (s.gpr 2),rfl⟩,?_⟩
  exact straight_cons.mpr ⟨_,rfl,straight_nil.mpr rfl⟩

variable (env fuel s) in
theorem enter_run : straight env fuel [.lwz 5 4 0,.lwz 2 4 4,.mtctr 5] s = some (entering s) := by
  refine straight_cons.mpr ⟨_,rfl,?_⟩
  refine straight_cons.mpr ⟨_,rfl,?_⟩
  exact straight_cons.mpr ⟨_,rfl,straight_nil.mpr rfl⟩

theorem virtual_call_left (room : Room (s.gpr 1)) : straight env fuel (virtual_call ptr d) s = some t ↔
    ∃ left, env .ps3_indirect_call ((calling ptr d s).ctx,(calling ptr d s).mem,(calling ptr d s).world) = some left ∧
      t = (calling ptr d s).return_from .ps3_indirect_call left := by
  have parts : virtual_call ptr d = [.lwz 4 ptr 0,.ori 3 ptr 0,.std 2 1 0x28,.lwz 4 4 d] ++
      ([.lwz 5 4 0,.lwz 2 4 4,.mtctr 5] ++ [.call .ps3_indirect_call]) := rfl
  rw [parts,straight_append,seq,fetch_run env room,Option.bind_some,straight_append,seq,enter_run env,Option.bind_some]
  change straight env fuel [.call .ps3_indirect_call] (calling ptr d s) = some t ↔ _
  generalize calling ptr d s = u
  constructor
  · intro ran
    obtain ⟨_,one,ran⟩ := straight_cons.mp ran
    cases straight_nil.mp ran
    obtain ⟨left,went,rfl⟩ := Option.map_eq_some_iff.mp one
    exact ⟨left,went,rfl⟩
  · rintro ⟨left,went,rfl⟩
    exact straight_cons.mpr ⟨_,Option.map_eq_some_iff.mpr ⟨left,went,rfl⟩,straight_nil.mpr rfl⟩

theorem fetching_opd (object : s.gpr ptr = p.setWidth 64) : (fetching ptr d s).gpr 4 =
    ((fetching ptr d s).mem.vm.be32 (s.mem.vm.be32 p + low32 d)).setWidth 64 := by
  have zero : p + low32 0 = p := BitVec.add_zero p
  let one := s.set 4 ((vm_read32 s.mem.vm (s.gpr ptr + 0)).setWidth 64)
  have vtable : (one.set 3 (one.gpr ptr ||| 0)).gpr 4 = (s.mem.vm.be32 p).setWidth 64 := by
    rw [gpr_set_other _ (by decide),gpr_set_same,object,word_at,zero]
  refine (gpr_set_same 4 _).trans ?_
  show (vm_read32 (fetching ptr d s).mem.vm ((one.set 3 (one.gpr ptr ||| 0)).gpr 4 + d)).setWidth 64 = _
  rw [vtable,word_at]

theorem fetching_argument (object : s.gpr ptr = p.setWidth 64) (four : ptr ≠ 4) :
    (fetching ptr d s).gpr 3 = p.setWidth 64 := by
  refine (gpr_set_other _ (by decide)).trans ((gpr_set_same (s:=s.set 4 _) 3 _).trans ?_)
  rw [gpr_set_other _ four,object]
  exact BitVec.or_zero

theorem calling_enters (object : s.gpr ptr = p.setWidth 64) (high : 29 ≤ ptr)
    (apart : Clear (low32 (s.gpr 1 + 0x28)) 8 p 4) (after : GuestMem) :
    Call.Enters ⟨(calling ptr d s).ctx,(calling ptr d s).mem.vm,after⟩ p (low32 d) := by
  have four : ptr ≠ 4 := by
    rintro rfl
    exact absurd high (by decide)
  have same : (fetching ptr d s).mem.vm.be32 p = s.mem.vm.be32 p := by
    rw [fetching_memory]
    exact be32_congr fun j => put64_beside (clear_byte apart j.val j.isLt)
  have opd := fetching_opd (d:=d) object
  have argument := fetching_argument (d:=d) object four
  rw [← same] at opd
  obtain ⟨code,toc⟩ := entering_ctx opd
  exact ⟨code,toc,(entering_gpr 3 (by decide)).trans argument⟩

theorem calling_memory : (calling ptr d s).mem.vm = s.mem.vm.put64 (low32 (s.gpr 1 + 0x28)) (s.gpr 2) := by
  have kept : (calling ptr d s).mem = (fetching ptr d s).mem := rfl
  rw [kept,fetching_memory]

theorem calling_gpr (r : Fin 32) (kept : r = 0 ∨ r = 1 ∨ 29 ≤ r) : (calling ptr d s).gpr r = s.gpr r := by
  have other (q : Fin 32) (volatile : 2 ≤ q ∧ q ≤ 5) : r ≠ q := by
    rintro rfl
    omega
  rw [calling,entering_gpr r ⟨other 5 (by decide),other 2 (by decide)⟩]
  exact fetching_gpr r ⟨other 4 (by decide),other 3 (by decide)⟩
end Call

section Pieces
variable {ω : Type} {env : Env ω} {fuel : Nat} {s t : PpuState ω} {ptr dec word base : Fin 32} {p : BitVec 32}

structure Still (s t : PpuState ω) : Prop where
  mem : t.mem = s.mem
  world : t.world = s.world
  calls : t.calls = s.calls

theorem high_other {r q : Fin 32} (high : 29 ≤ r) (low : q < 29) : r ≠ q := by
  rintro rfl
  omega

variable (env fuel) in
theorem first_count (object : s.gpr ptr = p.setWidth 64) (high : 29 ≤ ptr ∧ 29 ≤ dec ∧ ptr ≠ dec) :
    ∃ t, straight env fuel [.lis 3 0xFFFF,.addi 4 ptr 4,.ori 3 3 0xFFFF,.clrldi 4 4,.clrldi dec 3] s = some t ∧
      Loop 3 4 dec t ∧ low32 (t.gpr 4) = p+4 ∧ (∀ r, r ≠ 3 → r ≠ 4 → r ≠ dec → t.gpr r = s.gpr r) ∧ Still s t := by
  refine ⟨_,rfl,⟨by decide,by decide,by decide,(high_other high.2.1 (by decide)),(high_other high.2.1 (by decide)),?_⟩,
    ?_,?_,⟨rfl,rfl,rfl⟩⟩
  · rw [gpr_set_same,gpr_set_other _ (by decide),gpr_set_same,clrldi_low,low32_zext,gpr_set_other _ (by decide),
      gpr_set_same]
    decide
  · have other : (4 : Fin 32) ≠ dec := (high_other high.2.1 (by decide)).symm
    have pointer : ptr ≠ 3 := high_other high.1 (by decide)
    rw [gpr_set_other _ other,gpr_set_same,clrldi_low,low32_zext,gpr_set_other _ (by decide),gpr_set_same,
      gpr_set_other _ pointer,object]
    have sum : low32 (sext32 (p.setWidth 64 + 4)) = low32 (p.setWidth 64 + 4) := low32_sext32 _
    rw [sum,low32_add,low32_zext]
    rfl
  · intro r three four minus
    rw [gpr_set_other _ minus,gpr_set_other _ four,gpr_set_other _ three,gpr_set_other _ four,gpr_set_other _ three]

variable (env fuel) in
theorem second_count (object : s.gpr ptr = p.setWidth 64) :
    ∃ t, straight env fuel [.addi 3 ptr 8,.ld 2 1 0x28,.clrldi 3 3] s = some t ∧ low32 (t.gpr 3) = p+8 ∧
      (∀ r, r ≠ 2 → r ≠ 3 → t.gpr r = s.gpr r) ∧ Still s t := by
  refine ⟨_,rfl,?_,?_,⟨rfl,rfl,rfl⟩⟩
  · rw [gpr_set_same,clrldi_low,low32_zext,gpr_set_other _ (by decide),gpr_set_same,object]
    have sum : low32 (sext32 (p.setWidth 64 + 8)) = low32 (p.setWidth 64 + 8) := low32_sext32 _
    rw [sum,low32_add,low32_zext]
    rfl
  · intro r two three
    rw [gpr_set_other _ three,gpr_set_other _ two,gpr_set_other _ three]

theorem loop_more {word base dec : Fin 32} (ran : decrement_loop env n word base dec s = some t) (more : n ≤ m) :
    decrement_loop env m word base dec s = some t :=
  do_while_more (fun _ _ one => straight_more one more) more ran

theorem count_left {rest : PpuState ω → Option (PpuState ω)} (loop : Loop word base dec s)
    (ran : block [decrement_loop env fuel word base dec,straight env fuel [.cmpwi 28 word 1],when_ (·.eq 28) rest] s =
      some t) : ∃ v u n x, decrement_loop env fuel word base dec s = some v ∧
      straight env fuel [.cmpwi 28 word 1] v = some u ∧ Beside word s u ∧
      (walk s.mem.vm (low32 (s.gpr base)))^[n] (low32 (s.gpr 0)) = x ∧ walk s.mem.vm (low32 (s.gpr base)) x = x ∧
      vm_write32 fuel s.mem ((x + low32 (s.gpr base)).setWidth 64) x = some u.mem ∧
      ((x = 0 ∧ rest u = some t) ∨ (x ≠ 0 ∧ t = u)) := by
  obtain ⟨v,counted,ran⟩ := block_cons.mp ran
  obtain ⟨u,compared,ran⟩ := block_cons.mp ran
  obtain ⟨left,tested,ran⟩ := block_cons.mp ran
  cases block_nil.mp ran
  obtain ⟨beside,n,x,walked,fixed,_,read,wrote⟩ := loop_left loop counted
  refine ⟨v,u,n,x,counted,compared,?_,walked,fixed,?_,?_⟩
  · obtain ⟨_,one,nothing⟩ := straight_cons.mp compared
    cases straight_nil.mp nothing
    cases one
    exact ⟨beside.gpr,beside.world,beside.calls⟩
  · obtain ⟨_,one,nothing⟩ := straight_cons.mp compared
    cases straight_nil.mp nothing
    cases one
    exact wrote
  · obtain ⟨_,one,nothing⟩ := straight_cons.mp compared
    cases straight_nil.mp nothing
    cases one
    have flag : (v.compare 28 (low32 (v.gpr word)) 1).eq 28 = decide (x+1 = 1) := by
      rw [compare_eq (Nat.le_refl 28),read,low32_zext]
    simp only [when_,flag,decide_eq_true_eq] at tested
    by_cases zero : x = 0
    · rw [if_pos (by rw [zero]; rfl)] at tested
      exact .inl ⟨zero,tested⟩
    · have other : x + 1 ≠ 1 := fun same => zero (by grind)
      rw [if_neg other] at tested
      exact .inr ⟨zero,(Option.some.inj tested).symm⟩

variable (env) in
theorem count_returns (loop : Loop word base dec s)
    (counts : Counts s.mem (low32 (s.gpr base)) (low32 (s.gpr 0))) : ∃ fuel v u,
      decrement_loop env fuel word base dec s = some v ∧ (∀ n, straight env n [.cmpwi 28 word 1] v = some u) ∧
        u.eq 28 = true ∧ Beside word s u ∧
        u.mem.vm = s.mem.vm.put32 (low32 (s.gpr base)) (s.mem.vm.be32 (low32 (s.gpr base)) - 1) := by
  obtain ⟨one,⟨n,walked⟩,plain⟩ := counts
  obtain ⟨fuel,mem,wrote,stored⟩ := plain_store plain
  have fixed := walk_zero.mpr one
  have here : 0 + low32 (s.gpr base) = low32 (s.gpr base) := BitVec.zero_add _
  rw [← here] at wrote
  obtain ⟨more,v,counted⟩ := loop_returns env loop walked fixed wrote
  obtain ⟨beside,m,x,again,still,_,read,wrote'⟩ := loop_left loop counted
  -- The walk stands still from some round on, so that both are at the same place.
  have same : x = 0 := by
    have one := Function.iterate_add_apply (walk s.mem.vm (low32 (s.gpr base))) m n (low32 (s.gpr 0))
    have two := Function.iterate_add_apply (walk s.mem.vm (low32 (s.gpr base))) n m (low32 (s.gpr 0))
    rw [walked,Function.iterate_fixed fixed] at one
    rw [again,Function.iterate_fixed still,Nat.add_comm,one] at two
    exact two.symm
  subst same
  have left : v.mem = mem := Option.some.inj
    ((write32_more wrote' (Nat.le_max_right fuel more)).symm.trans (write32_more wrote (Nat.le_max_left fuel more)))
  refine ⟨more,v,_,counted,fun _ => rfl,?_,⟨beside.gpr,beside.world,beside.calls⟩,?_⟩
  · rw [compare_eq (Nat.le_refl 28),read,low32_zext]
    rfl
  · show v.mem.vm = _
    rw [left,stored,one]
    rfl
end Pieces

section Release
variable {ω : Type} {env : Env ω} {s t : PpuState ω} {sp : BitVec 64} {ptr dec : Fin 32} {p : BitVec 32}
  {size : Nat}

def up_to_call (env : Env ω) (fuel : Nat) (ptr dec : Fin 32) : PpuState ω → Option (PpuState ω) := block [
  straight env fuel [.cmpwi 28 ptr 0],
  straight env fuel [.lis 3 0xFFFF,.addi 4 ptr 4,.ori 3 3 0xFFFF,.clrldi 4 4,.clrldi dec 3],
  decrement_loop env fuel 3 4 dec,
  straight env fuel [.cmpwi 28 3 1],
  straight env fuel (virtual_call ptr 0x8)]

-- Where releasing the object at gpr[ptr] goes well: there is none, or both counts are 1 and both
-- walks, from the gpr[0] at hand and from the one that the first callee leaves, end at 0.
def Countable (env : Env ω) (ptr dec : Fin 32) (s : PpuState ω) : Prop :=
  low32 (s.gpr ptr) = 0 ∨ (Counts s.mem (low32 (s.gpr ptr) + 4) (low32 (s.gpr 0)) ∧
    ∀ fuel u, up_to_call env fuel ptr dec s = some u → Counts u.mem (low32 (s.gpr ptr) + 8) (low32 (u.gpr 0)))

theorem straight_grows (code : List Insn) : Grows fun n => straight env n code :=
  fun _ _ _ _ more ran => straight_more ran more

theorem decrement_grows (word base dec : Fin 32) : Grows fun n => decrement_loop env n word base dec :=
  grows_do_while (straight_grows _)

theorem up_to_call_grows : Grows fun n => up_to_call env n ptr dec :=
  grows_cons (straight_grows _) (grows_cons (straight_grows _) (grows_cons (decrement_grows _ _ _)
    (grows_cons (straight_grows _) (grows_cons (straight_grows _) grows_nil))))

def second_half (env : Env ω) (fuel : Nat) (ptr dec : Fin 32) : PpuState ω → Option (PpuState ω) := block [
  straight env fuel (virtual_call ptr 0x8),
  straight env fuel [.addi 3 ptr 8,.ld 2 1 0x28,.clrldi 3 3],
  decrement_loop env fuel 4 3 dec,
  straight env fuel [.cmpwi 28 4 1],
  when_ (·.eq 28) (block [straight env fuel (virtual_call ptr 0xC),straight env fuel [.ld 2 1 0x28]])]

theorem second_half_grows : Grows fun n => second_half env n ptr dec :=
  grows_cons (straight_grows _) (grows_cons (straight_grows _) (grows_cons (decrement_grows _ _ _)
    (grows_cons (straight_grows _) (grows_cons (grows_when (grows_cons (straight_grows _)
      (grows_cons (straight_grows _) grows_nil))) grows_nil))))

theorem release_grows (ptr dec : Fin 32) : Grows fun n => release env n ptr dec :=
  grows_cons (straight_grows _) (grows_cons (grows_when (grows_cons (straight_grows _)
    (grows_cons (decrement_grows _ _ _) (grows_cons (straight_grows _)
      (grows_cons (grows_when second_half_grows) grows_nil))))) grows_nil)

theorem frame_registers (room : Room sp) (bound : size ≤ 0x90) (a : BitVec 32) (low : a.toNat < 0x14) :
    ¬ InFrame sp size a := by
  obtain ⟨above,below⟩ := room
  unfold InFrame
  rw [BitVec.toNat_sub]
  omega

theorem toc_agree (bound : 0x70 ≤ size) (vm : GuestMem) (v : BitVec 64) :
    Agree (InFrame sp size) (vm.put64 (low32 (sp + 0x28)) v) vm := by
  intro a outside
  refine put64_beside ?_
  have place : low32 (sp + 0x28) = low32 sp + 0x28 := low32_add sp 0x28
  have value : (0x28 : BitVec 32).toNat = 0x28 := rfl
  unfold InFrame at outside
  rw [place]
  rw [BitVec.toNat_sub] at outside ⊢
  rw [BitVec.toNat_add,value]
  omega

theorem Agree.trans {frame : BitVec 32 → Prop} {one two three : GuestMem} (first : Agree frame one two)
    (second : Agree frame two three) : Agree frame one three :=
  fun a outside => (first a outside).trans (second a outside)

theorem Agree.symm {frame : BitVec 32 → Prop} {one two : GuestMem} (agree : Agree frame one two) :
    Agree frame two one := fun a outside => (agree a outside).symm

structure Ready (sp : BitVec 64) (size : Nat) (ptr dec : Fin 32) (p : BitVec 32) (s : PpuState ω) : Prop where
  room : Room sp
  bounds : 0x70 ≤ size ∧ size ≤ 0x90
  registers : 29 ≤ ptr ∧ 29 ≤ dec ∧ ptr ≠ dec
  pointer : s.gpr 1 = sp
  object : s.gpr ptr = p.setWidth 64
  apart : ∀ j < 12, ¬ InFrame sp size (p + BitVec.ofNat 32 j)

theorem Ready.keep (ready : Ready sp size ptr dec p s) (pointer : t.gpr 1 = s.gpr 1) (object : t.gpr ptr = s.gpr ptr) :
    Ready sp size ptr dec p t :=
  ⟨ready.room,ready.bounds,ready.registers,pointer.trans ready.pointer,object.trans ready.object,ready.apart⟩

theorem Ready.counted (ready : Ready sp size ptr dec p s) (beside : Beside word s t) (low : word < 29)
    (other : 1 ≠ word) : Ready sp size ptr dec p t :=
  ready.keep (beside.gpr 1 (by decide) other)
    (beside.gpr ptr (high_other ready.registers.1 (by decide)) (high_other ready.registers.1 low))

theorem toc_clear (ready : Ready sp size ptr dec p s) : Clear (low32 (sp + 0x28)) 8 p 4 := by
  have outside (j : Nat) (small : j < 4) : 8 ≤ (p + BitVec.ofNat 32 j - low32 (sp + 0x28)).toNat := by
    have apart := ready.apart j (by omega)
    have bounds := ready.bounds
    have place : low32 (sp + 0x28) = low32 sp + 0x28 := low32_add sp 0x28
    have value : (0x28 : BitVec 32).toNat = 0x28 := rfl
    unfold InFrame at apart
    rw [place]
    rw [BitVec.toNat_sub] at apart ⊢
    rw [BitVec.toNat_add (low32 sp),value]
    omega
  have first := outside 0 (by decide)
  have last := outside 3 (by decide)
  rw [BitVec.toNat_sub,BitVec.toNat_add,BitVec.toNat_ofNat] at first last
  constructor
  · rw [BitVec.toNat_sub]
    omega
  · rw [BitVec.toNat_sub]
    omega

variable (env) in
theorem opened (ready : Ready sp size ptr dec p s) : ∃ s1 s2, (∀ fuel, straight env fuel [.cmpwi 28 ptr 0] s = some s1) ∧
    (s1.eq 28 = decide (p = 0) ∧ Still s s1) ∧ (∀ fuel, straight env fuel [.lis 3 0xFFFF,.addi 4 ptr 4,
      .ori 3 3 0xFFFF,.clrldi 4 4,.clrldi dec 3] s1 = some s2) ∧ Loop 3 4 dec s2 ∧ low32 (s2.gpr 4) = p+4 ∧
      (s2.gpr 0 = s.gpr 0 ∧ Ready sp size ptr dec p s2) ∧ Still s s2 := by
  have test : (s.compare 28 (low32 (s.gpr ptr)) 0).eq 28 = decide (p = 0) := by
    rw [compare_eq (Nat.le_refl 28),ready.object,low32_zext]
  obtain ⟨s2,ran,loop,base,kept,still⟩ := first_count env 0
    (s:=s.compare 28 (low32 (s.gpr ptr)) 0) ready.object ready.registers
  obtain ⟨high,high',apart⟩ := ready.registers
  have count := kept 0 (by decide) (by decide) (high_other high' (by decide)).symm
  have pointer := kept 1 (by decide) (by decide) (high_other high' (by decide)).symm
  have object := kept ptr (high_other high (by decide)) (high_other high (by decide)) apart
  exact ⟨_,s2,fun _ => rfl,⟨test,rfl,rfl,rfl⟩,fun fuel => straight_more ran (Nat.zero_le fuel),loop,base,
    ⟨count,ready.keep pointer object⟩,still.mem,still.world,still.calls⟩

theorem call_left (returns : Returns env) (ready : Ready sp size ptr dec p s) (d : BitVec 64) : ∃ t c,
    (∀ fuel, straight env fuel (virtual_call ptr d) s = some t) ∧ t.calls = s.calls ++ [c] ∧ c.Enters p (low32 d) ∧
      Agree (InFrame sp size) c.before s.mem.vm ∧ t.mem.vm = c.after ∧ t.gpr 1 = s.gpr 1 ∧
      ∀ r, 29 ≤ r → t.gpr r = s.gpr r := by
  obtain ⟨left,went,pointer,_,high⟩ := returns (calling ptr d s).ctx (calling ptr d s).mem (calling ptr d s).world
  have room : Room (s.gpr 1) := ready.pointer ▸ ready.room
  have clear : Clear (low32 (s.gpr 1 + 0x28)) 8 p 4 := ready.pointer ▸ toc_clear ready
  refine ⟨(calling ptr d s).return_from .ps3_indirect_call left,⟨(calling ptr d s).ctx,(calling ptr d s).mem.vm,
    left.2.1.vm⟩,fun fuel => (virtual_call_left room).mpr ⟨left,went,rfl⟩,rfl,
    calling_enters ready.object ready.registers.1 clear _,?_,rfl,?_,?_⟩
  · show Agree _ (calling ptr d s).mem.vm _
    rw [calling_memory,ready.pointer]
    exact toc_agree ready.bounds.1 _ _
  · exact pointer.trans (calling_gpr 1 (.inr (.inl rfl)))
  · exact fun r above => (high r above).trans (calling_gpr r (.inr (.inr above)))

variable (env) in
theorem reopened (ready : Ready sp size ptr dec p s) (minus : low32 (s.gpr dec) = -1) : ∃ t,
    (∀ fuel, straight env fuel [.addi 3 ptr 8,.ld 2 1 0x28,.clrldi 3 3] s = some t) ∧ Loop 4 3 dec t ∧
      low32 (t.gpr 3) = p+8 ∧ (t.gpr 0 = s.gpr 0 ∧ Ready sp size ptr dec p t) ∧ Still s t := by
  obtain ⟨t,ran,base,kept,still⟩ := second_count env 0 (s:=s) ready.object
  obtain ⟨high,high',_⟩ := ready.registers
  have object := kept ptr (high_other high (by decide)) (high_other high (by decide))
  refine ⟨t,fun fuel => straight_more ran (Nat.zero_le fuel),⟨by decide,by decide,by decide,
    high_other high' (by decide),high_other high' (by decide),?_⟩,base,
    ⟨kept 0 (by decide) (by decide),ready.keep (kept 1 (by decide) (by decide)) object⟩,still⟩
  rw [kept dec (high_other high' (by decide)) (high_other high' (by decide)),minus]

theorem Ready.cell (ready : Ready sp size ptr dec p s) (k : Nat) (small : k ≤ 8) (j : Fin 4) :
    ¬ InFrame sp size (p + BitVec.ofNat 32 k + BitVec.ofNat 32 j) := by
  rw [BitVec.add_assoc,← BitVec.ofNat_add]
  exact ready.apart (k+j) (by omega)

theorem Released.live {frame : BitVec 32 → Prop} {vm vm' : GuestMem} {made : List Call}
    (released : Released frame p vm vm' made) (object : p ≠ 0) :
    (vm.be32 (p+4) ≠ 1 ∧ made = [] ∧ Agree frame vm' (vm.put32 (p+4) (vm.be32 (p+4) - 1))) ∨
    (vm.be32 (p+4) = 1 ∧ ∃ first rest, made = first::rest ∧
      Agree frame first.before (vm.put32 (p+4) (vm.be32 (p+4) - 1)) ∧
      ((rest = [] ∧ Agree frame vm' (first.after.put32 (p+8) (first.after.be32 (p+8) - 1))) ∨
        ∃ second, rest = [second] ∧
          Agree frame second.before (first.after.put32 (p+8) (first.after.be32 (p+8) - 1)))) := by
  unfold Released at released
  rw [if_neg object] at released
  split at released
  · rename_i more
    exact .inl ⟨more,released⟩
  · rename_i last
    obtain ⟨first,rest,log,_,agree,released⟩ := released
    refine .inr ⟨not_not.mp last,first,rest,log,agree,?_⟩
    split at released
    · exact .inl released
    · obtain ⟨second,log,_,agree,_⟩ := released
      exact .inr ⟨second,log,agree⟩

theorem second_counts (returns : Returns env) (ready : Ready sp size ptr dec p s) (minus : low32 (s.gpr dec) = -1)
    (ran : second_half env fuel ptr dec s = some t) :
    ∃ w c more, straight env fuel (virtual_call ptr 0x8) s = some w ∧ t.calls = s.calls ++ c::more ∧
      Agree (InFrame sp size) c.before s.mem.vm ∧
      ((more = [] ∧ Agree (InFrame sp size) t.mem.vm (c.after.put32 (p+8) (c.after.be32 (p+8) - 1)) ∨
        ∃ second, more = [second] ∧
          Agree (InFrame sp size) second.before (c.after.put32 (p+8) (c.after.be32 (p+8) - 1))) →
        Counts w.mem (p+8) (low32 (w.gpr 0))) := by
  have registers := frame_registers ready.room ready.bounds.2
  obtain ⟨w,c,called,log,_,before,after,pointer,high⟩ := call_left returns ready 0x8
  obtain ⟨_,one,ran⟩ := block_cons.mp ran
  cases (called fuel).symm.trans one
  have wready := ready.keep pointer (high ptr ready.registers.1)
  have wminus : low32 (w.gpr dec) = -1 := (congrArg low32 (high dec ready.registers.2.1)).trans minus
  obtain ⟨y,again,loop,base,⟨same,yready⟩,still⟩ := reopened env wready wminus
  obtain ⟨_,two,ran⟩ := block_cons.mp ran
  cases (again fuel).symm.trans two
  obtain ⟨v,u,n,x,_,_,beside,walked,fixed,wrote,outcome⟩ := count_left loop ran
  rw [base,still.mem] at walked fixed wrote
  rw [same] at walked
  have cell := wready.cell 8 (by decide)
  have calls : u.calls = s.calls ++ [c] := beside.calls.trans (still.calls.trans log)
  rcases outcome with ⟨zero,taken⟩ | ⟨astray,rfl⟩
  · have uready := yready.counted beside (by decide) (by decide)
    obtain ⟨z,c',called',log',_,before',_⟩ := call_left returns uready 0xC
    obtain ⟨_,three,taken⟩ := block_cons.mp taken
    cases (called' fuel).symm.trans three
    obtain ⟨_,four,taken⟩ := block_cons.mp taken
    cases block_nil.mp taken
    obtain ⟨_,five,nothing⟩ := straight_cons.mp four
    cases straight_nil.mp nothing
    cases five
    have all : z.calls = s.calls ++ [c,c'] := by
      rw [log',calls,List.append_assoc]
      rfl
    refine ⟨w,c,[c'],called fuel,all,before,?_⟩
    rintro (⟨none,_⟩ | ⟨second,same,agree⟩)
    · cases none
    · cases same
      refine (counts_of_lowered walked fixed wrote cell registers ?_).2
      rw [after]
      exact before'.symm.trans agree
  · refine ⟨w,c,[],called fuel,calls,before,?_⟩
    rintro (⟨_,agree⟩ | ⟨second,same,_⟩)
    · rw [← after] at agree
      exact (counts_of_lowered walked fixed wrote cell registers agree).2
    · cases same

theorem release_counts (returns : Returns env) (ready : Ready sp size ptr dec p s)
    (ran : release env fuel ptr dec s = some t) (log : t.calls = s.calls ++ made)
    (released : Released (InFrame sp size) p s.mem.vm t.mem.vm made) : Countable env ptr dec s := by
  have object : low32 (s.gpr ptr) = p := by
    rw [ready.object,low32_zext]
  unfold Countable
  rw [object]
  refine or_iff_not_imp_left.mpr fun live => ?_
  obtain ⟨s1,s2,compared,⟨flag,_⟩,prepared,loop,base,⟨same,ready2⟩,still⟩ := opened env ready
  have registers := frame_registers ready.room ready.bounds.2
  obtain ⟨_,one,ran⟩ := block_cons.mp ran
  cases (compared fuel).symm.trans one
  obtain ⟨_,tested,ran⟩ := block_cons.mp ran
  cases block_nil.mp ran
  simp only [when_,flag,live,decide_false,Bool.not_false,if_true] at tested
  obtain ⟨_,two,rest⟩ := block_cons.mp tested
  cases (prepared fuel).symm.trans two
  obtain ⟨v,u,n,x,counted,tested,beside,walked,fixed,wrote,outcome⟩ := count_left loop rest
  rw [base,still.mem] at walked fixed wrote
  rw [same] at walked
  have cell := ready.cell 4 (by decide)
  rcases outcome with ⟨zero,taken⟩ | ⟨astray,rfl⟩
  · have uready := ready2.counted beside (by decide) (by decide)
    have minus : low32 (u.gpr dec) = -1 := (loop.next beside).minus
    obtain ⟨w,c,more,called,all,before,second⟩ := second_counts returns uready minus taken
    have made_eq : made = c::more := by
      rw [beside.calls,still.calls] at all
      exact List.append_cancel_left (log.symm.trans all)
    have one : s.mem.vm.be32 (p+4) = 1 := by
      rw [zero] at fixed
      exact walk_zero.mp fixed
    rcases released.live live with ⟨more,_⟩ | ⟨_,first,rest,calls,agree,tail⟩
    · exact absurd one more
    · cases made_eq.symm.trans calls
      refine ⟨(counts_of_lowered walked fixed wrote cell registers (before.symm.trans agree)).2,?_⟩
      intro n u' reached
      have mine : up_to_call env fuel ptr dec s = some w := by
        refine block_cons.mpr ⟨_,compared fuel,block_cons.mpr ⟨_,prepared fuel,?_⟩⟩
        refine block_cons.mpr ⟨_,counted,block_cons.mpr ⟨_,tested,?_⟩⟩
        exact block_cons.mpr ⟨_,called,block_nil.mpr rfl⟩
      cases (up_to_call_grows _ _ _ _ (Nat.le_max_left fuel n) mine).symm.trans
        (up_to_call_grows _ _ _ _ (Nat.le_max_right _ _) reached)
      exact second tail
  · -- Nothing is called then, and the count has not been lowered.
    exfalso
    have quiet : made = [] := by
      rw [beside.calls,still.calls] at log
      exact List.append_cancel_left (log.symm.trans (List.append_nil _).symm)
    rcases released.live live with ⟨_,_,agree⟩ | ⟨_,first,rest,calls,_⟩
    · exact astray (counts_of_lowered walked fixed wrote cell registers agree).1
    · rw [quiet] at calls
      cases calls

theorem second_goes (returns : Returns env) (ready : Ready sp size ptr dec p s) (minus : low32 (s.gpr dec) = -1)
    (counts : ∀ fuel w, straight env fuel (virtual_call ptr 0x8) s = some w → Counts w.mem (p+8) (low32 (w.gpr 0))) :
    ∃ fuel t first second, second_half env fuel ptr dec s = some t ∧
      t.calls = s.calls ++ [first,second] ∧ first.Enters p 0x8 ∧ Agree (InFrame sp size) first.before s.mem.vm ∧
      first.after.be32 (p+8) = 1 ∧ second.Enters p 0xC ∧
      Agree (InFrame sp size) second.before (first.after.put32 (p+8) (first.after.be32 (p+8) - 1)) ∧
      t.mem.vm = second.after := by
  obtain ⟨w,c,called,log,enters,before,after,pointer,high⟩ := call_left returns ready 0x8
  have wready := ready.keep pointer (high ptr ready.registers.1)
  have wminus : low32 (w.gpr dec) = -1 := (congrArg low32 (high dec ready.registers.2.1)).trans minus
  obtain ⟨y,again,loop,base,⟨same,yready⟩,still⟩ := reopened env wready wminus
  have ycounts : Counts y.mem (low32 (y.gpr 3)) (low32 (y.gpr 0)) := by
    rw [still.mem,base,same]
    exact counts 0 w (called 0)
  obtain ⟨fuel,v,u,counted,tested,flag,beside,lowered⟩ := count_returns env loop ycounts
  have uready := yready.counted beside (by decide) (by decide)
  obtain ⟨z,c',called',log',enters',before',after',_⟩ := call_left returns uready 0xC
  rw [base,still.mem,after] at lowered
  have one : c.after.be32 (p+8) = 1 := by
    rw [← after]
    exact (counts 0 w (called 0)).1
  refine ⟨fuel,z.set 2 (vm_read64 z.mem.vm (z.gpr 1 + 0x28)),c,c',?_,?_,enters,before,one,enters',?_,after'⟩
  · refine block_cons.mpr ⟨_,called fuel,block_cons.mpr ⟨_,again fuel,block_cons.mpr ⟨_,counted,?_⟩⟩⟩
    refine block_cons.mpr ⟨_,tested fuel,block_cons.mpr ⟨_,?_,block_nil.mpr rfl⟩⟩
    simp only [when_,flag,if_true]
    exact block_cons.mpr ⟨_,called' fuel,rfl⟩
  · show z.calls = _
    rw [log',beside.calls,still.calls,log,List.append_assoc]
    rfl
  · rw [lowered] at before'
    exact before'

theorem release_goes (returns : Returns env) (ready : Ready sp size ptr dec p s) (countable : Countable env ptr dec s) :
    ∃ fuel t made, release env fuel ptr dec s = some t ∧ t.calls = s.calls ++ made ∧
      Released (InFrame sp size) p s.mem.vm t.mem.vm made := by
  have object : low32 (s.gpr ptr) = p := by
    rw [ready.object,low32_zext]
  obtain ⟨s1,s2,compared,⟨flag,still1⟩,prepared,loop,base,⟨same,ready2⟩,still⟩ := opened env ready
  unfold Countable at countable
  rw [object] at countable
  by_cases live : p = 0
  · refine ⟨0,s1,[],?_,?_,?_⟩
    · refine block_cons.mpr ⟨_,compared 0,block_cons.mpr ⟨s1,?_,block_nil.mpr rfl⟩⟩
      simp only [when_,flag,live,decide_true,Bool.not_true,Bool.false_eq_true,if_false]
    · rw [still1.calls,List.append_nil]
    · rw [Released,if_pos live,still1.mem]
      exact ⟨rfl,fun _ _ => rfl⟩
  · obtain ⟨counts,second⟩ := countable.resolve_left live
    have scounts : Counts s2.mem (low32 (s2.gpr 4)) (low32 (s2.gpr 0)) := by
      rw [still.mem,base,same]
      exact counts
    obtain ⟨fuel,v,u,counted,tested,passed,beside,lowered⟩ := count_returns env loop scounts
    rw [base,still.mem] at lowered
    have uready := ready2.counted beside (by decide) (by decide)
    obtain ⟨more,t,c,c',rest,log,enters,before,one,enters',before',after⟩ := second_goes returns uready
        (loop.next beside).minus fun n w called => second (max fuel n) w (by
      refine block_cons.mpr ⟨_,compared _,block_cons.mpr ⟨_,prepared _,?_⟩⟩
      refine block_cons.mpr ⟨_,loop_more counted (Nat.le_max_left _ _),block_cons.mpr ⟨_,tested _,?_⟩⟩
      exact block_cons.mpr ⟨_,straight_more called (Nat.le_max_right _ _),block_nil.mpr rfl⟩)
    refine ⟨max fuel more,t,[c,c'],?_,?_,?_⟩
    · refine block_cons.mpr ⟨_,compared _,block_cons.mpr ⟨t,?_,block_nil.mpr rfl⟩⟩
      simp only [when_,flag,live,decide_false,Bool.not_false,if_true]
      refine block_cons.mpr ⟨_,prepared _,block_cons.mpr ⟨_,loop_more counted (Nat.le_max_left _ _),?_⟩⟩
      refine block_cons.mpr ⟨_,tested _,block_cons.mpr ⟨t,?_,block_nil.mpr rfl⟩⟩
      simp only [when_,passed,if_true]
      exact second_half_grows _ _ _ _ (Nat.le_max_right _ _) rest
    · rw [log,beside.calls,still.calls]
    · unfold Released
      rw [if_neg live,if_neg (not_not.mpr counts.1)]
      refine ⟨c,[c'],rfl,enters,?_,?_⟩
      · rw [lowered] at before
        exact before
      · rw [if_neg (not_not.mpr one)]
        exact ⟨c',rfl,enters',before',fun a _ => congrFun after a⟩
end Release

end BudokaiRuntime.Ppu
