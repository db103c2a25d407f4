import BudokaiRuntime.Foundations.Programs
import BudokaiRuntime.Guest.Words

-- The PPU context, and the statements that the hand-lifted functions are made of.
namespace BudokaiRuntime.Ppu
open Guest Programs

-- Register numbers are written as literals.
scoped instance registers_nonzero : NeZero 32 := ⟨by decide⟩

-- The fields of ppu_context that the hand-lifted functions use.
structure PpuCtx where
  gpr : Fin 32 → BitVec 64
  cr : BitVec 32
  lr : BitVec 64
  ctr : BitVec 64
  reserve_addr : BitVec 64
  reserve_value : BitVec 32

-- What they call, each call with its DRAIN_TRAMPOLINE.
inductive Callee where
  | func_000D5654 | func_000F109C | func_00039540 | func_00032C08 | func_0003959C
  | func_000F1E7C | func_000D90FC | func_000F1E9C | ps3_indirect_call
  deriving DecidableEq

structure Call where
  ctx : PpuCtx
  before : GuestMem
  after : GuestMem

-- `world` is everything else that a callee reads and writes. The last two fields are
-- no part of the program: the indirect calls, and the addresses of word and byte stores.
structure PpuState (ω : Type) where
  ctx : PpuCtx
  mem : Machine
  world : ω
  calls : List Call
  stored : List (BitVec 32)

def entered {ω : Type} (ctx : PpuCtx) (mem : Machine) (world : ω) : PpuState ω := ⟨ctx,mem,world,[],[]⟩

-- The callees, `none` where one does not return.
abbrev Env (ω : Type) : Type := Callee → PpuCtx × Machine × ω → Option (PpuCtx × Machine × ω)

-- Total: v at n = 0, where the source shifts by 64 and RotateMask has `none`.
def ppc_rotl64 (v : BitVec 64) (n : Nat) : BitVec 64 := v <<< (n%64) ||| v >>> (64-n%64)

def ppc_mask64 (mb me : Nat) : BitVec 64 :=
  let ones : BitVec 64 := ~~~0
  if mb ≤ me then (if mb = 0 then ones else ones >>> mb) &&& (if me = 63 then ones else ones <<< (63-me))
  else ones >>> mb ||| ones <<< (63-me)

def ppc_rldicl (rs : BitVec 64) (sh mb : Nat) : BitVec 64 := ppc_rotl64 rs sh &&& ppc_mask64 mb 63

-- `(int64_t)(int32_t)`
def sext32 (v : BitVec 64) : BitVec 64 := (v.setWidth 32).signExtend 64

def low32 (v : BitVec 64) : BitVec 32 := v.setWidth 32

def cr_val (a b : BitVec 32) : BitVec 32 := if a.slt b then 8 else if b.slt a then 4 else 2

def cr_set (cr : BitVec 32) (sh : Nat) (val : BitVec 32) : BitVec 32 :=
  cr &&& ~~~((0xF : BitVec 32) <<< sh) ||| val <<< sh

inductive Insn where
  | li (rd : Fin 32) (imm : BitVec 64)
  | lis (rd : Fin 32) (imm : BitVec 64)
  | addi (rd ra : Fin 32) (imm : BitVec 64)
  | ori (rd ra : Fin 32) (imm : BitVec 64)
  | mr (rd ra : Fin 32)
  | clrldi (rd ra : Fin 32)
  | add (rd ra rb : Fin 32)
  | mflr (rd : Fin 32)
  | mtlr (ra : Fin 32)
  | mtctr (ra : Fin 32)
  | cmpwi (sh : Nat) (ra : Fin 32) (imm : BitVec 32)
  | cmpw (sh : Nat) (ra rb : Fin 32)
  | lbz (rd ra : Fin 32) (d : BitVec 64)
  | lwz (rd ra : Fin 32) (d : BitVec 64)
  | ld (rd ra : Fin 32) (d : BitVec 64)
  | stb (rs ra : Fin 32) (d : BitVec 64)
  | stw (rs ra : Fin 32) (d : BitVec 64)
  | std (rs ra : Fin 32) (d : BitVec 64)
  | stdu (d : BitVec 64)
  | lwarx (rd ra rb : Fin 32)
  | stwcx (rs ra rb : Fin 32)
  | call (f : Callee)

section State
variable {ω : Type} (s : PpuState ω)

def PpuState.gpr (r : Fin 32) : BitVec 64 := s.ctx.gpr r

def PpuState.set (r : Fin 32) (v : BitVec 64) : PpuState ω :=
  {s with ctx := {s.ctx with gpr := Function.update s.ctx.gpr r v}}

def PpuState.compare (sh : Nat) (a b : BitVec 32) : PpuState ω :=
  {s with ctx := {s.ctx with cr := cr_set s.ctx.cr sh (cr_val a b)}}

-- `(ctx->cr >> sh) & 2`
def PpuState.eq (sh : Nat) : Bool := (s.ctx.cr >>> sh) &&& 2 != 0

-- `(ctx->cr >> sh) & 8`
def PpuState.lt (sh : Nat) : Bool := (s.ctx.cr >>> sh) &&& 8 != 0

def PpuState.store (addr : BitVec 64) (mem : Machine) : PpuState ω := {s with mem,stored := s.stored ++ [low32 addr]}

def PpuState.return_from (f : Callee) (left : PpuCtx × Machine × ω) : PpuState ω :=
  {s with
    ctx := left.1
    mem := left.2.1
    world := left.2.2
    calls := if f = .ps3_indirect_call then s.calls ++ [⟨s.ctx,s.mem.vm,left.2.1.vm⟩] else s.calls}

-- The store is made when the reserved address is the one addressed; nothing else is looked at.
def PpuState.store_conditional (fuel : Nat) (rs ra rb : Fin 32) : Option (PpuState ω) :=
  let ea := s.gpr ra + s.gpr rb
  (if s.ctx.reserve_addr = (low32 ea).setWidth 64 then
    (vm_write32 fuel s.mem ea (low32 (s.gpr rs))).map fun mem =>
      {s.store ea mem with ctx := {s.ctx with cr := cr_set s.ctx.cr 28 2}}
  else some {s with ctx := {s.ctx with cr := cr_set s.ctx.cr 28 0}}).map fun t =>
    {t with ctx := {t.ctx with reserve_addr := 0}}

def Insn.run (env : Env ω) (fuel : Nat) : Insn → Option (PpuState ω)
  | .li rd imm => some (s.set rd (sext32 imm))
  | .lis rd imm => some (s.set rd (sext32 (imm <<< 16)))
  | .addi rd ra imm => some (s.set rd (sext32 (s.gpr ra + imm)))
  | .ori rd ra imm => some (s.set rd (s.gpr ra ||| imm))
  | .mr rd ra => some (s.set rd (s.gpr ra ||| s.gpr ra))
  | .clrldi rd ra => some (s.set rd (ppc_rldicl (s.gpr ra) 0 32))
  | .add rd ra rb => some (s.set rd ((low32 (s.gpr ra) + low32 (s.gpr rb)).signExtend 64))
  | .mflr rd => some (s.set rd s.ctx.lr)
  | .mtlr ra => some {s with ctx := {s.ctx with lr := s.gpr ra}}
  | .mtctr ra => some {s with ctx := {s.ctx with ctr := (low32 (s.gpr ra)).setWidth 64}}
  | .cmpwi sh ra imm => some (s.compare sh (low32 (s.gpr ra)) imm)
  | .cmpw sh ra rb => some (s.compare sh (low32 (s.gpr ra)) (low32 (s.gpr rb)))
  | .lbz rd ra d => some (s.set rd ((vm_read8 s.mem.vm (s.gpr ra + d)).setWidth 64))
  | .lwz rd ra d => some (s.set rd ((vm_read32 s.mem.vm (s.gpr ra + d)).setWidth 64))
  | .ld rd ra d => some (s.set rd (vm_read64 s.mem.vm (s.gpr ra + d)))
  | .stb rs ra d => some (s.store (s.gpr ra + d) (vm_write8 s.mem (s.gpr ra + d) ((s.gpr rs).setWidth 8)))
  | .stw rs ra d => (vm_write32 fuel s.mem (s.gpr ra + d) (low32 (s.gpr rs))).map (s.store (s.gpr ra + d))
  | .std rs ra d => (vm_write64 fuel s.mem (s.gpr ra + d) (s.gpr rs)).map fun mem => {s with mem}
  | .stdu d => (vm_write64 fuel s.mem (s.gpr 1 + d) (s.gpr 1)).map fun mem => {s with mem}.set 1 (s.gpr 1 + d)
  | .lwarx rd ra rb =>
      let ea := s.gpr ra + s.gpr rb
      let word := vm_read32 s.mem.vm ea
      some ({s with ctx := {s.ctx with reserve_addr := (low32 ea).setWidth 64,reserve_value := word}}.set rd
        (word.setWidth 64))
  | .stwcx rs ra rb => s.store_conditional fuel rs ra rb
  | .call f => (env f (s.ctx,s.mem,s.world)).map (s.return_from f)
end State

section Lemmas
variable {ω : Type} {s t : PpuState ω}

theorem gpr_set (r q : Fin 32) (v : BitVec 64) : (s.set r v).gpr q = if q = r then v else s.gpr q :=
  Function.update_apply _ _ _ _

@[simp] theorem gpr_set_same (r : Fin 32) (v : BitVec 64) : (s.set r v).gpr r = v := by
  rw [gpr_set,if_pos rfl]

theorem gpr_set_other {r q : Fin 32} (v : BitVec 64) (other : q ≠ r) : (s.set r v).gpr q = s.gpr q := by
  rw [gpr_set,if_neg other]

theorem bit_one (x : BitVec 32) : (x &&& 2 != 0) = x.getLsbD 1 := by
  cases one : x.getLsbD 1 with
  | true =>
      have value : (x &&& 2).getLsbD 1 = true := by rw [BitVec.getLsbD_and,one]; rfl
      refine bne_iff_ne.mpr fun zero => ?_
      rw [zero] at value
      cases value
  | false =>
      refine bne_eq_false_iff_eq.mpr (BitVec.eq_of_getLsbD_eq fun i bound => ?_)
      rw [BitVec.getLsbD_and]
      by_cases here : i = 1
      · rw [here,one]
        rfl
      · have two : (2 : BitVec 32).getLsbD i = false :=
          (show ∀ j < 32, j ≠ 1 → (2 : BitVec 32).getLsbD j = false by decide) i bound here
        rw [two,Bool.and_false]
        exact BitVec.getLsbD_zero.symm

theorem field_bit (cr val : BitVec 32) (low : sh ≤ 28) : (cr_set cr sh val >>> sh &&& 2 != 0) = val.getLsbD 1 := by
  rw [bit_one,cr_set,BitVec.getLsbD_ushiftRight,BitVec.getLsbD_or,BitVec.getLsbD_and,BitVec.getLsbD_not,
    BitVec.getLsbD_shiftLeft,BitVec.getLsbD_shiftLeft]
  simp [show sh+1 < 32 by omega]

theorem cr_val_equal (a b : BitVec 32) : (cr_val a b).getLsbD 1 = decide (a = b) := by
  unfold cr_val
  split
  · rename_i less
    refine (decide_eq_false ?_).symm
    rintro rfl
    simp [BitVec.slt_eq_decide] at less
  · split
    · rename_i more
      refine (decide_eq_false ?_).symm
      rintro rfl
      simp [BitVec.slt_eq_decide] at more
    · rename_i less more
      rw [BitVec.slt_eq_decide,decide_eq_true_eq] at less more
      exact (decide_eq_true (BitVec.eq_of_toInt_eq (by omega))).symm

theorem compare_eq (low : sh ≤ 28) (a b : BitVec 32) : (s.compare sh a b).eq sh = decide (a = b) :=
  (field_bit _ _ low).trans (cr_val_equal a b)

theorem conditional_left (went : s.store_conditional fuel rs ra rb = some t) :
    t.ctx.gpr = s.ctx.gpr ∧ t.world = s.world ∧ t.calls = s.calls ∧
      ((s.ctx.reserve_addr ≠ (low32 (s.gpr ra + s.gpr rb)).setWidth 64 ∧ t.eq 28 = false ∧ t.stored = s.stored ∧
        t.mem = s.mem) ∨
      (s.ctx.reserve_addr = (low32 (s.gpr ra + s.gpr rb)).setWidth 64 ∧ t.eq 28 = true ∧
        t.stored = s.stored ++ [low32 (s.gpr ra + s.gpr rb)] ∧
        vm_write32 fuel s.mem (s.gpr ra + s.gpr rb) (low32 (s.gpr rs)) = some t.mem)) := by
  obtain ⟨u,did,rfl⟩ := Option.map_eq_some_iff.mp went
  split at did
  · rename_i reserved
    obtain ⟨mem,wrote,rfl⟩ := Option.map_eq_some_iff.mp did
    refine ⟨rfl,rfl,rfl,.inr ⟨reserved,?_,rfl,wrote⟩⟩
    show ((cr_set s.ctx.cr 28 2 >>> 28) &&& 2 != 0) = true
    rw [field_bit _ _ (Nat.le_refl 28)]
    rfl
  · rename_i other
    cases did
    refine ⟨rfl,rfl,rfl,.inl ⟨other,?_,rfl,rfl⟩⟩
    show ((cr_set s.ctx.cr 28 0 >>> 28) &&& 2 != 0) = false
    rw [field_bit _ _ (Nat.le_refl 28)]
    rfl

theorem conditional_returns (fuel : Nat) (s : PpuState ω) (rs ra rb : Fin 32)
    (returns : s.ctx.reserve_addr = (low32 (s.gpr ra + s.gpr rb)).setWidth 64 →
      ∃ mem, vm_write32 fuel s.mem (s.gpr ra + s.gpr rb) (low32 (s.gpr rs)) = some mem) :
    ∃ t, s.store_conditional fuel rs ra rb = some t := by
  unfold PpuState.store_conditional
  dsimp only
  split
  · rename_i reserved
    obtain ⟨mem,wrote⟩ := returns reserved
    rw [wrote]
    exact ⟨_,rfl⟩
  · exact ⟨_,rfl⟩

theorem low32_add (a b : BitVec 64) : low32 (a+b) = low32 a + low32 b := BitVec.setWidth_add a b (by decide)

@[simp] theorem low32_zext (v : BitVec 32) : low32 (v.setWidth 64) = v := BitVec.setWidth_setWidth_of_le v (by decide)
@[simp] theorem low32_sext (v : BitVec 32) : low32 (v.signExtend 64) = v := by
  apply BitVec.eq_of_getLsbD_eq
  intro i bound
  have wide : i < 64 := by omega
  rw [low32,BitVec.getLsbD_setWidth,BitVec.getLsbD_signExtend,if_pos bound,decide_eq_true bound,decide_eq_true wide]
  rfl

theorem low32_sext32 (v : BitVec 64) : low32 (sext32 v) = low32 v := low32_sext (low32 v)

theorem rotl64_zero (v : BitVec 64) : ppc_rotl64 v 0 = v := by
  have gone : v >>> 64 = 0 := BitVec.ushiftRight_eq_zero (Nat.le_refl _)
  unfold ppc_rotl64
  rw [Nat.zero_mod,BitVec.shiftLeft_zero,Nat.sub_zero,gone]
  exact BitVec.or_zero
end Lemmas

def straight {ω : Type} (env : Env ω) (fuel : Nat) (code : List Insn) : PpuState ω → Option (PpuState ω) :=
  block (code.map fun i s => i.run s env fuel)

theorem straight_nil {ω : Type} {env : Env ω} {s t : PpuState ω} : straight env fuel [] s = some t ↔ s = t := block_nil

theorem straight_cons {ω : Type} {env : Env ω} {s u : PpuState ω} : straight env fuel (i::code) s = some u ↔
    ∃ t, i.run s env fuel = some t ∧ straight env fuel code t = some u := block_cons

theorem straight_append {ω : Type} (env : Env ω) (fuel : Nat) (one two : List Insn) :
    straight env fuel (one ++ two) = seq (straight env fuel one) (straight env fuel two) := by
  unfold straight
  rw [List.map_append]
  exact block_append _ _

section Fuel
variable {ω : Type} {env : Env ω} {s t : PpuState ω}

theorem insn_more {i : Insn} (ran : i.run s env n = some t) (more : n ≤ m) : i.run s env m = some t := by
  cases i with
  | stw rs ra d =>
      obtain ⟨mem,wrote,rfl⟩ := Option.map_eq_some_iff.mp ran
      exact Option.map_eq_some_iff.mpr ⟨mem,write32_more wrote more,rfl⟩
  | std rs ra d =>
      obtain ⟨mem,wrote,rfl⟩ := Option.map_eq_some_iff.mp ran
      exact Option.map_eq_some_iff.mpr ⟨mem,write64_more wrote more,rfl⟩
  | stdu d =>
      obtain ⟨mem,wrote,rfl⟩ := Option.map_eq_some_iff.mp ran
      exact Option.map_eq_some_iff.mpr ⟨mem,write64_more wrote more,rfl⟩
  | stwcx rs ra rb =>
      obtain ⟨u,did,rfl⟩ := Option.map_eq_some_iff.mp ran
      refine Option.map_eq_some_iff.mpr ⟨u,?_,rfl⟩
      split at did
      · rename_i reserved
        obtain ⟨mem,wrote,rfl⟩ := Option.map_eq_some_iff.mp did
        rw [if_pos reserved]
        exact Option.map_eq_some_iff.mpr ⟨mem,write32_more wrote more,rfl⟩
      · rename_i other
        rw [if_neg other]
        exact did
  | li | lis | addi | ori | mr | clrldi | add | mflr | mtlr | mtctr | cmpwi | cmpw | lbz | lwz | ld | stb | lwarx | call =>
      exact ran

theorem straight_more {code : List Insn} (ran : straight env n code s = some t) (more : n ≤ m) :
    straight env m code s = some t := by
  induction code generalizing s with
  | nil => exact ran
  | cons i code ih =>
      obtain ⟨u,one,rest⟩ := straight_cons.mp ran
      exact straight_cons.mpr ⟨u,insn_more one more,ih rest⟩
end Fuel

end BudokaiRuntime.Ppu
