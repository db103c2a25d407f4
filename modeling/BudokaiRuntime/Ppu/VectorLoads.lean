import BudokaiRuntime.Foundations.CountedLoop
import BudokaiRuntime.Ppu.Context

-- The code emitted for lvlx and lvrx, the two halves of an unaligned vector load.
namespace BudokaiRuntime.Ppu
open Guest CountedLoop

-- ppu_vr by its member `b`: raw guest bytes, the lowest address first.
abbrev PpuVr : Type := Fin 16 → BitVec 8

structure VmxCtx extends PpuCtx where
  vr : Fin 32 → PpuVr

-- What ea_expr emits: one register, or the wrapping sum of two.
inductive EaExpr where
  | gpr (rb : Fin 32)
  | sum (ra rb : Fin 32)

def ea_expr (ra rb : Fin 32) : EaExpr := if ra = 0 then .gpr rb else .sum ra rb

def EaExpr.eval (ctx : PpuCtx) : EaExpr → BitVec 32
  | .gpr rb => low32 (ctx.gpr rb)
  | .sum ra rb => low32 (ctx.gpr ra) + low32 (ctx.gpr rb)

-- { _ea = <ea>; _eb = _ea & 0xF; _t[16] = {0};
--   for (_i = 0; _i < <count>; _i++) _t[<slot>+_i] = vm_base[<source>+_i]; memcpy(&vr[d],_t,16); }
structure VectorLoad where
  d : Fin 32
  ea : EaExpr
  count : BitVec 32 → BitVec 32
  slot : BitVec 32 → BitVec 32
  source : BitVec 32 → BitVec 32 → BitVec 32

def lvlx (d ra rb : Fin 32) : VectorLoad where
  d
  ea := ea_expr ra rb
  count eb := 16 - eb
  slot _ := 0
  source ea _ := ea

def lvrx (d ra rb : Fin 32) : VectorLoad where
  d
  ea := ea_expr ra rb
  count eb := eb
  slot eb := 16 - eb
  source ea eb := ea - eb

-- `_t[i] = v`, none outside the array.
def PpuVr.put (t : PpuVr) (i : BitVec 32) (v : BitVec 8) : Option PpuVr :=
  if inside : i.toNat < 16 then some (Function.update t ⟨i.toNat,inside⟩ v) else none

def fill (vm : GuestMem) (slot source : BitVec 32) (count : Nat) : Option PpuVr :=
  Fin.foldl count (fun t i => t.bind fun t => t.put (slot + BitVec.ofNat 32 i) (vm (source + BitVec.ofNat 32 i)))
    (some fun _ => 0)

def VectorLoad.run (code : VectorLoad) (vm : GuestMem) (ctx : VmxCtx) : Option VmxCtx :=
  let ea := code.ea.eval ctx.toPpuCtx
  let eb := ea &&& 0xF
  (fill vm (code.slot eb) (code.source ea eb) (code.count eb).toNat).map fun t =>
    {ctx with vr := Function.update ctx.vr code.d t}

def vor (a b : PpuVr) : PpuVr := fun i => a i ||| b i

-- (rA|0) + rB
def effective (ctx : PpuCtx) (ra rb : Fin 32) : BitVec 32 :=
  (if ra = 0 then 0 else low32 (ctx.gpr ra)) + low32 (ctx.gpr rb)

theorem ea_expr_eval (ctx : PpuCtx) (ra rb : Fin 32) : (ea_expr ra rb).eval ctx = effective ctx ra rb := by
  unfold ea_expr effective
  by_cases none : ra = 0
  · rw [if_pos none,if_pos none]
    exact (BitVec.zero_add _).symm
  · rw [if_neg none,if_neg none]
    rfl

theorem put_eq (t : PpuVr) (i : BitVec 32) (v : BitVec 8) (k : Nat) (place : i.toNat = k) (inside : k < 16) :
    t.put i v = some (Function.update t ⟨k,inside⟩ v) := by
  subst place
  exact dif_pos inside

-- A loop that stays inside the array leaves the `count` source bytes from `slot` on
-- and zero elsewhere.
theorem fill_eq (vm : GuestMem) (slot source : BitVec 32) (first count : Nat) (start : slot.toNat = first)
    (inside : first + count ≤ 16) : fill vm slot source count = some fun i =>
      if first ≤ i.val ∧ i.val < first + count then vm (source + BitVec.ofNat 32 (i.val-first)) else 0 := by
  refine foldl_invariant (fun k t => t = some fun i : Fin 16 =>
      if first ≤ i.val ∧ i.val < first + k then vm (source + BitVec.ofNat 32 (i.val-first)) else 0)
    count _ ?_ ?_
  · refine congrArg some (funext fun i => ?_)
    rw [if_neg (by omega)]
  · intro k t held
    have place : (slot + BitVec.ofNat 32 k).toNat = first + k := by
      rw [BitVec.toNat_add,BitVec.toNat_ofNat,start]
      omega
    rw [held,Option.bind_some,put_eq _ _ _ _ place (by omega)]
    refine congrArg some (funext fun i => ?_)
    by_cases here : i = ⟨first + k,by omega⟩
    · subst here
      rw [Function.update_self,if_pos ⟨by simp only; omega,by simp only; omega⟩,Nat.add_sub_cancel_left]
    · have other : i.val ≠ first + k := fun same => here (Fin.ext same)
      rw [Function.update_of_ne here]
      by_cases done : first ≤ i.val ∧ i.val < first + k
      · rw [if_pos done,if_pos (by omega)]
      · rw [if_neg done,if_neg (by omega)]

-- The bytes from `p` to the end of its aligned block, and those of the next block
-- that the vector at `p` reaches.
def leftPart (vm : GuestMem) (p : BitVec 32) : PpuVr := fun i =>
  if i.val + p.toNat%16 < 16 then vm (p + BitVec.ofNat 32 i) else 0

def rightPart (vm : GuestMem) (p : BitVec 32) : PpuVr := fun i =>
  if i.val + p.toNat%16 < 16 then 0 else vm (p + BitVec.ofNat 32 i)

theorem block_offset (ea : BitVec 32) : (ea &&& 0xF).toNat = ea.toNat%16 := by
  rw [BitVec.toNat_and]
  exact Nat.and_two_pow_sub_one_eq_mod _ 4

theorem rest_toNat (eb : BitVec 32) (small : eb.toNat < 16) : (16 - eb).toNat = 16 - eb.toNat := by
  rw [BitVec.toNat_sub_of_le]
  · rfl
  · exact Nat.le_of_lt small

section Halves
variable (vm : GuestMem) (ctx : VmxCtx) (d ra rb : Fin 32) (p : BitVec 32)

theorem lvlx_run (start : effective ctx.toPpuCtx ra rb = p) : (lvlx d ra rb).run vm ctx =
    some {ctx with vr := Function.update ctx.vr d (leftPart vm p)} := by
  have offset := block_offset p
  have length := rest_toNat (p &&& 0xF) (by omega)
  simp only [VectorLoad.run,lvlx,ea_expr_eval,start]
  rw [fill_eq vm 0 p 0 _ rfl (by omega),Option.map_some]
  have part : (fun i : Fin 16 => if 0 ≤ i.val ∧ i.val < 0 + (16 - (p &&& 0xF)).toNat then
      vm (p + BitVec.ofNat 32 (i.val-0)) else 0) = leftPart vm p := by
    funext i
    exact if_congr (by omega) rfl rfl
  rw [part]

theorem lvrx_run (next : effective ctx.toPpuCtx ra rb = p+16) : (lvrx d ra rb).run vm ctx =
    some {ctx with vr := Function.update ctx.vr d (rightPart vm p)} := by
  have same : (p+16).toNat%16 = p.toNat%16 := by
    have sixteen : (16 : BitVec 32).toNat = 16 := rfl
    rw [BitVec.toNat_add,sixteen]
    omega
  have offset := block_offset (p+16)
  have length := rest_toNat (p+16 &&& 0xF) (by omega)
  simp only [VectorLoad.run,lvrx,ea_expr_eval,next]
  rw [fill_eq vm _ _ (16 - (p.toNat%16)) _ (by omega) (by omega),Option.map_some]
  have part : (fun i : Fin 16 =>
      if 16 - p.toNat%16 ≤ i.val ∧ i.val < 16 - p.toNat%16 + (p+16 &&& 0xF).toNat then
        vm (p+16 - (p+16 &&& 0xF) + BitVec.ofNat 32 (i.val - (16 - p.toNat%16))) else 0) = rightPart vm p := by
    funext i
    by_cases left : i.val + p.toNat%16 < 16
    · rw [rightPart,if_neg (by omega),if_pos left]
    · -- 16 - eb is where the loop starts in the vector, so the two offsets add up to i.
      have sum : 16 - (p+16 &&& 0xF) + BitVec.ofNat 32 (i.val - (16 - p.toNat%16)) = BitVec.ofNat 32 i.val := by
        apply BitVec.eq_of_toNat_eq
        rw [BitVec.toNat_add,length,BitVec.toNat_ofNat,BitVec.toNat_ofNat]
        omega
      have moved : p+16 - (p+16 &&& 0xF) = p + (16 - (p+16 &&& 0xF)) := by
        rw [BitVec.sub_eq_add_neg,BitVec.sub_eq_add_neg,BitVec.add_assoc]
      rw [rightPart,if_pos (by omega),if_neg left,moved,BitVec.add_assoc,sum]
  rw [part]
end Halves

theorem parts_meet (vm : GuestMem) (p : BitVec 32) : vor (leftPart vm p) (rightPart vm p) = vm.window p 16 := by
  funext i
  simp only [vor,leftPart,rightPart,GuestMem.window]
  by_cases left : i.val + p.toNat%16 < 16
  · rw [if_pos left,if_pos left]
    exact BitVec.or_zero
  · rw [if_neg left,if_neg left]
    exact BitVec.zero_or

theorem unaligned_load_pair (vm : GuestMem) (p : BitVec 32) (one two : VmxCtx) (d ra rb d' ra' rb' : Fin 32)
    (left : effective one.toPpuCtx ra rb = p) (right : effective two.toPpuCtx ra' rb' = p+16) :
    ∃ first second, (lvlx d ra rb).run vm one = some first ∧ (lvrx d' ra' rb').run vm two = some second ∧
      first = {one with vr := Function.update one.vr d (first.vr d)} ∧
      second = {two with vr := Function.update two.vr d' (second.vr d')} ∧
      vor (first.vr d) (second.vr d') = vm.window p 16 := by
  refine ⟨_,_,lvlx_run vm one d ra rb p left,lvrx_run vm two d' ra' rb' p right,?_,?_,?_⟩
  · simp only [Function.update_self]
  · simp only [Function.update_self]
  · simp only [Function.update_self]
    exact parts_meet vm p

theorem unaligned_load_pair_wraps :
    let ctx : VmxCtx := ⟨⟨fun r => if r = 4 then 0xFFFFFFF9 else if r = 5 then 16 else 0,0,0,0,0,0⟩,fun _ _ => 0x55⟩
    let vm : GuestMem := fun a => a.setWidth 8
    ∃ first second, (lvlx 0 0 4).run vm ctx = some first ∧ (lvrx 1 5 4).run vm ctx = some second ∧
      first = {ctx with vr := Function.update ctx.vr 0 (first.vr 0)} ∧
      second = {ctx with vr := Function.update ctx.vr 1 (second.vr 1)} ∧
      vor (first.vr 0) (second.vr 1) = vm.window 0xFFFFFFF9 16 :=
  unaligned_load_pair _ 0xFFFFFFF9 _ _ 0 0 4 1 5 4 (by decide) (by decide)

end BudokaiRuntime.Ppu
