import BudokaiRuntime.Guest.Stores
import BudokaiRuntime.Ppu.VectorCompare

-- The code that the scripts emit for single instructions, against what the PowerPC does.
namespace BudokaiRuntime.Ppu.Emitted
open ByteLanes CountedLoop Guest

-- ppu_context with the floating-point registers, by their bits.
structure EmitCtx extends VmxCtx where
  fpr : Fin 32 → BitVec 64

structure EmitState where
  ctx : EmitCtx
  mem : Machine

-- The instructions by their operands. `d` of stmw is the number in the lifter's text.
inductive Instr where
  | crorc (BT BA BB : Fin 32)
  | stmw (rS : Fin 32) (d : Int) (rA : Fin 32)
  | subfc (rD rA rB : Fin 32)
  | stfiwx (frS rA rB : Fin 32)
  | vspltb (VD VA VB : Fin 32)
  | vsplth (VD VA VB : Fin 32)
  | fcmp (BF : Fin 8) (fA fB : Fin 32)
  | lvlx (VD rA rB : Fin 32)
  | lvrx (VD rA rB : Fin 32)

def from_ (rS : Fin 32) : List (Fin 32) := (List.finRange 32).filter fun r => decide (rS.val ≤ r.val)

section Code
variable (s : EmitState)

def EmitState.gpr (r : Fin 32) : BitVec 64 := s.ctx.gpr r

def EmitState.set (r : Fin 32) (v : BitVec 64) : EmitState :=
  {s with ctx := {s.ctx with gpr := Function.update s.ctx.gpr r v}}

def EmitState.set_vr (r : Fin 32) (v : PpuVr) : EmitState :=
  {s with ctx := {s.ctx with vr := Function.update s.ctx.vr r v}}

def EmitState.set_cr (v : BitVec 32) : EmitState := {s with ctx := {s.ctx with cr := v}}

-- { _ba = (cr>>(31-BA))&1u, _bb = (cr>>(31-BB))&1u, _r = _ba|(~_bb&1u);
--   cr = (cr&~(1u<<(31-BT)))|(_r<<(31-BT)); }
def repl_crorc (BT BA BB : Fin 32) : EmitState :=
  let ba := s.ctx.cr >>> (31-BA.val) &&& 1
  let bb := s.ctx.cr >>> (31-BB.val) &&& 1
  let r := ba ||| (~~~bb &&& 1)
  s.set_cr (s.ctx.cr &&& ~~~((1 : BitVec 32) <<< (31-BT.val)) ||| r <<< (31-BT.val))

-- `if d > 32767: d -= 65536`
def stmw_d (d : Int) : Int := if d > 32767 then d - 65536 else d

def stmw_ea (d : Int) (rA : Fin 32) : BitVec 32 :=
  if rA = 0 then BitVec.ofInt 32 (stmw_d d) else low32 (s.gpr rA + BitVec.ofInt 64 (stmw_d d))

-- vm_write32(<ea>+<offset>u, (uint32_t)gpr[r]) for each register.
def repl_stmw (fuel : Nat) (rS : Fin 32) (d : Int) (rA : Fin 32) : Option EmitState :=
  ((from_ rS).foldlM (fun mem r => vm_write32 fuel mem
    ((stmw_ea s d rA + BitVec.ofNat 32 ((r.val-rS.val)*4)).setWidth 64) (low32 (s.gpr r))) s.mem).map
      fun mem => {s with mem}

def subfc (rD rA rB : Fin 32) : EmitState := s.set rD (s.gpr rB - s.gpr rA)

def stfiwx (fuel : Nat) (frS rA rB : Fin 32) : Option EmitState :=
  (vm_write32 fuel s.mem (((ea_expr rA rB).eval s.ctx.toPpuCtx).setWidth 64) ((s.ctx.fpr frS).setWidth 32)).map
    fun mem => {s with mem}

-- Element `VA & 0xF` of the bytes, into each byte.
def repl_vspltb (VD VA VB : Fin 32) : EmitState :=
  let b := s.ctx.vr VB ⟨VA.val%16,Nat.mod_lt _ (by decide)⟩
  s.set_vr VD (Fin.foldl 16 (fun d i => Function.update d i b) (s.ctx.vr VD))

theorem half_inside (i : Fin 8) (j : Fin 2) : 2*i.val+j.val < 16 := by
  omega

def half (i : Fin 8) (j : Fin 2) : Fin 16 := ⟨2*i.val+j.val,half_inside i j⟩

def PpuVr.h (r : PpuVr) (i : Fin 8) : BitVec 16 := ofBytesLe (k:=2) fun j => r (half i j)

def PpuVr.set_h (r : PpuVr) (i : Fin 8) (v : BitVec 16) : PpuVr := fun k =>
  if k.val/2 = i then v.extractLsb' (8*(k%2)) 8 else r k

def repl_vsplth (VD VA VB : Fin 32) : EmitState :=
  let h := PpuVr.h (s.ctx.vr VB) ⟨VA.val%8,Nat.mod_lt _ (by decide)⟩
  s.set_vr VD (Fin.foldl 8 (fun d i => PpuVr.set_h d i h) (s.ctx.vr VD))

-- The host's doubles: not a number has no rank, and both zeros have the same.
def rank64 (x : BitVec 64) : Option Int :=
  let magnitude := (x &&& 0x7FFFFFFFFFFFFFFF).toNat
  if 0x7FF0000000000000 < magnitude then none else some (if x.msb then -magnitude else magnitude)

def double_test (holds : Int → Int → Bool) (a b : BitVec 64) : Bool :=
  match rank64 a,rank64 b with
  | some p,some q => holds p q
  | _,_ => false

-- (a < b) ? 8 : (a > b) ? 4 : (a == b) ? 2 : 1
def fcmp_val (a b : BitVec 64) : BitVec 32 :=
  if double_test (fun p q => decide (p < q)) a b then 8
  else if double_test (fun p q => decide (q < p)) a b then 4
  else if double_test (fun p q => decide (p = q)) a b then 2
  else 1

def fcmp (BF : Fin 8) (fA fB : Fin 32) : EmitState :=
  s.set_cr (cr_set s.ctx.cr (28-4*BF.val) (fcmp_val (s.ctx.fpr fA) (s.ctx.fpr fB)))

def vector_load (code : VectorLoad) : Option EmitState :=
  (code.run s.mem.vm s.ctx.toVmxCtx).map fun ctx => {s with ctx := {s.ctx with toVmxCtx := ctx}}

def emitted (fuel : Nat) : Instr → Option EmitState
  | .crorc BT BA BB => some (repl_crorc s BT BA BB)
  | .stmw rS d rA => repl_stmw s fuel rS d rA
  | .subfc rD rA rB => some (subfc s rD rA rB)
  | .stfiwx frS rA rB => stfiwx s fuel frS rA rB
  | .vspltb VD VA VB => some (repl_vspltb s VD VA VB)
  | .vsplth VD VA VB => some (repl_vsplth s VD VA VB)
  | .fcmp BF fA fB => some (fcmp s BF fA fB)
  | .lvlx VD rA rB => vector_load s (Ppu.lvlx VD rA rB)
  | .lvrx VD rA rB => vector_load s (Ppu.lvrx VD rA rB)
end Code

-- What the recompiled context keeps of the PowerPC, so without XER and FPSCR. Condition register
-- bits and vector bytes are numbered from the left.
structure Power where
  gpr : Fin 32 → BitVec 64
  fpr : Fin 32 → BitVec 64
  vr : Fin 32 → BitVec (8*16)
  cr : Fin 32 → Bool
  mem : Machine

def arch (s : EmitState) : Power where
  gpr := s.ctx.gpr
  fpr := s.ctx.fpr
  vr r := ofBytes (s.ctx.vr r)
  cr n := s.ctx.cr.getLsbD (31-n.val)
  mem := s.mem

section Isa
variable (p : Power)

-- (rA|0)
def Power.base (rA : Fin 32) : BitVec 32 := if rA = 0 then 0 else (p.gpr rA).setWidth 32

-- The word that is stored goes the way of all guest stores.
def MEM4 (fuel : Nat) (mem : Machine) (ea v : BitVec 32) : Option Machine := vm_write32 fuel mem (ea.setWidth 64) v

def outcome (a b : BitVec 64) : Fin 4 :=
  match rank64 a,rank64 b with
  | some x,some y => if x < y then 0 else if y < x then 1 else 2
  | _,_ => 3

def byteElement (v : BitVec (8*16)) (i : Nat) : BitVec 8 := v.extractLsb' (8*(15-i)) 8
def halfElement (v : BitVec (8*16)) (i : Nat) : BitVec 16 := v.extractLsb' (16*(7-i)) 16

-- The bytes from `ea` to the end of its block, then zeros; zeros, then the bytes of the
-- block before `ea`.
def left_justified (vm : GuestMem) (ea : BitVec 32) : BitVec (8*16) :=
  ofBytes fun i => if i.val + ea.toNat%16 < 16 then vm (ea + BitVec.ofNat 32 i) else 0

def right_justified (vm : GuestMem) (ea : BitVec 32) : BitVec (8*16) :=
  ofBytes fun i => if i.val + ea.toNat%16 < 16 then 0 else vm (ea - 16 + BitVec.ofNat 32 i)

def isa (fuel : Nat) : Instr → Option Power
  | .crorc BT BA BB => some {p with cr := Function.update p.cr BT (p.cr BA || !p.cr BB)}
  | .stmw rS d rA =>
      let ea := p.base rA + (BitVec.ofInt 16 d).signExtend 32
      ((from_ rS).foldlM (fun mem r => MEM4 fuel mem (ea + BitVec.ofNat 32 (4*(r.val-rS.val))) ((p.gpr r).setWidth 32))
        p.mem).map fun mem => {p with mem}
  | .subfc rD rA rB => some {p with gpr := Function.update p.gpr rD (~~~p.gpr rA + p.gpr rB + 1)}
  | .stfiwx frS rA rB =>
      (MEM4 fuel p.mem (p.base rA + (p.gpr rB).setWidth 32) ((p.fpr frS).extractLsb' 0 32)).map fun mem => {p with mem}
  | .vspltb VD UIM VB => some {p with
      vr := Function.update p.vr VD (ofBytes fun _ => byteElement (p.vr VB) (UIM.val%16))}
  | .vsplth VD UIM VB => some {p with
      vr := Function.update p.vr VD (BitVec.replicate 8 (halfElement (p.vr VB) (UIM.val%8)))}
  | .fcmp BF fA fB => some {p with
      cr := fun n => if n.val/4 = BF.val then n.val%4 == (outcome (p.fpr fA) (p.fpr fB)).val else p.cr n}
  | .lvlx VD rA rB => some {p with
      vr := Function.update p.vr VD (left_justified p.mem.vm (p.base rA + (p.gpr rB).setWidth 32))}
  | .lvrx VD rA rB => some {p with
      vr := Function.update p.vr VD (right_justified p.mem.vm (p.base rA + (p.gpr rB).setWidth 32))}
end Isa

-- The displacement is a 16-bit field, its number read with or without a sign.
def Instr.encodable : Instr → Prop
  | .stmw _ d _ => -32768 ≤ d ∧ d < 65536
  | _ => True

section Registers
variable (s : EmitState)

theorem set_arch (r : Fin 32) (v : BitVec 64) :
    arch (s.set r v) = {arch s with gpr := Function.update (arch s).gpr r v} := rfl

theorem set_vr_arch (r : Fin 32) (v : PpuVr) :
    arch (s.set_vr r v) = {arch s with vr := Function.update (arch s).vr r (ofBytes v)} := by
  have vrs : (fun q => ofBytes (Function.update s.ctx.vr r v q)) = Function.update (fun q => ofBytes (s.ctx.vr q)) r (ofBytes v) :=
    Function.comp_update ofBytes s.ctx.vr r v
  exact congrArg (fun vr => {arch s with vr}) vrs

theorem set_cr_arch (v : BitVec 32) : arch (s.set_cr v) = {arch s with cr := fun n => v.getLsbD (31-n.val)} := rfl

theorem effective_arch (rA rB : Fin 32) :
    (ea_expr rA rB).eval s.ctx.toPpuCtx = (arch s).base rA + ((arch s).gpr rB).setWidth 32 := ea_expr_eval _ rA rB
end Registers

section Condition
variable (cr : BitVec 32)

theorem low_ones (w j : Nat) (fits : 2^w-1 < 2^32) : (BitVec.ofNat 32 (2^w-1)).getLsbD j = decide (j < w) := by
  rw [BitVec.getLsbD,BitVec.toNat_ofNat,Nat.mod_eq_of_lt fits,Nat.testBit_two_pow_sub_one]

theorem one_bit (j : Nat) : (1 : BitVec 32).getLsbD j = decide (j < 1) := low_ones 1 j (by decide)

theorem bit_of (k j : Nat) : (cr >>> k &&& 1).getLsbD j = (decide (j = 0) && cr.getLsbD k) := by
  rw [BitVec.getLsbD_and,BitVec.getLsbD_ushiftRight,one_bit]
  cases j with
  | zero => simp
  | succ j => simp

theorem replaced_bit (r : BitVec 32) (BT n : Fin 32) (single : ∀ j, 0 < j → r.getLsbD j = false) :
    (cr &&& ~~~((1 : BitVec 32) <<< (31-BT.val)) ||| r <<< (31-BT.val)).getLsbD (31-n.val) =
      if n = BT then r.getLsbD 0 else cr.getLsbD (31-n.val) := by
  have place : 31-n.val < 32 := by omega
  simp only [BitVec.getLsbD_or,BitVec.getLsbD_and,BitVec.getLsbD_not,BitVec.getLsbD_shiftLeft,one_bit,place,
    decide_true,Bool.true_and]
  by_cases here : n = BT
  · subst here
    simp
  · have apart : n.val ≠ BT.val := fun same => here (Fin.ext same)
    rw [if_neg here]
    by_cases right : 31-n.val < 31-BT.val
    · simp [right]
    · have left : 0 < 31-n.val-(31-BT.val) := by omega
      simp [right,single _ left,Nat.ne_of_gt left]

theorem cr_set_bit (BF : Fin 8) (val : BitVec 32) (n : Fin 32) (short : ∀ j, 4 ≤ j → val.getLsbD j = false) :
    (cr_set cr (28-4*BF.val) val).getLsbD (31-n.val) =
      if n.val/4 = BF.val then val.getLsbD (3-n.val%4) else cr.getLsbD (31-n.val) := by
  have place : 31-n.val < 32 := by omega
  have fifteen (j : Nat) : (0xF : BitVec 32).getLsbD j = decide (j < 4) := low_ones 4 j (by decide)
  unfold cr_set
  simp only [BitVec.getLsbD_or,BitVec.getLsbD_and,BitVec.getLsbD_not,BitVec.getLsbD_shiftLeft,fifteen,place,
    decide_true,Bool.true_and]
  by_cases here : n.val/4 = BF.val
  · have inside : ¬ 31-n.val < 28-4*BF.val := by omega
    have offset : 31-n.val-(28-4*BF.val) = 3-n.val%4 := by omega
    have low : 3-n.val%4 < 4 := by omega
    simp [here,inside,offset,low]
  · rw [if_neg here]
    by_cases right : 31-n.val < 28-4*BF.val
    · simp [right]
    · have left : ¬ 31-n.val-(28-4*BF.val) < 4 := by omega
      simp [right,left,short _ (Nat.not_lt.mp left)]
end Condition

section Integer
variable (s : EmitState) (fuel : Nat)

theorem crorc_arch (BT BA BB : Fin 32) : some (arch (repl_crorc s BT BA BB)) = isa (arch s) fuel (.crorc BT BA BB) := by
  have kept := replaced_bit s.ctx.cr ((s.ctx.cr >>> (31-BA.val) &&& 1) ||| (~~~(s.ctx.cr >>> (31-BB.val) &&& 1) &&& 1)) BT
  have bits (j : Nat) : ((s.ctx.cr >>> (31-BA.val) &&& 1) ||| (~~~(s.ctx.cr >>> (31-BB.val) &&& 1) &&& 1)).getLsbD j =
      (decide (j = 0) && (s.ctx.cr.getLsbD (31-BA.val) || !s.ctx.cr.getLsbD (31-BB.val))) := by
    rw [BitVec.getLsbD_or,bit_of,BitVec.getLsbD_and,BitVec.getLsbD_not,bit_of,one_bit]
    cases j with
    | zero => simp
    | succ j => simp
  refine congrArg some ?_
  unfold repl_crorc
  rw [set_cr_arch]
  refine congrArg (fun cr => {arch s with cr}) (funext fun n => ?_)
  rw [kept n fun j above => by rw [bits j,decide_eq_false (Nat.ne_of_gt above),Bool.false_and],bits 0,Function.update_apply]
  rfl

theorem subfc_arch (rD rA rB : Fin 32) : some (arch (subfc s rD rA rB)) = isa (arch s) fuel (.subfc rD rA rB) := by
  have difference : s.gpr rB - s.gpr rA = ~~~s.gpr rA + s.gpr rB + 1 := by
    rw [BitVec.sub_eq_add_neg,BitVec.neg_eq_not_add,BitVec.add_comm _ (s.gpr rB),← BitVec.add_assoc]
    rfl
  unfold subfc
  rw [set_arch,difference]
  rfl
end Integer

section Stores
variable (s : EmitState) (fuel : Nat)

theorem stmw_d_field (d : Int) (low : -32768 ≤ d) (high : d < 65536) : stmw_d d = (BitVec.ofInt 16 d).toInt := by
  rw [BitVec.toInt_ofInt,Int.bmod_def,stmw_d]
  split <;> split <;> omega

theorem low32_ofInt (d : Int) : (BitVec.ofInt 64 d).setWidth 32 = BitVec.ofInt 32 d := by
  refine BitVec.eq_of_toNat_eq ?_
  rw [BitVec.toNat_setWidth,BitVec.toNat_ofInt,BitVec.toNat_ofInt]
  omega

theorem stmw_ea_arch (d : Int) (rA : Fin 32) (low : -32768 ≤ d) (high : d < 65536) :
    stmw_ea s d rA = (arch s).base rA + (BitVec.ofInt 16 d).signExtend 32 := by
  unfold stmw_ea Power.base
  rw [stmw_d_field d low high]
  by_cases none_ : rA = 0
  · rw [if_pos none_,if_pos none_]
    exact (BitVec.zero_add _).symm
  · rw [if_neg none_,if_neg none_,low32,BitVec.setWidth_add _ _ (by decide),low32_ofInt]
    rfl

theorem stmw_arch (rS : Fin 32) (d : Int) (rA : Fin 32) (low : -32768 ≤ d) (high : d < 65536) :
    (repl_stmw s fuel rS d rA).map arch = isa (arch s) fuel (.stmw rS d rA) := by
  have stores : (fun (mem : Machine) (r : Fin 32) => vm_write32 fuel mem
        ((stmw_ea s d rA + BitVec.ofNat 32 ((r.val-rS.val)*4)).setWidth 64) (low32 (s.gpr r))) =
      fun mem r => MEM4 fuel mem ((arch s).base rA + (BitVec.ofInt 16 d).signExtend 32 + BitVec.ofNat 32 (4*(r.val-rS.val)))
        (((arch s).gpr r).setWidth 32) := by
    funext mem r
    rw [stmw_ea_arch s d rA low high,Nat.mul_comm]
    rfl
  unfold repl_stmw
  rw [stores,Option.map_map]
  rfl

theorem stfiwx_arch (frS rA rB : Fin 32) : (stfiwx s fuel frS rA rB).map arch = isa (arch s) fuel (.stfiwx frS rA rB) := by
  have word : (s.ctx.fpr frS).setWidth 32 = ((arch s).fpr frS).extractLsb' 0 32 := by
    refine BitVec.eq_of_getLsbD_eq fun i inside => ?_
    rw [BitVec.getLsbD_setWidth,BitVec.getLsbD_extractLsb',Nat.zero_add]
    rfl
  unfold stfiwx
  rw [effective_arch,word,Option.map_map]
  rfl
end Stores

section Vectors
variable (s : EmitState) (fuel : Nat)

theorem byteElement_at (r : PpuVr) (i : Nat) (inside : i < 16) : byteElement (ofBytes r) i = r ⟨i,inside⟩ :=
  byteAt_ofBytes r ⟨i,inside⟩

theorem splat_bytes (b : BitVec 8) (d : PpuVr) : Fin.foldl 16 (fun d i => Function.update d i b) d = fun _ => b := by
  funext k
  refine foldl_single (fun d : PpuVr => d k) (fun d i => Function.update d i b) k d b ?_ ?_
  · intro t j other
    exact Function.update_of_ne (fun same => other same.symm) _ _
  · intro t _
    exact Function.update_self _ _ _

theorem vspltb_arch (VD VA VB : Fin 32) : some (arch (repl_vspltb s VD VA VB)) = isa (arch s) fuel (.vspltb VD VA VB) := by
  unfold repl_vspltb
  dsimp only
  rw [splat_bytes,set_vr_arch]
  refine congrArg (fun b => some {arch s with vr := Function.update (arch s).vr VD (ofBytes fun _ => b)}) ?_
  exact (byteElement_at (s.ctx.vr VB) _ _).symm

theorem splat_halves (h : BitVec 16) (d : PpuVr) :
    Fin.foldl 8 (fun d i => PpuVr.set_h d i h) d = fun k => h.extractLsb' (8*(k.val%2)) 8 := by
  funext k
  refine foldl_single (fun d : PpuVr => d k) (fun d i => PpuVr.set_h d i h) ⟨k.val/2,by omega⟩ d _ ?_ ?_
  · intro t j other
    exact if_neg fun same => other (Fin.ext same.symm)
  · intro t _
    exact if_pos rfl

-- A halfword read and written on the host keeps its two bytes in order.
theorem host_half (r : PpuVr) (i : Fin 8) (j : Fin 2) : (PpuVr.h r i).extractLsb' (8*j.val) 8 = r (half i j) := by
  have turned := byteAt_ofBytes (k:=2) (fun j => r (half i j.rev)) j.rev
  rw [Fin.rev_rev] at turned
  rw [← turned]
  match j with
  | 0 | 1 => rfl

theorem replicated_byte (h : BitVec 16) (k : Fin 16) :
    byteAt (k:=16) (BitVec.replicate 8 h) k = byteAt (k:=2) h ⟨k.val%2,Nat.mod_lt _ (by decide)⟩ := by
  refine BitVec.eq_of_getLsbD_eq fun i inside => ?_
  have place : (8*(16-1-k.val)+i)%16 = 8*(2-1-k.val%2)+i := by omega
  have short : 8*(16-1-k.val)+i < 16*8 := by omega
  rw [getLsbD_byteAt,getLsbD_byteAt,decide_eq_true inside,Bool.true_and,Bool.true_and]
  refine (BitVec.getLsbD_replicate ..).trans ?_
  rw [decide_eq_true short,Bool.true_and,place]

theorem halfElement_byte (r : PpuVr) (i : Fin 8) (j : Fin 2) :
    byteAt (k:=2) (halfElement (ofBytes r) i) j = r (half i j) := by
  rw [← byteAt_ofBytes r (half i j)]
  refine BitVec.eq_of_getLsbD_eq fun b inside => ?_
  have place : 16*(7-i.val)+(8*(2-1-j.val)+b) = 8*(16-1-(2*i.val+j.val))+b := by omega
  have short : 8*(2-1-j.val)+b < 16 := by omega
  rw [getLsbD_byteAt,getLsbD_byteAt,decide_eq_true inside,Bool.true_and,Bool.true_and,halfElement,BitVec.getLsbD_extractLsb',
    decide_eq_true short,Bool.true_and,place]
  rfl

theorem vsplth_arch (VD VA VB : Fin 32) : some (arch (repl_vsplth s VD VA VB)) = isa (arch s) fuel (.vsplth VD VA VB) := by
  unfold repl_vsplth
  dsimp only
  rw [splat_halves,set_vr_arch]
  refine congrArg (fun v => some {arch s with vr := Function.update (arch s).vr VD v}) (bytes_ext (k:=16) fun k => ?_)
  rw [byteAt_ofBytes,host_half (s.ctx.vr VB) _ ⟨k.val%2,Nat.mod_lt _ (by decide)⟩,replicated_byte]
  exact (halfElement_byte (s.ctx.vr VB) _ _).symm

theorem lvlx_arch (VD rA rB : Fin 32) : (vector_load s (Ppu.lvlx VD rA rB)).map arch = isa (arch s) fuel (.lvlx VD rA rB) := by
  unfold vector_load
  rw [lvlx_run s.mem.vm s.ctx.toVmxCtx VD rA rB _ (ea_expr_eval _ _ _).symm,Option.map_some,Option.map_some]
  refine congrArg some ((set_vr_arch s VD (leftPart s.mem.vm ((ea_expr rA rB).eval s.ctx.toPpuCtx))).trans ?_)
  rw [effective_arch]
  rfl

theorem rightPart_arch (vm : GuestMem) (ea : BitVec 32) : ofBytes (rightPart vm (ea-16)) = right_justified vm ea := by
  have sixteen : (16 : BitVec 32).toNat = 16 := rfl
  have same : (ea-16).toNat%16 = ea.toNat%16 := by
    rw [BitVec.toNat_sub,sixteen]
    omega
  unfold rightPart right_justified
  rw [same]

theorem lvrx_arch (VD rA rB : Fin 32) : (vector_load s (Ppu.lvrx VD rA rB)).map arch = isa (arch s) fuel (.lvrx VD rA rB) := by
  have start : effective s.ctx.toPpuCtx rA rB = (ea_expr rA rB).eval s.ctx.toPpuCtx - 16 + 16 := by
    rw [BitVec.sub_add_cancel,ea_expr_eval]
  unfold vector_load
  rw [lvrx_run s.mem.vm s.ctx.toVmxCtx VD rA rB _ start,Option.map_some,Option.map_some]
  refine congrArg some ((set_vr_arch s VD (rightPart s.mem.vm ((ea_expr rA rB).eval s.ctx.toPpuCtx - 16))).trans ?_)
  rw [rightPart_arch,effective_arch]
  rfl
end Vectors

section Compare
variable (s : EmitState) (fuel : Nat)

theorem fcmp_val_outcome (a b : BitVec 64) : fcmp_val a b = BitVec.ofNat 32 (2^(3-(outcome a b).val)) := by
  unfold fcmp_val outcome double_test
  cases rank64 a with
  | none => rfl
  | some p =>
      cases rank64 b with
      | none => rfl
      | some q =>
          simp only [decide_eq_true_eq]
          rcases lt_trichotomy p q with less | same | greater
          · rw [if_pos less,if_pos less]
            rfl
          · subst same
            rw [if_neg (lt_irrefl p),if_neg (lt_irrefl p),if_pos rfl,if_neg (lt_irrefl p),if_neg (lt_irrefl p)]
            rfl
          · rw [if_neg (lt_asymm greater),if_pos greater,if_neg (lt_asymm greater),if_pos greater]
            rfl

theorem outcome_bit (c : Fin 4) (j : Nat) : (BitVec.ofNat 32 (2^(3-c.val))).getLsbD j = decide (j = 3-c.val) := by
  have fits : 2^(3-c.val) < 2^32 := Nat.pow_lt_pow_right (by decide) (by omega)
  rw [BitVec.getLsbD,BitVec.toNat_ofNat,Nat.mod_eq_of_lt fits,Nat.testBit_two_pow]
  exact decide_eq_decide.mpr eq_comm

theorem fcmp_arch (BF : Fin 8) (fA fB : Fin 32) : some (arch (fcmp s BF fA fB)) = isa (arch s) fuel (.fcmp BF fA fB) := by
  unfold fcmp
  rw [set_cr_arch,fcmp_val_outcome]
  refine congrArg (fun cr => some {arch s with cr}) (funext fun n => ?_)
  rw [cr_set_bit _ _ _ _ fun j above => by rw [outcome_bit]; exact decide_eq_false (by omega),outcome_bit]
  refine if_congr Iff.rfl ?_ rfl
  have bound := (outcome (s.ctx.fpr fA) (s.ctx.fpr fB)).isLt
  rw [Bool.eq_iff_iff,decide_eq_true_iff,beq_iff_eq]
  show 3-n.val%4 = 3-(outcome (s.ctx.fpr fA) (s.ctx.fpr fB)).val ↔ n.val%4 = (outcome (s.ctx.fpr fA) (s.ctx.fpr fB)).val
  omega
end Compare

theorem emitted_arch (fuel : Nat) (i : Instr) (coded : i.encodable) (s : EmitState) :
    (emitted s fuel i).map arch = isa (arch s) fuel i := by
  cases i with
  | crorc BT BA BB => exact crorc_arch s fuel BT BA BB
  | stmw rS d rA => exact stmw_arch s fuel rS d rA coded.1 coded.2
  | subfc rD rA rB => exact subfc_arch s fuel rD rA rB
  | stfiwx frS rA rB => exact stfiwx_arch s fuel frS rA rB
  | vspltb VD VA VB => exact vspltb_arch s fuel VD VA VB
  | vsplth VD VA VB => exact vsplth_arch s fuel VD VA VB
  | fcmp BF fA fB => exact fcmp_arch s fuel BF fA fB
  | lvlx VD rA rB => exact lvlx_arch s fuel VD rA rB
  | lvrx VD rA rB => exact lvrx_arch s fuel VD rA rB

theorem emitted_runs (fuel : Nat) (l : List Instr) (coded : ∀ i ∈ l, i.encodable) (s : EmitState) :
    (l.foldlM (fun s i => emitted s fuel i) s).map arch = l.foldlM (fun p i => isa p fuel i) (arch s) := by
  induction l generalizing s with
  | nil => rfl
  | cons i l ih =>
      rw [List.foldlM_cons,List.foldlM_cons,← emitted_arch fuel i (coded i List.mem_cons_self) s]
      cases emitted s fuel i with
      | none => rfl
      | some next => exact ih (fun j member => coded j (List.mem_cons_of_mem i member)) next

-- stmw r30, -8(r1) with its displacement printed as 65528, a NaN compared with itself,
-- crorc on the outcome, and a splat over its own source.
def patched : List Instr := [.stmw 30 65528 1,.fcmp 0 1 1,.crorc 2 3 2,.vsplth 2 5 2]

def patchedState : EmitState where
  ctx := ⟨⟨⟨fun r => if r = 1 then 0x100010 else 7,0,0,0,0,0⟩,fun _ k => BitVec.ofNat 8 k⟩,fun _ => 0x7FF8000000000000⟩
  mem := ⟨fun _ => 0,Rsx.rsx_init⟩

theorem emitted_runs_patched : (patched.foldlM (fun s i => emitted s 0 i) patchedState).map arch =
    patched.foldlM (fun p i => isa p 0 i) (arch patchedState) := by
  refine emitted_runs 0 patched ?_ patchedState
  unfold patched
  simp only [List.forall_mem_cons,Instr.encodable]
  exact ⟨⟨by decide,by decide⟩,trivial,trivial,trivial,nofun⟩

end BudokaiRuntime.Ppu.Emitted
