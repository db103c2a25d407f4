import BudokaiRuntime.Spu.Decode
import BudokaiRuntime.Spu.Fields
import BudokaiRuntime.Spu.HostFpu
import BudokaiRuntime.Spu.Quadword

namespace BudokaiRuntime.Spu

def mask_w (b : Bool) : BitVec 32 := if b then ~~~0 else 0
def mask_h (b : Bool) : BitVec 16 := if b then 0xFFFF else 0
def mask_b (b : Bool) : BitVec 8 := if b then 0xFF else 0

-- RRR format. RT4 = lo16(RA)*lo16(RB) + RC wraps in 32 bits here, as the host does it.
def exec_rrr (fpu : HostFpu) (op : Rrr) (insn : BitVec 32) (ctx : SpuCtx) : SpuCtx :=
  let R := ctx.gpr
  let rt4 := F_RC insn
  let rc := F_RT insn
  let ra := F_RA insn
  let rb := F_RB insn
  match op with
  | .selb => ctx.put rt4 ⟨fun i => (R rc).u8 i &&& (R rb).u8 i ||| ~~~(R rc).u8 i &&& (R ra).u8 i⟩
  | .shufb => ctx.put rt4 (do_shufb (R ra) (R rb) (R rc))
  | .mpya => ctx.put rt4 (freshW fun i =>
      s16 (GW (R ra) i &&& 0xFFFF) * s16 (GW (R rb) i &&& 0xFFFF) + GW (R rc) i)
  | .fnms => ctx.put rt4 (freshW fun i => fpu.fsub (GW (R rc) i) (fpu.fmul (GW (R ra) i) (GW (R rb) i)))
  | .fma => ctx.put rt4 (freshW fun i => fpu.fadd (fpu.fmul (GW (R ra) i) (GW (R rb) i)) (GW (R rc) i))
  | .fms => ctx.put rt4 (freshW fun i => fpu.fsub (fpu.fmul (GW (R ra) i) (GW (R rb) i)) (GW (R rc) i))

-- RI18 format. Branch hints have no architectural effect.
def exec_ri18 (op : Ri18) (insn : BitVec 32) (ctx : SpuCtx) : SpuCtx :=
  match op with
  | .ila => ctx.words (F_RT insn) fun _ _ => F_I18 insn
  | .hbra | .hbrr => ctx

-- RI16 format. `pc` is the address of the instruction; `ctx.pc` already points past it.
def exec_ri16 (op : Ri16) (insn pc : BitVec 32) (ctx : SpuCtx) : SpuCtx :=
  let R := ctx.gpr
  let rt := F_RT insn
  let relative := (pc + F_I16 insn <<< 2) &&& LS_MASK
  let absolute := (F_I16U insn <<< 2) &&& LS_MASK
  match op with
  | .brz => if GW (R rt) 0 = 0 then {ctx with pc := relative} else ctx
  | .brnz => if GW (R rt) 0 ≠ 0 then {ctx with pc := relative} else ctx
  | .brhz => if GW (R rt) 0 &&& 0xFFFF = 0 then {ctx with pc := relative} else ctx
  | .brhnz => if GW (R rt) 0 &&& 0xFFFF ≠ 0 then {ctx with pc := relative} else ctx
  | .stqa => {ctx with ls := ls_write128 ctx.ls (absolute &&& ~~~15#32) (R rt)}
  | .stqr => {ctx with ls := ls_write128 ctx.ls (relative &&& ~~~15#32) (R rt)}
  | .lqa => ctx.put rt (ls_read128 ctx.ls (absolute &&& ~~~15#32))
  | .lqr => ctx.put rt (ls_read128 ctx.ls (relative &&& ~~~15#32))
  | .bra => {ctx with pc := absolute}
  | .brasl => {ctx.scalar rt ctx.pc with pc := absolute}
  | .br => {ctx with pc := relative}
  | .brsl => {ctx.scalar rt ctx.pc with pc := relative}
  | .fsmbi => ctx.bytes rt fun _ k => mask_b (F_I16U insn >>> (15-k.val) &&& 1 != 0)
  | .il => ctx.words rt fun _ _ => sign_ext16 (F_I16U insn)
  | .ilhu => ctx.words rt fun _ _ => F_I16U insn <<< 16
  | .ilh => ctx.halves rt fun _ _ => (F_I16U insn).setWidth 16
  | .iohl => ctx.words rt fun R i => GW (R rt) i ||| F_I16U insn

-- RI10 format. Halts are ignored.
def exec_ri10 (op : Ri10) (insn : BitVec 32) (ctx : SpuCtx) : SpuCtx :=
  let R := ctx.gpr
  let rt := F_RT insn
  let ra := F_RA insn
  let v := F_I10 insn
  let v16 := v.setWidth 16
  let v8 := v.setWidth 8
  let ea := (GW (R ra) 0 + F_I10 insn <<< 4) &&& LS_MASK &&& ~~~15#32
  match op with
  | .lqd => ctx.put rt (ls_read128 ctx.ls ea)
  | .stqd => {ctx with ls := ls_write128 ctx.ls ea (R rt)}
  | .ai => ctx.words rt fun R i => GW (R ra) i + v
  | .sfi => ctx.words rt fun R i => v - GW (R ra) i
  | .ahi => ctx.halves rt fun R i => GH (R ra) i + v16
  | .sfhi => ctx.halves rt fun R i => v16 - GH (R ra) i
  | .andi => ctx.words rt fun R i => GW (R ra) i &&& v
  | .andhi => ctx.halves rt fun R i => GH (R ra) i &&& v16
  | .andbi => ctx.bytes rt fun R i => (R ra).u8 i &&& v8
  | .ori => ctx.words rt fun R i => GW (R ra) i ||| v
  | .orhi => ctx.halves rt fun R i => GH (R ra) i ||| v16
  | .orbi => ctx.bytes rt fun R i => (R ra).u8 i ||| v8
  | .xori => ctx.words rt fun R i => GW (R ra) i ^^^ v
  | .xorhi => ctx.halves rt fun R i => GH (R ra) i ^^^ v16
  | .xorbi => ctx.bytes rt fun R i => (R ra).u8 i ^^^ v8
  | .ceqi => ctx.words rt fun R i => mask_w (GW (R ra) i == v)
  | .ceqhi => ctx.halves rt fun R i => mask_h (GH (R ra) i == v16)
  | .ceqbi => ctx.bytes rt fun R i => mask_b ((R ra).u8 i == v8)
  | .cgti => ctx.words rt fun R i => mask_w (v.slt (GW (R ra) i))
  | .cgthi => ctx.halves rt fun R i => mask_h (v16.slt (GH (R ra) i))
  | .cgtbi => ctx.bytes rt fun R i => mask_b (v8.slt ((R ra).u8 i))
  | .clgti => ctx.words rt fun R i => mask_w (v.ult (GW (R ra) i))
  | .clgthi => ctx.halves rt fun R i => mask_h (v16.ult (GH (R ra) i))
  | .clgtbi => ctx.bytes rt fun R i => mask_b (v8.ult ((R ra).u8 i))
  | .mpyi => ctx.words rt fun R i => s16 (GW (R ra) i &&& 0xFFFF) * v
  | .mpyui => ctx.words rt fun R i => (GW (R ra) i &&& 0xFFFF) * (sign_ext10 (F_I10U insn) &&& 0xFFFF)
  | .hgti | .hlgti | .heqi => ctx

-- while (!(v & 0x80000000u)) { n++; v<<=1; } for a nonzero `v`, within 32 rounds.
def clzLoop : Nat → BitVec 32 → Nat → Nat
  | 0,_,n => n
  | fuel+1,v,n => if v &&& 0x80000000 = 0 then clzLoop fuel (v <<< 1) (n+1) else n

-- while(v){n+=v&1;v>>=1;} on a byte, within 8 rounds.
def cntLoop : Nat → BitVec 8 → Nat → Nat
  | 0,_,n => n
  | fuel+1,v,n => if v = 0 then n else cntLoop fuel (v >>> 1) (n+(v &&& 1).toNat)

def clz_w (v : BitVec 32) : BitVec 32 := if v = 0 then 32 else BitVec.ofNat 32 (clzLoop 32 v 0)

-- The element shifts; `s` is already reduced to the count's field.
def rot_w (v s : BitVec 32) : BitVec 32 := if s ≠ 0 then v <<< s.toNat ||| v >>> (32-s.toNat) else v
def shr_w (v s : BitVec 32) : BitVec 32 := if s < 32 then v >>> s.toNat else 0
def sar_w (v s : BitVec 32) : BitVec 32 := v.sshiftRight (if s > 31 then 31 else s).toNat
def shl_w (v s : BitVec 32) : BitVec 32 := if s < 32 then v <<< s.toNat else 0

-- Halfwords are promoted to int, shifted there and truncated back.
def rot_h (v : BitVec 16) (s : BitVec 32) : BitVec 16 :=
  (if s ≠ 0 then v.setWidth 32 <<< s.toNat ||| v.setWidth 32 >>> (16-s.toNat)
   else v.setWidth 32).setWidth 16

def shr_h (v : BitVec 16) (s : BitVec 32) : BitVec 16 :=
  (if s < 16 then v.setWidth 32 >>> s.toNat else 0).setWidth 16

def sar_h (v : BitVec 16) (s : BitVec 32) : BitVec 16 :=
  ((v.signExtend 32).sshiftRight (if s > 15 then 15 else s).toNat).setWidth 16

def shl_h (v : BitVec 16) (s : BitVec 32) : BitVec 16 :=
  (if s < 16 then v.setWidth 32 <<< s.toNat else 0).setWidth 16

def sum4 (b : Fin 4 → BitVec 8) : BitVec 16 := Fin.foldl 4 (fun s k => s + (b k).setWidth 16) 0

-- double element i = words 2i (high) and 2i+1 (low)
def get_d (r : SpuReg) (i : Fin 2) : BitVec 64 :=
  (GW r (doubleWord i 0)).setWidth 64 <<< 32 ||| (GW r (doubleWord i 1)).setWidth 64

def set_d (r : SpuReg) (i : Fin 2) (d : BitVec 64) : SpuReg :=
  spu_reg_set_w (spu_reg_set_w r (doubleWord i 0) ((d >>> 32).setWidth 32)) (doubleWord i 1) (d.setWidth 32)

def loopD (R : Gpr) (rt : Fin 128) (v : Gpr → Fin 2 → BitVec 64) : Gpr :=
  Fin.foldl 2 (fun R i => Function.update R rt (set_d (R rt) i (v R i))) R

def SpuCtx.doubles (ctx : SpuCtx) (rt : Fin 128) (v : Gpr → Fin 2 → BitVec 64) : SpuCtx :=
  {ctx with gpr := loopD ctx.gpr rt v}

-- A double compare writes its mask to both words of the element.
def mask_d (b : Bool) : BitVec 64 := if b then ~~~0 else 0

-- 11-bit opcodes. `pc` has already been advanced in `ctx`.
def exec_rr (fpu : HostFpu) (op : Rr) (insn : BitVec 32) (ctx : SpuCtx) : SpuCtx :=
  let R := ctx.gpr
  let rt := F_RT insn
  let ra := F_RA insn
  let rb := F_RB insn
  let i7 := F_I7 insn
  let controls := fun (offset : BitVec 32) size => ctx.put rt (gen_controls (GW (R ra) 0 + offset) size)
  let target := GW (R ra) 0 &&& LS_MASK &&& ~~~3#32
  match op with
  | .stop | .stopd => {ctx with stop_code := insn &&& 0x3FFF,running := false}
  | .lnop | .nop | .sync | .dsync | .mtspr | .hbr => ctx
  | .mfspr => ctx.put rt .zero
  | .lqx => ctx.put rt (ls_read128 ctx.ls ((GW (R ra) 0 + GW (R rb) 0) &&& LS_MASK &&& ~~~15#32))
  | .stqx =>
      {ctx with ls := ls_write128 ctx.ls ((GW (R ra) 0 + GW (R rb) 0) &&& LS_MASK &&& ~~~15#32) (R rt)}
  | .cbd => controls (sign_ext7 i7) 1
  | .chd => controls (sign_ext7 i7) 2
  | .cwd => controls (sign_ext7 i7) 4
  | .cdd => controls (sign_ext7 i7) 8
  | .cbx => controls (GW (R rb) 0) 1
  | .chx => controls (GW (R rb) 0) 2
  | .cwx => controls (GW (R rb) 0) 4
  | .cdx => controls (GW (R rb) 0) 8
  | .a => ctx.words rt fun R i => GW (R ra) i + GW (R rb) i
  | .sf => ctx.words rt fun R i => GW (R rb) i - GW (R ra) i
  | .ah => ctx.halves rt fun R i => GH (R ra) i + GH (R rb) i
  | .sfh => ctx.halves rt fun R i => GH (R rb) i - GH (R ra) i
  | .cg => ctx.words rt fun R i =>
      (((GW (R ra) i).setWidth 64 + (GW (R rb) i).setWidth 64) >>> 32).setWidth 32
  | .bg => ctx.words rt fun R i => if GW (R ra) i ≤ GW (R rb) i then 1 else 0
  | .addx => ctx.words rt fun R i => GW (R ra) i + GW (R rb) i + (GW (R rt) i &&& 1)
  | .sfx => ctx.words rt fun R i => GW (R rb) i + ~~~GW (R ra) i + (GW (R rt) i &&& 1)
  | .cgx => ctx.words rt fun R i =>
      (((GW (R ra) i).setWidth 64 + (GW (R rb) i).setWidth 64 +
        (GW (R rt) i &&& 1).setWidth 64) >>> 32).setWidth 32
  | .bgx => ctx.words rt fun R i =>
      (((GW (R rb) i).setWidth 64 + (~~~GW (R ra) i).setWidth 64 +
        (GW (R rt) i &&& 1).setWidth 64) >>> 32).setWidth 32
  | .absdb => ctx.bytes rt fun R i =>
      let d : Int := ((R ra).u8 i).toNat - ((R rb).u8 i).toNat
      BitVec.ofInt 8 (if d < 0 then -d else d)
  | .avgb => ctx.bytes rt fun R i => (((R ra).int i + (R rb).int i + 1) >>> 1).setWidth 8
  | .sumb => ctx.put rt (Fin.foldl 4 (fun t i =>
      spu_reg_set_h (spu_reg_set_h t (wordHalf i 0) (sum4 fun k => (R rb).u8 (wordByte i k)))
        (wordHalf i 1) (sum4 fun k => (R ra).u8 (wordByte i k))) .zero)
  | .clz => ctx.words rt fun R i => clz_w (GW (R ra) i)
  | .cntb => ctx.bytes rt fun R i => BitVec.ofNat 8 (cntLoop 8 ((R ra).u8 i) 0)
  | .xsbh => ctx.halves rt fun R i => ((GH (R ra) i &&& 0xFF).setWidth 8).signExtend 16
  | .xshw => ctx.words rt fun R i => s16 (GW (R ra) i &&& 0xFFFF)
  | .xswd => ctx.put rt (Fin.foldl 2 (fun t i =>
      set_d t i ((GW (R ra) (doubleWord i 1)).signExtend 64)) .zero)
  | .gb => ctx.scalar rt (Fin.foldl 4 (fun v i => v ||| (GW (R ra) i &&& 1) <<< (3-i.val)) 0)
  | .gbh => ctx.scalar rt
      (Fin.foldl 8 (fun v i => v ||| (GH (R ra) i &&& 1).setWidth 32 <<< (7-i.val)) 0)
  | .gbb => ctx.scalar rt
      (Fin.foldl 16 (fun v i => v ||| ((R ra).u8 i &&& 1).setWidth 32 <<< (15-i.val)) 0)
  | .fsm =>
      let s := GW (R ra) 0
      ctx.words rt fun _ i => mask_w (s >>> (3-i.val) &&& 1 != 0)
  | .fsmh =>
      let s := GW (R ra) 0
      ctx.halves rt fun _ i => mask_h (s >>> (7-i.val) &&& 1 != 0)
  | .fsmb =>
      let s := GW (R ra) 0
      ctx.bytes rt fun _ i => mask_b (s >>> (15-i.val) &&& 1 != 0)
  | .and => ctx.bytes rt fun R i => (R ra).u8 i &&& (R rb).u8 i
  | .or => ctx.bytes rt fun R i => (R ra).u8 i ||| (R rb).u8 i
  | .xor => ctx.bytes rt fun R i => (R ra).u8 i ^^^ (R rb).u8 i
  | .nand => ctx.bytes rt fun R i => ~~~((R ra).u8 i &&& (R rb).u8 i)
  | .nor => ctx.bytes rt fun R i => ~~~((R ra).u8 i ||| (R rb).u8 i)
  | .andc => ctx.bytes rt fun R i => (R ra).u8 i &&& ~~~(R rb).u8 i
  | .orc => ctx.bytes rt fun R i => (R ra).u8 i ||| ~~~(R rb).u8 i
  | .eqv => ctx.bytes rt fun R i => ~~~((R ra).u8 i ^^^ (R rb).u8 i)
  | .orx => ctx.scalar rt (GW (R ra) 0 ||| GW (R ra) 1 ||| GW (R ra) 2 ||| GW (R ra) 3)
  | .rot => ctx.words rt fun R i => rot_w (GW (R ra) i) (GW (R rb) i &&& 31)
  | .rotm => ctx.words rt fun R i => shr_w (GW (R ra) i) ((0 - GW (R rb) i) &&& 63)
  | .rotma => ctx.words rt fun R i => sar_w (GW (R ra) i) ((0 - GW (R rb) i) &&& 63)
  | .shl => ctx.words rt fun R i => shl_w (GW (R ra) i) (GW (R rb) i &&& 63)
  | .roth => ctx.halves rt fun R i => rot_h (GH (R ra) i) ((GH (R rb) i).setWidth 32 &&& 15)
  | .rothm => ctx.halves rt fun R i => shr_h (GH (R ra) i) ((0 - (GH (R rb) i).setWidth 32) &&& 31)
  | .rotmah => ctx.halves rt fun R i => sar_h (GH (R ra) i) ((0 - (GH (R rb) i).setWidth 32) &&& 31)
  | .shlh => ctx.halves rt fun R i => shl_h (GH (R ra) i) ((GH (R rb) i).setWidth 32 &&& 31)
  | .roti => ctx.words rt fun R i => rot_w (GW (R ra) i) (i7 &&& 31)
  | .rotmi => ctx.words rt fun R i => shr_w (GW (R ra) i) ((0 - i7) &&& 63)
  | .rotmai => ctx.words rt fun R i => sar_w (GW (R ra) i) ((0 - i7) &&& 63)
  | .shli => ctx.words rt fun R i => shl_w (GW (R ra) i) (i7 &&& 63)
  | .rothi => ctx.halves rt fun R i => rot_h (GH (R ra) i) (i7 &&& 15)
  | .rothmi => ctx.halves rt fun R i => shr_h (GH (R ra) i) ((0 - i7) &&& 31)
  | .rotmahi => ctx.halves rt fun R i => sar_h (GH (R ra) i) ((0 - i7) &&& 31)
  | .shlhi => ctx.halves rt fun R i => shl_h (GH (R ra) i) (i7 &&& 31)
  | .rotqbi => ctx.put rt (q_rot_bits (R ra) (GW (R rb) 0 &&& 7))
  | .rotqmbi => ctx.put rt (q_shr_bits (R ra) ((0 - GW (R rb) 0) &&& 7))
  | .shlqbi => ctx.put rt (q_shl_bits (R ra) (GW (R rb) 0 &&& 7))
  | .rotqby => ctx.put rt (q_rot_bytes (R ra) (GW (R rb) 0 &&& 15))
  | .rotqmby => ctx.put rt (q_shr_bytes (R ra) ((0 - GW (R rb) 0) &&& 31))
  | .shlqby => ctx.put rt (q_shl_bytes (R ra) (GW (R rb) 0 &&& 31))
  | .rotqbybi => ctx.put rt (q_rot_bytes (R ra) (GW (R rb) 0 >>> 3 &&& 15))
  | .rotqmbybi => ctx.put rt (q_shr_bytes (R ra) (((0 : BitVec 32) - GW (R rb) 0 >>> 3) &&& 31))
  | .shlqbybi => ctx.put rt (q_shl_bytes (R ra) (GW (R rb) 0 >>> 3 &&& 31))
  | .rotqbii => ctx.put rt (q_rot_bits (R ra) (i7 &&& 7))
  | .rotqmbii => ctx.put rt (q_shr_bits (R ra) ((0 - i7) &&& 7))
  | .shlqbii => ctx.put rt (q_shl_bits (R ra) (i7 &&& 7))
  | .rotqbyi => ctx.put rt (q_rot_bytes (R ra) (i7 &&& 15))
  | .rotqmbyi => ctx.put rt (q_shr_bytes (R ra) ((0 - i7) &&& 31))
  | .shlqbyi => ctx.put rt (q_shl_bytes (R ra) (i7 &&& 31))
  | .ceq => ctx.words rt fun R i => mask_w (GW (R ra) i == GW (R rb) i)
  | .ceqh => ctx.halves rt fun R i => mask_h (GH (R ra) i == GH (R rb) i)
  | .ceqb => ctx.bytes rt fun R i => mask_b ((R ra).u8 i == (R rb).u8 i)
  | .cgt => ctx.words rt fun R i => mask_w ((GW (R rb) i).slt (GW (R ra) i))
  | .cgth => ctx.halves rt fun R i => mask_h ((GH (R rb) i).slt (GH (R ra) i))
  | .cgtb => ctx.bytes rt fun R i => mask_b (((R rb).u8 i).slt ((R ra).u8 i))
  | .clgt => ctx.words rt fun R i => mask_w ((GW (R rb) i).ult (GW (R ra) i))
  | .clgth => ctx.halves rt fun R i => mask_h ((GH (R rb) i).ult (GH (R ra) i))
  | .clgtb => ctx.bytes rt fun R i => mask_b (((R rb).u8 i).ult ((R ra).u8 i))
  | .hgt | .hlgt | .heq => ctx
  | .mpy => ctx.words rt fun R i => s16 (GW (R ra) i &&& 0xFFFF) * s16 (GW (R rb) i &&& 0xFFFF)
  | .mpyu => ctx.words rt fun R i => (GW (R ra) i &&& 0xFFFF) * (GW (R rb) i &&& 0xFFFF)
  | .mpyh => ctx.words rt fun R i =>
      (s16 (GW (R ra) i >>> 16) * s16 (GW (R rb) i &&& 0xFFFF)) <<< 16
  | .mpys => ctx.words rt fun R i =>
      (s16 (GW (R ra) i &&& 0xFFFF) * s16 (GW (R rb) i &&& 0xFFFF)).sshiftRight 16
  | .mpyhh => ctx.words rt fun R i => s16 (GW (R ra) i >>> 16) * s16 (GW (R rb) i >>> 16)
  | .mpyhhu => ctx.words rt fun R i => (GW (R ra) i >>> 16) * (GW (R rb) i >>> 16)
  | .mpyhha => ctx.words rt fun R i =>
      GW (R rt) i + s16 (GW (R ra) i >>> 16) * s16 (GW (R rb) i >>> 16)
  | .mpyhhau => ctx.words rt fun R i => GW (R rt) i + (GW (R ra) i >>> 16) * (GW (R rb) i >>> 16)
  | .bi => {ctx with pc := target}
  | .bisl => {ctx with pc := target}.scalar rt ctx.pc
  -- No interrupt state to return to: the interpreter stops instead.
  | .iret => {ctx with running := false}
  -- No external events: the link is written and execution falls through.
  | .bisled => ctx.scalar rt ctx.pc
  | .biz => if GW (R rt) 0 = 0 then {ctx with pc := target} else ctx
  | .binz => if GW (R rt) 0 ≠ 0 then {ctx with pc := target} else ctx
  | .bihz => if GW (R rt) 0 &&& 0xFFFF = 0 then {ctx with pc := target} else ctx
  | .bihnz => if GW (R rt) 0 &&& 0xFFFF ≠ 0 then {ctx with pc := target} else ctx
  | .fa => ctx.words rt fun R i => fpu.fadd (GW (R ra) i) (GW (R rb) i)
  | .fs => ctx.words rt fun R i => fpu.fsub (GW (R ra) i) (GW (R rb) i)
  | .fm => ctx.words rt fun R i => fpu.fmul (GW (R ra) i) (GW (R rb) i)
  | .fceq => ctx.words rt fun R i => mask_w (fpu.feq (GW (R ra) i) (GW (R rb) i))
  | .fcmeq => ctx.words rt fun R i => mask_w (fpu.feq (fpu.fabs (GW (R ra) i)) (fpu.fabs (GW (R rb) i)))
  | .fcgt => ctx.words rt fun R i => mask_w (fpu.fgt (GW (R ra) i) (GW (R rb) i))
  | .fcmgt => ctx.words rt fun R i => mask_w (fpu.fgt (fpu.fabs (GW (R ra) i)) (fpu.fabs (GW (R rb) i)))
  | .fi => ctx.put rt (R rb)
  -- 0x3F800000 is 1.f; v != 0.f is the negated comparison.
  | .frest => ctx.words rt fun R i =>
      let v := GW (R ra) i
      if !fpu.feq v 0 then fpu.fdiv 0x3F800000 v else 0
  | .frsqest => ctx.words rt fun R i =>
      let v := fpu.fabs (GW (R ra) i)
      if fpu.fgt v 0 then fpu.fdiv 0x3F800000 (fpu.fsqrt v) else 0
  | .fscrrd => ctx.put rt .zero
  | .fscrwr | .dftsv => ctx
  | .dfa => ctx.doubles rt fun R i => fpu.dadd (get_d (R ra) i) (get_d (R rb) i)
  | .dfs => ctx.doubles rt fun R i => fpu.dsub (get_d (R ra) i) (get_d (R rb) i)
  | .dfm => ctx.doubles rt fun R i => fpu.dmul (get_d (R ra) i) (get_d (R rb) i)
  | .dfma => ctx.doubles rt fun R i =>
      fpu.dadd (fpu.dmul (get_d (R ra) i) (get_d (R rb) i)) (get_d (R rt) i)
  | .dfms => ctx.doubles rt fun R i =>
      fpu.dsub (fpu.dmul (get_d (R ra) i) (get_d (R rb) i)) (get_d (R rt) i)
  | .dfnms => ctx.doubles rt fun R i =>
      fpu.dsub (get_d (R rt) i) (fpu.dmul (get_d (R ra) i) (get_d (R rb) i))
  | .dfnma => ctx.doubles rt fun R i =>
      fpu.dneg (fpu.dadd (fpu.dmul (get_d (R ra) i) (get_d (R rb) i)) (get_d (R rt) i))
  | .dfceq => ctx.doubles rt fun R i => mask_d (fpu.deq (get_d (R ra) i) (get_d (R rb) i))
  | .dfcmeq => ctx.doubles rt fun R i =>
      mask_d (fpu.deq (fpu.dabs (get_d (R ra) i)) (fpu.dabs (get_d (R rb) i)))
  | .dfcgt => ctx.doubles rt fun R i => mask_d (fpu.dgt (get_d (R ra) i) (get_d (R rb) i))
  | .dfcmgt => ctx.doubles rt fun R i =>
      mask_d (fpu.dgt (fpu.dabs (get_d (R ra) i)) (fpu.dabs (get_d (R rb) i)))
  | .fesd => ctx.put rt
      (set_d (set_d (R rt) 0 (fpu.f2d (GW (R ra) 0))) 1 (fpu.f2d (GW (R ra) 2)))
  | .frds =>
      let f0 := fpu.d2f (get_d (R ra) 0)
      let f1 := fpu.d2f (get_d (R ra) 1)
      ctx.put rt (spu_reg_set_w (spu_reg_set_w (spu_reg_set_w (spu_reg_set_w (R rt) 0 f0) 1 0) 2 f1) 3 0)
  -- The double constants are 2147483647.0, -2147483648.0 and 4294967295.0.
  | .cflts =>
      let sc := fpu.ldexp1 (173 - (F_I8 insn).toNat)
      ctx.words rt fun R i =>
        let v := fpu.dmul (fpu.f2d (GW (R ra) i)) sc
        if fpu.dge v 0x41DFFFFFFFC00000 then 0x7FFFFFFF
        else if fpu.dge 0xC1E0000000000000 v then 0x80000000
        else fpu.d2i v
  | .cfltu =>
      let sc := fpu.ldexp1 (173 - (F_I8 insn).toNat)
      ctx.words rt fun R i =>
        let v := fpu.dmul (fpu.f2d (GW (R ra) i)) sc
        if fpu.dge v 0x41EFFFFFFFE00000 then 0xFFFFFFFF
        else if fpu.dgt 0 v then 0
        else fpu.d2u v
  | .csflt =>
      let sc := fpu.ldexp1 ((F_I8 insn).toNat - 155)
      ctx.words rt fun R i => fpu.d2f (fpu.dmul (fpu.i2d (GW (R ra) i)) sc)
  | .cuflt =>
      let sc := fpu.ldexp1 ((F_I8 insn).toNat - 155)
      ctx.words rt fun R i => fpu.d2f (fpu.dmul (fpu.u2d (GW (R ra) i)) sc)

end BudokaiRuntime.Spu
