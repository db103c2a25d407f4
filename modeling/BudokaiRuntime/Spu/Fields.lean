import BudokaiRuntime.Spu.Dma

namespace BudokaiRuntime.Spu

def LS_MASK : BitVec 32 := BitVec.ofNat 32 (SPU_LS_SIZE-1)

theorem and_mask_le (addr mask : BitVec 32) : (addr &&& mask).toNat ≤ mask.toNat := by
  rw [BitVec.toNat_and]; exact Nat.and_le_right

-- Byte `k` of the aligned word or quadword that holds `addr`; never outside ls[].
def lsWord (addr : BitVec 32) (k : Fin 4) : Fin SPU_LS_SIZE :=
  ⟨(addr &&& (LS_MASK &&& ~~~3#32)).toNat+k,by
    have low := and_mask_le addr (LS_MASK &&& ~~~3#32)
    have top : (LS_MASK &&& ~~~3#32).toNat+4 = SPU_LS_SIZE := by decide
    omega⟩

def lsQuad (addr : BitVec 32) (k : Fin 16) : Fin SPU_LS_SIZE :=
  ⟨(addr &&& (LS_MASK &&& ~~~15#32)).toNat+k,by
    have low := and_mask_le addr (LS_MASK &&& ~~~15#32)
    have top : (LS_MASK &&& ~~~15#32).toNat+16 = SPU_LS_SIZE := by decide
    omega⟩

def ls_read32 (ls : LocalStore) (addr : BitVec 32) : BitVec 32 :=
  (ls (lsWord addr 0)).setWidth 32 <<< 24 ||| (ls (lsWord addr 1)).setWidth 32 <<< 16 |||
    (ls (lsWord addr 2)).setWidth 32 <<< 8 ||| (ls (lsWord addr 3)).setWidth 32

def ls_read128 (ls : LocalStore) (addr : BitVec 32) : SpuReg := ⟨fun k => ls (lsQuad addr k)⟩

def ls_write128 (ls : LocalStore) (addr : BitVec 32) (src : SpuReg) : LocalStore :=
  ls.splice (lsQuad addr 0).val src.u8

def sign_ext7 (v : BitVec 32) : BitVec 32 := if v &&& 0x40 ≠ 0 then v ||| 0xFFFFFF80 else v
def sign_ext10 (v : BitVec 32) : BitVec 32 := if v &&& 0x200 ≠ 0 then v ||| 0xFFFFFC00 else v
def sign_ext16 (v : BitVec 32) : BitVec 32 := if v &&& 0x8000 ≠ 0 then v ||| 0xFFFF0000 else v

def regField (v : BitVec 32) : Fin 128 := ⟨(v &&& 0x7F).toNat,Nat.lt_succ_of_le (and_mask_le v 0x7F)⟩

def F_RT (i : BitVec 32) : Fin 128 := regField i
def F_RA (i : BitVec 32) : Fin 128 := regField (i >>> 7)
def F_RB (i : BitVec 32) : Fin 128 := regField (i >>> 14)
-- RRR: this field is the destination.
def F_RC (i : BitVec 32) : Fin 128 := regField (i >>> 21)
def F_I7 (i : BitVec 32) : BitVec 32 := i >>> 14 &&& 0x7F
def F_I8 (i : BitVec 32) : BitVec 32 := i >>> 14 &&& 0xFF
def F_I10 (i : BitVec 32) : BitVec 32 := sign_ext10 (i >>> 14 &&& 0x3FF)
def F_I10U (i : BitVec 32) : BitVec 32 := i >>> 14 &&& 0x3FF
def F_I16 (i : BitVec 32) : BitVec 32 := sign_ext16 (i >>> 7 &&& 0xFFFF)
def F_I16U (i : BitVec 32) : BitVec 32 := i >>> 7 &&& 0xFFFF
def F_I18 (i : BitVec 32) : BitVec 32 := i >>> 7 &&& 0x3FFFF
def F_CH (i : BitVec 32) : Nat := (i >>> 7 &&& 0x1F).toNat

abbrev GW (r : SpuReg) (i : Fin 4) : BitVec 32 := spu_reg_get_w r i
abbrev GH (r : SpuReg) (i : Fin 8) : BitVec 16 := spu_reg_get_h r i

-- The in-place loops `for (i) SW(R[rt], i, v)` and their SH and u8 variants: `v`
-- reads the register file as the earlier iterations left it.
def loopW (R : Gpr) (rt : Fin 128) (v : Gpr → Fin 4 → BitVec 32) : Gpr :=
  Fin.foldl 4 (fun R i => Function.update R rt (spu_reg_set_w (R rt) i (v R i))) R

def loopH (R : Gpr) (rt : Fin 128) (v : Gpr → Fin 8 → BitVec 16) : Gpr :=
  Fin.foldl 8 (fun R i => Function.update R rt (spu_reg_set_h (R rt) i (v R i))) R

def loopB (R : Gpr) (rt : Fin 128) (v : Gpr → Fin 16 → BitVec 8) : Gpr :=
  Fin.foldl 16 (fun R i => Function.update R rt ((R rt).poke i (v R i))) R

def SpuCtx.words (ctx : SpuCtx) (rt : Fin 128) (v : Gpr → Fin 4 → BitVec 32) : SpuCtx :=
  {ctx with gpr := loopW ctx.gpr rt v}

def SpuCtx.halves (ctx : SpuCtx) (rt : Fin 128) (v : Gpr → Fin 8 → BitVec 16) : SpuCtx :=
  {ctx with gpr := loopH ctx.gpr rt v}

def SpuCtx.bytes (ctx : SpuCtx) (rt : Fin 128) (v : Gpr → Fin 16 → BitVec 8) : SpuCtx :=
  {ctx with gpr := loopB ctx.gpr rt v}

-- R[rt] = r
def SpuCtx.put (ctx : SpuCtx) (rt : Fin 128) (r : SpuReg) : SpuCtx :=
  {ctx with gpr := Function.update ctx.gpr rt r}

-- memset(&R[rt], 0, 16); SW(R[rt], 0, v)
def SpuCtx.scalar (ctx : SpuCtx) (rt : Fin 128) (v : BitVec 32) : SpuCtx :=
  ctx.put rt (spu_reg_set_w .zero 0 v)

-- A local `spu_reg_t t` filled element by element; every byte is written.
def freshW (v : Fin 4 → BitVec 32) : SpuReg := Fin.foldl 4 (fun t i => spu_reg_set_w t i (v i)) .zero

-- (int32_t)(int16_t)v
def s16 (v : BitVec 32) : BitVec 32 := (v.setWidth 16).signExtend 32

end BudokaiRuntime.Spu
