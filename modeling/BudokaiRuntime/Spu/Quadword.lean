import BudokaiRuntime.Spu.Context

namespace BudokaiRuntime.Spu

-- Control byte: 10xxxxxx, 110xxxxx and 111xxxxx are the constants 0x00, 0xFF and
-- 0x80; any other selects a byte of concat(RA,RB).
def do_shufb (a b c : SpuReg) : SpuReg := ⟨fun i =>
  let sel := c.u8 i
  if sel &&& 0xC0 = 0x80 then 0x00
  else if sel &&& 0xE0 = 0xC0 then 0xFF
  else if sel &&& 0xE0 = 0xE0 then 0x80
  else
    let k := (sel &&& 0x1F).toNat
    have bound : k < 32 := by
      have small : (sel &&& 0x1F).toNat ≤ 0x1F := by rw [BitVec.toNat_and]; exact Nat.and_le_right
      exact Nat.lt_succ_of_le small
    if first : k < 16 then a.u8 ⟨k,first⟩ else b.u8 ⟨k-16,by omega⟩⟩

-- cbd/chd/cwd/cdd and cbx/chx/cwx/cdx: the identity selection of RB with
-- `0..size-1` written over the `size` bytes at the aligned position.
def gen_controls (pos : BitVec 32) (size : Nat) : SpuReg :=
  let at0 := (pos &&& (0xF &&& ~~~BitVec.ofNat 32 (size-1))).toNat
  ⟨fun b => if at0 ≤ b.val ∧ b.val < at0+size then BitVec.ofNat 8 (b.val-at0) else 0x10 + BitVec.ofNat 8 b⟩

-- Quadword shifts on SPU byte order: "left" moves bytes toward `u8 0`.
def q_shl_bytes (a : SpuReg) (n : BitVec 32) : SpuReg :=
  ⟨fun k => if inside : k.val+n.toNat < 16 then a.u8 ⟨k.val+n.toNat,inside⟩ else 0⟩

def q_shr_bytes (a : SpuReg) (n : BitVec 32) : SpuReg :=
  ⟨fun k => if n.toNat ≤ k.val then a.u8 ⟨k.val-n.toNat,by omega⟩ else 0⟩

def q_rot_bytes (a : SpuReg) (n : BitVec 32) : SpuReg :=
  ⟨fun k => a.u8 ⟨(k.val+n.toNat)%16,by omega⟩⟩

def SpuReg.int (a : SpuReg) (k : Fin 16) : BitVec 32 := (a.u8 k).setWidth 32

def q_shl_bits (a : SpuReg) (s : BitVec 32) : SpuReg :=
  if s = 0 then a else ⟨fun k =>
    if inner : k.val < 15 then
      (a.int k <<< s.toNat ||| a.int ⟨k.val+1,by omega⟩ >>> (8-s.toNat)).setWidth 8
    else (a.int k <<< s.toNat).setWidth 8⟩

def q_shr_bits (a : SpuReg) (s : BitVec 32) : SpuReg :=
  if s = 0 then a else ⟨fun k =>
    if 0 < k.val then
      (a.int k >>> s.toNat ||| a.int ⟨k.val-1,by omega⟩ <<< (8-s.toNat)).setWidth 8
    else (a.int k >>> s.toNat).setWidth 8⟩

def q_rot_bits (a : SpuReg) (s : BitVec 32) : SpuReg :=
  if s = 0 then a else ⟨fun k =>
    (a.int k <<< s.toNat ||| a.int ⟨(k.val+1)%16,by omega⟩ >>> (8-s.toNat)).setWidth 8⟩

end BudokaiRuntime.Spu
