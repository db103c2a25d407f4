import Mathlib.Logic.Function.Basic
import BudokaiRuntime.Foundations.ByteLanes
import BudokaiRuntime.Guest.Memory

namespace BudokaiRuntime.Spu
open ByteLanes Guest

abbrev SPU_LS_SIZE : Nat := 256 * 1024

theorem ls_size : SPU_LS_SIZE = 262144 := rfl

-- Registers hold the 16 bytes in SPU order: `u8 0` is the most significant byte
-- of the preferred slot. Elements are read only through the accessors below.
@[ext] structure SpuReg where
  u8 : Fin 16 → BitVec 8

def SpuReg.poke (r : SpuReg) (b : Fin 16) (v : BitVec 8) : SpuReg := ⟨Function.update r.u8 b v⟩

def wordByte (i k : Fin 4) : Fin 16 := ⟨4*i+k,by omega⟩
def halfByte (i : Fin 8) (k : Fin 2) : Fin 16 := ⟨2*i+k,by omega⟩
def wordHalf (i : Fin 4) (k : Fin 2) : Fin 8 := ⟨2*i+k,by omega⟩
def doubleWord (i k : Fin 2) : Fin 4 := ⟨2*i+k,by omega⟩

def spu_reg_get_w (r : SpuReg) (i : Fin 4) : BitVec 32 :=
  (r.u8 (wordByte i 0)).setWidth 32 <<< 24 ||| (r.u8 (wordByte i 1)).setWidth 32 <<< 16 |||
    (r.u8 (wordByte i 2)).setWidth 32 <<< 8 ||| (r.u8 (wordByte i 3)).setWidth 32

def spu_reg_set_w (r : SpuReg) (i : Fin 4) (v : BitVec 32) : SpuReg :=
  (((r.poke (wordByte i 0) ((v >>> 24).setWidth 8)).poke (wordByte i 1) ((v >>> 16).setWidth 8)).poke
    (wordByte i 2) ((v >>> 8).setWidth 8)).poke (wordByte i 3) (v.setWidth 8)

def spu_reg_get_h (r : SpuReg) (i : Fin 8) : BitVec 16 :=
  (r.u8 (halfByte i 0)).setWidth 16 <<< 8 ||| (r.u8 (halfByte i 1)).setWidth 16

def spu_reg_set_h (r : SpuReg) (i : Fin 8) (v : BitVec 16) : SpuReg :=
  (r.poke (halfByte i 0) ((v >>> 8).setWidth 8)).poke (halfByte i 1) (v.setWidth 8)

-- memset(&r, 0, 16)
def SpuReg.zero : SpuReg := ⟨fun _ => 0⟩

abbrev Gpr : Type := Fin 128 → SpuReg
abbrev LocalStore : Type := Fin SPU_LS_SIZE → BitVec 8

-- `vm_base = none` is the null pointer; otherwise it is the guest memory behind it.
-- Only the fields that gate logging are left out.
@[ext] structure SpuCtx where
  gpr : Gpr
  ls : LocalStore
  pc : BitVec 32
  running : Bool
  stop_code : BitVec 32
  mfc_lsa : BitVec 32
  mfc_eah : BitVec 32
  mfc_eal : BitVec 32
  mfc_size : BitVec 32
  mfc_tag : BitVec 32
  mfc_tagmask : BitVec 32
  inbound_mbox : BitVec 32
  inbound_mbox_count : Int
  outbound_mbox : BitVec 32
  outbound_mbox_count : Int
  signal : Fin 2 → BitVec 32
  signal_count : Fin 2 → Int
  tag_update_pending : Bool
  decr : BitVec 32
  id : Int
  vm_base : Option GuestMem
  insn_count : BitVec 64
  trace_limit : BitVec 32
  trace_count : BitVec 64

def spu_ctx_init (id : Int) (vm : Option GuestMem) : SpuCtx where
  gpr := fun _ => .zero
  ls := fun _ => 0
  pc := 0
  running := false
  stop_code := 0
  mfc_lsa := 0
  mfc_eah := 0
  mfc_eal := 0
  mfc_size := 0
  mfc_tag := 0
  mfc_tagmask := 0
  inbound_mbox := 0
  inbound_mbox_count := 0
  outbound_mbox := 0
  outbound_mbox_count := 0
  signal := fun _ => 0
  signal_count := fun _ => 0
  tag_update_pending := false
  decr := 0
  id := id
  vm_base := vm
  insn_count := 0
  trace_limit := 0
  trace_count := 0

def SpuReg.word (r : SpuReg) (i : Fin 4) : BitVec 32 := lane (m:=4) (k:=4) r.u8 i
def SpuReg.half (r : SpuReg) (i : Fin 8) : BitVec 16 := lane (m:=8) (k:=2) r.u8 i
def SpuReg.quad (r : SpuReg) : BitVec 128 := ofBytes (k:=16) r.u8

def SpuReg.ofWords (v : Fin 4 → BitVec 32) : SpuReg := ⟨ofLanes (m:=4) (k:=4) v⟩
def SpuReg.ofHalves (v : Fin 8 → BitVec 16) : SpuReg := ⟨ofLanes (m:=8) (k:=2) v⟩
def SpuReg.ofQuad (v : BitVec 128) : SpuReg := ⟨byteAt (k:=16) v⟩

@[simp] theorem word_ofWords (v : Fin 4 → BitVec 32) (i : Fin 4) : (SpuReg.ofWords v).word i = v i :=
  lane_ofLanes (m:=4) (k:=4) v i
@[simp] theorem half_ofHalves (v : Fin 8 → BitVec 16) (i : Fin 8) : (SpuReg.ofHalves v).half i = v i :=
  lane_ofLanes (m:=8) (k:=2) v i
@[simp] theorem quad_ofQuad (v : BitVec 128) : (SpuReg.ofQuad v).quad = v := ofBytes_byteAt (k:=16) v

theorem SpuReg.ext_words {r s : SpuReg} (same : ∀ i, r.word i = s.word i) : r = s :=
  SpuReg.ext (lanes_ext (m:=4) (k:=4) same)

theorem SpuReg.ext_halves {r s : SpuReg} (same : ∀ i, r.half i = s.half i) : r = s :=
  SpuReg.ext (lanes_ext (m:=8) (k:=2) same)

end BudokaiRuntime.Spu
