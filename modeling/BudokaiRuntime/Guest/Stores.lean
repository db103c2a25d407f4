import BudokaiRuntime.Guest.Access
import BudokaiRuntime.Rsx.Fifo
import BudokaiRuntime.Spu.Dma

-- The stores that reach guest memory: the vm_write helpers of the PPU code, with what
-- vm_write32 intercepts, and the MFC commands of an SPU.
namespace BudokaiRuntime.Guest
open ByteLanes Rsx Spu

structure Machine where
  vm : GuestMem
  rsx : Renderer

def GuestMem.poke (vm : GuestMem) (a : BitVec 32) (v : BitVec 8) : GuestMem := Function.update vm a v

def GuestMem.put16 (vm : GuestMem) (a : BitVec 32) (val : BitVec 16) : GuestMem :=
  (vm.poke a ((val >>> 8).setWidth 8)).poke (a+1) (val.setWidth 8)

def GuestMem.put32 (vm : GuestMem) (a val : BitVec 32) : GuestMem :=
  (((vm.poke a ((val >>> 24).setWidth 8)).poke (a+1) ((val >>> 16).setWidth 8)).poke (a+2)
    ((val >>> 8).setWidth 8)).poke (a+3) (val.setWidth 8)

-- The head of the workload list, the state struct pointer, the bnusCore root and RSX REF.
abbrev WORKLOADS : BitVec 32 := 0x27F81C
abbrev STATES : BitVec 32 := 0x27F814
abbrev ROOT : BitVec 32 := 0x279B08
abbrev REF : BitVec 32 := 0x4

abbrev RSX_PUT : BitVec 32 := 0x10

def vm_write8 (m : Machine) (addr : BitVec 64) (val : BitVec 8) : Machine :=
  {m with vm := m.vm.poke (addr.setWidth 32) val}

def vm_write16 (m : Machine) (addr : BitVec 64) (val : BitVec 16) : Machine :=
  {m with vm := m.vm.put16 (addr.setWidth 32) val}

-- A write of 0 to one of the two chains puts the synthetic chain back.
def chain_val (a val : BitVec 32) : BitVec 32 :=
  if a = WORKLOADS ∧ val = 0 then 0x70A000
  else if a = STATES ∧ val = 0 then 0x70B000
  else val

-- The RSX PUT register: the queued commands are parsed, then GET mirrors PUT.
def write_put (fuel : Nat) (m : Machine) (val : BitVec 32) : Option Machine :=
  (rsx_process_fifo fuel m.vm m.rsx val).map fun (_,rsx) => {vm := m.vm.put32 0 val,rsx}

-- `none`: the parser has not returned within its fuel. Logging is left out.
def vm_write32 (fuel : Nat) (m : Machine) (addr : BitVec 64) (val : BitVec 32) : Option Machine :=
  let a := addr.setWidth 32
  let val := chain_val a val
  if a = ROOT ∧ val = 0 then some m
  else (if a = RSX_PUT then write_put fuel m val else some m).map fun m =>
    if a = REF then m else {m with vm := m.vm.put32 a val}

def vm_write64 (fuel : Nat) (m : Machine) (addr val : BitVec 64) : Option Machine :=
  (vm_write32 fuel m addr ((val >>> 32).setWidth 32)).bind fun m =>
    vm_write32 fuel m (addr+4) (val.setWidth 32)

def mfc_store (m : Machine) (spu : SpuCtx) (cmd : BitVec 32) : Option Machine :=
  (mfc_execute {spu with vm_base := some m.vm} cmd).bind fun spu => spu.vm_base.map fun vm => {m with vm}

inductive GuestStore where
  | write8 (addr : BitVec 64) (val : BitVec 8)
  | write16 (addr : BitVec 64) (val : BitVec 16)
  | write32 (addr : BitVec 64) (val : BitVec 32)
  | write64 (addr val : BitVec 64)
  | mfc (spu : SpuCtx) (cmd : BitVec 32)

def GuestStore.run (fuel : Nat) (m : Machine) : GuestStore → Option Machine
  | .write8 addr val => some (vm_write8 m addr val)
  | .write16 addr val => some (vm_write16 m addr val)
  | .write32 addr val => vm_write32 fuel m addr val
  | .write64 addr val => vm_write64 fuel m addr val
  | .mfc spu cmd => mfc_store m spu cmd

def carried (bytes : Fin n → BitVec 8) (base a : BitVec 32) : Option (BitVec 8) :=
  if inside : (a - base).toNat < n then some (bytes ⟨(a - base).toNat,inside⟩) else none

def copied (ls : LocalStore) : DmaCopy → BitVec 32 → Option (BitVec 8)
  | .vmFromLs ea lsa size,a =>
      if inside : lsa.toNat+size.toNat ≤ SPU_LS_SIZE ∧ ea.toNat ≤ a.toNat ∧ a.toNat < ea.toNat+size.toNat then
        some (ls.window lsa.toNat size.toNat inside.1 ⟨a.toNat-ea.toNat,by omega⟩)
      else none
  | _,_ => none

def GuestStore.byte : GuestStore → BitVec 32 → Option (BitVec 8)
  | .write8 addr val,a => carried (byteAt (k:=1) val) (addr.setWidth 32) a
  | .write16 addr val,a => carried (byteAt (k:=2) val) (addr.setWidth 32) a
  | .write32 addr val,a => carried (byteAt (k:=4) val) (addr.setWidth 32) a
  | .write64 addr val,a => carried (byteAt (k:=8) val) (addr.setWidth 32) a
  | .mfc spu cmd,a => (mfc_copies {spu with vm_base := some fun _ => 0} cmd).findSome? (copied spu.ls · a)

section Bytes
variable {vm : GuestMem} {a base val : BitVec 32}

theorem offset_eq (k : Nat) (small : k < 2^32) : a = base + BitVec.ofNat 32 k ↔ (a - base).toNat = k := by
  have value : (BitVec.ofNat 32 k).toNat = k := by
    rw [BitVec.toNat_ofNat]
    omega
  constructor
  · rintro rfl
    rw [BitVec.add_comm,BitVec.add_sub_cancel,value]
  · intro offset
    rw [← value] at offset
    rw [← BitVec.eq_of_toNat_eq offset,BitVec.add_comm,BitVec.sub_add_cancel]

theorem offset_zero : a = base ↔ (a - base).toNat = 0 := by
  have place : a = base + BitVec.ofNat 32 0 ↔ (a - base).toNat = 0 := offset_eq 0 (by decide)
  rwa [show base + BitVec.ofNat 32 0 = base from BitVec.add_zero base] at place

theorem poke_at (vm : GuestMem) (a b : BitVec 32) (v : BitVec 8) : vm.poke a v b = if b = a then v else vm b :=
  Function.update_apply _ _ _ _

theorem word_byte (val : BitVec 32) (j : Fin 4) : byteAt (k:=4) val j = (val >>> (24-8*j.val)).setWidth 8 := by
  apply BitVec.eq_of_getLsbD_eq
  intro i bound
  rw [getLsbD_byteAt]
  match j with
  | 0 | 1 | 2 | 3 => simp [bound]

theorem half_byte (val : BitVec 16) (j : Fin 2) : byteAt (k:=2) val j = (val >>> (8-8*j.val)).setWidth 8 := by
  apply BitVec.eq_of_getLsbD_eq
  intro i bound
  rw [getLsbD_byteAt]
  match j with
  | 0 | 1 => simp [bound]

theorem carried_at {bytes : Fin n → BitVec 8} (j : Fin n) (offset : (a - base).toNat = j) :
    carried bytes base a = some (bytes j) := by
  rw [carried,dif_pos (offset ▸ j.isLt)]
  exact congrArg (fun k => some (bytes k)) (Fin.ext offset)

theorem carried_past {bytes : Fin n → BitVec 8} (past : n ≤ (a - base).toNat) : carried bytes base a = none :=
  dif_neg (Nat.not_lt.mpr past)

theorem put32_at (vm : GuestMem) (base val a : BitVec 32) :
    vm.put32 base val a = (carried (byteAt (k:=4) val) base a).getD (vm a) := by
  have place (k : Nat) (small : k < 2^32) : a = base + BitVec.ofNat 32 k ↔ (a - base).toNat = k := offset_eq k small
  have zero : a = base ↔ (a - base).toNat = 0 := offset_zero
  have stored : vm.put32 base val a = if a = base + BitVec.ofNat 32 3 then val.setWidth 8
      else if a = base + BitVec.ofNat 32 2 then (val >>> 8).setWidth 8
      else if a = base + BitVec.ofNat 32 1 then (val >>> 16).setWidth 8
      else if a = base then (val >>> 24).setWidth 8 else vm a := by
    simp only [GuestMem.put32,poke_at]
    rfl
  rw [stored]
  simp only [place,zero,Nat.reducePow,Nat.reduceLT]
  by_cases inside : (a - base).toNat < 4
  · obtain ⟨j,offset⟩ : ∃ j : Fin 4, (a - base).toNat = j := ⟨⟨_,inside⟩,rfl⟩
    rw [carried_at j offset,word_byte,offset]
    match j with
    | 0 | 1 | 2 | 3 => rfl
  · rw [carried_past (by omega),if_neg (by omega),if_neg (by omega),if_neg (by omega),if_neg (by omega)]
    rfl

theorem put16_at (vm : GuestMem) (base : BitVec 32) (val : BitVec 16) (a : BitVec 32) :
    vm.put16 base val a = (carried (byteAt (k:=2) val) base a).getD (vm a) := by
  have one : a = base + BitVec.ofNat 32 1 ↔ (a - base).toNat = 1 := offset_eq 1 (by decide)
  have zero : a = base ↔ (a - base).toNat = 0 := offset_zero
  have stored : vm.put16 base val a = if a = base + BitVec.ofNat 32 1 then val.setWidth 8
      else if a = base then (val >>> 8).setWidth 8 else vm a := by
    simp only [GuestMem.put16,poke_at]
    rfl
  rw [stored]
  simp only [one,zero]
  by_cases inside : (a - base).toNat < 2
  · obtain ⟨j,offset⟩ : ∃ j : Fin 2, (a - base).toNat = j := ⟨⟨_,inside⟩,rfl⟩
    rw [carried_at j offset,half_byte,offset]
    match j with
    | 0 | 1 => rfl
  · rw [carried_past (by omega),if_neg (by omega),if_neg (by omega)]
    rfl

theorem poke_carried (vm : GuestMem) (base : BitVec 32) (val : BitVec 8) (a : BitVec 32) :
    vm.poke base val a = (carried (byteAt (k:=1) val) base a).getD (vm a) := by
  have whole : byteAt (k:=1) val 0 = val := by
    apply BitVec.eq_of_getLsbD_eq
    intro i bound
    rw [getLsbD_byteAt]
    simp [bound]
  rw [poke_at]
  by_cases here : a = base
  · rw [if_pos here,carried_at 0 (offset_zero.mp here),whole]
    rfl
  · have past : 1 ≤ (a - base).toNat := Nat.one_le_iff_ne_zero.mpr fun zero => here (offset_zero.mpr zero)
    rw [if_neg here,carried_past past]
    rfl

theorem be32_put32 (vm : GuestMem) (a val : BitVec 32) : (vm.put32 a val).be32 a = val := by
  apply bytes_ext (k:=4)
  intro j
  rw [byteAt_be32,put32_at,carried_at j ((offset_eq j (by omega)).mp rfl)]
  rfl

theorem be32_congr {one two : GuestMem} {a : BitVec 32}
    (same : ∀ j : Fin 4, one (a + BitVec.ofNat 32 j) = two (a + BitVec.ofNat 32 j)) : one.be32 a = two.be32 a := by
  apply bytes_ext (k:=4)
  intro j
  rw [byteAt_be32,byteAt_be32,same]

theorem double_high (val : BitVec 64) (j : Fin 4) :
    byteAt (k:=8) val ⟨j.val,by omega⟩ = byteAt (k:=4) ((val >>> 32).setWidth 32) j := by
  apply BitVec.eq_of_getLsbD_eq
  intro i bound
  have place : 8*(8-1-j.val)+i = 32+(8*(4-1-j.val)+i) := by omega
  have inside : 8*(4-1-j.val)+i < 32 := by omega
  rw [getLsbD_byteAt,getLsbD_byteAt,BitVec.getLsbD_setWidth,BitVec.getLsbD_ushiftRight,place,decide_eq_true inside]
  rfl

theorem double_low (val : BitVec 64) (j : Fin 4) :
    byteAt (k:=8) val ⟨4+j.val,by omega⟩ = byteAt (k:=4) (val.setWidth 32) j := by
  apply BitVec.eq_of_getLsbD_eq
  intro i bound
  have place : 8*(8-1-(4+j.val))+i = 8*(4-1-j.val)+i := by omega
  have inside : 8*(4-1-j.val)+i < 32 := by omega
  rw [getLsbD_byteAt,getLsbD_byteAt,BitVec.getLsbD_setWidth,place,decide_eq_true inside]
  rfl

theorem carried_pair (base a : BitVec 32) (val : BitVec 64) :
    carried (byteAt (k:=8) val) base a = (carried (byteAt (k:=4) (val.setWidth 32)) (base+4) a).or
      (carried (byteAt (k:=4) ((val >>> 32).setWidth 32)) base a) := by
  have apart : (a - (base+4)).toNat = (2^32 - 4 + (a - base).toNat) % 2^32 := by
    rw [BitVec.toNat_sub,BitVec.toNat_sub,BitVec.toNat_add]
    show (2^32 - (base.toNat + 4) % 2^32 + a.toNat) % 2^32 = _
    omega
  have bound := (a - base).isLt
  by_cases first : (a - base).toNat < 4
  · have past : 4 ≤ (a - (base+4)).toNat := by omega
    rw [carried_past past,Option.none_or,carried_at ⟨(a - base).toNat,first⟩ rfl,
      carried_at (n:=8) ⟨(a - base).toNat,by omega⟩ rfl,← double_high val ⟨(a - base).toNat,first⟩]
  · by_cases second : (a - base).toNat < 8
    · have inside : (a - (base+4)).toNat = (a - base).toNat - 4 := by omega
      have place : (a - base).toNat = 4 + ((a - base).toNat - 4) := by omega
      rw [carried_at ⟨(a - base).toNat-4,by omega⟩ inside,Option.some_or,
        carried_at (n:=8) ⟨4 + ((a - base).toNat - 4),by omega⟩ place,double_low val ⟨(a - base).toNat-4,by omega⟩]
    · rw [carried_past (by omega),carried_past (by omega),carried_past (by omega)]
      rfl
end Bytes

end BudokaiRuntime.Guest
