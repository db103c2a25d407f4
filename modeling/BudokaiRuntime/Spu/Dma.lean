import BudokaiRuntime.Spu.Context

namespace BudokaiRuntime.Spu
open Guest

@[match_pattern] abbrev MFC_PUT : Nat := 0x20
@[match_pattern] abbrev MFC_PUTB : Nat := 0x22
@[match_pattern] abbrev MFC_PUTF : Nat := 0x24
@[match_pattern] abbrev MFC_GET : Nat := 0x40
@[match_pattern] abbrev MFC_GETB : Nat := 0x42
@[match_pattern] abbrev MFC_GETF : Nat := 0x44

inductive DmaCopy where
  | lsFromLs (dst src size : BitVec 32)
  | lsFromVm (lsa ea size : BitVec 32)
  | vmFromLs (ea lsa size : BitVec 32)
deriving DecidableEq

def DmaCopy.lsIndices : DmaCopy → List Nat
  | .lsFromLs dst src size => List.range' dst.toNat size.toNat ++ List.range' src.toNat size.toNat
  | .lsFromVm lsa _ size => List.range' lsa.toNat size.toNat
  | .vmFromLs _ lsa size => List.range' lsa.toNat size.toNat

def LocalStore.window (ls : LocalStore) (base size : Nat) (inside : base+size ≤ SPU_LS_SIZE) :
    Fin size → BitVec 8 := fun k => ls ⟨base+k,by omega⟩

def LocalStore.splice (ls : LocalStore) (base : Nat) (bytes : Fin size → BitVec 8) : LocalStore :=
  fun i => if inside : base ≤ i.val ∧ i.val < base+size then bytes ⟨i.val-base,by omega⟩ else ls i

-- C leaves a memcpy past the end of ls[] undefined: `none`.
def DmaCopy.run (ctx : SpuCtx) : DmaCopy → Option SpuCtx
  | .lsFromLs dst src size =>
      if inside : dst.toNat+size.toNat ≤ SPU_LS_SIZE ∧ src.toNat+size.toNat ≤ SPU_LS_SIZE then
        some {ctx with ls := ctx.ls.splice dst.toNat (ctx.ls.window src.toNat size.toNat inside.2)}
      else none
  | .lsFromVm lsa ea size =>
      if lsa.toNat+size.toNat ≤ SPU_LS_SIZE then
        ctx.vm_base.map fun vm => {ctx with ls := ctx.ls.splice lsa.toNat (vm.window ea size.toNat)}
      else none
  | .vmFromLs ea lsa size =>
      if inside : lsa.toNat+size.toNat ≤ SPU_LS_SIZE then
        ctx.vm_base.map fun vm =>
          {ctx with vm_base := some (vm.splice ea (ctx.ls.window lsa.toNat size.toNat inside))}
      else none

def mfc_ea (ctx : SpuCtx) : BitVec 64 := ctx.mfc_eah.setWidth 64 <<< 32 ||| ctx.mfc_eal.setWidth 64
def mfc_ea32 (ctx : SpuCtx) : BitVec 32 := (mfc_ea ctx).setWidth 32
def mfc_lsa (ctx : SpuCtx) : BitVec 32 := ctx.mfc_lsa &&& BitVec.ofNat 32 (SPU_LS_SIZE-1)
def mfc_sz (ctx : SpuCtx) : BitVec 32 := if ctx.mfc_size > 16384 then 16384 else ctx.mfc_size

-- The EDGE window: PPU addresses from 0xFE000000 name the local store itself.
def lsWindow (ea sz : BitVec 32) : Bool := ea ≥ 0xFE000000 && ea+sz ≤ 0xFF000000
def mainRam (ea sz : BitVec 32) : Bool := ea ≥ 0x10000 && ea+sz < 0x40000000
def rsxIo (ea sz : BitVec 32) : Bool := ea ≥ 0xD0100000 && ea+sz ≤ 0xD0200000

def mfc_get (ctx : SpuCtx) : List DmaCopy :=
  let ea := mfc_ea32 ctx
  let lsa := mfc_lsa ctx
  let sz := mfc_sz ctx
  if lsWindow ea sz then
    let ls_src := ea - 0xFE000000
    if ls_src+sz ≤ BitVec.ofNat 32 SPU_LS_SIZE then [.lsFromLs lsa ls_src sz] else []
  else if mainRam ea sz then [.lsFromVm lsa ea sz]
  else []

def mfc_put (ctx : SpuCtx) : List DmaCopy :=
  let ea := mfc_ea32 ctx
  let lsa := mfc_lsa ctx
  let sz := mfc_sz ctx
  if lsWindow ea sz then
    let ls_dst := ea - 0xFE000000
    if ls_dst+sz ≤ BitVec.ofNat 32 SPU_LS_SIZE then [.lsFromLs ls_dst lsa sz] else []
  else
    (if mainRam ea sz then [.vmFromLs ea lsa sz] else []) ++
    (if rsxIo ea sz then [.vmFromLs ea lsa sz] else [])

def mfc_copies (ctx : SpuCtx) (cmd : BitVec 32) : List DmaCopy :=
  if ctx.vm_base.isNone then [] else
  match (cmd &&& 0xFF).toNat with
  | MFC_GET | MFC_GETB | MFC_GETF => mfc_get ctx
  | MFC_PUT | MFC_PUTB | MFC_PUTF => mfc_put ctx
  | _ => []

def mfc_execute (ctx : SpuCtx) (cmd : BitVec 32) : Option SpuCtx :=
  (mfc_copies ctx cmd).foldlM DmaCopy.run ctx

end BudokaiRuntime.Spu
