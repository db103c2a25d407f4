import BudokaiRuntime.Guest.Access
import BudokaiRuntime.Spu.Accessors
import BudokaiRuntime.Spu.Addressing
import BudokaiRuntime.Spu.Step

-- One quadword between guest memory and a register: DMA, local store and accessors
-- against the guest's own big-endian words.
namespace BudokaiRuntime.Spu
open ByteLanes Guest

structure StagesQuad (ctx : SpuCtx) (vm : GuestMem) (ea lsa : BitVec 32) : Prop where
  base : ctx.vm_base = some vm
  eal : ctx.mfc_eal = ea
  place : ctx.mfc_lsa = lsa
  size : ctx.mfc_size = 16
  low : 0x10000 ≤ ea.toNat
  high : ea.toNat+16 < 0x40000000
  aligned : lsa.toNat % 16 = 0

def AddressesQuad (ctx : SpuCtx) (insn lsa : BitVec 32) : Prop :=
  (GW (ctx.gpr (F_RA insn)) 0 + F_I10 insn <<< 4) &&& LS_MASK = lsa &&& LS_MASK

def IsGet (cmd : BitVec 32) : Prop :=
  (cmd &&& 0xFF).toNat = MFC_GET ∨ (cmd &&& 0xFF).toNat = MFC_GETB ∨ (cmd &&& 0xFF).toNat = MFC_GETF

def IsPut (cmd : BitVec 32) : Prop :=
  (cmd &&& 0xFF).toNat = MFC_PUT ∨ (cmd &&& 0xFF).toNat = MFC_PUTB ∨ (cmd &&& 0xFF).toNat = MFC_PUTF

section Transfer
variable {ctx : SpuCtx} {vm : GuestMem} {ea lsa cmd : BitVec 32}

theorem mfc_ea32_low (ctx : SpuCtx) : mfc_ea32 ctx = ctx.mfc_eal := by
  apply BitVec.eq_of_getLsbD_eq
  intro i bound
  unfold mfc_ea32 mfc_ea
  simp [bound]

theorem StagesQuad.ea32 (staged : StagesQuad ctx vm ea lsa) : mfc_ea32 ctx = ea := (mfc_ea32_low ctx).trans staged.eal

theorem StagesQuad.sz (staged : StagesQuad ctx vm ea lsa) : mfc_sz ctx = 16 := by
  rw [mfc_sz,staged.size]
  rfl

theorem StagesQuad.ram (staged : StagesQuad ctx vm ea lsa) :
    lsWindow ea 16 = false ∧ mainRam ea 16 = true ∧ rsxIo ea 16 = false := by
  have low := staged.low
  have high := staged.high
  have sum : (ea + 16).toNat = ea.toNat+16 := by
    rw [BitVec.toNat_add]
    show (ea.toNat + 16) % 2^32 = _
    omega
  refine ⟨?_,?_,?_⟩
  · refine Bool.and_eq_false_iff.mpr (.inl (decide_eq_false fun above => ?_))
    have above : 0xFE000000 ≤ ea.toNat := above
    omega
  · refine Bool.and_eq_true_iff.mpr ⟨decide_eq_true low,decide_eq_true ?_⟩
    show (ea + 16).toNat < 0x40000000
    omega
  · refine Bool.and_eq_false_iff.mpr (.inl (decide_eq_false fun above => ?_))
    have above : 0xD0100000 ≤ ea.toNat := above
    omega

theorem mfc_lsa_toNat (ctx : SpuCtx) : (mfc_lsa ctx).toNat = ctx.mfc_lsa.toNat % SPU_LS_SIZE :=
  and_ls_mask_toNat ctx.mfc_lsa

theorem StagesQuad.inside (staged : StagesQuad ctx vm ea lsa) : (mfc_lsa ctx).toNat+16 ≤ SPU_LS_SIZE := by
  have aligned := staged.aligned
  rw [mfc_lsa_toNat,staged.place]
  have size := ls_size
  rw [size]
  omega

theorem StagesQuad.quad (staged : StagesQuad ctx vm ea lsa) {addr : BitVec 32}
    (same : addr &&& LS_MASK = lsa &&& LS_MASK) (k : Fin 16) :
    (lsQuad (addr &&& LS_MASK &&& ~~~15#32) k).val = (mfc_lsa ctx).toNat + k.val := by
  have aligned := staged.aligned
  have size := ls_size
  rw [same,lsQuad_masked,Isa.quadPlace,mfc_lsa_toNat,staged.place]
  show lsa.toNat % SPU_LS_SIZE / 16 * 16 + k.val = _
  rw [size]
  omega

theorem get_copies (staged : StagesQuad ctx vm ea lsa) (get : IsGet cmd) : mfc_copies ctx cmd = mfc_get ctx := by
  rw [mfc_copies,staged.base]
  rcases get with code | code | code
  all_goals
    rw [code]
    rfl

theorem put_copies (staged : StagesQuad ctx vm ea lsa) (put : IsPut cmd) : mfc_copies ctx cmd = mfc_put ctx := by
  rw [mfc_copies,staged.base]
  rcases put with code | code | code
  all_goals
    rw [code]
    rfl

theorem dma_get (staged : StagesQuad ctx vm ea lsa) (get : IsGet cmd) :
    mfc_execute ctx cmd = some {ctx with ls := ctx.ls.splice (mfc_lsa ctx).toNat (vm.window ea 16)} := by
  obtain ⟨window,ram,_⟩ := staged.ram
  have copies : mfc_get ctx = [.lsFromVm (mfc_lsa ctx) ea 16] := by
    rw [mfc_get,staged.ea32,staged.sz]
    simp only [window,ram,Bool.false_eq_true,if_false,if_true]
  have run : DmaCopy.run ctx (.lsFromVm (mfc_lsa ctx) ea 16) =
      some {ctx with ls := ctx.ls.splice (mfc_lsa ctx).toNat (vm.window ea 16)} := by
    show (if (mfc_lsa ctx).toNat+16 ≤ SPU_LS_SIZE then _ else _ : Option SpuCtx) = _
    rw [if_pos staged.inside,staged.base]
    rfl
  rw [mfc_execute,get_copies staged get,copies,List.foldlM_cons,run]
  rfl

theorem dma_put (staged : StagesQuad ctx vm ea lsa) (put : IsPut cmd) :
    mfc_execute ctx cmd =
      some {ctx with vm_base := some (vm.splice ea (ctx.ls.window (mfc_lsa ctx).toNat 16 staged.inside))} := by
  obtain ⟨window,ram,rsx⟩ := staged.ram
  have copies : mfc_put ctx = [.vmFromLs ea (mfc_lsa ctx) 16] := by
    rw [mfc_put,staged.ea32,staged.sz]
    simp only [window,ram,rsx,Bool.false_eq_true,if_false,if_true,List.append_nil]
  have run : DmaCopy.run ctx (.vmFromLs ea (mfc_lsa ctx) 16) =
      some {ctx with vm_base := some (vm.splice ea (ctx.ls.window (mfc_lsa ctx).toNat 16 staged.inside))} := by
    show (if inside : (mfc_lsa ctx).toNat+16 ≤ SPU_LS_SIZE then _ else _ : Option SpuCtx) = _
    rw [dif_pos staged.inside,staged.base]
    rfl
  rw [mfc_execute,put_copies staged put,copies,List.foldlM_cons,run]
  rfl

theorem main_word (staged : StagesQuad ctx vm ea lsa) (memory : GuestMem) (i j : Fin 4) :
    byteAt (k:=4) (vm_read32 memory (ea.setWidth 64 + BitVec.ofNat 64 (4*i))) j =
      memory (ea + BitVec.ofNat 32 (wordByte i j)) := by
  have high := staged.high
  rw [vm_read32_eq,byteAt_be32]
  congr 1
  apply BitVec.eq_of_toNat_eq
  simp only [BitVec.toNat_add,BitVec.toNat_setWidth,BitVec.toNat_ofNat,wordByte]
  omega

theorem splice_inside (memory : GuestMem) {bytes : Fin size → BitVec 8} (k : Fin size)
    (fits : ea.toNat+size < 2^32) : memory.splice ea bytes (ea + BitVec.ofNat 32 k) = bytes k := by
  have place : (ea + BitVec.ofNat 32 k).toNat = ea.toNat+k := by
    rw [BitVec.toNat_add,BitVec.toNat_ofNat]
    omega
  have offset : (ea + BitVec.ofNat 32 k).toNat - ea.toNat = k := by omega
  rw [GuestMem.splice,dif_pos (by omega)]
  exact congrArg bytes (Fin.ext offset)

theorem splice_outside (memory : GuestMem) {bytes : Fin size → BitVec 8} {a : BitVec 32}
    (outside : a.toNat < ea.toNat ∨ ea.toNat+size ≤ a.toNat) : memory.splice ea bytes a = memory a :=
  dif_neg (by omega)

theorem ls_splice_at {ls : LocalStore} {base : Nat} {bytes : Fin size → BitVec 8} {k : Fin size}
    {i : Fin SPU_LS_SIZE} (place : i.val = base + k) : ls.splice base bytes i = bytes k := by
  have offset : i.val - base = k := by omega
  rw [LocalStore.splice,dif_pos (by omega)]
  exact congrArg bytes (Fin.ext offset)

theorem get_lqd (staged : StagesQuad ctx vm ea lsa) {insn pc : BitVec 32} {mid : SpuCtx}
    (op : spu_decode insn = .ri10 .lqd) (address : AddressesQuad ctx insn lsa) (fpu : HostFpu)
    (got : mid = {ctx with ls := ctx.ls.splice (mfc_lsa ctx).toNat (vm.window ea 16)}) :
    ∃ after, spu_exec fpu (spu_decode insn) insn pc mid = some after ∧
      ∀ i, spu_reg_get_w (after.gpr (F_RT insn)) i = vm_read32 vm (ea.setWidth 64 + BitVec.ofNat 64 (4*i)) := by
  subst got
  refine ⟨_,by rw [op]; rfl,fun i => ?_⟩
  apply bytes_ext (k:=4)
  intro j
  rw [get_w_word,byteAt_word,main_word staged]
  simp only [exec_ri10,SpuCtx.put,Function.update_self,ls_read128]
  exact ls_splice_at (staged.quad address (wordByte i j))

theorem stqd_put (staged : StagesQuad ctx vm ea lsa) {insn pc : BitVec 32} (op : spu_decode insn = .ri10 .stqd)
    (address : AddressesQuad ctx insn lsa) (fpu : HostFpu) (put : IsPut cmd) :
    ∃ mid after memory, spu_exec fpu (spu_decode insn) insn pc ctx = some mid ∧ mfc_execute mid cmd = some after ∧
      after.vm_base = some memory ∧
      (∀ i : Fin 4, vm_read32 memory (ea.setWidth 64 + BitVec.ofNat 64 (4*i)) =
        spu_reg_get_w (ctx.gpr (F_RT insn)) i) ∧
      ∀ a, a.toNat < ea.toNat ∨ ea.toNat+16 ≤ a.toNat → memory a = vm a := by
  have high := staged.high
  let mid := exec_ri10 .stqd insn ctx
  have kept : StagesQuad mid vm ea lsa :=
    ⟨staged.base,staged.eal,staged.place,staged.size,staged.low,staged.high,staged.aligned⟩
  refine ⟨mid,_,_,by rw [op]; rfl,dma_put kept put,rfl,fun i => ?_,fun a outside => splice_outside vm outside⟩
  apply bytes_ext (k:=4)
  intro j
  rw [main_word staged,get_w_word,byteAt_word,splice_inside vm _ (by omega)]
  exact ls_splice_at (congrArg (· + (wordByte i j).val) (staged.quad address 0).symm)
end Transfer

-- GET then lqd gives the words that vm_read32 reads; stqd then PUT makes vm_read32 read the
-- register's words, and no other byte of guest memory changes.
theorem dma_keeps_byte_order (fpu : HostFpu) (ctx : SpuCtx) (vm : GuestMem) (ea lsa : BitVec 32)
    (staged : StagesQuad ctx vm ea lsa) :
    (∀ cmd insn pc, IsGet cmd → spu_decode insn = .ri10 .lqd → AddressesQuad ctx insn lsa →
      ∃ mid after, mfc_execute ctx cmd = some mid ∧ spu_exec fpu (spu_decode insn) insn pc mid = some after ∧
        ∀ i : Fin 4, spu_reg_get_w (after.gpr (F_RT insn)) i =
          vm_read32 vm (ea.setWidth 64 + BitVec.ofNat 64 (4*i))) ∧
    ∀ cmd insn pc, IsPut cmd → spu_decode insn = .ri10 .stqd → AddressesQuad ctx insn lsa →
      ∃ mid after memory, spu_exec fpu (spu_decode insn) insn pc ctx = some mid ∧
        mfc_execute mid cmd = some after ∧ after.vm_base = some memory ∧
        (∀ i : Fin 4, vm_read32 memory (ea.setWidth 64 + BitVec.ofNat 64 (4*i)) =
          spu_reg_get_w (ctx.gpr (F_RT insn)) i) ∧
        ∀ a, a.toNat < ea.toNat ∨ ea.toNat+16 ≤ a.toNat → memory a = vm a := by
  constructor
  · intro cmd insn pc get op address
    obtain ⟨after,ran,words⟩ := get_lqd staged op address fpu rfl
    exact ⟨_,after,dma_get staged get,ran,words⟩
  · intro cmd insn pc put op address
    exact stqd_put staged op address fpu put

-- 16 bytes at 0x20000 and LSA 0x100, which lqd $5,256($0) addresses with $0 zero.
def quadTransfer : SpuCtx :=
  {spu_ctx_init 0 (some fun a => a.setWidth 8) with mfc_eal := 0x20000,mfc_lsa := 0x100,mfc_size := 16}

theorem dma_keeps_byte_order_transfer :
    ∃ mid after, mfc_execute quadTransfer 0x40 = some mid ∧
      spu_exec hostFpu (spu_decode 0x34040005) 0x34040005 0 mid = some after ∧
      ∀ i : Fin 4, spu_reg_get_w (after.gpr 5) i =
        vm_read32 (fun a => a.setWidth 8) ((0x20000 : BitVec 32).setWidth 64 + BitVec.ofNat 64 (4*i)) := by
  have staged : StagesQuad quadTransfer (fun a => a.setWidth 8) 0x20000 0x100 :=
    ⟨rfl,rfl,rfl,rfl,by decide,by decide,by decide⟩
  exact (dma_keeps_byte_order hostFpu quadTransfer _ _ _ staged).1 0x40 0x34040005 0 (.inl rfl) rfl rfl

end BudokaiRuntime.Spu
