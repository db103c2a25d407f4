import BudokaiRuntime.Spu.Addressing
import BudokaiRuntime.Spu.Conformance

-- The compiler's idiom for storing a scalar smaller than a quadword: load the
-- quadword, generate insertion controls, shuffle the value in, store it back.
namespace BudokaiRuntime.Spu

-- Where each element size keeps its scalar in a register.
def preferredSlot : Nat → Nat
  | 1 => 3
  | 2 => 2
  | _ => 0

-- The local store with bytes [a,a+s) replaced by s bytes of the register from `slot`.
def insertScalar (ls : LocalStore) (a s slot : Nat) (v : SpuReg) : LocalStore := fun i =>
  if a ≤ i.val ∧ i.val < a+s then v.u8 ⟨(slot+(i.val-a))%16,by omega⟩ else ls i

def controlSize : Rr → Option Nat
  | .cbd | .cbx => some 1
  | .chd | .chx => some 2
  | .cwd | .cwx => some 4
  | .cdd | .cdx => some 8
  | _ => none

def indexed : Rr → Bool
  | .cbx | .chx | .cwx | .cdx => true
  | _ => false

def controlPosition (op : Rr) (insn : BitVec 32) (R : Gpr) : BitVec 32 :=
  GW (R (F_RA insn)) 0 + if indexed op then GW (R (F_RB insn)) 0 else sign_ext7 (F_I7 insn)

def dformAddress (insn : BitVec 32) (R : Gpr) : BitVec 32 := GW (R (F_RA insn)) 0 + F_I10 insn <<< 4

def insnAt (ctx : SpuCtx) (k : Nat) : BitVec 32 := ls_read32 ctx.ls ((ctx.pc + BitVec.ofNat 32 (4*k)) &&& LS_MASK)

-- lqd q,a ; c?d or c?x c for a ; shufb q,v,q,c ; stqd q,a at the current pc.
structure StoreIdiom (ctx : SpuCtx) (s a : Nat) (op : Rr) (q c v : Fin 128) : Prop where
  size : controlSize op = some s
  inside : a < SPU_LS_SIZE
  aligned : a % s = 0
  quiet : ∀ k < 4, edgeFixupDue {ctx with pc := ctx.pc + BitVec.ofNat 32 (4*k)} = false
  distinct : q ≠ c ∧ v ≠ q ∧ v ≠ c
  load : spu_decode (insnAt ctx 0) = .ri10 .lqd ∧ F_RT (insnAt ctx 0) = q
  loadAddress : (dformAddress (insnAt ctx 0) ctx.gpr).toNat % SPU_LS_SIZE / 16 = a/16
  controls : spu_decode (insnAt ctx 1) = .rr op ∧ F_RT (insnAt ctx 1) = c
  controlSources : F_RA (insnAt ctx 1) ≠ q ∧ (indexed op = true → F_RB (insnAt ctx 1) ≠ q)
  position : (controlPosition op (insnAt ctx 1) ctx.gpr).toNat % 16 = a % 16
  shuffle : spu_decode (insnAt ctx 2) = .rrr .shufb ∧ F_RC (insnAt ctx 2) = q ∧
    F_RA (insnAt ctx 2) = v ∧ F_RB (insnAt ctx 2) = q ∧ F_RT (insnAt ctx 2) = c
  store : spu_decode (insnAt ctx 3) = .ri10 .stqd ∧ F_RT (insnAt ctx 3) = q
  storeSources : F_RA (insnAt ctx 3) ≠ q ∧ F_RA (insnAt ctx 3) ≠ c
  storeAddress : (dformAddress (insnAt ctx 3) ctx.gpr).toNat % SPU_LS_SIZE / 16 = a/16

section Controls
theorem exec_controls (fpu : HostFpu) (ctx : SpuCtx) (insn : BitVec 32) (size : controlSize op = some s) :
    exec_rr fpu op insn ctx = ctx.put (F_RT insn) (gen_controls (controlPosition op insn ctx.gpr) s) := by
  cases op <;> cases size <;> rfl

theorem control_sizes (size : controlSize op = some s) : s = 1 ∨ s = 2 ∨ s = 4 ∨ s = 8 := by
  cases op <;> cases size <;> decide

theorem control_start (pos : BitVec 32) (sizes : s = 1 ∨ s = 2 ∨ s = 4 ∨ s = 8) :
    (pos &&& (0xF &&& ~~~BitVec.ofNat 32 (s-1))).toNat = pos.toNat % 16 / s * s := by
  rcases sizes with rfl | rfl | rfl | rfl
  · exact and_field_toNat pos 4 0 (by decide)
  · exact and_field_toNat pos 3 1 (by decide)
  · exact and_field_toNat pos 2 2 (by decide)
  · exact and_field_toNat pos 1 3 (by decide)

-- Control bytes 0 to 15 take that byte of RA, 16 to 31 a byte of RB.
theorem shufb_first (a b c : SpuReg) (i k : Fin 16) (control : c.u8 i = BitVec.ofNat 8 k.val) :
    (do_shufb a b c).u8 i = a.u8 k := by
  have plain : ∀ k : Fin 16, ¬ (BitVec.ofNat 8 k.val &&& 0xC0 = 0x80) ∧
      ¬ (BitVec.ofNat 8 k.val &&& 0xE0 = 0xC0) ∧ ¬ (BitVec.ofNat 8 k.val &&& 0xE0 = 0xE0) ∧
      (BitVec.ofNat 8 k.val &&& 0x1F).toNat = k.val := by decide
  obtain ⟨zeros,ones,high,index⟩ := plain k
  simp only [do_shufb,control,zeros,ones,high,index,if_false,k.isLt,dite_true]

theorem shufb_second (a b c : SpuReg) (i k : Fin 16) (control : c.u8 i = 0x10 + BitVec.ofNat 8 k.val) :
    (do_shufb a b c).u8 i = b.u8 k := by
  have plain : ∀ k : Fin 16, ¬ (0x10 + BitVec.ofNat 8 k.val &&& 0xC0 = 0x80) ∧
      ¬ (0x10 + BitVec.ofNat 8 k.val &&& 0xE0 = 0xC0) ∧ ¬ (0x10 + BitVec.ofNat 8 k.val &&& 0xE0 = 0xE0) ∧
      (0x10 + BitVec.ofNat 8 k.val &&& 0x1F).toNat = k.val+16 := by decide
  obtain ⟨zeros,ones,high,index⟩ := plain k
  have beyond : ¬ k.val+16 < 16 := by omega
  simp only [do_shufb,control,zeros,ones,high,index,if_false,beyond,dite_false,Nat.add_sub_cancel]
end Controls

theorem store_shuffled (ls : LocalStore) (v : SpuReg) (addr addr' pos : BitVec 32) (a s : Nat)
    (sizes : s = 1 ∨ s = 2 ∨ s = 4 ∨ s = 8) (aligned : a % s = 0)
    (loaded : addr.toNat % SPU_LS_SIZE / 16 = a/16) (stored : addr'.toNat % SPU_LS_SIZE / 16 = a/16)
    (position : pos.toNat % 16 = a % 16) :
    Isa.store ls addr' (do_shufb v (Isa.load ls addr) (gen_controls pos s)) = insertScalar ls a s 0 v := by
  have start := control_start pos sizes
  have here : pos.toNat % 16 / s * s = a % 16 := by
    rw [position]
    rcases sizes with rfl | rfl | rfl | rfl <;> omega
  rw [here] at start
  funext i
  simp only [Isa.store,insertScalar,stored]
  by_cases quad : i.val/16 = a/16
  · rw [if_pos quad]
    have control : (gen_controls pos s).u8 ⟨i.val%16,by omega⟩ =
        if a % 16 ≤ i.val%16 ∧ i.val%16 < a % 16 + s then BitVec.ofNat 8 (i.val%16 - a%16)
        else 0x10 + BitVec.ofNat 8 (i.val%16) := by simp only [gen_controls,start]
    by_cases window : a % 16 ≤ i.val%16 ∧ i.val%16 < a % 16 + s
    · rw [if_pos window] at control
      have inside : a ≤ i.val ∧ i.val < a+s := by omega
      have offset : i.val%16 - a%16 = (0+(i.val-a))%16 := by omega
      rw [if_pos inside]
      rw [offset] at control
      exact shufb_first _ _ _ _ ⟨(0+(i.val-a))%16,by omega⟩ control
    · rw [if_neg window] at control
      have outside : ¬ (a ≤ i.val ∧ i.val < a+s) := by
        rcases sizes with rfl | rfl | rfl | rfl <;> omega
      rw [if_neg outside]
      rw [shufb_second _ _ _ _ ⟨i.val%16,by omega⟩ control]
      simp only [Isa.load,Isa.quadPlace,loaded]
      congr 1
      apply Fin.ext
      show a/16*16+i.val%16 = i.val
      omega
  · have outside : ¬ (a ≤ i.val ∧ i.val < a+s) := by
      rcases sizes with rfl | rfl | rfl | rfl <;> omega
    rw [if_neg quad,if_neg outside]

structure ReachedAt (ctx later : SpuCtx) (k : Nat) : Prop where
  place : later.pc &&& LS_MASK = (ctx.pc + BitVec.ofNat 32 (4*k)) &&& LS_MASK
  ls : later.ls = ctx.ls
  id : later.id = ctx.id

theorem ReachedAt.start (ctx : SpuCtx) : ReachedAt ctx ctx 0 := ⟨by simp,rfl,rfl⟩

theorem ReachedAt.put (reached : ReachedAt ctx later k) (rt : Fin 128) (r : SpuReg) :
    ReachedAt ctx ((advance later).put rt r) (k+1) := by
  refine ⟨?_,reached.ls,reached.id⟩
  show ((later.pc &&& LS_MASK) + 4) &&& LS_MASK &&& LS_MASK = _
  have next : ctx.pc + BitVec.ofNat 32 (4*k) + 4 = ctx.pc + BitVec.ofNat 32 (4*(k+1)) := by
    rw [BitVec.add_assoc]
    congr 1
    apply BitVec.eq_of_toNat_eq
    have four : (4 : BitVec 32).toNat = 4 := rfl
    simp only [BitVec.toNat_add,BitVec.toNat_ofNat,four]
    omega
  rw [and_ls_mask_idem,reached.place,masked_add,next]

theorem ReachedAt.step (fpu : HostFpu) (reached : ReachedAt ctx later k)
    (quiet : edgeFixupDue {ctx with pc := ctx.pc + BitVec.ofNat 32 (4*k)} = false)
    (decoded : spu_decode (insnAt ctx k) = op) :
    spu_step fpu later = spu_exec fpu op (insnAt ctx k) (later.pc &&& LS_MASK) (advance later) := by
  have still : edgeFixupDue later = false := by
    rw [← quiet]
    simp only [edgeFixupDue,reached.place,reached.id]
  have fetched : fetch later = insnAt ctx k := by rw [fetch,insnAt,reached.place,reached.ls]
  unfold spu_step
  simp only [still,Bool.false_eq_true,if_false]
  rw [fetched,decoded]

def loadedQuad (ctx : SpuCtx) : SpuReg := Isa.load ctx.ls (dformAddress (insnAt ctx 0) ctx.gpr)
def idiomControls (ctx : SpuCtx) (s : Nat) (op : Rr) : SpuReg :=
  gen_controls (controlPosition op (insnAt ctx 1) ctx.gpr) s

def shuffledQuad (ctx : SpuCtx) (s : Nat) (op : Rr) (v : Fin 128) : SpuReg :=
  do_shufb (ctx.gpr v) (loadedQuad ctx) (idiomControls ctx s op)

def afterLoad (ctx : SpuCtx) (q : Fin 128) : SpuCtx := (advance ctx).put q (loadedQuad ctx)
def afterControls (ctx : SpuCtx) (s : Nat) (op : Rr) (q c : Fin 128) : SpuCtx :=
  (advance (afterLoad ctx q)).put c (idiomControls ctx s op)

def afterShuffle (ctx : SpuCtx) (s : Nat) (op : Rr) (q c v : Fin 128) : SpuCtx :=
  (advance (afterControls ctx s op q c)).put q (shuffledQuad ctx s op v)

section Run
variable (fpu : HostFpu) (idiom : StoreIdiom ctx s a op q c v)
include idiom

theorem load_step : spu_step fpu ctx = some (afterLoad ctx q) := by
  rw [(ReachedAt.start ctx).step fpu (idiom.quiet 0 (by decide)) idiom.load.1]
  simp only [spu_exec,exec_ri10,idiom.load.2,ls_read128_masked]
  rfl

theorem controls_step : spu_step fpu (afterLoad ctx q) = some (afterControls ctx s op q c) := by
  have reached : ReachedAt ctx (afterLoad ctx q) 1 := (ReachedAt.start ctx).put q _
  have base : (afterLoad ctx q).gpr (F_RA (insnAt ctx 1)) = ctx.gpr (F_RA (insnAt ctx 1)) :=
    Function.update_of_ne idiom.controlSources.1 _ _
  have position : controlPosition op (insnAt ctx 1) (afterLoad ctx q).gpr =
      controlPosition op (insnAt ctx 1) ctx.gpr := by
    unfold controlPosition
    rw [base]
    split
    · rename_i form
      have index : (afterLoad ctx q).gpr (F_RB (insnAt ctx 1)) = ctx.gpr (F_RB (insnAt ctx 1)) :=
        Function.update_of_ne (idiom.controlSources.2 form) _ _
      rw [index]
    · rfl
  rw [reached.step fpu (idiom.quiet 1 (by decide)) idiom.controls.1,spu_exec,
    exec_controls fpu _ _ idiom.size,idiom.controls.2,afterControls,idiomControls,← position]
  rfl

theorem shuffle_step :
    spu_step fpu (afterControls ctx s op q c) = some (afterShuffle ctx s op q c v) := by
  obtain ⟨qc,vq,vc⟩ := idiom.distinct
  obtain ⟨decoded,target,value,loaded,control⟩ := idiom.shuffle
  have reached : ReachedAt ctx (afterControls ctx s op q c) 2 := ((ReachedAt.start ctx).put q _).put c _
  rw [reached.step fpu (idiom.quiet 2 (by decide)) decoded]
  simp only [spu_exec,exec_rrr,target,value,loaded,control]
  have values : (advance (afterControls ctx s op q c)).gpr v = ctx.gpr v := by
    show Function.update (Function.update ctx.gpr q _) c _ v = _
    rw [Function.update_of_ne vc,Function.update_of_ne vq]
  have quads : (advance (afterControls ctx s op q c)).gpr q = loadedQuad ctx := by
    show Function.update (Function.update ctx.gpr q _) c _ q = _
    rw [Function.update_of_ne qc,Function.update_self]
  have masks : (advance (afterControls ctx s op q c)).gpr c = idiomControls ctx s op :=
    Function.update_self _ _ _
  rw [values,quads,masks]
  rfl

theorem store_step : ∃ after, spu_step fpu (afterShuffle ctx s op q c v) = some after ∧
    after.ls = insertScalar ctx.ls a s 0 (ctx.gpr v) := by
  have reached : ReachedAt ctx (afterShuffle ctx s op q c v) 3 :=
    (((ReachedAt.start ctx).put q _).put c _).put q _
  have base : (afterShuffle ctx s op q c v).gpr (F_RA (insnAt ctx 3)) = ctx.gpr (F_RA (insnAt ctx 3)) := by
    show Function.update (Function.update (Function.update ctx.gpr q _) c _) q _ _ = _
    rw [Function.update_of_ne idiom.storeSources.1,Function.update_of_ne idiom.storeSources.2,
      Function.update_of_ne idiom.storeSources.1]
  have source : (afterShuffle ctx s op q c v).gpr q = shuffledQuad ctx s op v := Function.update_self _ _ _
  rw [reached.step fpu (idiom.quiet 3 (by decide)) idiom.store.1]
  refine ⟨_,rfl,?_⟩
  simp only [exec_ri10,idiom.store.2,ls_write128_masked]
  show Isa.store (afterShuffle ctx s op q c v).ls (GW ((afterShuffle ctx s op q c v).gpr _) 0 + _)
    ((afterShuffle ctx s op q c v).gpr q) = _
  rw [base,source,reached.ls]
  exact store_shuffled ctx.ls (ctx.gpr v) _ _ _ a s (control_sizes idiom.size) idiom.aligned
    idiom.loadAddress idiom.storeAddress idiom.position

theorem idiom_run :
    ∃ after, spu_steps fpu 4 ctx = some after ∧ after.ls = insertScalar ctx.ls a s 0 (ctx.gpr v) := by
  obtain ⟨after,stored,written⟩ := store_step fpu idiom
  refine ⟨after,?_,written⟩
  simp only [spu_steps,load_step fpu idiom,controls_step fpu idiom,shuffle_step fpu idiom,stored,
    Option.bind_some]
end Run

theorem insertScalar_inj (inside : a+s ≤ SPU_LS_SIZE) :
    insertScalar ls a s p v = insertScalar ls a s p' v ↔
      ∀ k, k < s → v.u8 ⟨(p+k)%16,by omega⟩ = v.u8 ⟨(p'+k)%16,by omega⟩ := by
  constructor
  · intro equal k bound
    have here := congrFun equal ⟨a+k,by omega⟩
    simpa [insertScalar,bound] using here
  · intro bytes
    funext i
    unfold insertScalar
    split
    · exact bytes (i.val-a) (by omega)
    · rfl

-- The idiom stores the scalar of the preferred slot exactly for words and doublewords,
-- and for bytes and halfwords whose leading bytes happen to repeat the scalar.
theorem scalar_store_iff (fpu : HostFpu) (ctx : SpuCtx) (s a : Nat) (op : Rr) (q c v : Fin 128)
    (idiom : StoreIdiom ctx s a op q c v) :
    (∃ after, spu_steps fpu 4 ctx = some after ∧
      after.ls = insertScalar ctx.ls a s (preferredSlot s) (ctx.gpr v)) ↔
    s = 4 ∨ s = 8 ∨ (s = 1 ∧ (ctx.gpr v).u8 0 = (ctx.gpr v).u8 3) ∨
      (s = 2 ∧ (ctx.gpr v).u8 0 = (ctx.gpr v).u8 2 ∧ (ctx.gpr v).u8 1 = (ctx.gpr v).u8 3) := by
  obtain ⟨after,run,written⟩ := idiom_run fpu idiom
  have same : (∃ after, spu_steps fpu 4 ctx = some after ∧
      after.ls = insertScalar ctx.ls a s (preferredSlot s) (ctx.gpr v)) ↔
      insertScalar ctx.ls a s 0 (ctx.gpr v) = insertScalar ctx.ls a s (preferredSlot s) (ctx.gpr v) := by
    rw [run,← written]
    exact ⟨fun ⟨_,found,equal⟩ => Option.some.inj found ▸ equal,fun equal => ⟨after,rfl,equal⟩⟩
  have sizes := control_sizes idiom.size
  have fits : a+s ≤ SPU_LS_SIZE := by
    have inside := idiom.inside
    have aligned := idiom.aligned
    have total := ls_size
    rcases sizes with rfl | rfl | rfl | rfl <;> omega
  rw [same,insertScalar_inj fits]
  rcases sizes with rfl | rfl | rfl | rfl
  · constructor
    · intro bytes
      exact .inr (.inr (.inl ⟨rfl,bytes 0 (by decide)⟩))
    · rintro (bad | bad | ⟨_,byte⟩ | ⟨bad,_⟩)
      · omega
      · omega
      · intro k bound
        obtain rfl : k = 0 := by omega
        exact byte
      · omega
  · constructor
    · intro bytes
      exact .inr (.inr (.inr ⟨rfl,bytes 0 (by decide),bytes 1 (by decide)⟩))
    · rintro (bad | bad | ⟨bad,_⟩ | ⟨_,high,low⟩)
      · omega
      · omega
      · omega
      · intro k bound
        obtain rfl | rfl : k = 0 ∨ k = 1 := by omega
        · exact high
        · exact low
  · exact ⟨fun _ => .inl rfl,fun _ _ _ => rfl⟩
  · exact ⟨fun _ => .inr (.inl rfl),fun _ _ _ => rfl⟩

-- stb of 0xAB at 0x1003: lqd $5,0($3); cbd $6,0($3); shufb $5,$4,$5,$6; stqd $5,0($3).
def storeByte : SpuCtx := {spu_ctx_init 0 none with
  ls := loadImage [0x34000185,0x3E800186,0xB0A14206,0x24000185]
  gpr := fun r => if r = 3 then .ofWords fun _ => 0x1003 else if r = 4 then .ofWords fun _ => 0xAB else .zero}

theorem storeByte_idiom : StoreIdiom storeByte 1 0x1003 .cbd 5 6 4 where
  size := rfl
  inside := by decide
  aligned := by decide
  quiet := by decide
  distinct := by decide
  load := by decide
  loadAddress := by decide
  controls := by decide
  controlSources := by decide
  position := by decide
  shuffle := by decide
  store := by decide
  storeSources := by decide
  storeAddress := by decide

theorem scalar_store_iff_byte :
    (∃ after, spu_steps hostFpu 4 storeByte = some after ∧
      after.ls = insertScalar storeByte.ls 0x1003 1 (preferredSlot 1) (storeByte.gpr 4)) ↔
    1 = 4 ∨ 1 = 8 ∨ (1 = 1 ∧ (storeByte.gpr 4).u8 0 = (storeByte.gpr 4).u8 3) ∨
      (1 = 2 ∧ (storeByte.gpr 4).u8 0 = (storeByte.gpr 4).u8 2 ∧
        (storeByte.gpr 4).u8 1 = (storeByte.gpr 4).u8 3) :=
  scalar_store_iff hostFpu storeByte 1 0x1003 .cbd 5 6 4 storeByte_idiom

-- That store writes byte 0 of the register, which is zero, instead of 0xAB.
theorem byte_store_misses_scalar :
    ¬ ∀ (fpu : HostFpu) (ctx : SpuCtx) (s a : Nat) (op : Rr) (q c v : Fin 128),
      StoreIdiom ctx s a op q c v → ∃ after, spu_steps fpu 4 ctx = some after ∧
        after.ls = insertScalar ctx.ls a s (preferredSlot s) (ctx.gpr v) := by
  intro stores
  obtain ⟨after,run,scalar⟩ := stores hostFpu storeByte 1 0x1003 .cbd 5 6 4 storeByte_idiom
  obtain ⟨actual,found,written⟩ := idiom_run hostFpu storeByte_idiom
  cases Option.some.inj (found.symm.trans run)
  have bytes := (insertScalar_inj (by decide)).mp (written.symm.trans scalar)
  exact absurd (bytes 0 (by decide)) (by decide)

end BudokaiRuntime.Spu
