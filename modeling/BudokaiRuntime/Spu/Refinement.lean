import BudokaiRuntime.Spu.Addressing
import BudokaiRuntime.Spu.ElementLoops
import BudokaiRuntime.Spu.QuadLanes
import BudokaiRuntime.Spu.Step

-- The interpreter's instruction bodies against the architecture, format by format.
namespace BudokaiRuntime.Spu

def arch (ctx : SpuCtx) : Isa.Arch := ⟨ctx.gpr,ctx.pc,ctx.ls⟩

theorem advance_pc (ctx : SpuCtx) : (advance ctx).pc = (arch ctx).next.pc := masked_add ctx.pc 4
theorem arch_advance (ctx : SpuCtx) : arch (advance ctx) = (arch ctx).next := by
  rw [arch,advance_pc]
  rfl

section Bodies
variable (ctx : SpuCtx) (rt : Fin 128)

theorem arch_put (r : SpuReg) : arch ((advance ctx).put rt r) = (arch ctx).result rt r := by
  rw [Isa.Arch.result,← arch_advance]
  rfl

theorem arch_scalar (v : BitVec 32) : arch ((advance ctx).scalar rt v) = (arch ctx).result rt (Isa.preferred v) := by
  rw [SpuCtx.scalar,scalar_preferred,arch_put]

theorem arch_words (isolated : WordLocal v) :
    arch ((advance ctx).words rt v) = (arch ctx).result rt (.ofWords (v ctx.gpr)) := by
  rw [← arch_put,SpuCtx.words,loopW_eq isolated]
  rfl

theorem arch_halves (isolated : HalfLocal v) :
    arch ((advance ctx).halves rt v) = (arch ctx).result rt (.ofHalves (v ctx.gpr)) := by
  rw [← arch_put,SpuCtx.halves,loopH_eq isolated]
  rfl

theorem arch_bytes (isolated : ByteLocal v) :
    arch ((advance ctx).bytes rt v) = (arch ctx).result rt ⟨v ctx.gpr⟩ := by
  rw [← arch_put,SpuCtx.bytes,loopB_eq isolated]
  rfl

theorem arch_store (ea : BitVec 32) :
    arch {advance ctx with ls := ls_write128 ctx.ls (ea &&& LS_MASK &&& ~~~15#32) (ctx.gpr rt)} =
      (arch ctx).stores ea rt := by
  rw [Isa.Arch.stores,← arch_advance,ls_write128_masked]
  rfl

theorem arch_load (ea : BitVec 32) :
    arch ((advance ctx).put rt (ls_read128 ctx.ls (ea &&& LS_MASK &&& ~~~15#32))) =
      (arch ctx).result rt (Isa.load ctx.ls ea) := by
  rw [ls_read128_masked,arch_put]

theorem arch_branch (target : BitVec 32) (c : Prop) [Decidable c] (taken : Bool) (same : c ↔ taken = true) :
    arch (if c then {advance ctx with pc := target} else advance ctx) =
      if taken then (arch ctx).jump target else (arch ctx).next := by
  by_cases holds : c
  · rw [if_pos holds,if_pos (same.mp holds)]
    rfl
  · rw [if_neg holds,if_neg (mt same.mpr holds),arch_advance]

-- The link and the target are both computed before either is written.
theorem arch_link (target : BitVec 32) :
    arch {(advance ctx).scalar rt (advance ctx).pc with pc := target} =
      ((arch ctx).result rt (Isa.preferred (arch ctx).next.pc)).jump target := by
  rw [← advance_pc,← arch_scalar]
  rfl
end Bodies

-- The zero tests on the preferred word and on its right halfword.
theorem word_test (v : BitVec 32) : v = 0 ↔ (v == 0) = true := beq_iff_eq.symm
theorem word_test_ne (v : BitVec 32) : v ≠ 0 ↔ (v != 0) = true := bne_iff_ne.symm
theorem half_test (v : BitVec 32) : v &&& 0xFFFF = 0 ↔ (Isa.right v == 0) = true := by
  rw [word_right,beq_iff_eq]
  constructor
  · intro zero
    have low := congrArg (BitVec.setWidth 16) zero
    simpa using low
  · intro zero
    rw [zero]
    rfl

theorem half_test_ne (v : BitVec 32) : v &&& 0xFFFF ≠ 0 ↔ (Isa.right v != 0) = true := by
  rw [Ne,half_test,bne_iff_ne,beq_iff_eq]

theorem exec_ri18_isa (isa : Isa.ri18 op insn (arch ctx) = some after) :
    arch (exec_ri18 op insn (advance ctx)) = after := by
  cases op with
  | ila =>
      cases isa
      rw [exec_ri18,arch_words _ _ fun _ _ _ _ => rfl,F_RT_eq,F_I18_eq]
  | hbra | hbrr =>
      cases isa
      exact arch_advance ctx

theorem exec_ri16_isa (isa : Isa.ri16 op insn (arch ctx) = some after) :
    arch (exec_ri16 op insn (ctx.pc &&& LS_MASK) (advance ctx)) = after := by
  have signed : sign_ext16 (F_I16U insn) = (Isa.I16 insn).signExtend 32 := F_I16_eq insn
  have relative : ((ctx.pc &&& LS_MASK) + F_I16 insn <<< 2) &&& LS_MASK =
      (ctx.pc + (Isa.I16 insn ++ 0#2).signExtend 32) &&& LS_MASK := by
    rw [masked_add,F_I16_eq,scaled_imm _ 2 (by decide) (by decide)]
  have absolute : F_I16U insn <<< 2 &&& LS_MASK = (Isa.I16 insn ++ 0#2).signExtend 32 &&& LS_MASK := by
    rw [F_I16U_eq,absolute_imm]
  cases op with
  | brz =>
      cases isa
      simp only [exec_ri16,relative,F_RT_eq,GW,get_w_word]
      exact arch_branch ctx _ _ _ (word_test _)
  | brnz =>
      cases isa
      simp only [exec_ri16,relative,F_RT_eq,GW,get_w_word]
      exact arch_branch ctx _ _ _ (word_test_ne _)
  | brhz =>
      cases isa
      simp only [exec_ri16,relative,F_RT_eq,GW,get_w_word]
      exact arch_branch ctx _ _ _ (half_test _)
  | brhnz =>
      cases isa
      simp only [exec_ri16,relative,F_RT_eq,GW,get_w_word]
      exact arch_branch ctx _ _ _ (half_test_ne _)
  | stqa | stqr =>
      cases isa
      simp only [exec_ri16,relative,absolute,F_RT_eq]
      exact arch_store ctx _ _
  | lqa | lqr =>
      cases isa
      simp only [exec_ri16,relative,absolute,F_RT_eq]
      exact arch_load ctx _ _
  | bra | br =>
      cases isa
      simp only [exec_ri16,relative,absolute]
      rfl
  | brasl | brsl =>
      cases isa
      simp only [exec_ri16,relative,absolute,F_RT_eq]
      exact arch_link ctx _ _
  | fsmbi =>
      cases isa
      simp only [exec_ri16]
      rw [arch_bytes _ _ fun _ _ _ _ => rfl]
      simp only [bit_test,mask_b_eq,F_RT_eq,F_I16U_eq,select_imm]
  | il =>
      cases isa
      simp only [exec_ri16,signed]
      rw [arch_words _ _ fun _ _ _ _ => rfl,F_RT_eq]
  | ilhu =>
      cases isa
      simp only [exec_ri16]
      rw [arch_words _ _ fun _ _ _ _ => rfl,F_RT_eq,F_I16U_eq,ilhu_eq]
  | ilh =>
      cases isa
      simp only [exec_ri16]
      rw [arch_halves _ _ fun _ _ _ _ => rfl,F_RT_eq,F_I16U_eq,BitVec.setWidth_setWidth_of_le _ (by decide),
        BitVec.setWidth_eq]
  | iohl =>
      cases isa
      simp only [exec_ri16]
      rw [arch_words _ _ fun R S i same => by simp only [GW,get_w_word,same]]
      simp only [F_RT_eq,F_I16U_eq,GW,get_w_word]
      rfl

theorem exec_ri10_isa (isa : Isa.ri10 op insn (arch ctx) = some after) :
    arch (exec_ri10 op insn (advance ctx)) = after := by
  cases op with
  | ai | sfi | andi | ori | xori | ceqi | cgti | clgti =>
      cases isa
      simp only [exec_ri10]
      rw [arch_words _ _ fun R S i same => by simp only [GW,get_w_word,same]]
      simp only [F_RT_eq,F_RA_eq,F_I10_eq,GW,get_w_word,mask_w_eq,slt_decide,ult_decide,beq_decide]
      rfl
  | ahi | sfhi | andhi | orhi | xorhi | ceqhi | cgthi | clgthi =>
      cases isa
      simp only [exec_ri10]
      rw [arch_halves _ _ fun R S i same => by simp only [GH,get_h_half,same]]
      simp only [F_RT_eq,F_RA_eq,F_I10_eq,GH,get_h_half,mask_h_eq,slt_decide,ult_decide,beq_decide,
        imm16]
      rfl
  | andbi | orbi | xorbi | ceqbi | cgtbi | clgtbi =>
      cases isa
      simp only [exec_ri10]
      rw [arch_bytes _ _ fun R S i same => by simp only [same]]
      simp only [F_RT_eq,F_RA_eq,F_I10_eq,mask_b_eq,slt_decide,ult_decide,beq_decide,imm8]
      rfl
  | mpyi =>
      cases isa
      simp only [exec_ri10]
      rw [arch_words _ _ fun R S i same => by simp only [GW,get_w_word,same]]
      simp only [F_RT_eq,F_RA_eq,F_I10_eq,GW,get_w_word,s16_right,mpyi_eq]
      rfl
  | mpyui =>
      cases isa
      have unsigned : sign_ext10 (F_I10U insn) = (Isa.I10 insn).signExtend 32 := F_I10_eq insn
      simp only [exec_ri10,unsigned]
      rw [arch_words _ _ fun R S i same => by simp only [GW,get_w_word,same]]
      simp only [F_RT_eq,F_RA_eq,GW,get_w_word,word_right (SpuReg.word _ _),mpyui_eq]
      rfl
  | lqd =>
      cases isa
      simp only [exec_ri10,F_RT_eq,F_RA_eq,F_I10_eq,GW,get_w_word]
      rw [scaled_imm _ 4 (by decide) (by decide)]
      exact arch_load ctx _ _
  | stqd =>
      cases isa
      simp only [exec_ri10,F_RT_eq,F_RA_eq,F_I10_eq,GW,get_w_word]
      rw [scaled_imm _ 4 (by decide) (by decide)]
      exact arch_store ctx _ _
  | hgti | hlgti | heqi => cases isa

theorem exec_rrr_isa (fpu : HostFpu) (isa : Isa.rrr op insn (arch ctx) = some after) :
    arch (exec_rrr fpu op insn (advance ctx)) = after := by
  have third : F_RT insn = Isa.RC insn := F_RT_eq insn
  cases op with
  | selb =>
      cases isa
      simp only [exec_rrr,third,F_RA_eq,F_RB_eq,F_RC_eq,selb_ofQuad]
      exact arch_put ctx _ _
  | shufb =>
      cases isa
      simp only [exec_rrr,third,F_RA_eq,F_RB_eq,F_RC_eq,do_shufb_eq]
      exact arch_put ctx _ _
  | mpya =>
      cases isa
      simp only [exec_rrr,third,F_RA_eq,F_RB_eq,F_RC_eq,GW,get_w_word,s16_right,product_eq,freshW_eq]
      exact arch_put ctx _ _
  | fnms | fma | fms => cases isa

theorem exec_rr_isa (fpu : HostFpu) (event : Bool) (none_pending : event = false) (srr0 : BitVec 32)
    (returns : op ≠ .iret) (isa : Isa.rr op insn event srr0 (arch ctx) = some after) :
    arch (exec_rr fpu op insn (advance ctx)) = after := by
  have c7 : F_I7 insn &&& 7 = (Isa.I7 insn).signExtend 32 &&& 7 := by
    rw [F_I7_eq]; exact imm_count _ 3 (by decide)
  have c15 : F_I7 insn &&& 15 = (Isa.I7 insn).signExtend 32 &&& 15 := by
    rw [F_I7_eq]; exact imm_count _ 4 (by decide)
  have c31 : F_I7 insn &&& 31 = (Isa.I7 insn).signExtend 32 &&& 31 := by
    rw [F_I7_eq]; exact imm_count _ 5 (by decide)
  have c63 : F_I7 insn &&& 63 = (Isa.I7 insn).signExtend 32 &&& 63 := by
    rw [F_I7_eq]; exact imm_count _ 6 (by decide)
  have n7 : (0 - F_I7 insn) &&& 7 = (0 - (Isa.I7 insn).signExtend 32) &&& 7 := by
    rw [F_I7_eq]; exact imm_negated _ 3 (by decide)
  have n31 : (0 - F_I7 insn) &&& 31 = (0 - (Isa.I7 insn).signExtend 32) &&& 31 := by
    rw [F_I7_eq]; exact imm_negated _ 5 (by decide)
  have n63 : (0 - F_I7 insn) &&& 63 = (0 - (Isa.I7 insn).signExtend 32) &&& 63 := by
    rw [F_I7_eq]; exact imm_negated _ 6 (by decide)
  cases op with
  | a | sf | cg | bg | addx | sfx | cgx | bgx | clz | ceq | cgt | clgt | rot | rotm | rotma | shl
  | roti | rotmi | rotmai | shli =>
      cases isa
      simp only [exec_rr]
      rw [arch_words _ _ fun R S i same => by simp only [GW,get_w_word,same]]
      simp only [F_RT_eq,F_RA_eq,F_RB_eq,GW,get_w_word,cg_eq,cgx_eq,bgx_eq,bg_eq,clz_w_eq,mask_w_eq,
        slt_decide,ult_decide,beq_decide,c31,c63,n63,rot_eq,rotm_eq,rotma_eq,shl_eq]
      rfl
  | mpy | mpyh | mpys | mpyhh | mpyhha | xshw =>
      cases isa
      simp only [exec_rr]
      rw [arch_words _ _ fun R S i same => by simp only [GW,get_w_word,same]]
      simp only [F_RT_eq,F_RA_eq,F_RB_eq,GW,get_w_word,s16_right,s16_left,product_eq,mpys_eq]
      rfl
  | mpyu | mpyhhu | mpyhhau =>
      cases isa
      simp only [exec_rr]
      rw [arch_words _ _ fun R S i same => by simp only [GW,get_w_word,same]]
      simp only [F_RT_eq,F_RA_eq,F_RB_eq,GW,get_w_word,word_right,word_left,productU_eq]
      rfl
  | ah | sfh | ceqh | cgth | clgth | roth | rothm | rotmah | shlh | rothi | rothmi | rotmahi | shlhi
  | xsbh =>
      cases isa
      simp only [exec_rr]
      rw [arch_halves _ _ fun R S i same => by simp only [GH,get_h_half,same]]
      simp only [F_RT_eq,F_RA_eq,F_RB_eq,GH,get_h_half,mask_h_eq,slt_decide,ult_decide,beq_decide,
        c15,c31,n31,roth_eq,rothm_eq,rotmah_eq,shlh_eq,rot_half,rotm_half,rotma_half,shl_half,low_byte]
      rfl
  | ceqb | cgtb | clgtb | absdb | avgb | cntb =>
      cases isa
      simp only [exec_rr,SpuReg.int]
      rw [arch_bytes _ _ fun R S i same => by simp only [same]]
      simp only [F_RT_eq,F_RA_eq,F_RB_eq,mask_b_eq,slt_decide,ult_decide,beq_decide,absdb_eq,avgb_eq,
        cntb_eq]
      rfl
  | and | or | xor | nand | nor | andc | orc | eqv =>
      cases isa
      simp only [exec_rr]
      rw [arch_bytes _ _ fun R S i same => by simp only [same]]
      simp only [F_RT_eq,F_RA_eq,F_RB_eq,and_ofQuad,or_ofQuad,xor_ofQuad,nand_ofQuad,nor_ofQuad,
        andc_ofQuad,orc_ofQuad,eqv_ofQuad]
      rfl
  | fsm =>
      cases isa
      simp only [exec_rr]
      rw [arch_words _ _ fun _ _ _ _ => rfl]
      simp only [F_RT_eq,F_RA_eq,GW,get_w_word,bit_test,mask_w_eq]
      have place : ∀ (v : BitVec 32) (i : Fin 4), v.getLsbD (3-i.val) = v.getMsbD (28+i.val) :=
        fun v i => select_bit v 4 i (by decide) i.isLt
      simp only [place]
      rfl
  | fsmh =>
      cases isa
      simp only [exec_rr]
      rw [arch_halves _ _ fun _ _ _ _ => rfl]
      simp only [F_RT_eq,F_RA_eq,GW,get_w_word,bit_test,mask_h_eq]
      have place : ∀ (v : BitVec 32) (i : Fin 8), v.getLsbD (7-i.val) = v.getMsbD (24+i.val) :=
        fun v i => select_bit v 8 i (by decide) i.isLt
      simp only [place]
      rfl
  | fsmb =>
      cases isa
      simp only [exec_rr]
      rw [arch_bytes _ _ fun _ _ _ _ => rfl]
      simp only [F_RT_eq,F_RA_eq,GW,get_w_word,bit_test,mask_b_eq]
      have place : ∀ (v : BitVec 32) (i : Fin 16), v.getLsbD (15-i.val) = v.getMsbD (16+i.val) :=
        fun v i => select_bit v 16 i (by decide) i.isLt
      simp only [place]
      rfl
  | sumb =>
      cases isa
      simp only [exec_rr,sumb_eq,F_RT_eq,F_RA_eq,F_RB_eq]
      exact arch_put ctx _ _
  | xswd =>
      cases isa
      simp only [exec_rr,xswd_eq,F_RT_eq,F_RA_eq]
      exact arch_put ctx _ _
  | orx =>
      cases isa
      simp only [exec_rr,F_RT_eq,F_RA_eq,GW,get_w_word]
      exact arch_scalar ctx _ _
  | gb =>
      cases isa
      have bits := gather_eq 4 (by decide) (fun i => GW (ctx.gpr (F_RA insn)) i &&& 1)
        (fun i => ((ctx.gpr (F_RA insn)).word i).getLsbD 0) fun i => by rw [GW,get_w_word,lowest_w]
      refine (arch_scalar ctx _ _).trans ?_
      rw [F_RT_eq,← F_RA_eq]
      exact congrArg (fun v => (arch ctx).result (Isa.RT insn) (Isa.preferred v)) bits
  | gbh =>
      cases isa
      have bits := gather_eq 8 (by decide) (fun i => (GH (ctx.gpr (F_RA insn)) i &&& 1).setWidth 32)
        (fun i => ((ctx.gpr (F_RA insn)).half i).getLsbD 0) fun i => by rw [GH,get_h_half,lowest_h]
      refine (arch_scalar ctx _ _).trans ?_
      rw [F_RT_eq,← F_RA_eq]
      exact congrArg (fun v => (arch ctx).result (Isa.RT insn) (Isa.preferred v)) bits
  | gbb =>
      cases isa
      have bits := gather_eq 16 (by decide) (fun i => ((ctx.gpr (F_RA insn)).u8 i &&& 1).setWidth 32)
        (fun i => ((ctx.gpr (F_RA insn)).u8 i).getLsbD 0) fun i => by rw [lowest_b]
      refine (arch_scalar ctx _ _).trans ?_
      rw [F_RT_eq,← F_RA_eq]
      exact congrArg (fun v => (arch ctx).result (Isa.RT insn) (Isa.preferred v)) bits
  | rotqbi | rotqmbi | shlqbi | rotqby | rotqmby | shlqby | rotqbii | rotqmbii | shlqbii
  | rotqbyi | rotqmbyi | shlqbyi | rotqbybi | rotqmbybi | shlqbybi =>
      cases isa
      simp only [exec_rr,F_RT_eq,F_RA_eq,F_RB_eq,GW,get_w_word,c7,c15,c31,n7,n31,rotqbi_eq,rotqmbi_eq,
        shlqbi_eq,rotqby_eq,rotqmby_eq,shlqby_eq,bytes_of_bits,negated_bytes_of_bits]
      exact arch_put ctx _ _
  | lqx =>
      cases isa
      simp only [exec_rr,F_RT_eq,F_RA_eq,F_RB_eq,GW,get_w_word]
      exact arch_load ctx _ _
  | stqx =>
      cases isa
      simp only [exec_rr,F_RT_eq,F_RA_eq,F_RB_eq,GW,get_w_word]
      exact arch_store ctx _ _
  | bi =>
      cases isa
      simp only [exec_rr,F_RA_eq,GW,get_w_word]
      rfl
  | bisl =>
      cases isa
      simp only [exec_rr,F_RT_eq,F_RA_eq,GW,get_w_word]
      exact arch_link ctx _ _
  | bisled =>
      subst none_pending
      cases isa
      simp only [exec_rr,F_RT_eq]
      rw [advance_pc]
      exact arch_scalar ctx _ _
  | biz =>
      cases isa
      simp only [exec_rr,F_RT_eq,F_RA_eq,GW,get_w_word]
      exact arch_branch ctx _ _ _ (word_test _)
  | binz =>
      cases isa
      simp only [exec_rr,F_RT_eq,F_RA_eq,GW,get_w_word]
      exact arch_branch ctx _ _ _ (word_test_ne _)
  | bihz =>
      cases isa
      simp only [exec_rr,F_RT_eq,F_RA_eq,GW,get_w_word]
      exact arch_branch ctx _ _ _ (half_test _)
  | bihnz =>
      cases isa
      simp only [exec_rr,F_RT_eq,F_RA_eq,GW,get_w_word]
      exact arch_branch ctx _ _ _ (half_test_ne _)
  | hbr =>
      cases isa
      exact arch_advance ctx
  | iret => exact absurd rfl returns
  | _ => cases isa

end BudokaiRuntime.Spu
