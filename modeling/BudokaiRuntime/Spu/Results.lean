import BudokaiRuntime.Spu.StepFrame

-- Instructions by their operands: what any step that executes `op` on registers a, b
-- and t leaves in its destination.
namespace BudokaiRuntime.Spu
open ByteLanes

-- The next instruction is `op`; a and b are its RA and RB, t the register in the low field.
structure Operands (ctx : SpuCtx) (op : SpuOp) (a b t : SpuReg) : Prop where
  decoded : spu_decode (fetch (prepared ctx)) = op
  ra : (prepared ctx).gpr (F_RA (fetch (prepared ctx))) = a
  rb : (prepared ctx).gpr (F_RB (fetch (prepared ctx))) = b
  rt : (prepared ctx).gpr (F_RT (fetch (prepared ctx))) = t

def result (fpu : HostFpu) (ctx : SpuCtx) : Option SpuReg :=
  (spu_step fpu ctx).map fun after => after.gpr (destination (fetch (prepared ctx)))

-- There is such a step, and every such step leaves r.
structure Leaves (fpu : HostFpu) (op : SpuOp) (a b t r : SpuReg) : Prop where
  occurs : ∃ ctx, Operands ctx op a b t
  leaves : ∀ ctx, Operands ctx op a b t → result fpu ctx = some r

section Occurs
variable (w : BitVec 32) (a b t : SpuReg)

def wordImage : SpuCtx := {spu_ctx_init 0 none with
  ls := loadImage [w]
  gpr := fun r => if r = 1 then a else if r = 2 then b else t}

structure Names (w : BitVec 32) (op : SpuOp) : Prop where
  encoded : Isa.Encodes w op
  ra : F_RA w = 1
  rb : F_RB w = 2
  rt : F_RT w = 3

theorem prepared_wordImage : prepared (wordImage w a b t) = wordImage w a b t := by
  have elsewhere : edgeFixupDue (wordImage w a b t) = false := by simp [edgeFixupDue,wordImage,spu_ctx_init]
  simp [prepared,elsewhere]

theorem loadImage_start (k : Fin 4) : loadImage [w] (lsWord (0 &&& LS_MASK) k) = byteAt (k:=4) w k := by
  have place : ∀ k, lsWord (0 &&& LS_MASK) k = ⟨k.val,by rw [ls_size]; omega⟩ := by decide
  rw [place]
  match k with
  | 0 | 1 | 2 | 3 => rfl

theorem fetch_wordImage : fetch (wordImage w a b t) = w := by
  let first : SpuReg := .ofWords fun _ => w
  have bytes : ∀ k, loadImage [w] (lsWord (0 &&& LS_MASK) k) = first.u8 (wordByte 0 k) := by
    intro k
    rw [loadImage_start,← byteAt_word,word_ofWords]
  have read : fetch (wordImage w a b t) = spu_reg_get_w first 0 := by
    have unfolded : fetch (wordImage w a b t) = ls_read32 (loadImage [w]) (0 &&& LS_MASK) := rfl
    rw [unfolded]
    simp only [ls_read32,bytes,spu_reg_get_w]
  rw [read,get_w_word,word_ofWords]

theorem operands_wordImage (names : Names w op) : Operands (wordImage w a b t) op a b t := by
  have same := fetch_wordImage w a b t
  constructor
  all_goals rw [prepared_wordImage,same]
  · exact spu_decode_encoded op names.encoded
  · rw [names.ra]
    rfl
  · rw [names.rb]
    rfl
  · rw [names.rt]
    rfl
end Occurs

instance (w : BitVec 32) (op : SpuOp) : Decidable (Names w op) :=
  decidable_of_iff (Isa.Encodes w op ∧ F_RA w = 1 ∧ F_RB w = 2 ∧ F_RT w = 3)
    ⟨fun ⟨encoded,ra,rb,rt⟩ => ⟨encoded,ra,rb,rt⟩,fun names => ⟨names.encoded,names.ra,names.rb,names.rt⟩⟩

section Laws
variable {fpu : HostFpu} {a b t r : SpuReg}

theorem leaves_rr (op : Rr) (w : BitVec 32) (names : Names w (.rr op)) (returns : op ≠ .iret)
    (isa : ∀ insn s, s.gpr (Isa.RA insn) = a → s.gpr (Isa.RB insn) = b → s.gpr (Isa.RT insn) = t →
      Isa.rr op insn false 0 s = some (s.result (Isa.RT insn) r)) : Leaves fpu (.rr op) a b t r := by
  refine ⟨⟨_,operands_wordImage w a b t names⟩,?_⟩
  intro ctx operands
  have effect := isa (fetch (prepared ctx)) (arch (prepared ctx))
    (F_RA_eq (fetch (prepared ctx)) ▸ operands.ra) (F_RB_eq (fetch (prepared ctx)) ▸ operands.rb)
    (F_RT_eq (fetch (prepared ctx)) ▸ operands.rt)
  have ran : arch (exec_rr fpu op (fetch (prepared ctx)) (advance (prepared ctx))) = _ :=
    exec_rr_isa fpu false rfl 0 returns effect
  have low : destination (fetch (prepared ctx)) = F_RT (fetch (prepared ctx)) := by
    apply destination_low
    all_goals
      rw [operands.decoded]
      nofun
  rw [result,spu_step_prepared,operands.decoded,low,F_RT_eq]
  exact congrArg some ((congrFun (congrArg Isa.Arch.gpr ran) _).trans (Function.update_self _ _ _))

theorem leaves_rrr (op : Rrr) (w : BitVec 32) (names : Names w (.rrr op))
    (isa : ∀ insn s, s.gpr (Isa.RA insn) = a → s.gpr (Isa.RB insn) = b → s.gpr (Isa.RC insn) = t →
      Isa.rrr op insn s = some (s.result (Isa.RT4 insn) r)) : Leaves fpu (.rrr op) a b t r := by
  refine ⟨⟨_,operands_wordImage w a b t names⟩,?_⟩
  intro ctx operands
  have third : F_RT (fetch (prepared ctx)) = Isa.RC (fetch (prepared ctx)) := F_RT_eq _
  have effect := isa (fetch (prepared ctx)) (arch (prepared ctx))
    (F_RA_eq (fetch (prepared ctx)) ▸ operands.ra) (F_RB_eq (fetch (prepared ctx)) ▸ operands.rb)
    (third ▸ operands.rt)
  have ran : arch (exec_rrr fpu op (fetch (prepared ctx)) (advance (prepared ctx))) = _ := exec_rrr_isa fpu effect
  rw [result,spu_step_prepared,operands.decoded,destination_rrr _ operands.decoded,F_RC_eq]
  exact congrArg some ((congrFun (congrArg Isa.Arch.gpr ran) _).trans (Function.update_self _ _ _))
end Laws

end BudokaiRuntime.Spu
