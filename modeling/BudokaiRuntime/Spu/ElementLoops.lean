import BudokaiRuntime.Foundations.CountedLoop
import BudokaiRuntime.Spu.Accessors
import BudokaiRuntime.Spu.Execute

namespace BudokaiRuntime.Spu
open CountedLoop

-- Iteration `i` reads lane `i` of any register and nothing else, so it does not
-- matter whether the destination is also a source.
def WordLocal (v : Gpr → Fin 4 → BitVec 32) : Prop :=
  ∀ R S i, (∀ r, (R r).word i = (S r).word i) → v R i = v S i

def HalfLocal (v : Gpr → Fin 8 → BitVec 16) : Prop :=
  ∀ R S i, (∀ r, (R r).half i = (S r).half i) → v R i = v S i

def ByteLocal (v : Gpr → Fin 16 → BitVec 8) : Prop :=
  ∀ R S i, (∀ r, (R r).u8 i = (S r).u8 i) → v R i = v S i

def others (rt : Fin 128) (R : Gpr) : {r : Fin 128 // r ≠ rt} → SpuReg := fun r => R r.val

theorem others_update (rt : Fin 128) (R : Gpr) (x : SpuReg) : others rt (Function.update R rt x) = others rt R := by
  funext r
  exact Function.update_of_ne r.property x R

theorem gpr_eq_update (same : others rt R = others rt S) (dest : R rt = x) :
    R = Function.update S rt x := by
  funext r
  by_cases equal : r = rt
  · subst equal; rw [Function.update_self,dest]
  · rw [Function.update_of_ne equal]; exact congrFun same ⟨r,equal⟩

theorem lane_agrees (lane : SpuReg → α) (here : lane (R rt) = lane (S rt))
    (same : others rt R = others rt S) (r : Fin 128) : lane (R r) = lane (S r) := by
  by_cases equal : r = rt
  · subst equal; exact here
  · exact congrArg lane (congrFun same ⟨r,equal⟩)

theorem loopW_eq (isolated : WordLocal v) (R : Gpr) (rt : Fin 128) :
    loopW R rt v = Function.update R rt (.ofWords (v R)) := by
  refine gpr_eq_update (inplace_frame _ _ (fun R _ _ => others_update rt R _) v R) ?_
  apply SpuReg.ext_words
  intro j
  rw [word_ofWords]
  exact inplace_cells (fun R i => (R rt).word i) (fun R i a => Function.update R rt (spu_reg_set_w (R rt) i a))
    (others rt)
    (fun R i a => by simp [word_set_w])
    (fun R i j a different => by simp [word_set_w,Ne.symm different])
    (fun R _ _ => others_update rt R _) v
    (fun i R S here same => isolated R S i (lane_agrees (·.word i) here same)) R j

theorem loopH_eq (isolated : HalfLocal v) (R : Gpr) (rt : Fin 128) :
    loopH R rt v = Function.update R rt (.ofHalves (v R)) := by
  refine gpr_eq_update (inplace_frame _ _ (fun R _ _ => others_update rt R _) v R) ?_
  apply SpuReg.ext_halves
  intro j
  rw [half_ofHalves]
  exact inplace_cells (fun R i => (R rt).half i) (fun R i a => Function.update R rt (spu_reg_set_h (R rt) i a))
    (others rt)
    (fun R i a => by simp [half_set_h])
    (fun R i j a different => by simp [half_set_h,Ne.symm different])
    (fun R _ _ => others_update rt R _) v
    (fun i R S here same => isolated R S i (lane_agrees (·.half i) here same)) R j

theorem loopB_eq (isolated : ByteLocal v) (R : Gpr) (rt : Fin 128) :
    loopB R rt v = Function.update R rt ⟨v R⟩ := by
  refine gpr_eq_update (inplace_frame _ _ (fun R _ _ => others_update rt R _) v R) ?_
  apply SpuReg.ext
  funext j
  exact inplace_cells (fun R i => (R rt).u8 i) (fun R i a => Function.update R rt ((R rt).poke i a))
    (others rt)
    (fun R i a => by simp [poke_u8])
    (fun R i j a different => by simp [poke_u8,Ne.symm different])
    (fun R _ _ => others_update rt R _) v
    (fun i R S here same => isolated R S i (lane_agrees (·.u8 i) here same)) R j

theorem freshW_eq (v : Fin 4 → BitVec 32) : freshW v = .ofWords v := by
  apply SpuReg.ext_words
  intro j
  rw [word_ofWords]
  exact inplace_cells SpuReg.word spu_reg_set_w (fun _ => ())
    (fun t i a => by simp [word_set_w]) (fun t i j a different => by simp [word_set_w,Ne.symm different])
    (fun _ _ _ => rfl) (fun _ i => v i) (fun _ _ _ _ _ => rfl) .zero j

end BudokaiRuntime.Spu
