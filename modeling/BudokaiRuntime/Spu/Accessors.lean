import BudokaiRuntime.Spu.Context

namespace BudokaiRuntime.Spu
open ByteLanes

theorem word_place (i j : Fin 4) : finProdFinEquiv (i,j) = wordByte i j := Fin.ext (Nat.add_comm _ _)
theorem half_place (i : Fin 8) (j : Fin 2) : finProdFinEquiv (i,j) = halfByte i j :=
  Fin.ext (Nat.add_comm _ _)

theorem byteAt_word (r : SpuReg) (i j : Fin 4) : byteAt (k:=4) (r.word i) j = r.u8 (wordByte i j) := by
  unfold SpuReg.word lane
  rw [byteAt_ofBytes]
  exact congrArg r.u8 (word_place i j)

theorem byteAt_half (r : SpuReg) (i : Fin 8) (j : Fin 2) :
    byteAt (k:=2) (r.half i) j = r.u8 (halfByte i j) := by
  unfold SpuReg.half lane
  rw [byteAt_ofBytes]
  exact congrArg r.u8 (half_place i j)

theorem getLsbD_word (r : SpuReg) (i : Fin 4) (b : Nat) (bound : b < 32) :
    (r.word i).getLsbD b = (r.u8 (wordByte i ⟨3-b/8,by omega⟩)).getLsbD (b%8) := by
  rw [SpuReg.word,lane,getLsbD_ofBytes _ _ bound]
  exact congrArg (fun p => (r.u8 p).getLsbD (b%8)) (word_place i ⟨3-b/8,by omega⟩)

theorem getLsbD_quad (r : SpuReg) (b : Nat) (bound : b < 128) :
    r.quad.getLsbD b = (r.u8 ⟨15-b/8,by omega⟩).getLsbD (b%8) := getLsbD_ofBytes (k:=16) r.u8 b bound

@[simp] theorem get_w_word (r : SpuReg) (i : Fin 4) : spu_reg_get_w r i = r.word i := by
  apply bytes_ext (k:=4)
  intro j
  rw [byteAt_word]
  apply BitVec.eq_of_getLsbD_eq
  intro b bound
  rw [getLsbD_byteAt]
  unfold spu_reg_get_w
  match j with
  | 0 | 1 | 2 | 3 =>
      simp (disch:=omega) [bound,decide_eq_true,decide_eq_false,BitVec.getLsbD_of_ge]

@[simp] theorem get_h_half (r : SpuReg) (i : Fin 8) : spu_reg_get_h r i = r.half i := by
  apply bytes_ext (k:=2)
  intro j
  rw [byteAt_half]
  apply BitVec.eq_of_getLsbD_eq
  intro b bound
  rw [getLsbD_byteAt]
  unfold spu_reg_get_h
  match j with
  | 0 | 1 => simp (disch:=omega) [bound,BitVec.getLsbD_of_ge]

theorem wordByte_inj {i j k l : Fin 4} : wordByte i k = wordByte j l ↔ i = j ∧ k = l := by
  simp only [wordByte,Fin.ext_iff]; omega

theorem halfByte_inj {i j : Fin 8} {k l : Fin 2} : halfByte i k = halfByte j l ↔ i = j ∧ k = l := by
  simp only [halfByte,Fin.ext_iff]; omega

theorem poke_u8 (r : SpuReg) (b c : Fin 16) (v : BitVec 8) :
    (r.poke b v).u8 c = if c = b then v else r.u8 c := by simp [SpuReg.poke,Function.update_apply]

theorem set_w_byte (r : SpuReg) (i j k : Fin 4) (v : BitVec 32) :
    (spu_reg_set_w r i v).u8 (wordByte j k) =
      if j = i then byteAt (k:=4) v k else r.u8 (wordByte j k) := by
  simp only [spu_reg_set_w,poke_u8,wordByte_inj]
  by_cases same : j = i
  · match k with
    | 0 | 1 | 2 | 3 =>
        simp only [same,true_and,if_true,Fin.reduceEq,if_false]
        apply BitVec.eq_of_getLsbD_eq
        intro b bound
        rw [getLsbD_byteAt]
        simp (disch:=omega) [bound]
  · simp [same]

theorem set_h_byte (r : SpuReg) (i j : Fin 8) (k : Fin 2) (v : BitVec 16) :
    (spu_reg_set_h r i v).u8 (halfByte j k) =
      if j = i then byteAt (k:=2) v k else r.u8 (halfByte j k) := by
  simp only [spu_reg_set_h,poke_u8,halfByte_inj]
  by_cases same : j = i
  · match k with
    | 0 | 1 =>
        simp only [same,true_and,if_true,Fin.reduceEq,if_false]
        apply BitVec.eq_of_getLsbD_eq
        intro b bound
        rw [getLsbD_byteAt]
        simp (disch:=omega) [bound]
  · simp [same]

theorem word_set_w (r : SpuReg) (i j : Fin 4) (v : BitVec 32) :
    (spu_reg_set_w r i v).word j = if j = i then v else r.word j := by
  apply bytes_ext (k:=4)
  intro k
  rw [byteAt_word,set_w_byte,apply_ite (byteAt (k:=4) · k),byteAt_word]

theorem half_set_h (r : SpuReg) (i j : Fin 8) (v : BitVec 16) :
    (spu_reg_set_h r i v).half j = if j = i then v else r.half j := by
  apply bytes_ext (k:=2)
  intro k
  rw [byteAt_half,set_h_byte,apply_ite (byteAt (k:=2) · k),byteAt_half]

end BudokaiRuntime.Spu
