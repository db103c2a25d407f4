import BudokaiRuntime.Foundations.CountedLoop
import BudokaiRuntime.Spu.Accessors
import BudokaiRuntime.Spu.Lanes

-- The interpreter's byte-wise quadword operations against operations on the
-- register as one 128-bit number.
namespace BudokaiRuntime.Spu
open ByteLanes

theorem quad_bit (r : SpuReg) (k : Fin 16) (i : Nat) (bound : i < 8) :
    r.quad.getLsbD (8*(15-k.val)+i) = (r.u8 k).getLsbD i := by
  have place : 15-(8*(15-k.val)+i)/8 = k.val := by omega
  have inner : (8*(15-k.val)+i)%8 = i := by omega
  rw [getLsbD_quad r _ (by omega)]
  simp only [place,inner]

theorem eq_ofQuad (same : ∀ (k : Fin 16) i, i < 8 → (r.u8 k).getLsbD i = v.getLsbD (8*(15-k.val)+i)) :
    r = SpuReg.ofQuad v := by
  apply SpuReg.ext
  funext k
  apply BitVec.eq_of_getLsbD_eq
  intro i bound
  rw [same k i bound,SpuReg.ofQuad,getLsbD_byteAt,decide_eq_true bound,Bool.true_and]

theorem of_quad {r : SpuReg} (same : r.quad = v) : r = .ofQuad v := by
  apply eq_ofQuad
  intro k i bound
  rw [← same,quad_bit r k i bound]

section Logical
variable (a b c : SpuReg)

theorem bytewise_ofQuad (f : BitVec 8 → BitVec 8 → BitVec 8) (g : BitVec 128 → BitVec 128 → BitVec 128)
    (bitwise : ∀ x y X Y i p, i < 8 → p < 128 → x.getLsbD i = X.getLsbD p → y.getLsbD i = Y.getLsbD p →
      (f x y).getLsbD i = (g X Y).getLsbD p) :
    (⟨fun i => f (a.u8 i) (b.u8 i)⟩ : SpuReg) = .ofQuad (g a.quad b.quad) :=
  eq_ofQuad fun k i bound => bitwise _ _ _ _ i _ bound (by omega) (quad_bit a k i bound).symm
    (quad_bit b k i bound).symm

theorem and_ofQuad : (⟨fun i => a.u8 i &&& b.u8 i⟩ : SpuReg) = .ofQuad (a.quad &&& b.quad) :=
  bytewise_ofQuad a b (· &&& ·) (· &&& ·) fun _ _ _ _ _ _ _ _ left right => by simp [left,right]

theorem or_ofQuad : (⟨fun i => a.u8 i ||| b.u8 i⟩ : SpuReg) = .ofQuad (a.quad ||| b.quad) :=
  bytewise_ofQuad a b (· ||| ·) (· ||| ·) fun _ _ _ _ _ _ _ _ left right => by simp [left,right]

theorem xor_ofQuad : (⟨fun i => a.u8 i ^^^ b.u8 i⟩ : SpuReg) = .ofQuad (a.quad ^^^ b.quad) :=
  bytewise_ofQuad a b (· ^^^ ·) (· ^^^ ·) fun _ _ _ _ _ _ _ _ left right => by simp [left,right]

theorem nand_ofQuad : (⟨fun i => ~~~(a.u8 i &&& b.u8 i)⟩ : SpuReg) = .ofQuad (~~~(a.quad &&& b.quad)) :=
  bytewise_ofQuad a b (fun x y => ~~~(x &&& y)) (fun x y => ~~~(x &&& y))
    fun _ _ _ _ _ _ bound inside left right => by
      simp only [BitVec.getLsbD_not,BitVec.getLsbD_and,bound,inside,left,right]

theorem nor_ofQuad : (⟨fun i => ~~~(a.u8 i ||| b.u8 i)⟩ : SpuReg) = .ofQuad (~~~(a.quad ||| b.quad)) :=
  bytewise_ofQuad a b (fun x y => ~~~(x ||| y)) (fun x y => ~~~(x ||| y))
    fun _ _ _ _ _ _ bound inside left right => by
      simp only [BitVec.getLsbD_not,BitVec.getLsbD_or,bound,inside,left,right]

theorem andc_ofQuad : (⟨fun i => a.u8 i &&& ~~~b.u8 i⟩ : SpuReg) = .ofQuad (a.quad &&& ~~~b.quad) :=
  bytewise_ofQuad a b (fun x y => x &&& ~~~y) (fun x y => x &&& ~~~y)
    fun _ _ _ _ _ _ bound inside left right => by
      simp only [BitVec.getLsbD_not,BitVec.getLsbD_and,bound,inside,left,right]

theorem orc_ofQuad : (⟨fun i => a.u8 i ||| ~~~b.u8 i⟩ : SpuReg) = .ofQuad (a.quad ||| ~~~b.quad) :=
  bytewise_ofQuad a b (fun x y => x ||| ~~~y) (fun x y => x ||| ~~~y)
    fun _ _ _ _ _ _ bound inside left right => by
      simp only [BitVec.getLsbD_not,BitVec.getLsbD_or,bound,inside,left,right]

theorem eqv_ofQuad : (⟨fun i => ~~~(a.u8 i ^^^ b.u8 i)⟩ : SpuReg) = .ofQuad (~~~(a.quad ^^^ b.quad)) :=
  bytewise_ofQuad a b (fun x y => ~~~(x ^^^ y)) (fun x y => ~~~(x ^^^ y))
    fun _ _ _ _ _ _ bound inside left right => by
      simp only [BitVec.getLsbD_not,BitVec.getLsbD_xor,bound,inside,left,right]

theorem selb_ofQuad : (⟨fun i => c.u8 i &&& b.u8 i ||| ~~~c.u8 i &&& a.u8 i⟩ : SpuReg) =
    .ofQuad (c.quad &&& b.quad ||| ~~~c.quad &&& a.quad) := by
  apply eq_ofQuad
  intro k i bound
  have inside : 8*(15-k.val)+i < 128 := by omega
  simp only [BitVec.getLsbD_or,BitVec.getLsbD_and,BitVec.getLsbD_not,quad_bit _ k i bound,bound,inside]
end Logical

section ByteShifts
variable (a : SpuReg) (n : BitVec 32)

theorem q_shl_bytes_eq : q_shl_bytes a n = .ofQuad (a.quad <<< (8*n.toNat)) := by
  apply eq_ofQuad
  intro k i bound
  have inside : 8*(15-k.val)+i < 128 := by omega
  rw [BitVec.getLsbD_shiftLeft,decide_eq_true inside]
  unfold q_shl_bytes
  by_cases within : k.val+n.toNat < 16
  · have kept : ¬ 8*(15-k.val)+i < 8*n.toNat := by omega
    have place : 8*(15-k.val)+i-8*n.toNat = 8*(15-(k.val+n.toNat))+i := by omega
    simp only [within,kept,place,dite_true,decide_false,Bool.not_false,Bool.true_and]
    exact (quad_bit a ⟨k.val+n.toNat,within⟩ i bound).symm
  · have cleared : 8*(15-k.val)+i < 8*n.toNat := by omega
    simp [within,cleared]

theorem q_shr_bytes_eq : q_shr_bytes a n = .ofQuad (a.quad >>> (8*n.toNat)) := by
  apply eq_ofQuad
  intro k i bound
  rw [BitVec.getLsbD_ushiftRight]
  unfold q_shr_bytes
  by_cases within : n.toNat ≤ k.val
  · have place : 8*n.toNat+(8*(15-k.val)+i) = 8*(15-(k.val-n.toNat))+i := by omega
    rw [place]
    simp only [within,if_true]
    exact (quad_bit a ⟨k.val-n.toNat,by omega⟩ i bound).symm
  · rw [BitVec.getLsbD_of_ge a.quad (8*n.toNat+(8*(15-k.val)+i)) (by omega)]
    simp [within]

theorem q_rot_bytes_eq (small : n.toNat < 16) :
    q_rot_bytes a n = .ofQuad (a.quad.rotateLeft (8*n.toNat)) := by
  apply eq_ofQuad
  intro k i bound
  have turn : 8*n.toNat % 128 = 8*n.toNat := Nat.mod_eq_of_lt (by omega)
  have inside : 8*(15-k.val)+i < 128 := by omega
  rw [BitVec.rotateLeft_def,turn,BitVec.getLsbD_or,BitVec.getLsbD_shiftLeft,BitVec.getLsbD_ushiftRight,
    decide_eq_true inside]
  unfold q_rot_bytes
  by_cases within : k.val+n.toNat < 16
  · have source : (k.val+n.toNat)%16 = k.val+n.toNat := Nat.mod_eq_of_lt within
    have kept : ¬ 8*(15-k.val)+i < 8*n.toNat := by omega
    have place : 8*(15-k.val)+i-8*n.toNat = 8*(15-(k.val+n.toNat))+i := by omega
    rw [BitVec.getLsbD_of_ge a.quad (128-8*n.toNat+(8*(15-k.val)+i)) (by omega),place]
    simp only [source,kept,decide_false,Bool.not_false,Bool.true_and,Bool.or_false]
    exact (quad_bit a ⟨k.val+n.toNat,within⟩ i bound).symm
  · have source : (k.val+n.toNat)%16 = k.val+n.toNat-16 := by omega
    have wrapped : 8*(15-k.val)+i < 8*n.toNat := by omega
    have place : 128-8*n.toNat+(8*(15-k.val)+i) = 8*(15-(k.val+n.toNat-16))+i := by omega
    rw [place]
    simp only [source,wrapped,decide_true,Bool.not_true,Bool.and_false,Bool.false_and,Bool.false_or]
    exact (quad_bit a ⟨k.val+n.toNat-16,by omega⟩ i bound).symm
end ByteShifts

-- A shift by 1 to 7 bits draws each byte from itself and one neighbour.
section BitShifts
variable (a : SpuReg)

theorem int_bit (k : Fin 16) (i : Nat) : (a.int k).getLsbD i = (decide (i < 8) && (a.u8 k).getLsbD i) := by
  rw [SpuReg.int,BitVec.getLsbD_setWidth]
  by_cases low : i < 8
  · simp [low,show i < 32 by omega]
  · simp [low,BitVec.getLsbD_of_ge (a.u8 k) i (by omega)]

-- ((a << s) | (b >> (8-s))) & 0xFF, bit by bit.
theorem joined_bit (k m : Fin 16) (s i : Nat) (small : s < 8) (bound : i < 8) :
    ((a.int k <<< s ||| a.int m >>> (8-s)).setWidth 8).getLsbD i =
      if s ≤ i then (a.u8 k).getLsbD (i-s) else (a.u8 m).getLsbD (8-s+i) := by
  rw [BitVec.getLsbD_setWidth,BitVec.getLsbD_or,BitVec.getLsbD_shiftLeft,BitVec.getLsbD_ushiftRight,
    int_bit,int_bit]
  by_cases own : s ≤ i
  · simp [own,bound,show i < 32 by omega,show ¬ i < s by omega,show i-s < 8 by omega,
      show ¬ 8-s+i < 8 by omega]
  · simp [own,bound,show i < s by omega,show 8-s+i < 8 by omega]

theorem shifted_bit (k : Fin 16) (s i : Nat) (bound : i < 8) :
    ((a.int k <<< s).setWidth 8).getLsbD i = (decide (s ≤ i) && (a.u8 k).getLsbD (i-s)) := by
  rw [BitVec.getLsbD_setWidth,BitVec.getLsbD_shiftLeft,int_bit]
  by_cases own : s ≤ i
  · simp [own,bound,show i < 32 by omega,show ¬ i < s by omega,show i-s < 8 by omega]
  · simp [own,show i < s by omega]

theorem own_bit (k : Fin 16) (s i : Nat) (own : s ≤ i) (bound : i < 8) :
    a.quad.getLsbD (8*(15-k.val)+i-s) = (a.u8 k).getLsbD (i-s) := by
  have place : 8*(15-k.val)+i-s = 8*(15-k.val)+(i-s) := by omega
  rw [place]
  exact quad_bit a k _ (by omega)

theorem next_bit (k : Fin 16) (inner : k.val < 15) (s i : Nat) (small : s < 8) (other : i < s) :
    a.quad.getLsbD (8*(15-k.val)+i-s) = (a.u8 ⟨k.val+1,by omega⟩).getLsbD (8-s+i) := by
  have place : 8*(15-k.val)+i-s = 8*(15-(k.val+1))+(8-s+i) := by omega
  rw [place]
  exact quad_bit a ⟨k.val+1,by omega⟩ _ (by omega)

theorem q_shl_bits_eq (s : BitVec 32) (small : s.toNat < 8) :
    q_shl_bits a s = .ofQuad (a.quad <<< s.toNat) := by
  unfold q_shl_bits
  split
  · rename_i zero
    subst zero
    exact of_quad (BitVec.shiftLeft_zero a.quad).symm
  apply eq_ofQuad
  intro k i bound
  have inside : 8*(15-k.val)+i < 128 := by omega
  rw [BitVec.getLsbD_shiftLeft,decide_eq_true inside,Bool.true_and]
  by_cases inner : k.val < 15
  · have kept : ¬ 8*(15-k.val)+i < s.toNat := by omega
    simp only [inner,dite_true,kept,decide_false,Bool.not_false,Bool.true_and]
    rw [joined_bit a k _ _ i small bound]
    split
    · rename_i own
      exact (own_bit a k _ i own bound).symm
    · rename_i other
      exact (next_bit a k inner _ i small (Nat.lt_of_not_le other)).symm
  · simp only [inner,dite_false,shifted_bit a k s.toNat i bound]
    by_cases own : s.toNat ≤ i
    · have kept : ¬ 8*(15-k.val)+i < s.toNat := by omega
      rw [own_bit a k _ i own bound,decide_eq_true own,decide_eq_false kept]
      rfl
    · have cleared : 8*(15-k.val)+i < s.toNat := by omega
      rw [decide_eq_false own,decide_eq_true cleared]
      rfl

theorem q_rot_bits_eq (s : BitVec 32) (small : s.toNat < 8) :
    q_rot_bits a s = .ofQuad (a.quad.rotateLeft s.toNat) := by
  have turn : s.toNat % 128 = s.toNat := Nat.mod_eq_of_lt (by omega)
  unfold q_rot_bits
  rw [BitVec.rotateLeft_def,turn]
  split
  · rename_i zero
    subst zero
    apply of_quad
    show a.quad = a.quad <<< 0 ||| a.quad >>> 128
    rw [BitVec.shiftLeft_zero,BitVec.ushiftRight_eq_zero (Nat.le_refl 128),BitVec.or_zero]
  apply eq_ofQuad
  intro k i bound
  have inside : 8*(15-k.val)+i < 128 := by omega
  rw [joined_bit a k _ _ i small bound,BitVec.getLsbD_or,BitVec.getLsbD_shiftLeft,
    BitVec.getLsbD_ushiftRight,decide_eq_true inside,Bool.true_and]
  by_cases own : s.toNat ≤ i
  · have kept : ¬ 8*(15-k.val)+i < s.toNat := by omega
    rw [if_pos own,BitVec.getLsbD_of_ge a.quad (128-s.toNat+(8*(15-k.val)+i)) (by omega),
      own_bit a k _ i own bound,decide_eq_false kept]
    simp
  · rw [if_neg own]
    by_cases inner : k.val < 15
    · have next : (k.val+1)%16 = k.val+1 := Nat.mod_eq_of_lt (by omega)
      have kept : ¬ 8*(15-k.val)+i < s.toNat := by omega
      rw [BitVec.getLsbD_of_ge a.quad (128-s.toNat+(8*(15-k.val)+i)) (by omega),
        next_bit a k inner _ i small (Nat.lt_of_not_le own),decide_eq_false kept]
      simp only [next,Bool.not_false,Bool.true_and,Bool.or_false]
    · have next : (k.val+1)%16 = 0 := by omega
      have wrapped : 8*(15-k.val)+i < s.toNat := by omega
      have place : 128-s.toNat+(8*(15-k.val)+i) = 8*(15-0)+(8-s.toNat+i) := by omega
      rw [place,decide_eq_true wrapped]
      simp only [next,Bool.not_true,Bool.false_and,Bool.false_or]
      exact (quad_bit a 0 _ (by omega)).symm

theorem q_shr_bits_eq (s : BitVec 32) (small : s.toNat < 8) :
    q_shr_bits a s = .ofQuad (a.quad >>> s.toNat) := by
  unfold q_shr_bits
  split
  · rename_i zero
    subst zero
    exact of_quad (BitVec.ushiftRight_zero a.quad).symm
  rename_i nonzero
  have positive : 0 < s.toNat := Nat.pos_of_ne_zero fun zero => nonzero (BitVec.eq_of_toNat_eq zero)
  apply eq_ofQuad
  intro k i bound
  rw [BitVec.getLsbD_ushiftRight]
  have back : 8-(8-s.toNat) = s.toNat := by omega
  by_cases inner : 0 < k.val
  · simp only [inner,if_true]
    have joined := joined_bit a ⟨k.val-1,by omega⟩ k (8-s.toNat) i (by omega) bound
    rw [back] at joined
    rw [BitVec.or_comm,joined]
    split
    · have place : s.toNat+(8*(15-k.val)+i) = 8*(15-(k.val-1))+(i-(8-s.toNat)) := by omega
      rw [place]
      exact (quad_bit a ⟨k.val-1,by omega⟩ _ (by omega)).symm
    · have place : s.toNat+(8*(15-k.val)+i) = 8*(15-k.val)+(s.toNat+i) := by omega
      rw [place,quad_bit a k _ (by omega)]
  · simp only [inner,if_false]
    rw [BitVec.getLsbD_setWidth,BitVec.getLsbD_ushiftRight,int_bit,decide_eq_true bound,Bool.true_and]
    by_cases own : s.toNat+i < 8
    · have place : s.toNat+(8*(15-k.val)+i) = 8*(15-k.val)+(s.toNat+i) := by omega
      rw [place,quad_bit a k _ own,decide_eq_true own]
      rfl
    · rw [decide_eq_false own,BitVec.getLsbD_of_ge a.quad (s.toNat+(8*(15-k.val)+i)) (by omega)]
      rfl
end BitShifts

section QuadCounts
variable (a : SpuReg) (n : BitVec 32)

theorem rotqbi_eq : q_rot_bits a (n &&& 7) = .ofQuad (a.quad.rotateLeft (n.toNat % 8)) := by
  have count : (n &&& 7).toNat = n.toNat % 8 := count_toNat n 3 (by decide)
  rw [q_rot_bits_eq a _ (by omega),count]

theorem rotqmbi_eq : q_shr_bits a ((0 - n) &&& 7) = .ofQuad (a.quad >>> ((-n).toNat % 8)) := by
  have count : ((0 - n) &&& 7).toNat = (-n).toNat % 8 := negated_toNat n 3 (by decide)
  rw [q_shr_bits_eq a _ (by omega),count]

theorem shlqbi_eq : q_shl_bits a (n &&& 7) = .ofQuad (a.quad <<< (n.toNat % 8)) := by
  have count : (n &&& 7).toNat = n.toNat % 8 := count_toNat n 3 (by decide)
  rw [q_shl_bits_eq a _ (by omega),count]

theorem rotqby_eq : q_rot_bytes a (n &&& 15) = .ofQuad (a.quad.rotateLeft (8*(n.toNat % 16))) := by
  have count : (n &&& 15).toNat = n.toNat % 16 := count_toNat n 4 (by decide)
  rw [q_rot_bytes_eq a _ (by omega),count]

theorem rotqmby_eq : q_shr_bytes a ((0 - n) &&& 31) = .ofQuad (a.quad >>> (8*((-n).toNat % 32))) := by
  have count : ((0 - n) &&& 31).toNat = (-n).toNat % 32 := negated_toNat n 5 (by decide)
  rw [q_shr_bytes_eq,count]

theorem shlqby_eq : q_shl_bytes a (n &&& 31) = .ofQuad (a.quad <<< (8*(n.toNat % 32))) := by
  have count : (n &&& 31).toNat = n.toNat % 32 := count_toNat n 5 (by decide)
  rw [q_shl_bytes_eq,count]

theorem bytes_of_bits : (n >>> 3).toNat = n.toNat/8 := by
  rw [BitVec.toNat_ushiftRight,Nat.shiftRight_eq_div_pow]

theorem negated_bytes_of_bits : (-(n >>> 3)).toNat % 32 = (32 - n.toNat/8 % 32) % 32 := by
  rw [BitVec.toNat_neg,bytes_of_bits]
  omega
end QuadCounts

section Selection
theorem byteAt_concat (a b : SpuReg) (k : Fin 32) :
    byteAt (k:=32) (a.quad ++ b.quad) k =
      if first : k.val < 16 then a.u8 ⟨k.val,first⟩ else b.u8 ⟨k.val-16,by omega⟩ := by
  apply BitVec.eq_of_getLsbD_eq
  intro i bound
  rw [getLsbD_byteAt,decide_eq_true bound,Bool.true_and,BitVec.getLsbD_append]
  by_cases first : k.val < 16
  · have place : 8*(32-1-k.val)+i-128 = 8*(15-k.val)+i := by omega
    rw [if_neg (by omega),place,dif_pos first]
    exact quad_bit a ⟨k.val,first⟩ i bound
  · have place : 8*(32-1-k.val)+i = 8*(15-(k.val-16))+i := by omega
    rw [if_pos (by omega),place,dif_neg first]
    exact quad_bit b ⟨k.val-16,by omega⟩ i bound

-- The three mask tests read the two or three leading bits of the control byte.
theorem control_tests (c : BitVec 8) :
    (c &&& 0xC0 = 0x80 ↔ c.getMsbD 0 = true ∧ c.getMsbD 1 = false) ∧
    (c &&& 0xE0 = 0xC0 ↔ c.getMsbD 0 = true ∧ c.getMsbD 1 = true ∧ c.getMsbD 2 = false) ∧
    (c &&& 0xE0 = 0xE0 ↔ c.getMsbD 0 = true ∧ c.getMsbD 1 = true ∧ c.getMsbD 2 = true) ∧
    (c &&& 0x1F).toNat = c.toNat % 32 := by
  revert c
  decide

theorem do_shufb_eq (a b c : SpuReg) : do_shufb a b c = ⟨fun i => Isa.shuffle a b (c.u8 i)⟩ := by
  apply SpuReg.ext
  funext i
  obtain ⟨zeros,ones,high,index⟩ := control_tests (c.u8 i)
  simp only [do_shufb,Isa.shuffle,zeros,ones,high,byteAt_concat,index]
  cases (c.u8 i).getMsbD 0 <;> cases (c.u8 i).getMsbD 1 <;> cases (c.u8 i).getMsbD 2 <;> simp

@[simp] theorem word_zero (i : Fin 4) : SpuReg.zero.word i = 0 := by
  apply bytes_ext (k:=4)
  intro j
  rw [byteAt_word]
  simp [SpuReg.zero,byteAt]

theorem scalar_preferred (v : BitVec 32) : spu_reg_set_w .zero 0 v = Isa.preferred v := by
  apply SpuReg.ext_words
  intro i
  rw [word_set_w,word_zero,Isa.preferred,word_ofWords]

-- The gather loops place the lowest bit of element i at bit n-1-i.
theorem gather_eq (n : Nat) (fits : n ≤ 32) (x : Fin n → BitVec 32) (bit : Fin n → Bool)
    (single : ∀ i, x i = if bit i then 1 else 0) :
    Fin.foldl n (fun v i => v ||| x i <<< (n-1-i.val)) 0 = Isa.gather n bit := by
  have placed := CountedLoop.foldl_invariant (s:=(0 : BitVec 32)) (fun k v => ∀ b, v.getLsbD b =
      if inside : b < n then decide (n-1-b < k) && bit ⟨n-1-b,by omega⟩ else false) n
      (fun v i => v ||| x i <<< (n-1-i.val)) (by intro b; simp) (by
    intro i v held b
    have one : ∀ p, (x i).getLsbD p = (decide (p = 0) && bit i) := by
      intro p
      rw [single i]
      cases bit i <;> simp [BitVec.getLsbD_one]
    rw [BitVec.getLsbD_or,held b,BitVec.getLsbD_shiftLeft,one]
    by_cases inside : b < n
    · simp only [inside,dite_true]
      by_cases here : n-1-b = i.val
      · have same : (⟨n-1-b,by omega⟩ : Fin n) = i := Fin.ext here
        rw [same]
        simp [here,show b < 32 by omega,show ¬ b < n-1-i.val by omega,show b-(n-1-i.val) = 0 by omega]
      · by_cases before : n-1-b < i.val
        · simp [before,show n-1-b < i.val+1 by omega,show ¬ b-(n-1-i.val) = 0 by omega]
        · simp [before,show ¬ n-1-b < i.val+1 by omega,show b < n-1-i.val by omega]
    · simp [inside,show ¬ b-(n-1-i.val) = 0 by omega])
  apply BitVec.eq_of_getLsbD_eq
  intro b bound
  rw [placed b,Isa.gather,getLsbD_ofBits _ b bound]
  split
  · rename_i inside
    rw [decide_eq_true (by omega),Bool.true_and]
  · rfl

theorem lowest_w (v : BitVec 32) : v &&& 1 = if v.getLsbD 0 then 1 else 0 := BitVec.and_twoPow v 0
theorem lowest_h (v : BitVec 16) : (v &&& 1).setWidth 32 = if v.getLsbD 0 then 1 else 0 := by
  have one : v &&& 1 = if v.getLsbD 0 then 1 else 0 := BitVec.and_twoPow v 0
  rw [one]
  cases v.getLsbD 0 <;> rfl

theorem lowest_b (v : BitVec 8) : (v &&& 1).setWidth 32 = if v.getLsbD 0 then 1 else 0 := by
  have one : v &&& 1 = if v.getLsbD 0 then 1 else 0 := BitVec.and_twoPow v 0
  rw [one]
  cases v.getLsbD 0 <;> rfl
end Selection

section Packing
variable (a b : SpuReg)

theorem sum4_eq (r : SpuReg) (i : Fin 4) : sum4 (fun k => r.u8 (wordByte i k)) = Isa.byteSum r i := by
  apply BitVec.eq_of_toNat_eq
  simp only [sum4,Isa.byteSum,Fin.foldl_succ,Fin.foldl_zero,BitVec.toNat_add,BitVec.toNat_setWidth,
    BitVec.toNat_ofNat]
  simp

theorem sumb_eq :
    Fin.foldl 4 (fun t i =>
      spu_reg_set_h (spu_reg_set_h t (wordHalf i 0) (sum4 fun k => b.u8 (wordByte i k)))
        (wordHalf i 1) (sum4 fun k => a.u8 (wordByte i k))) .zero =
      .ofHalves fun h => Isa.byteSum (if h.val % 2 = 0 then b else a) (Isa.halfWord h) := by
  have filled := CountedLoop.foldl_invariant (s:=SpuReg.zero)
      (fun k t => ∀ h : Fin 8, h.val/2 < k →
        t.half h = Isa.byteSum (if h.val % 2 = 0 then b else a) (Isa.halfWord h)) 4
      (fun t i => spu_reg_set_h (spu_reg_set_h t (wordHalf i 0) (sum4 fun k => b.u8 (wordByte i k)))
        (wordHalf i 1) (sum4 fun k => a.u8 (wordByte i k))) (by omega) (by
    intro i t held h below
    rw [half_set_h,half_set_h,sum4_eq,sum4_eq]
    have low : (wordHalf i 0).val = 2*i.val := rfl
    have high : (wordHalf i 1).val = 2*i.val+1 := rfl
    simp only [Fin.ext_iff,low,high]
    by_cases odd : h.val = 2*i.val+1
    · have slot : Isa.halfWord h = i := Fin.ext (show h.val/2 = i.val by omega)
      rw [if_pos odd,if_neg (by omega),slot]
    · by_cases even : h.val = 2*i.val
      · have slot : Isa.halfWord h = i := Fin.ext (show h.val/2 = i.val by omega)
        rw [if_neg odd,if_pos even,if_pos (by omega),slot]
      · rw [if_neg odd,if_neg even]
        exact held h (by omega))
  apply SpuReg.ext_halves
  intro h
  rw [half_ofHalves]
  exact filled h (by omega)

theorem word_ofQuad (v : BitVec 128) (i : Fin 4) : (SpuReg.ofQuad v).word i = v.extractLsb' (32*(3-i.val)) 32 := by
  apply BitVec.eq_of_getLsbD_eq
  intro p bound
  rw [getLsbD_word _ i p bound,SpuReg.ofQuad,getLsbD_byteAt,BitVec.getLsbD_extractLsb']
  have place : 8*(16-1-(4*i.val+(3-p/8)))+p%8 = 32*(3-i.val)+p := by omega
  simp only [wordByte,place,bound,show p%8 < 8 by omega]

theorem extract_upper (x y : BitVec 64) (p : Nat) :
    (x ++ y).extractLsb' (64+p) 32 = (x >>> p).setWidth 32 := by
  apply BitVec.eq_of_getLsbD_eq
  intro i bound
  rw [BitVec.getLsbD_extractLsb',BitVec.getLsbD_append,BitVec.getLsbD_setWidth,BitVec.getLsbD_ushiftRight,
    if_neg (by omega),show 64+p+i-64 = p+i by omega]

theorem extract_lower (x y : BitVec 64) (p : Nat) (fits : p+32 ≤ 64) :
    (x ++ y).extractLsb' p 32 = (y >>> p).setWidth 32 := by
  apply BitVec.eq_of_getLsbD_eq
  intro i bound
  rw [BitVec.getLsbD_extractLsb',BitVec.getLsbD_append,BitVec.getLsbD_setWidth,BitVec.getLsbD_ushiftRight,
    if_pos (by omega)]

theorem xswd_eq :
    Fin.foldl 2 (fun t i => set_d t i ((GW a (doubleWord i 1)).signExtend 64)) .zero =
      .ofQuad ((a.word 1).signExtend 64 ++ (a.word 3).signExtend 64) := by
  apply SpuReg.ext_words
  intro i
  rw [word_ofQuad]
  simp only [Fin.foldl_succ,Fin.foldl_zero,set_d,word_set_w,GW,get_w_word]
  match i with
  | 0 => exact (extract_upper _ _ 32).symm
  | 1 =>
      have low := extract_upper ((a.word 1).signExtend 64) ((a.word 3).signExtend 64) 0
      rw [BitVec.ushiftRight_zero] at low
      exact low.symm
  | 2 => exact (extract_lower _ _ 32 (by decide)).symm
  | 3 =>
      have low := extract_lower ((a.word 1).signExtend 64) ((a.word 3).signExtend 64) 0 (by decide)
      rw [BitVec.ushiftRight_zero] at low
      exact low.symm
end Packing

end BudokaiRuntime.Spu
