import Mathlib.Data.Nat.Basic
import Mathlib.Tactic.Ring

-- One channel and one pixel of blit_overlay: 32-bit unsigned arithmetic that wraps below zero.
namespace BudokaiRuntime.Rsx

structure Texel where
  b : BitVec 8
  g : BitVec 8
  r : BitVec 8
  a : BitVec 8

-- 0xFF000000u | r<<16 | g<<8 | b, no channel masked.
def packed (r g b : BitVec 32) : BitVec 32 := 0xFF000000#32 ||| r <<< 16 ||| g <<< 8 ||| b

-- d + ((s-d)*sa>>8)
def mixed (d : BitVec 32) (s sa : BitVec 8) : BitVec 32 := d + ((s.setWidth 32 - d) * sa.setWidth 32) >>> 8

def solid (s : Texel) : BitVec 32 := packed (s.r.setWidth 32) (s.g.setWidth 32) (s.b.setWidth 32)

def blended (s : Texel) (dst : BitVec 32) : BitVec 32 :=
  let db := dst &&& 0xFF#32
  let dg := dst >>> 8 &&& 0xFF#32
  let dr := dst >>> 16 &&& 0xFF#32
  packed (mixed dr s.r s.a) (mixed dg s.g s.a) (mixed db s.b s.a)

def channel (pixel : BitVec 32) (place : Nat) : BitVec 8 := pixel.extractLsb' place 8

def bytes (pixel : BitVec 32) : Texel := ⟨channel pixel 0,channel pixel 8,channel pixel 16,channel pixel 24⟩

def Between (p q v : BitVec 8) : Prop := (p ≤ v ∧ v ≤ q) ∨ (q ≤ v ∧ v ≤ p)

structure Blended (s : Texel) (old new : BitVec 32) : Prop where
  clear : s.a = 0 → new = old
  copied : s.a = 255 → bytes new = s
  filled : s.a ≠ 0 → (bytes new).a = 0xFF
  mixed : s.a ≠ 0 → s.a ≠ 255 → Between (bytes old).b s.b (bytes new).b ∧ Between (bytes old).g s.g (bytes new).g ∧
    Between (bytes old).r s.r (bytes new).r

-- What `mixed` may leave: a byte, and nothing above it but bit 24.
structure Clean (v : BitVec 32) (m : BitVec 8) : Prop where
  byte : v.setWidth 8 = m
  above : v.extractLsb' 8 16 = 0

theorem clean_of_toNat (v : BitVec 32) (m : BitVec 8) (k : Nat) (value : v.toNat = m.toNat + k*2^24) : Clean v m := by
  have small : m.toNat < 2^8 := m.isLt
  constructor
  · apply BitVec.eq_of_toNat_eq
    rw [BitVec.toNat_setWidth,value]
    omega
  · apply BitVec.eq_of_toNat_eq
    rw [BitVec.extractLsb'_toNat,Nat.shiftRight_eq_div_pow,value]
    change _ = 0
    omega

section Channel
variable (d s a : BitVec 8)

theorem wide (x : BitVec 8) : (x.setWidth 32).toNat = x.toNat := BitVec.toNat_setWidth_of_le (by decide)

theorem wide_product (x y : BitVec 8) : (x.setWidth 32*y.setWidth 32).toNat = x.toNat*y.toNat := by
  rw [BitVec.toNat_mul,wide,wide]
  exact Nat.mod_eq_of_lt ((Nat.mul_lt_mul'' x.isLt y.isLt).trans (by decide))

theorem wide_sub (order : d ≤ s) : s.setWidth 32 - d.setWidth 32 = (s-d).setWidth 32 := by
  apply BitVec.eq_of_toNat_eq
  rw [BitVec.toNat_sub_of_le (by rw [BitVec.le_def,wide,wide]; exact order),wide,wide,wide,
    BitVec.toNat_sub_of_le order]

-- Source not below destination: nothing wraps.
theorem mixed_up (order : d ≤ s) :
    (mixed (d.setWidth 32) s a).toNat = (d.toNat + (s.toNat-d.toNat)*a.toNat/256)%2^32 := by
  rw [mixed,wide_sub d s order,BitVec.toNat_add,BitVec.toNat_ushiftRight,wide_product,wide,
    BitVec.toNat_sub_of_le order,Nat.shiftRight_eq_div_pow]

-- Source below destination: the product is 2^32 minus a number in 1..2^16.
theorem mixed_down (order : s ≤ d) : (mixed (d.setWidth 32) s a).toNat =
    (d.toNat + (2^32 - (d.toNat-s.toNat)*a.toNat)%2^32/256)%2^32 := by
  have negative : s.setWidth 32 - d.setWidth 32 = -((d-s).setWidth 32) := by
    rw [← wide_sub s d order,BitVec.neg_sub,BitVec.sub_eq_add_neg,BitVec.add_comm]
  rw [mixed,negative,BitVec.neg_mul,BitVec.toNat_add,BitVec.toNat_ushiftRight,BitVec.toNat_neg,wide_product,wide,
    BitVec.toNat_sub_of_le order,Nat.shiftRight_eq_div_pow]

theorem mixed_between : ∃ m, Between d s m ∧ Clean (mixed (d.setWidth 32) s a) m := by
  have scale : a.toNat ≤ 255 := Nat.le_of_lt_succ a.isLt
  rcases BitVec.le_total d s with above | below
  · have order : d.toNat ≤ s.toNat := above
    have product := Nat.mul_le_mul_left (s.toNat-d.toNat) scale
    have value := mixed_up d s a above
    generalize (s.toNat-d.toNat)*a.toNat = shifted at product value
    refine ⟨BitVec.ofNat 8 (d.toNat + shifted/256),.inl ?_,clean_of_toNat _ _ 0 ?_⟩
    all_goals simp only [BitVec.le_def,value,BitVec.toNat_ofNat]
    all_goals omega
  · have order : s.toNat ≤ d.toNat := below
    have product := Nat.mul_le_mul_left (d.toNat-s.toNat) scale
    have value := mixed_down d s a below
    generalize (d.toNat-s.toNat)*a.toNat = shifted at product value
    by_cases nothing : shifted = 0
    · refine ⟨d,.inr ⟨below,BitVec.le_refl d⟩,clean_of_toNat _ _ 0 ?_⟩
      rw [value,nothing]
      omega
    · refine ⟨BitVec.ofNat 8 (d.toNat + (2^32-shifted)/256 - 2^24),.inr ?_,clean_of_toNat _ _ 1 ?_⟩
      all_goals simp only [BitVec.le_def,value,BitVec.toNat_ofNat]
      all_goals omega
end Channel

section Packing
variable {r g b : BitVec 32} {mr mg mb : BitVec 8}

theorem clean_bit {v : BitVec 32} (clean : Clean v m) (i : Nat) (inside : i < 24) :
    v.getLsbD i = (decide (i < 8) && m.getLsbD i) := by
  by_cases low : i < 8
  · have same := congrArg (fun x => x.getLsbD i) clean.byte
    simpa [low] using same
  · have same := congrArg (fun x => x.getLsbD (i-8)) clean.above
    have place : 8+(i-8) = i := by omega
    simpa [low,place,show i-8 < 16 by omega] using same

theorem packed_bit (cr : Clean r mr) (cg : Clean g mg) (cb : Clean b mb) (i : Nat) (inside : i < 24) :
    (packed r g b).getLsbD i =
      if i < 8 then mb.getLsbD i else if i < 16 then mg.getLsbD (i-8) else mr.getLsbD (i-16) := by
  have empty : (0xFF000000#32).getLsbD i = false :=
    (show ∀ j < 24, (0xFF000000#32).getLsbD j = false by decide) i inside
  simp only [packed,BitVec.getLsbD_or,BitVec.getLsbD_shiftLeft,empty,Bool.false_or]
  rw [clean_bit cb i inside,clean_bit cg (i-8) (by omega),clean_bit cr (i-16) (by omega)]
  by_cases blue : i < 8
  · simp [blue,show i < 16 by omega]
  · by_cases green : i < 16
    · simp [blue,green,show i < 32 by omega,show i-8 < 8 by omega]
    · simp [blue,green,show i < 32 by omega,show ¬ i-8 < 8 by omega,show i-16 < 8 by omega]

theorem packed_channels (cr : Clean r mr) (cg : Clean g mg) (cb : Clean b mb) :
    channel (packed r g b) 0 = mb ∧ channel (packed r g b) 8 = mg ∧ channel (packed r g b) 16 = mr := by
  refine ⟨?_,?_,?_⟩
  all_goals
    apply BitVec.eq_of_getLsbD_eq
    intro i inside
    rw [channel,BitVec.getLsbD_extractLsb',packed_bit cr cg cb _ (by omega)]
  · simp [inside]
  · simp [inside,show ¬ 16 ≤ 8+i by omega]
  · simp [inside,show ¬ 16+i < 8 by omega]

theorem packed_alpha (r g b : BitVec 32) : channel (packed r g b) 24 = 0xFF#8 := by
  apply BitVec.eq_of_getLsbD_eq
  intro i inside
  have full : (0xFF000000#32).getLsbD (24+i) = true ∧ (0xFF#8).getLsbD i = true :=
    (show ∀ j < 8, (0xFF000000#32).getLsbD (24+j) = true ∧ (0xFF#8).getLsbD j = true by decide) i inside
  rw [channel,BitVec.getLsbD_extractLsb',packed,BitVec.getLsbD_or,BitVec.getLsbD_or,BitVec.getLsbD_or,full.1,full.2]
  simp [inside]
end Packing

theorem solid_bytes (s : Texel) (full : s.a = 255) : bytes (solid s) = s := by
  have clean (x : BitVec 8) : Clean (x.setWidth 32) x := clean_of_toNat _ _ 0 (by rw [wide]; omega)
  obtain ⟨blue,green,red⟩ := packed_channels (clean s.r) (clean s.g) (clean s.b)
  have alpha := packed_alpha (s.r.setWidth 32) (s.g.setWidth 32) (s.b.setWidth 32)
  rw [bytes,solid,blue,green,red,alpha]
  cases s
  exact congrArg (Texel.mk _ _ _) full.symm

theorem masked_byte (dst : BitVec 32) (place : Nat) : dst >>> place &&& 0xFF#32 = (channel dst place).setWidth 32 := by
  apply BitVec.eq_of_getLsbD_eq
  intro i inside
  have mask : (0xFF#32).getLsbD i = decide (i < 8) :=
    (show ∀ j < 32, (0xFF#32).getLsbD j = decide (j < 8) by decide) i inside
  rw [BitVec.getLsbD_and,mask,BitVec.getLsbD_setWidth,channel,BitVec.getLsbD_extractLsb',BitVec.getLsbD_ushiftRight]
  simp [inside,Bool.and_comm]

theorem blended_bytes (s : Texel) (dst : BitVec 32) : (bytes (blended s dst)).a = 0xFF ∧
    Between (bytes dst).b s.b (bytes (blended s dst)).b ∧ Between (bytes dst).g s.g (bytes (blended s dst)).g ∧
    Between (bytes dst).r s.r (bytes (blended s dst)).r := by
  obtain ⟨mr,redBetween,cr⟩ := mixed_between (channel dst 16) s.r s.a
  obtain ⟨mg,greenBetween,cg⟩ := mixed_between (channel dst 8) s.g s.a
  obtain ⟨mb,blueBetween,cb⟩ := mixed_between (channel dst 0) s.b s.a
  obtain ⟨blue,green,red⟩ := packed_channels cr cg cb
  have value : blended s dst = packed (mixed ((channel dst 16).setWidth 32) s.r s.a)
      (mixed ((channel dst 8).setWidth 32) s.g s.a) (mixed ((channel dst 0).setWidth 32) s.b s.a) := by
    simp only [blended,← masked_byte,BitVec.ushiftRight_zero]
  rw [value]
  simp only [bytes]
  rw [blue,green,red]
  exact ⟨packed_alpha _ _ _,blueBetween,greenBetween,redBetween⟩

end BudokaiRuntime.Rsx
