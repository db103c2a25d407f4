import BudokaiRuntime.Foundations.ZOrder
import Mathlib.Data.Set.NAry
import Mathlib.Data.Set.Prod
import Mathlib.Tactic.IntervalCases

-- The Z-order source index of a texel, for every shape the header scan accepts.
namespace BudokaiRuntime.Rsx
open ZOrder

def morton_spread (v : BitVec 32) : BitVec 32 :=
  let v := (v ||| v <<< 8) &&& 0x00FF00FF
  let v := (v ||| v <<< 4) &&& 0x0F0F0F0F
  let v := (v ||| v <<< 2) &&& 0x33333333
  (v ||| v <<< 1) &&& 0x55555555

def morton2d (x y : BitVec 32) : BitVec 32 := morton_spread x ||| morton_spread y <<< 1

def texDimAccepted (t : Nat) : Bool := !(t < 64 || t > 4096 || t &&& (t-1) != 0)

-- Where the pixel (x, y) of a swizzled texture is read.
def texelIndex (x y : Nat) : Nat := (morton2d (BitVec.ofNat 32 x) (BitVec.ofNat 32 y)).toNat

-- Every texel of the buffer is used exactly once.
structure DeSwizzles (w h : Nat) : Prop where
  inside : ∀ x < w, ∀ y < h, texelIndex x y < w*h
  distinct : ∀ x < w, ∀ y < h, ∀ x' < w, ∀ y' < h, texelIndex x y = texelIndex x' y' → x = x' ∧ y = y'
  used : ∀ i < w*h, ∃ x < w, ∃ y < h, texelIndex x y = i

theorem accepted_power (accepted : texDimAccepted t = true) : ∃ a, 6 ≤ a ∧ a ≤ 12 ∧ t = 2^a := by
  simp only [texDimAccepted,Bool.not_eq_true',Bool.or_eq_false_iff,decide_eq_false_iff_not,bne_eq_false_iff_eq,
    gt_iff_lt,not_lt] at accepted
  obtain ⟨⟨low,high⟩,single⟩ := accepted
  obtain ⟨a,rfl⟩ := (Nat.and_sub_one_eq_zero_iff_isPowerOfTwo (by omega)).mp single
  refine ⟨a,?_,?_,rfl⟩
  · exact (Nat.pow_le_pow_iff_right (by decide)).mp (show 2^6 ≤ 2^a by omega)
  · exact (Nat.pow_le_pow_iff_right (by decide)).mp (show 2^a ≤ 2^12 by omega)

theorem spread_bit (v : BitVec 32) (small : ∀ k, 16 ≤ k → v.getLsbD k = false) (i : Nat) (bound : i < 32) :
    (morton_spread v).getLsbD i = (decide (i % 2 = 0) && v.getLsbD (i/2)) := by
  have high (k : Nat) (inside : k < 32) (above : 16 ≤ k) : v[k] = false := small k above
  simp only [morton_spread,BitVec.getLsbD_and,BitVec.getLsbD_or,BitVec.getLsbD_shiftLeft]
  interval_cases i <;> simp [high]

theorem coordinate_bit (x k : Nat) (small : x < 2^16) : (BitVec.ofNat 32 x).getLsbD k = x.testBit k := by
  rw [BitVec.getLsbD_ofNat]
  by_cases inside : k < 32
  · simp [inside]
  · have above : x < 2^k := small.trans_le (Nat.pow_le_pow_right (by decide) (by omega))
    simp [inside,Nat.testBit_lt_two_pow above]

-- Bits of x in the even places of the index, bits of y in the odd ones.
theorem texel_interleaved (x y : Nat) (xs : x < 2^16) (ys : y < 2^16) : Interleaved 16 (texelIndex x y) x y := by
  have low (v : Nat) (small : v < 2^16) (k : Nat) (above : 16 ≤ k) : (BitVec.ofNat 32 v).getLsbD k = false :=
    (coordinate_bit v k small).trans (high_bit small k above)
  refine ⟨BitVec.isLt _,fun i bound => ?_⟩
  rw [texelIndex,morton2d,BitVec.testBit_toNat,BitVec.getLsbD_or,BitVec.getLsbD_shiftLeft,
    spread_bit _ (low x xs) i bound,coordinate_bit x _ xs]
  by_cases even : i % 2 = 0
  · by_cases first : i = 0
    · simp [first]
    · rw [spread_bit _ (low y ys) (i-1) (by omega)]
      have odd : ¬ (i-1) % 2 = 0 := by omega
      simp [even,odd]
  · rw [spread_bit _ (low y ys) (i-1) (by omega),coordinate_bit y _ ys]
    have before : (i-1) % 2 = 0 := by omega
    have half : (i-1)/2 = i/2 := by omega
    have some : ¬ i < 1 := by omega
    have word : i < 32 := bound
    simp [even,before,half,some,word]

theorem texel_inj (x y x' y' : Nat) (xs : x < 2^16) (ys : y < 2^16) (xs' : x' < 2^16) (ys' : y' < 2^16)
    (same : texelIndex x y = texelIndex x' y') : x = x' ∧ y = y' := by
  have one := texel_interleaved x y xs ys
  have two := texel_interleaved x' y' xs' ys'
  rw [← same] at two
  exact interleaved_inj one two xs ys xs' ys'

section Shapes
variable (a b : Nat) (wide : a ≤ 12) (tall : b ≤ 12)
include wide tall

theorem coordinates_small (x y : Nat) (xs : x < 2^a) (ys : y < 2^b) : x < 2^16 ∧ y < 2^16 :=
  ⟨xs.trans_le (Nat.pow_le_pow_right (by decide) (by omega)),ys.trans_le (Nat.pow_le_pow_right (by decide) (by omega))⟩

theorem coordinates_interleaved (x y : Nat) (xs : x < 2^a) (ys : y < 2^b) :
    Interleaved 16 (texelIndex x y) x y := by
  obtain ⟨xs,ys⟩ := coordinates_small a b wide tall x y xs ys
  exact texel_interleaved x y xs ys

theorem texel_outside (wider : b+2 ≤ a ∨ a+1 ≤ b) : ∃ x < 2^a, ∃ y < 2^b, 2^(a+b) ≤ texelIndex x y := by
  have power (c : Nat) (some : 0 < c) : 2^(c-1) < 2^c := Nat.pow_lt_pow_right (by decide) (by omega)
  rcases wider with wider | higher
  · refine ⟨2^(a-1),power a (by omega),0,Nat.two_pow_pos b,?_⟩
    have corner := row_corner (coordinates_interleaved a b wide tall (2^(a-1)) 0 (power a (by omega))
      (Nat.two_pow_pos b)) (by omega)
    exact (Nat.pow_le_pow_right (by decide) (by omega)).trans corner
  · refine ⟨0,Nat.two_pow_pos a,2^(b-1),power b (by omega),?_⟩
    have corner := column_corner (coordinates_interleaved a b wide tall 0 (2^(b-1)) (Nat.two_pow_pos a)
      (power b (by omega))) (by omega)
    exact (Nat.pow_le_pow_right (by decide) (by omega)).trans corner
end Shapes

section Accepted
variable (w h : Nat) (width : texDimAccepted w = true) (height : texDimAccepted h = true)
include width height

theorem indices_inside_iff : (∀ x < w, ∀ y < h, texelIndex x y < w*h) ↔ w = h ∨ w = 2*h := by
  obtain ⟨a,_,wide,rfl⟩ := accepted_power width
  obtain ⟨b,_,tall,rfl⟩ := accepted_power height
  have shape : (2^a = 2^b ∨ 2^a = 2*2^b) ↔ a = b ∨ a = b+1 := by
    rw [← Nat.pow_succ',Nat.pow_right_inj (by decide),Nat.pow_right_inj (by decide)]
  rw [shape,← Nat.pow_add]
  constructor
  · intro inside
    by_contra other
    obtain ⟨x,xs,y,ys,past⟩ := texel_outside a b wide tall (by omega)
    have below := inside x xs y ys
    omega
  · intro fits x xs y ys
    exact interleaved_lt (coordinates_interleaved a b wide tall x y xs ys) fits xs ys

theorem indices_distinct (x y x' y' : Nat) (xs : x < w) (ys : y < h) (xs' : x' < w) (ys' : y' < h)
    (same : texelIndex x y = texelIndex x' y') : x = x' ∧ y = y' := by
  obtain ⟨a,_,wide,rfl⟩ := accepted_power width
  obtain ⟨b,_,tall,rfl⟩ := accepted_power height
  obtain ⟨xs,ys⟩ := coordinates_small a b wide tall x y xs ys
  obtain ⟨xs',ys'⟩ := coordinates_small a b wide tall x' y' xs' ys'
  exact texel_inj x y x' y' xs ys xs' ys' same
end Accepted

theorem deswizzles_iff (w h : Nat) (width : texDimAccepted w = true) (height : texDimAccepted h = true) :
    DeSwizzles w h ↔ w = h ∨ w = 2*h := by
  rw [← indices_inside_iff w h width height]
  refine ⟨DeSwizzles.inside,fun inside => ?_⟩
  have distinct : ∀ x < w, ∀ y < h, ∀ x' < w, ∀ y' < h, texelIndex x y = texelIndex x' y' → x = x' ∧ y = y' :=
    fun x xs y ys x' xs' y' ys' => indices_distinct w h width height x y x' y' xs ys xs' ys'
  exact ⟨inside,distinct,numbering_onto w h texelIndex inside distinct⟩

theorem deswizzles_iff_wide : DeSwizzles 128 64 ↔ 128 = 64 ∨ 128 = 2*64 :=
  deswizzles_iff 128 64 (by decide) (by decide)

-- 64 wide and 128 high: the last row starts past the last texel.
theorem tall_texture_reads_past : ¬ ∀ w h, texDimAccepted w = true → texDimAccepted h = true → DeSwizzles w h := by
  intro swizzles
  have below := (swizzles 64 128 (by decide) (by decide)).inside 0 (by decide) 64 (by decide)
  exact absurd below (by decide)

def below (n : Nat) : Set (BitVec 32) := {v | v.toNat < n}

theorem texelIndex_words (x y : BitVec 32) : texelIndex x.toNat y.toNat = (morton2d x y).toNat := by
  rw [texelIndex,BitVec.ofNat_toNat,BitVec.ofNat_toNat,BitVec.setWidth_eq,BitVec.setWidth_eq]

theorem morton_interleaved (x y : BitVec 32) (xs : x ∈ below (2^16)) (ys : y ∈ below (2^16)) :
    Interleaved 16 (morton2d x y).toNat x.toNat y.toNat := by
  rw [← texelIndex_words]
  exact texel_interleaved x.toNat y.toNat xs ys

theorem morton_inj (x y x' y' : BitVec 32) (xs : x ∈ below (2^16)) (ys : y ∈ below (2^16)) (xs' : x' ∈ below (2^16))
    (ys' : y' ∈ below (2^16)) (same : morton2d x y = morton2d x' y') : x = x' ∧ y = y' := by
  have index : texelIndex x.toNat y.toNat = texelIndex x'.toNat y'.toNat := by
    rw [texelIndex_words,texelIndex_words,same]
  obtain ⟨left,right⟩ := texel_inj _ _ _ _ xs ys xs' ys' index
  exact ⟨BitVec.eq_of_toNat_eq left,BitVec.eq_of_toNat_eq right⟩

theorem morton_square (small : k ≤ 16) : Set.image2 morton2d (below (2^k)) (below (2^k)) = below (4^k) := by
  have area : 4^k = 2^k*2^k := by rw [← Nat.mul_pow]
  have coordinate (x : Nat) (inside : x < 2^k) : x < 2^16 :=
    inside.trans_le (Nat.pow_le_pow_right (by decide) small)
  have bound : ∀ x < 2^k, ∀ y < 2^k, texelIndex x y < 2^k*2^k := by
    intro x xs y ys
    rw [← Nat.pow_add]
    exact interleaved_lt (texel_interleaved x y (coordinate x xs) (coordinate y ys)) (.inl rfl) xs ys
  have distinct : ∀ x < 2^k, ∀ y < 2^k, ∀ x' < 2^k, ∀ y' < 2^k, texelIndex x y = texelIndex x' y' → x = x' ∧ y = y' := by
    intro x xs y ys x' xs' y' ys'
    exact texel_inj x y x' y' (coordinate x xs) (coordinate y ys) (coordinate x' xs') (coordinate y' ys')
  ext v
  constructor
  · rintro ⟨x,xs,y,ys,rfl⟩
    have inside := bound x.toNat xs y.toNat ys
    rw [texelIndex_words,← area] at inside
    exact inside
  · intro inside
    obtain ⟨x,xs,y,ys,same⟩ := numbering_onto (2^k) (2^k) texelIndex bound distinct v.toNat (area ▸ inside)
    have word (c : Nat) (cs : c < 2^k) : (BitVec.ofNat 32 c).toNat = c :=
      Nat.mod_eq_of_lt ((coordinate c cs).trans (by decide))
    refine ⟨BitVec.ofNat 32 x,?_,BitVec.ofNat 32 y,?_,BitVec.eq_of_toNat_eq same⟩
    · show (BitVec.ofNat 32 x).toNat < 2^k
      rw [word x xs]
      exact xs
    · show (BitVec.ofNat 32 y).toNat < 2^k
      rw [word y ys]
      exact ys

theorem morton2d_numbers_square :
    (∀ x ∈ below (2^16), ∀ y ∈ below (2^16), ∀ i < 16,
      (morton2d x y).getLsbD (2*i) = x.getLsbD i ∧ (morton2d x y).getLsbD (2*i+1) = y.getLsbD i) ∧
    Set.BijOn (Function.uncurry morton2d) (below (2^16) ×ˢ below (2^16)) Set.univ ∧
    (∀ y ∈ below (2^16), ∀ x ∈ below (2^16), ∀ x' ∈ below (2^16), x < x' → morton2d x y < morton2d x' y) ∧
    (∀ x ∈ below (2^16), ∀ y ∈ below (2^16), ∀ y' ∈ below (2^16), y < y' → morton2d x y < morton2d x y') ∧
    ∀ k ≤ 16, Set.image2 morton2d (below (2^k)) (below (2^k)) = below (4^k) := by
  refine ⟨?_,⟨?_,?_,?_⟩,?_,?_,fun k small => morton_square small⟩
  · intro x xs y ys i inside
    have z := morton_interleaved x y xs ys
    exact ⟨even_bit z i inside,odd_bit z i inside⟩
  · exact fun _ _ => trivial
  · rintro ⟨x,y⟩ ⟨xs,ys⟩ ⟨x',y'⟩ ⟨xs',ys'⟩ same
    obtain ⟨rfl,rfl⟩ := morton_inj x y x' y' xs ys xs' ys' same
    rfl
  · intro v _
    have whole : v ∈ below (4^16) := v.isLt
    rw [← morton_square (Nat.le_refl 16)] at whole
    obtain ⟨x,xs,y,ys,same⟩ := whole
    exact ⟨(x,y),⟨xs,ys⟩,same⟩
  · intro y ys x xs x' xs' less
    exact interleaved_row (morton_interleaved x y xs ys) (morton_interleaved x' y xs' ys) xs' less
  · intro x xs y ys y' ys' less
    exact interleaved_column (morton_interleaved x y xs ys) (morton_interleaved x y' xs ys') ys' less

end BudokaiRuntime.Rsx
