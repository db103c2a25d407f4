import BudokaiRuntime.Rsx.TextureEntry
import BudokaiRuntime.Rsx.Frame

-- The pictures of the archive, from its bytes to the screen.
namespace BudokaiRuntime.Rsx
open Pieces ZOrder

def dim (n : Nat) : CInt := ⟨int n,by
  unfold int
  rw [Int.bmod_def]
  split <;> omega⟩

-- Only the buffer itself is modelled.
def Texture.picture (t : Texture) : Picture := ⟨some fun i => t.pixels.getD i.toNat 0,dim t.w,dim t.h⟩

-- A load into three variables, which a failure leaves alone.
def Picture.load (p : Picture) (uninit : Uninit) (afs : Option Archive) (entry_idx : BitVec 32) : Bool × Picture :=
  match load_a3t_entry uninit afs entry_idx ⟨[],0,0⟩ with
  | (true,t) => (true,t.picture)
  | (false,_) => (false,p)

def BG_ENTRIES : List (BitVec 32) := [15,1,2,3,4,5,6,7]

-- What each load finds in its buffers may differ.
def load_pool (uninit : BitVec 32 → Uninit) (afs : Option Archive) (b : Backdrop) : List (BitVec 32) → Backdrop
  | [] => b
  | entry_idx :: rest =>
      if room : b.bg_count.val < BG_SLOTS then
        let slot : Fin BG_SLOTS := ⟨b.bg_count,room⟩
        match (b.pool slot).load (uninit entry_idx) afs entry_idx with
        | (true,p) => load_pool uninit afs
            {b with pool := Function.update b.pool slot p,bg_count := ⟨b.bg_count+1,Nat.succ_lt_succ room⟩} rest
        | (false,p) => load_pool uninit afs {b with pool := Function.update b.pool slot p} rest
      else b

def rsx_load_launch_background (uninit : BitVec 32 → Uninit) (afs : Option Archive) (b : Backdrop) : Backdrop :=
  let b := load_pool uninit afs {b with bg_count := ⟨0,Nat.succ_pos BG_SLOTS⟩} BG_ENTRIES
  {b with
    overlay1 := (b.overlay1.load (uninit 12) afs 12).2
    overlay2 := (b.overlay2.load (uninit 13) afs 13).2}

def archive_texel (a : Archive) (entry_idx : BitVec 32) (gcm_off x y : Nat) : Texel :=
  let fmt := tex_fmt a entry_idx gcm_off
  let src := fun k => a.bytes ((entry_off a entry_idx).toNat + gcm_off + 0x68 + k)
  let px := bgra fmt src (source_index fmt (tex_w a entry_idx gcm_off) x y)
  ⟨px.getD 0 0,px.getD 1 0,px.getD 2 0,px.getD 3 0⟩

def shown_entries (a : Archive) : List (BitVec 32) := BG_ENTRIES.filter fun entry_idx => (accepted a entry_idx).isSome

def ground (a : Archive) (frame_no x y : Nat) : BitVec 32 :=
  match (shown_entries a)[frame_no/120 % (shown_entries a).length]? with
  | none => 0xFF080810
  | some entry_idx =>
      match accepted a entry_idx with
      | none => 0xFF080810
      | some gcm_off => solid (archive_texel a entry_idx gcm_off (x*tex_w a entry_idx gcm_off/1280)
          (y*tex_h a entry_idx gcm_off/720))

def corner_left (right : Bool) : Nat := if right then 1024 else 0

def cornered (a : Archive) (entry_idx : BitVec 32) (right : Bool) (x y : Nat) (old : BitVec 32) : BitVec 32 :=
  match accepted a entry_idx with
  | none => old
  | some gcm_off =>
      let left := corner_left right
      if left ≤ x ∧ x < left+256 ∧ 464 ≤ y then
        drawn (archive_texel a entry_idx gcm_off ((x-left)*tex_w a entry_idx gcm_off/256)
          ((y-464)*tex_h a entry_idx gcm_off/256)) old
      else old

-- An entry is all there, in a shape the decoder stays inside.
structure Whole (a : Archive) (entry_idx : BitVec 32) (gcm_off : Nat) : Prop where
  present : EntryPresent a entry_idx gcm_off
  fits : ShapeFits (tex_fmt a entry_idx gcm_off) (tex_w a entry_idx gcm_off) (tex_h a entry_idx gcm_off)

section Pixels
variable (fmt : BitVec 8) (w h : Nat) (src : Nat → BitVec 8)

theorem decoded_at (x y c : Nat) (xs : x < w) (ys : y < h) (inside : c < 4) :
    (decoded fmt w h src)[(y*w+x)*4+c]? = (bgra fmt src (source_index fmt w x y))[c]? := by
  have row (y : Nat) : ((List.range w).flatMap fun x => bgra fmt src (source_index fmt w x y)).length = w*4 := by
    simp only [List.length_flatMap,bgra_length,List.map_const',List.length_range,List.sum_replicate_nat]
  have place : (y*w+x)*4+c = y*(w*4)+(x*4+c) := by
    rw [Nat.add_mul,Nat.mul_assoc,Nat.add_assoc]
  have short : x*4+c < w*4 := by omega
  rw [place,decoded,flatMap_at _ (w*4) h row y (x*4+c) ys short]
  exact flatMap_at _ 4 w (fun x => bgra_length fmt src _) x c xs inside
end Pixels

section Lossless
-- A channel of so many bits, widened to eight; the top bits give it back.
def widen (bits : Nat) (v : BitVec 16) : BitVec 8 := (v <<< (8-bits) ||| v >>> (2*bits-8)).setWidth 8

theorem widen_inj (bits : Nat) (narrow : bits < 9)
    (back : ∀ u : Fin (2^bits), (widen bits (BitVec.ofNat 16 u)).toNat / 2^(8-bits) = u) (v v' : BitVec 16)
    (same : widen bits (v &&& BitVec.ofNat 16 (2^bits-1)) = widen bits (v' &&& BitVec.ofNat 16 (2^bits-1))) :
    v.toNat % 2^bits = v'.toNat % 2^bits := by
  have positive : 0 < 2^bits := Nat.two_pow_pos bits
  have fits : 2^bits ≤ 2^8 := Nat.pow_le_pow_right (by decide) (by omega)
  have low (v : BitVec 16) : (widen bits (v &&& BitVec.ofNat 16 (2^bits-1))).toNat / 2^(8-bits) = v.toNat % 2^bits := by
    have below := Nat.mod_lt v.toNat positive
    have short : v.toNat % 2^bits < 2^16 := by omega
    have kept : v &&& BitVec.ofNat 16 (2^bits-1) = BitVec.ofNat 16 (v.toNat % 2^bits) := by
      refine BitVec.eq_of_toNat_eq ?_
      rw [BitVec.toNat_and,BitVec.toNat_ofNat,BitVec.toNat_ofNat,Nat.mod_eq_of_lt (by omega),
        Nat.mod_eq_of_lt short,Nat.and_two_pow_sub_one_eq_mod]
    rw [kept]
    exact back ⟨v.toNat % 2^bits,below⟩
  rw [← low v,← low v',same]

theorem halves_inj (hi lo hi' lo' : BitVec 8)
    (same : hi.setWidth 16 <<< 8 ||| lo.setWidth 16 = hi'.setWidth 16 <<< 8 ||| lo'.setWidth 16) : hi = hi' ∧ lo = lo' := by
  have high (hi lo : BitVec 8) : ((hi.setWidth 16 <<< 8 ||| lo.setWidth 16) >>> 8).setWidth 8 = hi := by
    ext i inside
    interval_cases i <;> simp
  have low (hi lo : BitVec 8) : (hi.setWidth 16 <<< 8 ||| lo.setWidth 16).setWidth 8 = lo := by
    ext i inside
    interval_cases i <;> simp
  exact ⟨by rw [← high hi lo,same,high],by rw [← low hi lo,same,low]⟩

theorem bgra_inj (fmt : BitVec 8) (src src' : Nat → BitVec 8) (si : Nat) (same : bgra fmt src si = bgra fmt src' si) :
    ∀ k < texel_size fmt, src (si*texel_size fmt+k) = src' (si*texel_size fmt+k) := by
  unfold bgra at same
  unfold texel_size
  by_cases packed : fmt &&& 0x1F = 4
  · simp only [if_pos packed] at same ⊢
    generalize one : (src (si*2)).setWidth 16 <<< 8 ||| (src (si*2+1)).setWidth 16 = px at same
    generalize two : (src' (si*2)).setWidth 16 <<< 8 ||| (src' (si*2+1)).setWidth 16 = px' at same
    obtain ⟨blue,rest⟩ := List.cons.inj same
    obtain ⟨green,rest⟩ := List.cons.inj rest
    have b5 := widen_inj 5 (by decide) (by decide) px px' blue
    have g6 := widen_inj 6 (by decide) (by decide) (px >>> 5) (px' >>> 5) green
    have r5 := widen_inj 5 (by decide) (by decide) (px >>> 11) (px' >>> 11) (List.cons.inj rest).1
    have equal : px = px' := by
      refine BitVec.eq_of_toNat_eq ?_
      rw [BitVec.toNat_ushiftRight,BitVec.toNat_ushiftRight,Nat.shiftRight_eq_div_pow,Nat.shiftRight_eq_div_pow] at g6 r5
      omega
    obtain ⟨high,low⟩ := halves_inj _ _ _ _ (one.trans (equal.trans two.symm))
    intro k inside
    interval_cases k
    · exact high
    · exact low
  · simp only [if_neg packed] at same ⊢
    obtain ⟨three,rest⟩ := List.cons.inj same
    obtain ⟨two,rest⟩ := List.cons.inj rest
    obtain ⟨one,rest⟩ := List.cons.inj rest
    intro k inside
    interval_cases k
    · exact (List.cons.inj rest).1
    · exact one
    · exact two
    · exact three

theorem source_distinct (fmt : BitVec 8) (w h : Nat) (width : texDimAccepted w = true) (height : texDimAccepted h = true) :
    ∀ x < w, ∀ y < h, ∀ x' < w, ∀ y' < h, source_index fmt w x y = source_index fmt w x' y' → x = x' ∧ y = y' := by
  intro x xs y ys x' xs' y' ys' same
  unfold source_index at same
  cases linear : tex_linear fmt with
  | true =>
      rw [linear,if_pos rfl,if_pos rfl] at same
      have parts (x y : Nat) (xs : x < w) : (y*w+x)/w = y ∧ (y*w+x)%w = x := by
        refine (Nat.div_mod_unique (Nat.zero_lt_of_lt xs)).mpr ⟨?_,xs⟩
        rw [Nat.mul_comm,Nat.add_comm]
      have one := parts x y xs
      have two := parts x' y' xs'
      rw [same] at one
      exact ⟨one.2.symm.trans two.2,one.1.symm.trans two.1⟩
  | false =>
      rw [linear,if_neg Bool.false_ne_true,if_neg Bool.false_ne_true] at same
      exact indices_distinct w h width height x y x' y' xs ys xs' ys' same

-- Outside those shapes some texel lies behind the others, and its bytes show.
theorem decoding_overreads (fmt : BitVec 8) (w h : Nat) (width : texDimAccepted w = true) (height : texDimAccepted h = true)
    (unfit : ¬ ShapeFits fmt w h) :
    ∃ src src', (∀ k < w*h*texel_size fmt, src k = src' k) ∧ decoded fmt w h src ≠ decoded fmt w h src' := by
  rw [← source_inside fmt w h width height] at unfit
  push Not at unfit
  obtain ⟨x,xs,y,ys,past⟩ := unfit
  have least := Nat.mul_le_mul_right (texel_size fmt) past
  refine ⟨fun _ => 0,fun k => if k < w*h*texel_size fmt then 0 else 0xFF,fun k inside => (if_pos inside).symm,fun agree => ?_⟩
  refine bgra_shows fmt _ _ _ (fun _ _ => rfl) (fun k far => ?_) ((decoded_eq_iff _ _ _ _ _).mp agree y ys x xs)
  exact if_neg (Nat.not_lt.mpr (least.trans far))

theorem decoding_lossless (fmt : BitVec 8) (w h : Nat) (width : texDimAccepted w = true) (height : texDimAccepted h = true)
    (fits : ShapeFits fmt w h) (src src' : Nat → BitVec 8) :
    decoded fmt w h src = decoded fmt w h src' ↔ ∀ k < w*h*texel_size fmt, src k = src' k := by
  have positive : 0 < texel_size fmt := by
    unfold texel_size
    split <;> decide
  have inside := (source_inside fmt w h width height).mpr fits
  rw [decoded_eq_iff]
  constructor
  · intro same k below
    have turn : k/texel_size fmt < w*h := Nat.div_lt_of_lt_mul (by rwa [Nat.mul_comm])
    obtain ⟨x,xs,y,ys,place⟩ := numbering_onto w h (source_index fmt w) inside
      (source_distinct fmt w h width height) (k/texel_size fmt) turn
    have bytes := bgra_inj fmt src src' _ (same y ys x xs) (k%texel_size fmt) (Nat.mod_lt k positive)
    rwa [place,Nat.div_add_mod'] at bytes
  · intro same y ys x xs
    refine bgra_congr fmt src src' _ fun k low => same _ ?_
    have last := Nat.mul_le_mul_right (texel_size fmt) (Nat.succ_le_of_lt (inside x xs y ys))
    rw [Nat.succ_mul] at last
    omega

-- Decoding loses nothing and takes in nothing else, for exactly the shapes it stays inside; for
-- the others the picture depends on what lies behind the texels.
theorem decoding_lossless_iff (fmt : BitVec 8) (w h : Nat) (width : texDimAccepted w = true) (height : texDimAccepted h = true) :
    ((∀ src src', decoded fmt w h src = decoded fmt w h src' ↔ ∀ k < w*h*texel_size fmt, src k = src' k) ↔
      ShapeFits fmt w h) ∧
    (¬ ShapeFits fmt w h → ∃ src src', (∀ k < w*h*texel_size fmt, src k = src' k) ∧
      decoded fmt w h src ≠ decoded fmt w h src') := by
  have overreads := decoding_overreads fmt w h width height
  refine ⟨⟨fun lossless => ?_,fun fits => decoding_lossless fmt w h width height fits⟩,overreads⟩
  by_contra unfit
  obtain ⟨src,src',agree,differ⟩ := overreads unfit
  exact differ ((lossless src src').mpr agree)

theorem decoding_lossless_iff_swizzled :
    (∀ src src', decoded 0x85 128 64 src = decoded 0x85 128 64 src' ↔ ∀ k < 128*64*texel_size 0x85, src k = src' k) ∧
      ∃ src src', (∀ k < 64*128*texel_size 0x85, src k = src' k) ∧ decoded 0x85 64 128 src ≠ decoded 0x85 64 128 src' := by
  refine ⟨(decoding_lossless_iff 0x85 128 64 (by decide) (by decide)).1.mpr (.inr (.inr rfl)),?_⟩
  refine (decoding_lossless_iff 0x85 64 128 (by decide) (by decide)).2 ?_
  unfold ShapeFits
  decide
end Lossless

section Sizes
variable {n : Nat}

theorem accepted_size (size : texDimAccepted n = true) : 0 < n ∧ n ≤ 4096 := by
  obtain ⟨e,_,small,rfl⟩ := accepted_power size
  exact ⟨Nat.two_pow_pos e,Nat.pow_le_pow_right (by decide) small⟩

theorem dim_val (small : n ≤ 4096) : (dim n).val = n := by
  unfold dim
  dsimp only
  exact int_fits n (by omega) (by omega)

theorem byte_place (small : n < 2^29) : int ((n : Int)*4) = ((n*4 : Nat) : Int) := by
  rw [int_fits _ (by omega) (by omega),Nat.cast_mul]
  rfl

theorem nearest_inside {d count size : Nat} (low : d < count) (positive : 0 < size) : d*size/count < size := by
  rw [Nat.div_lt_iff_lt_mul (Nat.zero_lt_of_lt low),Nat.mul_comm size]
  exact Nat.mul_lt_mul_of_pos_right low positive
end Sizes

section Entry
variable (a : Archive) (entry_idx : BitVec 32) (gcm_off : Nat)

theorem entry_texel (found : accepted a entry_idx = some gcm_off) (whole : Whole a entry_idx gcm_off)
    (before : Nat → BitVec 8) (x y : Nat) (xs : x < tex_w a entry_idx gcm_off) (ys : y < tex_h a entry_idx gcm_off) :
    texel (fun i => (texture a entry_idx before gcm_off).pixels.getD i.toNat 0)
      (((y*tex_w a entry_idx gcm_off+x)*4 : Nat) : Int) = archive_texel a entry_idx gcm_off x y := by
  obtain ⟨width,height⟩ := accepted_found a entry_idx found
  have inside := (source_inside _ _ _ width height).mpr whole.fits x xs y ys
  have bytes : bgra (tex_fmt a entry_idx gcm_off) (a.read (pixel_pos a entry_idx gcm_off) (tex_w a entry_idx gcm_off*
      tex_h a entry_idx gcm_off*texel_size (tex_fmt a entry_idx gcm_off)) before)
        (source_index (tex_fmt a entry_idx gcm_off) (tex_w a entry_idx gcm_off) x y) =
      bgra (tex_fmt a entry_idx gcm_off) (fun k => a.bytes ((entry_off a entry_idx).toNat + gcm_off + 0x68 + k))
        (source_index (tex_fmt a entry_idx gcm_off) (tex_w a entry_idx gcm_off) x y) := by
    refine bgra_congr _ _ _ _ fun k low => ?_
    have last := Nat.mul_le_mul_right (texel_size (tex_fmt a entry_idx gcm_off)) (Nat.succ_le_of_lt inside)
    rw [Nat.succ_mul] at last
    rw [read_file a _ _ before _ whole.present.texels.2 (by omega),whole.present.texels.1]
  have component (c : Nat) (low : c < 4) :
      (texture a entry_idx before gcm_off).pixels.getD ((((y*tex_w a entry_idx gcm_off+x)*4 : Nat) : Int)+c).toNat 0 =
        (bgra (tex_fmt a entry_idx gcm_off) (fun k => a.bytes ((entry_off a entry_idx).toNat + gcm_off + 0x68 + k))
          (source_index (tex_fmt a entry_idx gcm_off) (tex_w a entry_idx gcm_off) x y)).getD c 0 := by
    have place : ((((y*tex_w a entry_idx gcm_off+x)*4 : Nat) : Int)+c).toNat = (y*tex_w a entry_idx gcm_off+x)*4+c := by
      omega
    rw [place,List.getD_eq_getElem?_getD,List.getD_eq_getElem?_getD,texture]
    dsimp only
    rw [decoded_at _ _ _ _ x y c xs ys low,bytes]
  unfold texel archive_texel
  exact congr (congr (congr (congrArg Texel.mk (component 0 (by decide))) (component 1 (by decide)))
    (component 2 (by decide))) (component 3 (by decide))
end Entry

section Background
variable (src : Int → BitVec 8) {w h x y : Nat} (wide : 0 < w ∧ w ≤ 4096) (high : 0 < h ∧ h ≤ 4096)
include wide high

theorem bg_pixel_nearest (xs : x < 1280) (ys : y < 720) :
    bg_pixel src (dim w) (dim h) x y = solid (texel src ((((y*h/720)*w + x*w/1280)*4 : Nat) : Int)) := by
  have row := nearest_inside ys high.1
  have column := nearest_inside xs wide.1
  have acrossFits : x*w < 2^31 := lt_of_le_of_lt (Nat.mul_le_mul xs.le wide.2) (by decide)
  have downFits : y*h < 2^31 := lt_of_le_of_lt (Nat.mul_le_mul ys.le high.2) (by decide)
  have rowFits : y*h/720*w < 2^29 := lt_of_le_of_lt (Nat.mul_le_mul (row.le.trans high.2) wide.2) (by decide)
  have down : (int ((y : Int)*dim h)).tdiv FB_H = ((y*h/720 : Nat) : Int) := by
    rw [dim_val high.2,int_scaled y h FB_H (by omega) (by omega) (by exact_mod_cast downFits)]
    push_cast
    rfl
  have across : (int ((x : Int)*dim w)).tdiv FB_W = ((x*w/1280 : Nat) : Int) := by
    rw [dim_val wide.2,int_scaled x w FB_W (by omega) (by omega) (by exact_mod_cast acrossFits)]
    push_cast
    rfl
  have start : int (((y*h/720 : Nat) : Int)*dim w) = ((y*h/720*w : Nat) : Int) := by
    rw [dim_val wide.2,← Nat.cast_mul]
    exact int_fits _ (by omega) (by omega)
  have place : int (((y*h/720*w : Nat) : Int)*4) + int (((x*w/1280 : Nat) : Int)*4) =
      ((((y*h/720)*w + x*w/1280)*4 : Nat) : Int) := by
    have columnFits : x*w/1280 < 2^29 := column.trans (lt_of_le_of_lt wide.2 (by decide))
    rw [byte_place rowFits,byte_place columnFits,← Nat.cast_add,← Nat.add_mul]
  unfold bg_pixel
  dsimp only
  rw [down,across,start,place]
  rfl
end Background

section Pool
variable {a : Archive} {entry_idx : BitVec 32} {gcm_off : Nat}

theorem load_refused (p : Picture) (uninit : Uninit) (refused : accepted a entry_idx = none) :
    p.load uninit (some a) entry_idx = (false,p) := by
  unfold Picture.load
  rw [load_cases,refused]

theorem load_taken (p : Picture) (uninit : Uninit) (found : accepted a entry_idx = some gcm_off) :
    p.load uninit (some a) entry_idx = (true,(texture a entry_idx uninit.src gcm_off).picture) := by
  unfold Picture.load
  rw [load_cases,found]

structure Pooled (a : Archive) (uninit : BitVec 32 → Uninit) (shown : List (BitVec 32)) (b b' : Backdrop) : Prop where
  count : b'.bg_count.val = b.bg_count.val + shown.length
  loaded : ∀ k entry_idx, shown[k]? = some entry_idx → ∃ gcm_off, accepted a entry_idx = some gcm_off ∧
    ∀ slot : Fin BG_SLOTS, slot.val = b.bg_count.val + k →
      b'.pool slot = (texture a entry_idx (uninit entry_idx).src gcm_off).picture
  others : ∀ slot : Fin BG_SLOTS, slot.val < b.bg_count.val ∨ b.bg_count.val + shown.length ≤ slot.val →
    b'.pool slot = b.pool slot
  rest : b'.bg_current = b.bg_current ∧ b'.overlay1 = b.overlay1 ∧ b'.overlay2 = b.overlay2

theorem load_pool_pooled (uninit : BitVec 32 → Uninit) (l : List (BitVec 32)) (b : Backdrop)
    (room : b.bg_count.val + l.length ≤ BG_SLOTS) :
    Pooled a uninit (l.filter fun entry_idx => (accepted a entry_idx).isSome) b (load_pool uninit (some a) b l) := by
  induction l generalizing b with
  | nil => exact ⟨rfl,nofun,fun _ _ => rfl,rfl,rfl,rfl⟩
  | cons entry_idx l ih =>
      rw [List.length_cons] at room
      have here : b.bg_count.val < BG_SLOTS := by omega
      rw [load_pool,dif_pos here]
      dsimp only
      cases found : accepted a entry_idx with
      | none =>
          rw [load_refused _ _ found,List.filter_cons_of_neg (by rw [found]; exact Bool.false_ne_true)]
          dsimp only
          rw [Function.update_eq_self]
          exact ih b (by omega)
      | some gcm_off =>
          rw [load_taken _ _ found,List.filter_cons_of_pos (by rw [found]; rfl)]
          dsimp only
          have more := ih {b with
            pool := Function.update b.pool ⟨b.bg_count,here⟩ (texture a entry_idx (uninit entry_idx).src gcm_off).picture
            bg_count := ⟨b.bg_count+1,Nat.succ_lt_succ here⟩} (by dsimp only; omega)
          obtain ⟨count,loaded,others,rest⟩ := more
          dsimp only at count loaded others rest
          refine ⟨?_,?_,?_,rest⟩
          · rw [count,List.length_cons]
            omega
          · intro k e at_k
            cases k with
            | zero =>
                rw [List.getElem?_cons_zero,Option.some.injEq] at at_k
                subst at_k
                refine ⟨gcm_off,found,fun slot place => ?_⟩
                have first : slot = ⟨b.bg_count,here⟩ := Fin.ext place
                rw [others slot (.inl (by omega)),first,Function.update_self]
            | succ k =>
                rw [List.getElem?_cons_succ] at at_k
                obtain ⟨off,accepted_,shown⟩ := loaded k e at_k
                exact ⟨off,accepted_,fun slot place => shown slot (by omega)⟩
          · intro slot apart
            rw [List.length_cons] at apart
            rw [others slot (by omega)]
            exact Function.update_of_ne (fun same => by rw [same] at apart; dsimp only at apart; omega) _ _
end Pool

section Shown
variable {i : Int}

theorem fill_value {α : Type} {v : α} (l : List (Int × α)) (fb : Int → α) (member : (i,v) ∈ l)
    (only : ∀ w, (i,w) ∈ l → w = v) : fill fb l i = v := by
  induction l generalizing fb with
  | nil => cases member
  | cons p l ih =>
      by_cases later : ∃ w, (i,w) ∈ l
      · obtain ⟨w,after⟩ := later
        obtain rfl := only w (List.mem_cons_of_mem p after)
        exact ih _ after fun u there => only u (List.mem_cons_of_mem p there)
      · have rest : ∀ w, (i,w) ∉ l := fun w after => later ⟨w,after⟩
        obtain rfl : p = (i,v) := ((List.mem_cons.mp member).resolve_right (rest v)).symm
        exact (fill_keeps l rest _).trans (Function.update_self _ _ _)

def pixelPlace (x y : Nat) : Int := ((y*1280+x : Nat) : Int)

theorem scaled_shown (src : Int → BitVec 8) (bw bh : CInt) (fb : Int → BitVec 32) {x y : Nat} (xs : x < 1280) (ys : y < 720) :
    fill fb (scaled src bw bh) (pixelPlace x y) = bg_pixel src bw bh x y := by
  have split_ (dx dy : Int) (column : 0 ≤ dx ∧ dx ≤ FB_W-1) (same : dy*FB_W + dx = pixelPlace x y) : dx = x ∧ dy = y := by
    unfold pixelPlace at same
    rw [width_eq] at column same
    omega
  refine fill_value _ fb ?_ fun w member => ?_
  · refine List.mem_flatMap.mpr ⟨y,span_mem.mpr (by rw [height_eq]; omega),List.mem_map.mpr
      ⟨x,span_mem.mpr (by rw [width_eq]; omega),Prod.ext ?_ rfl⟩⟩
    show (y : Int)*FB_W + x = pixelPlace x y
    unfold pixelPlace
    rw [width_eq]
    omega
  · obtain ⟨dy,_,member⟩ := List.mem_flatMap.mp member
    obtain ⟨dx,column,same⟩ := List.mem_map.mp member
    obtain ⟨rfl,rfl⟩ := split_ dx dy (span_mem.mp column) (congrArg Prod.fst same)
    exact (congrArg Prod.snd same).symm

theorem plain_shown (v : BitVec 32) (fb : Int → BitVec 32) {x y : Nat} (xs : x < 1280) (ys : y < 720) :
    fill fb (plain v) (pixelPlace x y) = v := by
  obtain ⟨w,member⟩ := (plain_covers v).mpr (show OnScreen (pixelPlace x y) by
    unfold OnScreen pixelPlace
    rw [width_eq,height_eq]
    omega)
  have same (w : BitVec 32) (member : (pixelPlace x y,w) ∈ plain v) : w = v := by
    unfold plain at member
    obtain ⟨_,_,same⟩ := List.mem_map.mp member
    exact (congrArg Prod.snd same).symm
  obtain rfl := same w member
  exact fill_value (plain w) fb member same
end Shown

section Frame
variable {a : Archive} {entry_idx : BitVec 32} {gcm_off x y : Nat}

theorem sizes (found : accepted a entry_idx = some gcm_off) :
    (0 < tex_w a entry_idx gcm_off ∧ tex_w a entry_idx gcm_off ≤ 4096) ∧
      (0 < tex_h a entry_idx gcm_off ∧ tex_h a entry_idx gcm_off ≤ 4096) :=
  (accepted_found a entry_idx found).imp accepted_size accepted_size

theorem ground_shown (found : accepted a entry_idx = some gcm_off) (whole : Whole a entry_idx gcm_off) (before : Nat → BitVec 8)
    (fb : Int → BitVec 32) (xs : x < 1280) (ys : y < 720) :
    fill fb (backdrop (texture a entry_idx before gcm_off).picture) (pixelPlace x y) =
      solid (archive_texel a entry_idx gcm_off (x*tex_w a entry_idx gcm_off/1280) (y*tex_h a entry_idx gcm_off/720)) := by
  obtain ⟨wide,high⟩ := sizes found
  have positive : 0 < (dim (tex_w a entry_idx gcm_off)).val ∧ 0 < (dim (tex_h a entry_idx gcm_off)).val := by
    rw [dim_val wide.2,dim_val high.2]
    omega
  have painted : backdrop (texture a entry_idx before gcm_off).picture =
      scaled (fun i => (texture a entry_idx before gcm_off).pixels.getD i.toNat 0) (dim (tex_w a entry_idx gcm_off))
        (dim (tex_h a entry_idx gcm_off)) := by
    unfold backdrop Texture.picture
    dsimp only
    exact if_pos positive
  rw [painted,scaled_shown _ _ _ fb xs ys,bg_pixel_nearest _ wide high xs ys,
    entry_texel a entry_idx gcm_off found whole before _ _ (nearest_inside xs wide.1) (nearest_inside ys high.1)]

theorem corner_place (w h : Nat) (right : Bool) {o : Overlay}
    (same : o = frame_overlay ⟨FB_W,by decide⟩ ⟨FB_H,by decide⟩ (dim w) (dim h) right (by decide)) :
    o.ox.val = corner_left right ∧ o.oy.val = 464 ∧ o.dst_w.val = 256 ∧ o.dst_h.val = 256 ∧ o.fb_w.val = 1280 ∧
      o.fb_h.val = 720 ∧ o.src_w = dim w ∧ o.src_h = dim h := by
  subst same
  refine ⟨?_,rfl,rfl,rfl,rfl,rfl,rfl,rfl⟩
  cases right <;> rfl

theorem corner_shown (found : accepted a entry_idx = some gcm_off) (whole : Whole a entry_idx gcm_off) (before : Nat → BitVec 8)
    (right : Bool) (fb : Int → BitVec 32) (xs : x < 1280) (ys : y < 720) :
    overlaid (texture a entry_idx before gcm_off).picture ((texture a entry_idx before gcm_off).picture.corner right) fb
      (pixelPlace x y) = cornered a entry_idx right x y (fb (pixelPlace x y)) := by
  obtain ⟨wide,high⟩ := sizes found
  have wVal := dim_val wide.2
  have hVal := dim_val high.2
  generalize src_eq : (fun i : Int => (texture a entry_idx before gcm_off).pixels.getD i.toNat 0) = src
  generalize o_eq : frame_overlay ⟨FB_W,by decide⟩ ⟨FB_H,by decide⟩ (dim (tex_w a entry_idx gcm_off))
    (dim (tex_h a entry_idx gcm_off)) right (by decide) = o
  obtain ⟨ox,oy,dst_w,dst_h,fb_w,fb_h,src_w,src_h⟩ := corner_place _ _ right o_eq.symm
  have blit : overlaid (texture a entry_idx before gcm_off).picture
      ((texture a entry_idx before gcm_off).picture.corner right) fb = (blit_overlay o src fb).fb := by
    rw [← src_eq,← o_eq]
    unfold overlaid Texture.picture
    dsimp only
    have positive : 0 < (dim (tex_w a entry_idx gcm_off)).val := by
      rw [wVal]
      omega
    exact if_pos positive
  have fit : o.Fits := by
    rw [← o_eq]
    exact frame_overlay_fits _ _ _ _ right _ (by decide) (by rw [wVal]; omega) (by rw [hVal]; omega)
  have place : o.pixel x y = pixelPlace x y := by
    unfold Overlay.pixel pixelPlace
    rw [fb_w]
    omega
  rw [blit,← place,cornered,found]
  dsimp only
  by_cases inside : corner_left right ≤ x ∧ x < corner_left right+256 ∧ 464 ≤ y
  · have covered : o.Covers x y := ⟨by omega,by omega,by omega,by omega⟩
    have nearest : o.nearest x y = ((((y-464)*tex_h a entry_idx gcm_off/256)*tex_w a entry_idx gcm_off +
        (x-corner_left right)*tex_w a entry_idx gcm_off/256)*4 : Nat) := by
      unfold Overlay.nearest Overlay.texelAt
      rw [ox,oy,dst_w,dst_h,src_w,src_h,wVal,hVal]
      push_cast [Nat.cast_sub inside.1,Nat.cast_sub inside.2.2]
      rfl
    have column : (x-corner_left right)*tex_w a entry_idx gcm_off/256 < tex_w a entry_idx gcm_off :=
      nearest_inside (by omega) wide.1
    have row : (y-464)*tex_h a entry_idx gcm_off/256 < tex_h a entry_idx gcm_off := nearest_inside (by omega) high.1
    rw [if_pos inside,blit_overlay_pixel fit src fb x y covered,nearest,← src_eq,
      entry_texel a entry_idx gcm_off found whole before _ _ column row]
  · rw [if_neg inside]
    refine (blit_overlay_confined fit src fb).rest _ fun written => inside ?_
    obtain ⟨x',y',covered,same⟩ := (blit_overlay_confined fit src fb).writes _ written
    obtain ⟨rfl,rfl⟩ := pixel_inj fit _ _ _ _ (by rw [fb_w]; omega) covered.column same
    have across := covered.across
    have down := covered.down
    omega

theorem overlay_shown (taken : ∀ gcm_off, accepted a entry_idx = some gcm_off → Whole a entry_idx gcm_off) (p : Picture)
    (blank : p.pixels = none) (uninit : Uninit) (right : Bool) (fb : Int → BitVec 32) (xs : x < 1280) (ys : y < 720) :
    overlaid (p.load uninit (some a) entry_idx).2 ((p.load uninit (some a) entry_idx).2.corner right) fb (pixelPlace x y) =
      cornered a entry_idx right x y (fb (pixelPlace x y)) := by
  cases found : accepted a entry_idx with
  | none =>
      rw [load_refused p uninit found,cornered,found]
      dsimp only
      rw [overlaid,blank]
  | some gcm_off =>
      rw [load_taken p uninit found]
      exact corner_shown found (taken gcm_off found) uninit.src right fb xs ys

theorem cycle_shown {shown : List (BitVec 32)} {uninit : BitVec 32 → Uninit} {b b' : Backdrop} (pooled : Pooled a uninit shown b b')
    (empty : b.bg_count.val = 0) (first : b.bg_current.val = 0) (frame_no : BitVec 32) :
    shown = [] ∨ ({b' with frame_no := frame_no} : Backdrop).cycle.val = frame_no.toNat/120 % shown.length := by
  have count := pooled.count
  have current := congrArg Fin.val pooled.rest.1
  rw [empty,Nat.zero_add] at count
  unfold Backdrop.cycle
  dsimp only
  by_cases several : 1 < b'.bg_count.val
  · rw [dif_pos several,← count]
    exact .inr rfl
  · rw [dif_neg several,current,first]
    rcases Nat.eq_zero_or_pos shown.length with none_ | one
    · exact .inl (List.eq_nil_of_length_eq_zero none_)
    · have single : shown.length = 1 := by omega
      rw [single,Nat.mod_one]
      exact .inr rfl

theorem turn_shown (uninit : BitVec 32 → Uninit)
    (taken : ∀ entry_idx ∈ BG_ENTRIES, ∀ gcm_off, accepted a entry_idx = some gcm_off → Whole a entry_idx gcm_off)
    {b b' : Backdrop} (pooled : Pooled a uninit (shown_entries a) b b') (empty : b.bg_count.val = 0)
    (first : b.bg_current.val = 0) (blank : ∀ slot, (b.pool slot).pixels = none) (frame_no : BitVec 32)
    (fb : Int → BitVec 32) (xs : x < 1280) (ys : y < 720) :
    fill fb (backdrop (b'.pool ({b' with frame_no := frame_no} : Backdrop).cycle)) (pixelPlace x y) =
      ground a frame_no.toNat x y := by
  have turn := cycle_shown pooled empty first frame_no
  generalize ({b' with frame_no := frame_no} : Backdrop).cycle = slot at turn
  cases shown : (shown_entries a)[frame_no.toNat/120 % (shown_entries a).length]? with
  | none =>
      have none_ : shown_entries a = [] := by
        rcases List.eq_nil_or_concat (shown_entries a) with none_ | ⟨front,last,some_⟩
        · exact none_
        · have positive : 0 < (shown_entries a).length := by simp [some_]
          have past := List.getElem?_eq_none_iff.mp shown
          have below := Nat.mod_lt (frame_no.toNat/120) positive
          omega
      have same : b'.pool slot = b.pool slot := pooled.others slot (.inr (by rw [empty,none_]; exact Nat.zero_le _))
      rw [same,ground,shown,backdrop,blank]
      exact plain_shown _ fb xs ys
  | some entry_idx =>
      obtain ⟨gcm_off,found,loaded⟩ := pooled.loaded _ entry_idx shown
      have member := List.mem_of_getElem? shown
      have used : entry_idx ∈ BG_ENTRIES := (List.mem_filter.mp member).1
      have place : slot.val = frame_no.toNat/120 % (shown_entries a).length := by
        rcases turn with none_ | here
        · rw [none_] at member
          cases member
        · exact here
      rw [loaded slot (by rw [empty,Nat.zero_add,place]),ground,shown]
      dsimp only
      rw [found]
      exact ground_shown found (taken entry_idx used gcm_off found) _ fb xs ys

-- The picture under the triangles is the archive's, texel for texel.
theorem frame_shows_archive (a : Archive) (whole : ∀ entry_idx ∈ BG_ENTRIES ++ [12,13], ∀ gcm_off,
      accepted a entry_idx = some gcm_off → Whole a entry_idx gcm_off)
    (uninit : BitVec 32 → Uninit) (frame_no : BitVec 32) (s : Screen) (x y : Nat) (xs : x < 1280) (ys : y < 720) :
    (frame_begin {rsx_load_launch_background uninit (some a) noPictures with frame_no := frame_no} s).fb (pixelPlace x y) =
      cornered a 13 true x y (cornered a 12 false x y (ground a frame_no.toNat x y)) := by
  have pooled := @load_pool_pooled a uninit BG_ENTRIES {noPictures with bg_count := ⟨0,Nat.succ_pos BG_SLOTS⟩}
    (by decide)
  have pool (entry_idx : BitVec 32) (used : entry_idx ∈ BG_ENTRIES) := whole entry_idx (List.mem_append_left _ used)
  have left := whole 12 (List.mem_append_right _ List.mem_cons_self)
  have right := whole 13 (List.mem_append_right _ (List.mem_cons_of_mem _ List.mem_cons_self))
  have blank1 := congrArg Picture.pixels pooled.rest.2.1
  have blank2 := congrArg Picture.pixels pooled.rest.2.2
  unfold frame_begin rsx_load_launch_background
  dsimp only
  rw [overlay_shown right _ blank2 _ true _ xs ys,overlay_shown left _ blank1 _ false _ xs ys]
  have ground := turn_shown uninit pool pooled rfl rfl (fun _ => rfl) frame_no s.fb xs ys
  exact congrArg (fun v => cornered a 13 true x y (cornered a 12 false x y v)) ground

-- Entry 15 at 256: a white 64 by 64 linear R5G6B5 picture, and nothing else in the directory.
def whiteCard : Archive where
  length := 8576
  bytes := fun k =>
    if 384 ≤ k then 0xFF
    else if 280 ≤ k then ([0xA4,1,2,0,0,0,0,0, 0,64,0,64] : List (BitVec 8)).getD (k-280) 0
    else if 256 ≤ k then ([0x23,0x41,0x33,0x54] : List (BitVec 8)).getD (k-256) 0
    else if 128 ≤ k then ([0,1] : List (BitVec 8)).getD (k-128) 0
    else ([0x41,0x46,0x53] : List (BitVec 8)).getD k 0

theorem white_found : accepted whiteCard 15 = some 0x18 := by decide +kernel

theorem white_whole : Whole whiteCard 15 0x18 where
  present := present_of_offsets whiteCard 15 0x18 (by decide) (by decide) (by decide +kernel) (by decide +kernel)
    (by decide +kernel)
  fits := .inl (by decide +kernel)

theorem white_refused : ∀ entry_idx ∈ [1,2,3,4,5,6,7,12,13], accepted whiteCard entry_idx = none := by
  have all : ([1,2,3,4,5,6,7,12,13] : List (BitVec 32)).all (fun e => (accepted whiteCard e).isNone) = true := by
    decide +kernel
  exact fun entry_idx used => Option.isNone_iff_eq_none.mp (List.all_eq_true.mp all entry_idx used)

theorem frame_shows_archive_white : (frame_begin {rsx_load_launch_background (fun _ => ⟨fun _ => 0,fun _ => 0,fun _ => 0⟩)
    (some whiteCard) noPictures with frame_no := 0} blankScreen).fb (pixelPlace 5 7) = 0xFFFFFFFF := by
  have whole : ∀ entry_idx ∈ BG_ENTRIES ++ [12,13], ∀ gcm_off, accepted whiteCard entry_idx = some gcm_off →
      Whole whiteCard entry_idx gcm_off := by
    intro entry_idx used gcm_off found
    rcases List.mem_cons.mp used with rfl | other
    · cases white_found.symm.trans found
      exact white_whole
    · have refused := white_refused entry_idx other
      rw [found] at refused
      cases refused
  have shown := frame_shows_archive whiteCard whole (fun _ => ⟨fun _ => 0,fun _ => 0,fun _ => 0⟩) 0 blankScreen 5 7
    (by decide) (by decide)
  refine shown.trans ?_
  decide +kernel
end Frame

end BudokaiRuntime.Rsx
