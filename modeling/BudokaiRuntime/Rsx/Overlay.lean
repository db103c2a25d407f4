import BudokaiRuntime.Foundations.CountedLoop
import BudokaiRuntime.Rsx.Blend

-- blit_overlay: which texels it reads, which pixels it writes, and what becomes of them.
namespace BudokaiRuntime.Rsx
open CountedLoop

-- C's `int` has 32 bits; arithmetic on it is taken as two's complement.
abbrev CInt := {x : Int // -2^31 ≤ x ∧ x < 2^31}

def int (x : Int) : Int := Int.bmod x (2^32)

structure Overlay where
  fb_w : CInt
  fb_h : CInt
  src_w : CInt
  src_h : CInt
  ox : CInt
  oy : CInt
  dst_w : CInt
  dst_h : CInt

structure BlitState where
  fb : Int → BitVec 32
  reads : List Int
  writes : List Int

def BlitState.read (t : BlitState) (places : List Int) : BlitState := {t with reads := t.reads ++ places}

def BlitState.store (t : BlitState) (i : Int) (v : BitVec 32) : BlitState :=
  {t with fb := fun j => if j = i then v else t.fb j,writes := t.writes ++ [i]}

section Code
variable (o : Overlay) (src : Int → BitVec 8)

def texel (s : Int) : Texel := ⟨src s,src (s+1),src (s+2),src (s+3)⟩

def draw (s i : Int) (t : BlitState) : BlitState :=
  let sa := src (s+3)
  let t := t.read [s+3]
  if sa = 0 then t
  else if sa = 255 then (t.read [s+2,s+1,s]).store i (solid (texel src s))
  else (t.read [s,s+1,s+2]).store i (blended (texel src s) (t.fb i))

def blit_pixel (srow drow : Int) (t : BlitState) (dx : Int) : BlitState :=
  let sx := (int (dx*o.src_w)).tdiv o.dst_w
  let screen_x := int (o.ox+dx)
  if screen_x < 0 ∨ screen_x ≥ o.fb_w then t
  else draw src (srow + int (sx*4)) (drow + screen_x) t

def blit_row (t : BlitState) (dy : Int) : BlitState :=
  let sy := (int (dy*o.src_h)).tdiv o.dst_h
  let screen_y := int (o.oy+dy)
  if screen_y < 0 ∨ screen_y ≥ o.fb_h then t
  else
    let srow := int (int (sy*o.src_w)*4)
    let drow := int (screen_y*o.fb_w)
    Fin.foldl o.dst_w.val.toNat (fun t dx => blit_pixel o src srow drow t dx) t

def blit_overlay (fb : Int → BitVec 32) : BlitState :=
  Fin.foldl o.dst_h.val.toNat (fun t dy => blit_row o src t dy) ⟨fb,[],[]⟩
end Code

-- Positive sizes, and every index product the loops form fits in an int.
structure Overlay.Fits (o : Overlay) : Prop where
  framebuffer : 0 < o.fb_w.val ∧ 0 < o.fb_h.val
  source : 0 < o.src_w.val ∧ 0 < o.src_h.val
  destination : 0 < o.dst_w.val ∧ 0 < o.dst_h.val
  rows : ∀ dy, 0 ≤ dy → dy < o.dst_h.val → dy*o.src_h < 2^31
  starts : ∀ dy, 0 ≤ dy → dy < o.dst_h.val → 0 ≤ o.oy+dy → o.oy+dy < o.fb_h.val →
    dy*o.src_h/o.dst_h*o.src_w*4 < 2^31 ∧ (o.oy+dy)*o.fb_w < 2^31
  columns : ∀ dx, 0 ≤ dx → dx < o.dst_w.val → dx*o.src_w < 2^31
  texels : ∀ dx, 0 ≤ dx → dx < o.dst_w.val → 0 ≤ o.ox+dx → o.ox+dx < o.fb_w.val → dx*o.src_w/o.dst_w*4 < 2^31

structure Overlay.Covers (o : Overlay) (x y : Int) : Prop where
  column : 0 ≤ x ∧ x < o.fb_w.val
  row : 0 ≤ y ∧ y < o.fb_h.val
  across : o.ox.val ≤ x ∧ x < o.ox.val + o.dst_w
  down : o.oy.val ≤ y ∧ y < o.oy.val + o.dst_h

def Overlay.pixel (o : Overlay) (x y : Int) : Int := y*o.fb_w + x

def Overlay.texelAt (o : Overlay) (sx sy : Int) : Int := (sy*o.src_w + sx)*4

def Overlay.nearest (o : Overlay) (x y : Int) : Int :=
  o.texelAt ((x-o.ox)*o.src_w/o.dst_w) ((y-o.oy)*o.src_h/o.dst_h)

structure Overlay.Confined (o : Overlay) (before : Int → BitVec 32) (t : BlitState) : Prop where
  reads : ∀ i ∈ t.reads, ∃ sx sy k, (0 ≤ sx ∧ sx < o.src_w.val) ∧ (0 ≤ sy ∧ sy < o.src_h.val) ∧ (0 ≤ k ∧ k < 4) ∧
    i = o.texelAt sx sy + k
  writes : ∀ i ∈ t.writes, ∃ x y, o.Covers x y ∧ i = o.pixel x y
  rest : ∀ i, i ∉ t.writes → t.fb i = before i

theorem int_fits (x : Int) (low : -2^31 ≤ x) (high : x < 2^31) : int x = x := by
  rw [int,Int.bmod_def]
  split <;> omega

-- A position that wraps turns negative and is clipped like any other off-screen one.
theorem clipped_iff (start size : CInt) (d : Int) (low : 0 ≤ d) (high : d < 2^31) :
    (int (start+d) < 0 ∨ int (start+d) ≥ size) ↔ ¬ (0 ≤ start+d ∧ start+d < size.val) := by
  have place := start.property
  have limit := size.property
  rw [int,Int.bmod_def]
  split <;> omega

theorem scaled_inside (d size count : Int) (low : 0 ≤ d) (high : d < count) (positive : 0 < size) :
    0 ≤ d*size/count ∧ d*size/count < size := by
  constructor
  · exact Int.ediv_nonneg (Int.mul_nonneg low positive.le) (by omega)
  · rw [Int.ediv_lt_iff_lt_mul (by omega),Int.mul_comm size]
    exact Int.mul_lt_mul_of_pos_right high positive

theorem int_scaled (d size count : Int) (low : 0 ≤ d) (positive : 0 < size) (fits : d*size < 2^31) :
    (int (d*size)).tdiv count = d*size/count := by
  have scaled := Int.mul_nonneg low positive.le
  rw [int_fits _ (by omega) fits,Int.tdiv_eq_ediv_of_nonneg scaled]

section Drawing
variable (src : Int → BitVec 8) (s i : Int) (t : BlitState)

def drawn (c : Texel) (old : BitVec 32) : BitVec 32 :=
  if c.a = 0 then old else if c.a = 255 then solid c else blended c old

theorem drawn_blended (c : Texel) (old : BitVec 32) : Blended c old (drawn c old) := by
  constructor
  · intro clear
    rw [drawn,if_pos clear]
  · intro full
    rw [drawn,if_neg (by rw [full]; decide),if_pos full]
    exact solid_bytes c full
  · intro visible
    rw [drawn,if_neg visible]
    split
    · exact packed_alpha _ _ _
    · exact (blended_bytes c old).1
  · intro visible partly
    rw [drawn,if_neg visible,if_neg partly]
    exact (blended_bytes c old).2

theorem read_read (one two : List Int) : (t.read one).read two = t.read (one++two) := by
  simp [BlitState.read]

theorem draw_cases : (src (s+3) = 0 ∧ draw src s i t = t.read [s+3]) ∨
    ∃ places, (∀ k ∈ places, s ≤ k ∧ k < s+4) ∧
      draw src s i t = (t.read places).store i (drawn (texel src s) (t.fb i)) := by
  by_cases clear : src (s+3) = 0
  · left
    exact ⟨clear,if_pos clear⟩
  · right
    have visible : (texel src s).a ≠ 0 := clear
    by_cases full : src (s+3) = 255
    · refine ⟨[s+3,s+2,s+1,s],?_,?_⟩
      · intro k listed
        simp only [List.mem_cons,List.not_mem_nil,or_false] at listed
        omega
      · rw [draw,if_neg clear,if_pos full,read_read,drawn,if_neg visible,if_pos (show (texel src s).a = 255 from full)]
        rfl
    · refine ⟨[s+3,s,s+1,s+2],?_,?_⟩
      · intro k listed
        simp only [List.mem_cons,List.not_mem_nil,or_false] at listed
        omega
      · rw [draw,if_neg clear,if_neg full,read_read,drawn,if_neg visible,if_neg (show (texel src s).a ≠ 255 from full)]
        rfl

theorem draw_pixel : (draw src s i t).fb i = drawn (texel src s) (t.fb i) := by
  rcases draw_cases src s i t with ⟨clear,eq⟩ | ⟨places,_,eq⟩
  · rw [eq,drawn,texel,if_pos clear]
    rfl
  · rw [eq]
    exact if_pos rfl

theorem draw_other (k : Int) (other : k ≠ i) : (draw src s i t).fb k = t.fb k := by
  rcases draw_cases src s i t with ⟨_,eq⟩ | ⟨places,_,eq⟩
  · rw [eq]
    rfl
  · rw [eq]
    exact if_neg other

theorem draw_confined {o : Overlay} (before : Int → BitVec 32) (sx sy x y : Int)
    (across : 0 ≤ sx ∧ sx < o.src_w.val) (down : 0 ≤ sy ∧ sy < o.src_h.val) (covered : o.Covers x y)
    (held : o.Confined before t) : o.Confined before (draw src (o.texelAt sx sy) (o.pixel x y) t) := by
  rcases draw_cases src (o.texelAt sx sy) (o.pixel x y) t with ⟨_,eq⟩ | ⟨places,near,eq⟩
  · rw [eq]
    refine ⟨?_,held.writes,held.rest⟩
    intro i logged
    rcases List.mem_append.mp logged with old | new
    · exact held.reads i old
    · exact ⟨sx,sy,3,across,down,by decide,List.mem_singleton.mp new⟩
  · rw [eq]
    refine ⟨?_,?_,?_⟩
    · intro i logged
      rcases List.mem_append.mp logged with old | new
      · exact held.reads i old
      · have inside := near i new
        exact ⟨sx,sy,i - o.texelAt sx sy,across,down,by omega,by omega⟩
    · intro i logged
      rcases List.mem_append.mp logged with old | new
      · exact held.writes i old
      · exact ⟨x,y,covered,List.mem_singleton.mp new⟩
    · intro i free
      have other : i ≠ o.pixel x y := fun same => free (List.mem_append_right _ (List.mem_singleton.mpr same))
      exact (if_neg other).trans (held.rest i fun old => free (List.mem_append_left _ old))
end Drawing

section Loops
variable {o : Overlay} (fits : o.Fits) (src : Int → BitVec 8)
include fits

theorem blit_pixel_eq (t : BlitState) (dx dy : Int) (low : 0 ≤ dx) (high : dx < o.dst_w.val) :
    blit_pixel o src (dy*o.src_h/o.dst_h*o.src_w*4) ((o.oy+dy)*o.fb_w) t dx =
      if 0 ≤ o.ox+dx ∧ o.ox+dx < o.fb_w.val then
        draw src (o.nearest (o.ox+dx) (o.oy+dy)) (o.pixel (o.ox+dx) (o.oy+dy)) t else t := by
  have width := o.dst_w.property
  simp only [blit_pixel,clipped_iff o.ox o.fb_w dx low (by omega)]
  by_cases seen : 0 ≤ o.ox+dx ∧ o.ox+dx < o.fb_w.val
  · have limit := o.fb_w.property
    have inside := scaled_inside dx o.src_w o.dst_w low high fits.source.1
    have place : dy*o.src_h/o.dst_h*o.src_w*4 + dx*o.src_w/o.dst_w*4 = o.nearest (o.ox+dx) (o.oy+dy) := by
      rw [Overlay.nearest,Overlay.texelAt,add_sub_cancel_left,add_sub_cancel_left,Int.add_mul]
    rw [if_neg (not_not_intro seen),if_pos seen,int_scaled dx _ _ low fits.source.1 (fits.columns dx low high),
      int_fits (o.ox+dx) (by omega) (by omega),
      int_fits (dx*o.src_w/o.dst_w*4) (by omega) (fits.texels dx low high seen.1 seen.2),place]
    rfl
  · rw [if_pos seen,if_neg seen]

theorem blit_row_eq (t : BlitState) (dy : Int) (low : 0 ≤ dy) (high : dy < o.dst_h.val) :
    blit_row o src t dy = if 0 ≤ o.oy+dy ∧ o.oy+dy < o.fb_h.val then
      Fin.foldl o.dst_w.val.toNat (fun t dx =>
        blit_pixel o src (dy*o.src_h/o.dst_h*o.src_w*4) ((o.oy+dy)*o.fb_w) t dx) t else t := by
  have height := o.dst_h.property
  simp only [blit_row,clipped_iff o.oy o.fb_h dy low (by omega)]
  by_cases seen : 0 ≤ o.oy+dy ∧ o.oy+dy < o.fb_h.val
  · have limit := o.fb_h.property
    obtain ⟨start,line⟩ := fits.starts dy low high seen.1 seen.2
    have inside := scaled_inside dy o.src_h o.dst_h low high fits.source.2
    have begin_ : 0 ≤ dy*o.src_h/o.dst_h*o.src_w := Int.mul_nonneg inside.1 fits.source.1.le
    have left : 0 ≤ (o.oy+dy)*o.fb_w := Int.mul_nonneg seen.1 fits.framebuffer.1.le
    rw [if_neg (not_not_intro seen),if_pos seen,int_scaled dy _ _ low fits.source.2 (fits.rows dy low high),
      int_fits (o.oy+dy) (by omega) (by omega),int_fits (dy*o.src_h/o.dst_h*o.src_w) (by omega) (by omega),
      int_fits (dy*o.src_h/o.dst_h*o.src_w*4) (by omega) start,int_fits ((o.oy+dy)*o.fb_w) (by omega) line]
  · rw [if_pos seen,if_neg seen]

theorem blit_row_confined (before : Int → BitVec 32) (t : BlitState) (dy : Int) (low : 0 ≤ dy) (high : dy < o.dst_h.val)
    (held : o.Confined before t) : o.Confined before (blit_row o src t dy) := by
  rw [blit_row_eq fits src t dy low high]
  by_cases row : 0 ≤ o.oy+dy ∧ o.oy+dy < o.fb_h.val
  · rw [if_pos row]
    refine foldl_invariant (fun _ t => o.Confined before t) _ _ held fun dx t held => ?_
    have right : (dx : Int) < o.dst_w.val := by omega
    rw [blit_pixel_eq fits src t dx dy (by omega) right]
    by_cases column : 0 ≤ o.ox+(dx : Int) ∧ o.ox+(dx : Int) < o.fb_w.val
    · rw [if_pos column,Overlay.nearest,add_sub_cancel_left,add_sub_cancel_left]
      apply draw_confined src t before
      · exact scaled_inside dx _ _ (by omega) right fits.source.1
      · exact scaled_inside dy _ _ low high fits.source.2
      · exact ⟨column,row,by omega,by omega⟩
      · exact held
    · rw [if_neg column]
      exact held
  · rw [if_neg row]
    exact held

theorem blit_overlay_confined (fb : Int → BitVec 32) : o.Confined fb (blit_overlay o src fb) := by
  refine foldl_invariant (fun _ t => o.Confined fb t) _ _ ?_ fun dy t held => ?_
  · exact ⟨by simp,by simp,fun _ _ => rfl⟩
  · exact blit_row_confined fits src fb t dy (by omega) (by omega) held

theorem pixel_inj (x y x' y' : Int) (column : 0 ≤ x ∧ x < o.fb_w.val) (column' : 0 ≤ x' ∧ x' < o.fb_w.val)
    (same : o.pixel x y = o.pixel x' y') : x = x' ∧ y = y' := by
  have parts (x y : Int) (column : 0 ≤ x ∧ x < o.fb_w.val) :
      o.pixel x y/o.fb_w = y ∧ o.pixel x y%o.fb_w = x := by
    refine (Int.ediv_emod_unique fits.framebuffer.1).mpr ⟨?_,column⟩
    rw [Overlay.pixel,Int.mul_comm,Int.add_comm]
  have one := parts x y column
  have two := parts x' y' column'
  rw [same] at one
  exact ⟨one.2.symm.trans two.2,one.1.symm.trans two.1⟩

theorem blit_row_pixel (t : BlitState) (x y : Int) (covered : o.Covers x y) :
    (blit_row o src t (y-o.oy)).fb (o.pixel x y) = drawn (texel src (o.nearest x y)) (t.fb (o.pixel x y)) := by
  obtain ⟨column,row,across,down⟩ := covered
  rw [blit_row_eq fits src t (y-o.oy) (by omega) (by omega),if_pos (by rw [add_sub_cancel]; exact row)]
  have turn : (x-o.ox).toNat < o.dst_w.val.toNat := by omega
  refine foldl_single (fun t : BlitState => t.fb (o.pixel x y)) _ ⟨(x-o.ox).toNat,turn⟩ t _ ?_ ?_
  · intro t dx other
    have right : (dx : Int) < o.dst_w.val := by omega
    have apart : o.ox+(dx : Int) ≠ x := fun same => other (Fin.ext (by simp only; omega))
    rw [blit_pixel_eq fits src t dx (y-o.oy) (by omega) right]
    split
    · refine draw_other src _ _ t _ fun same => apart ?_
      exact (pixel_inj fits _ _ _ _ column ‹_› same).1.symm
    · rfl
  · intro t same
    have place : ((x-o.ox).toNat : Int) = x-o.ox := Int.toNat_of_nonneg (by omega)
    simp only [place]
    rw [blit_pixel_eq fits src t (x-o.ox) (y-o.oy) (by omega) (by omega),add_sub_cancel,add_sub_cancel,
      if_pos column,draw_pixel,same]

theorem blit_row_other (t : BlitState) (x y dy : Int) (low : 0 ≤ dy) (high : dy < o.dst_h.val) (covered : o.Covers x y)
    (other : o.oy+dy ≠ y) : (blit_row o src t dy).fb (o.pixel x y) = t.fb (o.pixel x y) := by
  rw [blit_row_eq fits src t dy low high]
  split
  · refine foldl_untouched (fun t : BlitState => t.fb (o.pixel x y)) _ t fun t dx => ?_
    have right : (dx : Int) < o.dst_w.val := by omega
    rw [blit_pixel_eq fits src t dx dy (by omega) right]
    split
    · refine draw_other src _ _ t _ fun same => other ?_
      exact (pixel_inj fits _ _ _ _ covered.column ‹_› same).2.symm
    · rfl
  · rfl

theorem blit_overlay_pixel (fb : Int → BitVec 32) (x y : Int) (covered : o.Covers x y) :
    (blit_overlay o src fb).fb (o.pixel x y) = drawn (texel src (o.nearest x y)) (fb (o.pixel x y)) := by
  have down := covered.down
  have turn : (y-o.oy).toNat < o.dst_h.val.toNat := by omega
  rw [blit_overlay]
  refine foldl_single (fun t : BlitState => t.fb (o.pixel x y)) _ ⟨(y-o.oy).toNat,turn⟩ ⟨fb,[],[]⟩ _ ?_ ?_
  · intro t dy other
    have apart : o.oy+(dy : Int) ≠ y := fun same => other (Fin.ext (by simp only; omega))
    exact blit_row_other fits src t x y dy (by omega) (by omega) covered apart
  · intro t same
    have place : ((y-o.oy).toNat : Int) = y-o.oy := Int.toNat_of_nonneg (by omega)
    simp only [place]
    rw [blit_row_pixel fits src t x y covered,same]
end Loops

-- The two calls of frame_begin: 256x256 in the bottom left and the bottom right corner.
def frame_overlay (W H w h : CInt) (right : Bool) (screen : 0 < W.val ∧ 0 < H.val) : Overlay where
  fb_w := W
  fb_h := H
  src_w := w
  src_h := h
  ox := ⟨if right then W-256 else 0,by have limit := W.property; split <;> omega⟩
  oy := ⟨H-256,by have limit := H.property; omega⟩
  dst_w := ⟨256,by decide⟩
  dst_h := ⟨256,by decide⟩

-- They meet the conditions for every screen whose pixel count is an int, with the sizes
-- load_a3t_entry accepts.
theorem frame_overlay_fits (W H w h : CInt) (right : Bool) (screen : 0 < W.val ∧ 0 < H.val)
    (pixels : W.val*H < 2^31) (wide : 0 < w.val ∧ w.val ≤ 4096) (high : 0 < h.val ∧ h.val ≤ 4096) :
    (frame_overlay W H w h right screen).Fits where
  framebuffer := screen
  source := ⟨wide.1,high.1⟩
  destination := (show (0 : Int) < 256 ∧ (0 : Int) < 256 by decide)
  rows := by
    intro dy low above
    calc dy*h.val ≤ 256*4096 := Int.mul_le_mul (Int.le_of_lt above) high.2 high.1.le (by decide)
      _ < 2^31 := by decide
  starts := by
    intro dy low above top bottom
    have inside := scaled_inside dy h.val 256 low above high.1
    constructor
    · calc dy*h.val/256*w.val*4 ≤ 4096*4096*4 := by
            have rows : dy*h.val/256 ≤ 4096 := by omega
            have texels := Int.mul_le_mul rows wide.2 wide.1.le (by decide)
            omega
        _ < 2^31 := by decide
    · have row : H.val-256+dy < H.val := bottom
      calc (H.val-256+dy)*W.val ≤ H.val*W.val := Int.mul_le_mul_of_nonneg_right row.le screen.1.le
        _ = W.val*H.val := Int.mul_comm _ _
        _ < 2^31 := pixels
  columns := by
    intro dx low above
    calc dx*w.val ≤ 256*4096 := Int.mul_le_mul (Int.le_of_lt above) wide.2 wide.1.le (by decide)
      _ < 2^31 := by decide
  texels := by
    intro dx low above left edge
    have inside := scaled_inside dx w.val 256 low above wide.1
    change dx*w.val/256*4 < 2^31
    omega

theorem overlay_blended (o : Overlay) (fits : o.Fits) (src : Int → BitVec 8) (fb : Int → BitVec 32) :
    o.Confined fb (blit_overlay o src fb) ∧ ∀ x y, o.Covers x y →
      Blended (texel src (o.nearest x y)) (fb (o.pixel x y)) ((blit_overlay o src fb).fb (o.pixel x y)) := by
  refine ⟨blit_overlay_confined fits src fb,?_⟩
  intro x y covered
  rw [blit_overlay_pixel fits src fb x y covered]
  exact drawn_blended _ _

theorem overlay_blended_corner :
    let o := frame_overlay ⟨1280,by decide⟩ ⟨720,by decide⟩ ⟨512,by decide⟩ ⟨512,by decide⟩ true (by decide)
    let after := blit_overlay o (fun _ => 0x80) (fun _ => 0xFF102030)
    o.Confined (fun _ => 0xFF102030) after ∧
      Blended (texel (fun _ => 0x80) (o.nearest 1024 464)) 0xFF102030 (after.fb (o.pixel 1024 464)) := by
  have drawn := overlay_blended _ (frame_overlay_fits ⟨1280,by decide⟩ ⟨720,by decide⟩ ⟨512,by decide⟩
    ⟨512,by decide⟩ true (by decide) (by decide) (by decide) (by decide)) (fun _ => 0x80) (fun _ => 0xFF102030)
  exact ⟨drawn.1,drawn.2 1024 464 ⟨by decide,by decide,by decide,by decide⟩⟩

end BudokaiRuntime.Rsx
