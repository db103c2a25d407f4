import BudokaiRuntime.Rsx.DepthBuffer
import BudokaiRuntime.Rsx.Overlay

-- A whole frame: the backdrop, the overlays over it, and the triangles.
namespace BudokaiRuntime.Rsx
open Guest Binary32 ProgramGraph Spu CountedLoop

abbrev BG_SLOTS : Nat := 12

structure Picture where
  pixels : Option (Int → BitVec 8)
  w : CInt
  h : CInt

structure Backdrop where
  pool : Fin BG_SLOTS → Picture
  bg_count : Fin (BG_SLOTS+1)
  bg_current : Fin BG_SLOTS
  frame_no : BitVec 32
  overlay1 : Picture
  overlay2 : Picture

-- Another picture every 120 frames.
def Backdrop.cycle (b : Backdrop) : Fin BG_SLOTS :=
  if several : 1 < b.bg_count.val then
    ⟨b.frame_no.toNat/120 % b.bg_count.val,
      Nat.lt_of_lt_of_le (Nat.mod_lt _ (Nat.lt_of_succ_lt several)) (Nat.le_of_lt_succ b.bg_count.isLt)⟩
  else b.bg_current

def fill (fb : Int → α) (l : List (Int × α)) : Int → α := l.foldl (fun fb w => Function.update fb w.1 w.2) fb

def bg_pixel (src : Int → BitVec 8) (bw bh : CInt) (dx dy : Int) : BitVec 32 :=
  let sy := (int (dy*bh)).tdiv FB_H
  let sx := (int (dx*bw)).tdiv FB_W
  let p := int (int (sy*bw)*4) + int (sx*4)
  packed ((src (p+2)).setWidth 32) ((src (p+1)).setWidth 32) ((src p).setWidth 32)

def scaled (src : Int → BitVec 8) (bw bh : CInt) : List (Int × BitVec 32) :=
  (span 0 (FB_H-1)).flatMap fun dy => (span 0 (FB_W-1)).map fun dx => (dy*FB_W + dx,bg_pixel src bw bh dx dy)

def plain (v : α) : List (Int × α) := (span 0 (FB_W*FB_H-1)).map fun i => (i,v)

def backdrop (bg : Picture) : List (Int × BitVec 32) :=
  match bg.pixels with
  | some src => if 0 < bg.w.val ∧ 0 < bg.h.val then scaled src bg.w bg.h else plain 0xFF080810
  | none => plain 0xFF080810

def Picture.corner (p : Picture) (right : Bool) : Overlay :=
  frame_overlay ⟨FB_W,by decide⟩ ⟨FB_H,by decide⟩ p.w p.h right (by decide)

def overlaid (p : Picture) (o : Overlay) (fb : Int → BitVec 32) : Int → BitVec 32 :=
  match p.pixels with
  | some src => if 0 < p.w.val then (blit_overlay o src fb).fb else fb
  | none => fb

def frame_begin (b : Backdrop) (s : Screen) : Screen :=
  let fb := fill s.fb (backdrop (b.pool b.cycle))
  let fb := overlaid b.overlay1 (b.overlay1.corner false) fb
  let fb := overlaid b.overlay2 (b.overlay2.corner true) fb
  {fb,z := fill s.z (plain FAR)}

-- What the host does for an output of the renderer, at the memory it finds.
def present (fpu : HostFpu) (fuel : Nat) (b : Backdrop) (vm : GuestMem) (s : Screen) : RsxOutput → Option Screen
  | .clear bgra => some {s with fb := fill s.fb (plain bgra)}
  | .draw vertex_ea vertex_count => edge_rasterize_triangles fpu fuel vm vertex_ea vertex_count (frame_begin b s)

def OnScreen (i : Int) : Prop := 0 ≤ i ∧ i < FB_W*FB_H

section Spans
variable {i first last : Int}

theorem span_mem : i ∈ span first last ↔ first ≤ i ∧ i ≤ last := by
  unfold span
  rw [List.mem_map]
  constructor
  · rintro ⟨k,inside,rfl⟩
    have bound := List.mem_range.mp inside
    omega
  · rintro ⟨low,high⟩
    refine ⟨(i-first).toNat,List.mem_range.mpr ?_,?_⟩
    · omega
    · omega

theorem width_eq : (FB_W : Int) = 1280 := rfl
theorem height_eq : (FB_H : Int) = 720 := rfl

theorem screen_position (on : OnScreen i) :
    ∃ x y : Int, (0 ≤ x ∧ x ≤ FB_W-1) ∧ (0 ≤ y ∧ y ≤ FB_H-1) ∧ i = y*FB_W + x := by
  unfold OnScreen at on
  rw [width_eq,height_eq] at on ⊢
  exact ⟨i%1280,i/1280,by omega,by omega,by omega⟩

theorem position_screen {x y : Int} (column : 0 ≤ x ∧ x ≤ FB_W-1) (row : 0 ≤ y ∧ y ≤ FB_H-1) :
    OnScreen (y*FB_W + x) := by
  unfold OnScreen
  rw [width_eq,height_eq] at *
  omega
end Spans

section Fill
variable {α : Type} {l : List (Int × α)} {i : Int}

theorem stored_same (fb fb' : Int → α) (w : Int × α) : Function.update fb w.1 w.2 w.1 = Function.update fb' w.1 w.2 w.1 := by
  rw [Function.update_self,Function.update_self]

theorem fill_same (l : List (Int × α)) {fb fb' : Int → α} (same : fb i = fb' i) : fill fb l i = fill fb' l i := by
  induction l generalizing fb fb' with
  | nil => exact same
  | cons w l ih =>
      refine ih ?_
      by_cases here : i = w.1
      · subst here
        exact stored_same fb fb' w
      · exact (Function.update_of_ne here _ _).trans (same.trans (Function.update_of_ne here _ _).symm)

theorem fill_forgets (l : List (Int × α)) (covered : ∃ v, (i,v) ∈ l) (fb fb' : Int → α) : fill fb l i = fill fb' l i := by
  induction l generalizing fb fb' with
  | nil =>
      obtain ⟨v,member⟩ := covered
      cases member
  | cons w l ih =>
      obtain ⟨v,member⟩ := covered
      rcases List.mem_cons.mp member with rfl | after
      · exact fill_same l (stored_same fb fb' (i,v))
      · exact ih ⟨v,after⟩ _ _

theorem fill_keeps (l : List (Int × α)) (beside : ∀ v, (i,v) ∉ l) (fb : Int → α) : fill fb l i = fb i := by
  induction l generalizing fb with
  | nil => rfl
  | cons w l ih =>
      have other : i ≠ w.1 := fun same => beside w.2 (same ▸ List.mem_cons_self)
      refine (ih (fun v later => beside v (List.mem_cons_of_mem w later)) _).trans ?_
      exact Function.update_of_ne other _ _

theorem plain_covers (v : α) : (∃ w, (i,w) ∈ plain v) ↔ OnScreen i := by
  unfold plain OnScreen
  constructor
  · rintro ⟨w,member⟩
    obtain ⟨k,inside,same⟩ := List.mem_map.mp member
    have bound := span_mem.mp inside
    have here : k = i := congrArg Prod.fst same
    omega
  · rintro ⟨low,high⟩
    exact ⟨v,List.mem_map.mpr ⟨i,span_mem.mpr ⟨low,by omega⟩,rfl⟩⟩

theorem scaled_covers (src : Int → BitVec 8) (bw bh : CInt) : (∃ w, (i,w) ∈ scaled src bw bh) ↔ OnScreen i := by
  unfold scaled
  constructor
  · rintro ⟨w,member⟩
    obtain ⟨y,row,member⟩ := List.mem_flatMap.mp member
    obtain ⟨x,column,same⟩ := List.mem_map.mp member
    have here : y*FB_W + x = i := congrArg Prod.fst same
    exact here ▸ position_screen (span_mem.mp column) (span_mem.mp row)
  · intro on
    obtain ⟨x,y,column,row,rfl⟩ := screen_position on
    exact ⟨_,List.mem_flatMap.mpr ⟨y,span_mem.mpr row,List.mem_map.mpr ⟨x,span_mem.mpr column,rfl⟩⟩⟩

theorem backdrop_covers (bg : Picture) : (∃ w, (i,w) ∈ backdrop bg) ↔ OnScreen i := by
  unfold backdrop
  split
  · split
    · exact scaled_covers _ _ _
    · exact plain_covers _
  · exact plain_covers _
end Fill

-- Painted over from two states: the whole screen agrees, and nothing off it was written.
structure Repainted (before before' after after' : Int → α) : Prop where
  inside : ∀ i, OnScreen i → after' i = after i
  outside : ∀ i, ¬ OnScreen i → after i = before i ∧ after' i = before' i

structure PixelWise (f : (Int → α) → Int → α) : Prop where
  local_ : ∀ (fb fb' : Int → α) i, fb i = fb' i → f fb i = f fb' i
  stays : ∀ (fb : Int → α) i, ¬ OnScreen i → f fb i = fb i

section Repaint
variable {α : Type} {fb fb' g g' : Int → α}

theorem repainted_fill (l : List (Int × α)) (covers : ∀ i, (∃ v, (i,v) ∈ l) ↔ OnScreen i) (fb fb' : Int → α) :
    Repainted fb fb' (fill fb l) (fill fb' l) where
  inside i on := fill_forgets l ((covers i).mpr on) fb' fb
  outside i off := by
    have beside : ∀ v, (i,v) ∉ l := fun v member => off ((covers i).mp ⟨v,member⟩)
    exact ⟨fill_keeps l beside fb,fill_keeps l beside fb'⟩

theorem repainted_stage {f : (Int → α) → Int → α} (stage : PixelWise f) (painted : Repainted fb fb' g g') :
    Repainted fb fb' (f g) (f g') where
  inside i on := stage.local_ g' g i (painted.inside i on)
  outside i off := by
    obtain ⟨one,two⟩ := painted.outside i off
    exact ⟨(stage.stays g i off).trans one,(stage.stays g' i off).trans two⟩
end Repaint

section Blit
variable {o : Overlay} {src : Int → BitVec 8} {t t' : BlitState} {i : Int}

theorem draw_same (s j : Int) (same : t.fb i = t'.fb i) : (draw src s j t).fb i = (draw src s j t').fb i := by
  by_cases here : i = j
  · subst here
    rw [draw_pixel,draw_pixel,same]
  · rw [draw_other src s j t i here,draw_other src s j t' i here,same]

theorem blit_row_same (dy : Int) (same : t.fb i = t'.fb i) : (blit_row o src t dy).fb i = (blit_row o src t' dy).fb i := by
  unfold blit_row
  dsimp only
  split
  · exact same
  · refine foldl_related (fun t t' : BlitState => t.fb i = t'.fb i) _ _ _ same fun dx t t' same => ?_
    unfold blit_pixel
    dsimp only
    split
    · exact same
    · exact draw_same _ _ same

theorem blit_row_stays (wide : o.fb_w.val = FB_W) (tall : o.fb_h.val = FB_H) (dy : Int) (off : ¬ OnScreen i) :
    (blit_row o src t dy).fb i = t.fb i := by
  unfold blit_row
  dsimp only
  split
  · rfl
  · rename_i clipped
    refine foldl_untouched (fun t : BlitState => t.fb i) _ t fun t dx => ?_
    unfold blit_pixel
    dsimp only
    split
    · rfl
    · rename_i beside
      refine draw_other src _ _ t i fun here => off ?_
      have row : int (int (o.oy+dy)*o.fb_w) = int (o.oy+dy)*FB_W := by
        rw [wide]
        rw [tall,height_eq] at clipped
        rw [width_eq]
        exact int_fits _ (by omega) (by omega)
      rw [here,row]
      rw [wide] at beside
      rw [tall] at clipped
      exact position_screen (by omega) (by omega)

theorem blit_overlay_same {fb fb' : Int → BitVec 32} (same : fb i = fb' i) :
    (blit_overlay o src fb).fb i = (blit_overlay o src fb').fb i :=
  foldl_related (fun t t' : BlitState => t.fb i = t'.fb i) _ _ _ same fun dy _ _ same => blit_row_same dy same

theorem blit_overlay_stays (wide : o.fb_w.val = FB_W) (tall : o.fb_h.val = FB_H) (fb : Int → BitVec 32)
    (off : ¬ OnScreen i) : (blit_overlay o src fb).fb i = fb i :=
  foldl_untouched (fun t : BlitState => t.fb i) _ _ fun _ dy => blit_row_stays wide tall dy off

theorem overlaid_pixelwise (p : Picture) (right : Bool) : PixelWise (overlaid p (p.corner right)) where
  local_ fb fb' i same := by
    unfold overlaid
    cases p.pixels with
    | none => exact same
    | some src =>
        dsimp only
        split
        · exact blit_overlay_same same
        · exact same
  stays fb i off := by
    unfold overlaid
    cases p.pixels with
    | none => rfl
    | some src =>
        dsimp only
        split
        · exact blit_overlay_stays rfl rfl fb off
        · rfl
end Blit

section Frame
variable {fpu : HostFpu} {b : Backdrop} {vm : GuestMem} {vertex_ea vertex_count : BitVec 32} {s s' t t' : Screen} {i : Int}


theorem frame_begin_z (b : Backdrop) (s : Screen) : (frame_begin b s).z = fill s.z (plain FAR) := by rw [frame_begin]

theorem frame_begin_repaints (b : Backdrop) (s s' : Screen) :
    Repainted s.at_ s'.at_ (frame_begin b s).at_ (frame_begin b s').at_ := by
  have colors : Repainted s.fb s'.fb (frame_begin b s).fb (frame_begin b s').fb :=
    repainted_stage (overlaid_pixelwise b.overlay2 true) (repainted_stage (overlaid_pixelwise b.overlay1 false)
      (repainted_fill (backdrop (b.pool b.cycle)) (fun i => backdrop_covers _) s.fb s'.fb))
  have depths : Repainted s.z s'.z (frame_begin b s).z (frame_begin b s').z := by
    rw [frame_begin_z,frame_begin_z]
    exact repainted_fill (plain FAR) (fun i => plain_covers FAR) s.z s'.z
  refine ⟨fun i on => congrArg₂ Prod.mk (depths.inside i on) (colors.inside i on),fun i off => ?_⟩
  obtain ⟨one,two⟩ := colors.outside i off
  obtain ⟨three,four⟩ := depths.outside i off
  exact ⟨congrArg₂ Prod.mk three one,congrArg₂ Prod.mk four two⟩

theorem setup_box {tri : Triangle} {box : Setup} (found : setup fpu tri = some (some box)) :
    (0 ≤ box.x0 ∧ box.x1 ≤ FB_W-1) ∧ (0 ≤ box.y0 ∧ box.y1 ≤ FB_H-1) := by
  unfold setup at found
  split at found
  · cases found
  · obtain ⟨color,_,found⟩ := Option.bind_eq_some_iff.mp found
    obtain ⟨x0,left,found⟩ := Option.bind_eq_some_iff.mp found
    obtain ⟨x1,right,found⟩ := Option.bind_eq_some_iff.mp found
    obtain ⟨y0,top,found⟩ := Option.bind_eq_some_iff.mp found
    obtain ⟨y1,bottom,found⟩ := Option.map_eq_some_iff.mp found
    have far : x1 ≤ FB_W-1 := to_int_min (by decide) right
    have low : y1 ≤ FB_H-1 := to_int_min (by decide) bottom
    dsimp only at found
    split at found
    · cases found
    · split at found
      · cases found
      · cases found
        exact ⟨⟨to_int_max left,far⟩,⟨to_int_max top,low⟩⟩

theorem fragments_on_screen {tri : Triangle} {l : List Fragment} (offered : fragments fpu tri = some l) :
    ∀ f ∈ l, OnScreen f.idx := by
  intro f member
  obtain ⟨box,found,rfl⟩ := Option.map_eq_some_iff.mp offered
  cases box with
  | none => cases member
  | some box =>
      obtain ⟨columns,rows⟩ := setup_box found
      obtain ⟨p,inside,kept⟩ := List.mem_filterMap.mp member
      obtain ⟨y,row,inside⟩ := List.mem_flatMap.mp inside
      obtain ⟨x,column,rfl⟩ := List.mem_map.mp inside
      have across := span_mem.mp column
      have down := span_mem.mp row
      unfold Setup.fragment at kept
      split at kept
      · cases kept
        exact position_screen ⟨columns.1.trans across.1,across.2.trans columns.2⟩ ⟨rows.1.trans down.1,down.2.trans rows.2⟩
      · cases kept

theorem scene_on_screen {tris : List Triangle} {l : List Fragment} (offered : scene fpu tris = some l) :
    ∀ f ∈ l, OnScreen f.idx := by
  induction tris generalizing l with
  | nil =>
      cases offered
      exact nofun
  | cons tri tris ih =>
      obtain ⟨one,first,rest⟩ := Option.bind_eq_some_iff.mp offered
      obtain ⟨more,others,rfl⟩ := Option.map_eq_some_iff.mp rest
      intro f member
      rcases List.mem_append.mp member with here | there
      · exact fragments_on_screen first f here
      · exact ih others f there

theorem tested_repaints {l : List Fragment} (inside : ∀ f ∈ l, OnScreen f.idx) {before before' : Int → Sample}
    (painted : Repainted before before' t.at_ t'.at_) :
    Repainted before before' (l.foldl depth_test t).at_ (l.foldl depth_test t').at_ := by
  refine ⟨fun i on => ?_,fun i off => ?_⟩
  · rw [scene_at,scene_at,painted.inside i on]
  · have none_here : candidates l i = [] := by
      refine List.map_eq_nil_iff.mpr (List.filter_eq_nil_iff.mpr fun f member here => off ?_)
      exact of_decide_eq_true here ▸ inside f member
    rw [scene_at,scene_at,none_here]
    exact painted.outside i off

theorem raster_triangle_repaints (tri : Triangle) {before before' : Int → Sample}
    (painted : Repainted before before' t.at_ t'.at_) :
    Both (fun u u' => Repainted before before' u.at_ u'.at_) (raster_triangle fpu t tri) (raster_triangle fpu t' tri) := by
  rw [raster_triangle_fragments,raster_triangle_fragments]
  cases offered : fragments fpu tri with
  | none => exact .stops
  | some l => exact .arrives (tested_repaints (fragments_on_screen offered) painted)

theorem tri_loop_repaints (fuel : Nat) (tri : BitVec 32) {before before' : Int → Sample}
    (painted : Repainted before before' t.at_ t'.at_) :
    Both (fun u u' => Repainted before before' u.at_ u'.at_) (tri_loop fpu vm vertex_ea vertex_count fuel tri t)
      (tri_loop fpu vm vertex_ea vertex_count fuel tri t') := by
  induction fuel generalizing tri t t' with
  | zero => exact .stops
  | succ fuel ih =>
      rw [tri_loop,tri_loop]
      split
      · exact both_bind (raster_triangle_repaints _ painted) fun u u' painted => ih (tri+3) painted
      · exact .arrives painted

theorem present_repaints (fpu : HostFpu) (fuel : Nat) (b : Backdrop) (vm : GuestMem) (out : RsxOutput) (s s' : Screen) :
    Both (fun t t' => Repainted s.fb s'.fb t.fb t'.fb) (present fpu fuel b vm s out) (present fpu fuel b vm s' out) := by
  cases out with
  | clear bgra =>
      have painted : Repainted s.fb s'.fb (fill s.fb (plain bgra)) (fill s'.fb (plain bgra)) :=
        repainted_fill (plain bgra) (fun i => plain_covers bgra) s.fb s'.fb
      rw [present,present]
      refine .arrives ?_
      dsimp only
      exact painted
  | draw vertex_ea vertex_count =>
      have drawn : Both (fun t t' => Repainted s.at_ s'.at_ t.at_ t'.at_)
          (edge_rasterize_triangles fpu fuel vm vertex_ea vertex_count (frame_begin b s))
          (edge_rasterize_triangles fpu fuel vm vertex_ea vertex_count (frame_begin b s')) := by
        unfold edge_rasterize_triangles
        split
        · exact .arrives (frame_begin_repaints b s s')
        · exact tri_loop_repaints fuel 0 (frame_begin_repaints b s s')
      refine both_mono drawn fun t t' painted => ⟨fun i on => ?_,fun i off => ?_⟩
      · exact congrArg Prod.snd (painted.inside i on)
      · obtain ⟨one,two⟩ := painted.outside i off
        exact ⟨congrArg Prod.snd one,congrArg Prod.snd two⟩

-- An output with the textures and the guest memory that it meets.
structure Shown where
  backdrop : Backdrop
  vm : GuestMem
  out : RsxOutput

def present_all (fpu : HostFpu) (fuel : Nat) (outs : List Shown) (s : Screen) : Option Screen :=
  outs.foldlM (fun s o => present fpu fuel o.backdrop o.vm s o.out) s

theorem present_stays {out : RsxOutput} (done : present fpu fuel b vm s out = some t) (off : ¬ OnScreen i) :
    t.fb i = s.fb i := by
  have both := present_repaints fpu fuel b vm out s s
  rw [done] at both
  obtain ⟨_,_,painted⟩ := both_some both
  exact (painted.outside i off).1

theorem present_all_stays (outs : List Shown) (done : present_all fpu fuel outs s = some t) (off : ¬ OnScreen i) :
    t.fb i = s.fb i := by
  induction outs generalizing s with
  | nil =>
      cases done
      rfl
  | cons out outs ih =>
      rw [present_all,List.foldlM_cons] at done
      obtain ⟨u,first,rest⟩ := Option.bind_eq_some_iff.mp done
      exact (ih rest).trans (present_stays first off)

-- What is shown after any outputs is what the last one alone shows, on any screen, and
-- nothing off the screen is ever written.
theorem last_output_shown (fpu : HostFpu) (fuel : Nat) (outs : List Shown) (last : Shown) (s s' t : Screen)
    (done : present_all fpu fuel (outs ++ [last]) s = some t) :
    (∃ t', present fpu fuel last.backdrop last.vm s' last.out = some t' ∧ ∀ i, OnScreen i → t'.fb i = t.fb i) ∧
      ∀ i, ¬ OnScreen i → t.fb i = s.fb i := by
  refine ⟨?_,fun i off => present_all_stays _ done off⟩
  rw [present_all,List.foldlM_append] at done
  obtain ⟨u,_,end_⟩ := Option.bind_eq_some_iff.mp done
  rw [List.foldlM_cons] at end_
  obtain ⟨w,painted_last,same⟩ := Option.bind_eq_some_iff.mp end_
  cases same
  have both := present_repaints fpu fuel last.backdrop last.vm last.out u s'
  rw [painted_last] at both
  obtain ⟨t',shown,painted⟩ := both_some both
  exact ⟨t',shown,painted.inside⟩

-- No textures, and a batch of one empty triangle, in frame 1, before a clear in frame 2.
def noPictures : Backdrop where
  pool _ := ⟨none,⟨0,by decide⟩,⟨0,by decide⟩⟩
  bg_count := 0
  bg_current := 0
  frame_no := 0
  overlay1 := ⟨none,⟨0,by decide⟩,⟨0,by decide⟩⟩
  overlay2 := ⟨none,⟨0,by decide⟩,⟨0,by decide⟩⟩

def secondFrame : Backdrop := {noPictures with frame_no := 2}

def clearedFrame : Screen := {frame_begin noPictures blankScreen with fb := fill (frame_begin noPictures blankScreen).fb (plain 7)}

theorem last_output_shown_clear :
    (∃ t', present hostFpu 2 secondFrame (fun _ => 1) ⟨fun _ => 1,fun _ => 0⟩ (.clear 7) = some t' ∧
        ∀ i, OnScreen i → t'.fb i = clearedFrame.fb i) ∧
      ∀ i, ¬ OnScreen i → clearedFrame.fb i = blankScreen.fb i := by
  refine last_output_shown hostFpu 2 [⟨noPictures,fun _ => 0,.draw 0 3⟩] ⟨secondFrame,fun _ => 1,.clear 7⟩ blankScreen _
    clearedFrame ?_
  have empty : ∀ s, edge_rasterize_triangles hostFpu 2 (fun _ => 0) 0 3 s = some s := fun s => rfl
  simp only [present_all,List.cons_append,List.nil_append,List.foldlM_cons,List.foldlM_nil,present,empty,
    Option.bind_eq_bind,Option.bind_some,Option.pure_def,clearedFrame]
end Frame

end BudokaiRuntime.Rsx
