import BudokaiRuntime.Foundations.Binary32
import BudokaiRuntime.Foundations.Champion
import BudokaiRuntime.Foundations.ProgramGraph
import BudokaiRuntime.Rsx.Blend
import BudokaiRuntime.Rsx.Fifo
import BudokaiRuntime.Spu.HostFpu

-- The software rasterizer: shaded triangles under a depth buffer. The host's arithmetic
-- is a parameter, its comparisons and conversions are those of the format.
namespace BudokaiRuntime.Rsx
open Guest Binary32 Champion ProgramGraph Spu

abbrev FB_W : Nat := 1280
abbrev FB_H : Nat := 720

structure Screen where
  fb : Int → BitVec 32
  z : Int → F32

structure Vertex where
  px : F32
  py : F32
  pz : F32
  pw : F32
deriving DecidableEq

structure Corner where
  sx : F32
  sy : F32
  sz : F32

abbrev Triangle : Type := Vertex × Vertex × Vertex

structure Setup where
  a : Corner
  b : Corner
  c : Corner
  color : BitVec 32
  area : F32
  inv_area : F32
  x0 : Int
  x1 : Int
  y0 : Int
  y1 : Int

def vertex_at (vm : GuestMem) (va : BitVec 32) : Vertex :=
  ⟨rsx_r32 vm va,rsx_r32 vm (va+4),rsx_r32 vm (va+8),rsx_r32 vm (va+12)⟩

def triangle_at (vm : GuestMem) (vertex_ea tri : BitVec 32) : Triangle :=
  (vertex_at vm (vertex_ea + tri*16),vertex_at vm (vertex_ea + (tri+1)*16),vertex_at vm (vertex_ea + (tri+2)*16))

-- The float constants of the source.
def ONE : F32 := 0x3F800000
def HALF : F32 := 0x3F000000
def LX : F32 := 0x3ED0E560
def LY : F32 := 0x3F50E560
def LZ : F32 := 0x3ED0E560
def FAR : F32 := 0xC0000000

def to_byte (x : F32) : Option (BitVec 8) :=
  (to_int x).bind fun n => if 0 ≤ n ∧ n < 256 then some (BitVec.ofInt 8 n) else none

-- `for (int v = first; v <= last; v++)`
def span (first last : Int) : List Int := (List.range (last+1-first).toNat).map fun (k : Nat) => first + (k : Int)

section Code
variable (fpu : HostFpu)

def degenerate : Triangle → Bool
  | (u,v,w) => feq u.px 0 && feq u.py 0 && feq u.pz 0 && feq v.px 0 && feq v.py 0 && feq w.px 0 && feq w.py 0

def project (v : Vertex) : Corner :=
  let w := if feq v.pw 0 then ONE else v.pw
  {sx := fpu.fmul (fpu.fadd (fpu.fdiv v.px w) ONE) (fpu.fmul (of_nat FB_W) HALF)
   sy := fpu.fmul (fpu.fsub ONE (fpu.fdiv v.py w)) (fpu.fmul (of_nat FB_H) HALF)
   sz := fpu.fdiv v.pz w}

-- Flat shading: the face normal against the light, and a highlight.
def shaded : Triangle → Option (BitVec 32)
  | (u,v,w) =>
    let e1x := fpu.fsub v.px u.px
    let e1y := fpu.fsub v.py u.py
    let e1z := fpu.fsub v.pz u.pz
    let e2x := fpu.fsub w.px u.px
    let e2y := fpu.fsub w.py u.py
    let e2z := fpu.fsub w.pz u.pz
    let nx := fpu.fsub (fpu.fmul e1y e2z) (fpu.fmul e1z e2y)
    let ny := fpu.fsub (fpu.fmul e1z e2x) (fpu.fmul e1x e2z)
    let nz := fpu.fsub (fpu.fmul e1x e2y) (fpu.fmul e1y e2x)
    let nl := fpu.fsqrt (fpu.fadd (fpu.fadd (fpu.fmul nx nx) (fpu.fmul ny ny)) (fpu.fmul nz nz))
    let unit := fun n => if fgt nl 0x358637BD then fpu.fdiv n nl else n
    let nx := unit nx
    let ny := unit ny
    let nz := unit nz
    let light := fpu.fadd (fpu.fadd (fpu.fmul nx LX) (fpu.fmul ny LY)) (fpu.fmul nz LZ)
    let diff := fmaxf 0 light
    let spec_base := fmaxf 0 (fpu.fsub (fpu.fmul (fpu.fmul 0x40000000 light) nz) LZ)
    let spec := fpu.fmul (fpu.fmul (fpu.fmul spec_base spec_base) spec_base) spec_base
    let shade := fmaxf 0x3E8F5C29 (fpu.fadd (fpu.fmul diff 0x3F3851EC) (fpu.fmul spec HALF))
    let level := fun k s base =>
      to_byte (fminf 0x437F0000 (fpu.fadd (fpu.fadd (fpu.fmul shade k) (fpu.fmul spec s)) base))
    (level 0x43570000 0x435C0000 0x42200000).bind fun r =>
      (level 0x42C80000 0x43340000 0x41900000).bind fun g =>
        (level 0x41000000 0x42700000 0x40000000).map fun b =>
          packed (r.setWidth 32) (g.setWidth 32) (b.setWidth 32)

def ef (ax ay bx by_ cx cy : F32) : F32 :=
  fpu.fsub (fpu.fmul (fpu.fsub bx ax) (fpu.fsub cy ay)) (fpu.fmul (fpu.fsub by_ ay) (fpu.fsub cx ax))

-- `none` where a conversion is undefined, `some none` where the triangle is skipped.
def setup (tri : Triangle) : Option (Option Setup) :=
  if degenerate tri then some none
  else
    let a := project fpu tri.1
    let b := project fpu tri.2.1
    let c := project fpu tri.2.2
    (shaded fpu tri).bind fun color =>
      (to_int (fmaxf 0 (fminf a.sx (fminf b.sx c.sx)))).bind fun x0 =>
        (to_int (fminf (of_nat (FB_W-1)) (fmaxf a.sx (fmaxf b.sx c.sx)))).bind fun x1 =>
          (to_int (fmaxf 0 (fminf a.sy (fminf b.sy c.sy)))).bind fun y0 =>
            (to_int (fminf (of_nat (FB_H-1)) (fmaxf a.sy (fmaxf b.sy c.sy)))).map fun y1 =>
              let area := ef fpu a.sx a.sy b.sx b.sy c.sx c.sy
              if x1 < x0 ∨ y1 < y0 then none
              else if fgt HALF (fpu.fabs area) then none
              else some ⟨a,b,c,color,area,fpu.fdiv ONE area,x0,x1,y0,y1⟩

def Setup.weights (t : Setup) (p : Int × Int) : F32 × F32 × F32 :=
  let cx := fpu.fadd (of_nat p.1.toNat) HALF
  let cy := fpu.fadd (of_nat p.2.toNat) HALF
  (ef fpu t.b.sx t.b.sy t.c.sx t.c.sy cx cy,ef fpu t.c.sx t.c.sy t.a.sx t.a.sy cx cy,
    ef fpu t.a.sx t.a.sy t.b.sx t.b.sy cx cy)

def Setup.inside (t : Setup) (p : Int × Int) : Bool :=
  let (b0,b1,b2) := t.weights fpu p
  if fgt t.area 0 then fge b0 0 && fge b1 0 && fge b2 0 else fge 0 b0 && fge 0 b1 && fge 0 b2

def Setup.z_pixel (t : Setup) (p : Int × Int) : F32 :=
  let (b0,b1,b2) := t.weights fpu p
  fpu.fmul (fpu.fadd (fpu.fadd (fpu.fmul b0 t.a.sz) (fpu.fmul b1 t.b.sz)) (fpu.fmul b2 t.c.sz)) t.inv_area

def raster_pixel (t : Setup) (s : Screen) (p : Int × Int) : Screen :=
  if !t.inside fpu p then s
  else
    let idx := p.2*FB_W + p.1
    if fgt (t.z_pixel fpu p) (s.z idx) then
      {z := Function.update s.z idx (t.z_pixel fpu p),fb := Function.update s.fb idx t.color}
    else s

def Setup.pixels (t : Setup) : List (Int × Int) := (span t.y0 t.y1).flatMap fun y => (span t.x0 t.x1).map fun x => (x,y)

def raster_triangle (s : Screen) (tri : Triangle) : Option Screen :=
  (setup fpu tri).map fun t => t.elim s fun t => t.pixels.foldl (raster_pixel fpu t) s

-- `for (uint32_t tri = 0; tri + 2 < vertex_count; tri += 3)`
def tri_loop (vm : GuestMem) (vertex_ea vertex_count : BitVec 32) : Nat → BitVec 32 → Screen → Option Screen
  | 0,_,_ => none
  | fuel+1,tri,s =>
    if tri + 2 < vertex_count then
      (raster_triangle fpu s (triangle_at vm vertex_ea tri)).bind (tri_loop vm vertex_ea vertex_count fuel (tri+3))
    else some s

def edge_rasterize_triangles (fuel : Nat) (vm : GuestMem) (vertex_ea vertex_count : BitVec 32) (s : Screen) :
    Option Screen :=
  if vertex_count < 3 then some s else tri_loop fpu vm vertex_ea vertex_count fuel 0 s
end Code

-- What a triangle offers the depth test, whatever the screen holds.
structure Fragment where
  idx : Int
  z : F32
  color : BitVec 32

def depth_test (s : Screen) (f : Fragment) : Screen :=
  if fgt f.z (s.z f.idx) then {z := Function.update s.z f.idx f.z,fb := Function.update s.fb f.idx f.color} else s

section Fragments
variable (fpu : HostFpu)

def Setup.fragment (t : Setup) (p : Int × Int) : Option Fragment :=
  if t.inside fpu p then some ⟨p.2*FB_W + p.1,t.z_pixel fpu p,t.color⟩ else none

def fragments (tri : Triangle) : Option (List Fragment) :=
  (setup fpu tri).map fun t => t.elim [] fun t => t.pixels.filterMap (t.fragment fpu)

def scene : List Triangle → Option (List Fragment)
  | [] => some []
  | tri::rest => (fragments fpu tri).bind fun one => (scene rest).map (one ++ ·)

variable {fpu} {t : Setup} {s : Screen}

theorem raster_pixel_fragment (t : Setup) (s : Screen) (p : Int × Int) :
    raster_pixel fpu t s p = (t.fragment fpu p).elim s (depth_test s) := by
  unfold raster_pixel Setup.fragment
  cases t.inside fpu p with
  | false => rfl
  | true => rfl

theorem foldl_fragments (t : Setup) (pixels : List (Int × Int)) (s : Screen) :
    pixels.foldl (raster_pixel fpu t) s = (pixels.filterMap (t.fragment fpu)).foldl depth_test s := by
  induction pixels generalizing s with
  | nil => rfl
  | cons p pixels ih =>
      rw [List.foldl_cons,raster_pixel_fragment,ih,List.filterMap_cons]
      cases t.fragment fpu p with
      | none => rfl
      | some f => rfl

theorem raster_triangle_fragments (s : Screen) (tri : Triangle) :
    raster_triangle fpu s tri = (fragments fpu tri).map (·.foldl depth_test s) := by
  unfold raster_triangle fragments
  rw [Option.map_map]
  refine congrArg (fun f => Option.map f _) (funext fun t => ?_)
  cases t with
  | none => rfl
  | some t => exact foldl_fragments t t.pixels s

theorem triangles_scene (tris : List Triangle) (s : Screen) :
    tris.foldlM (raster_triangle fpu) s = (scene fpu tris).map (·.foldl depth_test s) := by
  induction tris generalizing s with
  | nil => rfl
  | cons tri tris ih =>
      rw [List.foldlM_cons,raster_triangle_fragments,scene]
      cases fragments fpu tri with
      | none => rfl
      | some one =>
          show tris.foldlM (raster_triangle fpu) (one.foldl depth_test s) = _
          rw [ih,Option.bind_some,Option.map_map]
          refine congrArg (fun f => Option.map f _) (funext fun rest => ?_)
          exact List.foldl_append.symm
end Fragments

def triangles (vm : GuestMem) (vertex_ea : BitVec 32) (count : Nat) : List Triangle :=
  (List.range (count/3)).map fun i => triangle_at vm vertex_ea (BitVec.ofNat 32 (3*i))

section Loop
variable {fpu : HostFpu} {vm : GuestMem} {vertex_ea vertex_count : BitVec 32} {fuel : Nat} {s : Screen}

-- Only the greatest count of all makes `tri + 2` wrap.
theorem tri_loop_from (last : vertex_count ≠ 0xFFFFFFFF) (i k : Nat) (left : vertex_count.toNat/3 = i+k) (enough : k < fuel)
    (s : Screen) : tri_loop fpu vm vertex_ea vertex_count fuel (BitVec.ofNat 32 (3*i)) s =
      ((List.range' i k).map fun i => triangle_at vm vertex_ea (BitVec.ofNat 32 (3*i))).foldlM (raster_triangle fpu) s := by
  have two : (2 : BitVec 32).toNat = 2 := rfl
  have bound := vertex_count.isLt
  have short : vertex_count.toNat ≠ 0xFFFFFFFF := fun same => last (BitVec.eq_of_toNat_eq same)
  have place : (BitVec.ofNat 32 (3*i) + 2).toNat = 3*i+2 := by
    rw [BitVec.toNat_add,BitVec.toNat_ofNat,two]
    omega
  induction k generalizing i fuel s with
  | zero =>
      obtain ⟨fuel,rfl⟩ : ∃ n, fuel = n+1 := ⟨fuel-1,by omega⟩
      have stops : ¬ BitVec.ofNat 32 (3*i) + 2 < vertex_count := by
        rw [BitVec.lt_def,place]
        omega
      rw [tri_loop,if_neg stops]
      rfl
  | succ k ih =>
      obtain ⟨fuel,rfl⟩ : ∃ n, fuel = n+1 := ⟨fuel-1,by omega⟩
      have goes : BitVec.ofNat 32 (3*i) + 2 < vertex_count := by
        rw [BitVec.lt_def,place]
        omega
      have next : BitVec.ofNat 32 (3*i) + 3 = BitVec.ofNat 32 (3*(i+1)) := by
        rw [Nat.mul_succ,BitVec.ofNat_add]
        rfl
      rw [tri_loop,if_pos goes,next,List.range'_succ,List.map_cons,List.foldlM_cons]
      refine congrArg (Option.bind _) (funext fun s => ?_)
      refine ih (i+1) (by omega) (by omega) s ?_
      rw [BitVec.toNat_add,BitVec.toNat_ofNat,two]
      omega

theorem rasterize_scene (last : vertex_count ≠ 0xFFFFFFFF) (enough : vertex_count.toNat/3 < fuel) (s : Screen) :
    edge_rasterize_triangles fpu fuel vm vertex_ea vertex_count s =
      (scene fpu (triangles vm vertex_ea vertex_count.toNat)).map (·.foldl depth_test s) := by
  have all : triangles vm vertex_ea vertex_count.toNat =
      (List.range' 0 (vertex_count.toNat/3)).map fun i => triangle_at vm vertex_ea (BitVec.ofNat 32 (3*i)) := by
    rw [triangles,List.range_eq_range']
  rw [← triangles_scene,all]
  unfold edge_rasterize_triangles
  split
  · rename_i few
    have none_left : vertex_count.toNat/3 = 0 := by
      have few : vertex_count.toNat < 3 := few
      omega
    rw [none_left]
    rfl
  · exact tri_loop_from last 0 _ (Nat.zero_add _).symm enough s
end Loop

end BudokaiRuntime.Rsx
