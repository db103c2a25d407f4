import BudokaiRuntime.Rsx.Frame
import BudokaiRuntime.Rsx.Submission

-- spurs_render_sphere_tick: the render thread writes a turning sphere to guest memory as
-- vertices, and draws it from there.
namespace BudokaiRuntime.Rsx.SphereTick
open Guest Binary32 ProgramGraph Spu

-- The host's trigonometry and (float)(uint32_t).
structure HostTrig where
  sinf : F32 → F32
  cosf : F32 → F32
  u2f : BitVec 32 → F32

abbrev NLAT : Nat := 14
abbrev NLON : Nat := 14
abbrev MAX_VERTS : Nat := 0x4000/16
abbrev VERTEX_BUF : BitVec 32 := 0xD0180000
abbrev VERTEX_BUF_END : BitVec 32 := 0xD0200000
abbrev EDGE_LS_SRC : BitVec 32 := 0xBC80

def PI : F32 := 0x40490FDB
def RADIUS : F32 := 0x3ED70A3D
def MINUS_RADIUS : F32 := 0xBED70A3D
def OX : F32 := 0x3E800000
def OY : F32 := 0x3D4CCCCD

abbrev Point : Type := F32 × F32 × F32

def words (v : Vertex) : List (BitVec 32) := [v.px,v.py,v.pz,v.pw]

structure VertexBuffer where
  vm : GuestMem
  vcount : Nat

section Code
variable (fpu : HostFpu) (trig : HostTrig) (frame : BitVec 32)

def turned : Point → Vertex
  | (x,y,z) =>
    let angle := fpu.fmul (trig.u2f frame) (fpu.fdiv PI 0x42F00000)
    let ca := trig.cosf angle
    let sa := trig.sinf angle
    {px := fpu.fadd (fpu.fsub (fpu.fmul x ca) (fpu.fmul z sa)) OX
     py := fpu.fadd y OY
     pz := fpu.fadd (fpu.fmul x sa) (fpu.fmul z ca)
     pw := ONE}

def add_vert (b : VertexBuffer) (p : Point) : VertexBuffer :=
  if MAX_VERTS ≤ b.vcount then b
  else ⟨put_words b.vm (VERTEX_BUF + BitVec.ofNat 32 b.vcount*16) (words (turned fpu trig frame p)),b.vcount+1⟩

def grid (i j : Nat) : Point :=
  let t := fpu.fdiv (fpu.fmul PI (of_nat i)) (of_nat NLAT)
  let p := fpu.fdiv (fpu.fmul (fpu.fmul 0x40000000 PI) (of_nat j)) (of_nat NLON)
  let st := trig.sinf t
  let cp := trig.cosf p
  let sp := trig.sinf p
  (fpu.fmul (fpu.fmul RADIUS st) cp,fpu.fmul RADIUS (trig.cosf t),fpu.fmul (fpu.fmul RADIUS st) sp)

def cell (i j : Nat) (b : VertexBuffer) : VertexBuffer :=
  let add := add_vert fpu trig frame
  let at_ := grid fpu trig
  if i = 0 then add (add (add b (0,RADIUS,0)) (at_ (i+1) (j+1))) (at_ (i+1) j)
  else if i = NLAT-1 then add (add (add b (0,MINUS_RADIUS,0)) (at_ i j)) (at_ i (j+1))
  else
    let b := add (add (add b (at_ i j)) (at_ (i+1) (j+1))) (at_ (i+1) j)
    if b.vcount + 3 ≤ MAX_VERTS then add (add (add b (at_ i j)) (at_ i (j+1))) (at_ (i+1) (j+1)) else b

-- The two loops, by the rounds that are left.
def columns (i : Nat) : Nat → Nat → VertexBuffer → VertexBuffer
  | 0,_,b => b
  | left+1,j,b => if b.vcount + 3 < MAX_VERTS then columns i left (j+1) (cell fpu trig frame i j b) else b

def rows : Nat → Nat → VertexBuffer → VertexBuffer
  | 0,_,b => b
  | left+1,i,b => if b.vcount + 6 < MAX_VERTS then rows left (i+1) (columns fpu trig frame i NLON 0 b) else b
end Code

structure RenderThread where
  frame : BitVec 32
  vm : GuestMem
  backdrop : Backdrop
  screen : Screen

def next_frame (b : Backdrop) : Backdrop := {b with bg_current := b.cycle,frame_no := b.frame_no + 1}

section Drawing
variable (fpu : HostFpu) (trig : HostTrig) (fuel : Nat)

-- The bypass draws what lies below the end of a transfer from the geometry's place.
def rsx_on_edge_write (t : RenderThread) (put_end_ea ls_src : BitVec 32) : Option RenderThread :=
  if put_end_ea ≤ VERTEX_BUF ∨ VERTEX_BUF_END < put_end_ea then some t
  else if ls_src ≠ EDGE_LS_SRC then some t
  else
    let vtx_count := (put_end_ea - VERTEX_BUF)/16
    if vtx_count < 3 then some t
    else
      (edge_rasterize_triangles fpu fuel t.vm (put_end_ea - vtx_count*16) vtx_count (frame_begin t.backdrop t.screen)).map
        fun screen => {t with backdrop := next_frame t.backdrop,screen := screen}

def spurs_render_sphere_tick (t : RenderThread) : Option RenderThread :=
  let frame := t.frame + 1
  let b := rows fpu trig frame NLAT 0 ⟨t.vm,0⟩
  let t := {t with frame := frame,vm := b.vm}
  if 3 ≤ b.vcount then rsx_on_edge_write fpu fuel t (VERTEX_BUF + BitVec.ofNat 32 b.vcount*16) EDGE_LS_SRC else some t
end Drawing

-- The sphere as it is meant: a triangle for every cell at the poles and two for every other.
section Tessellation
variable (fpu : HostFpu) (trig : HostTrig) (frame : BitVec 32)

def facets (i j : Nat) : List Triangle :=
  let at_ := fun i j => turned fpu trig frame (grid fpu trig i j)
  let pole := fun y => turned fpu trig frame (0,y,0)
  if i = 0 then [(pole RADIUS,at_ (i+1) (j+1),at_ (i+1) j)]
  else if i = NLAT-1 then [(pole MINUS_RADIUS,at_ i j,at_ i (j+1))]
  else [(at_ i j,at_ (i+1) (j+1),at_ (i+1) j),(at_ i j,at_ i (j+1),at_ (i+1) (j+1))]

def row (i j n : Nat) : List Triangle := (List.range' j n).flatMap (facets fpu trig frame i)

def band (i n : Nat) : List Triangle := (List.range' i n).flatMap fun i => row fpu trig frame i 0 NLON

def tessellation : List Triangle := band fpu trig frame 0 NLAT

-- The buffer has room for that many of its 364 triangles.
abbrev DRAWN : Nat := 341
end Tessellation

def corners (l : List Triangle) : List Vertex := l.flatMap fun t => [t.1,t.2.1,t.2.2]

def filled (vm : GuestMem) (l : List Vertex) : VertexBuffer := ⟨put_words vm VERTEX_BUF (l.flatMap words),l.length⟩

section Filling
variable {fpu : HostFpu} {trig : HostTrig} {frame : BitVec 32} {vm : GuestMem} {l : List Vertex} {i j left : Nat}

theorem put_words_append (one two : List (BitVec 32)) (vm : GuestMem) (a : BitVec 32) :
    put_words vm a (one ++ two) = put_words (put_words vm a one) (a + BitVec.ofNat 32 one.length*4) two := by
  induction one generalizing vm a with
  | nil =>
      rw [List.length_nil,List.nil_append,BitVec.zero_mul,BitVec.add_zero]
      rfl
  | cons w one ih =>
      have next : a + 4 + BitVec.ofNat 32 one.length*4 = a + BitVec.ofNat 32 (one.length+1)*4 := by
        rw [BitVec.ofNat_add,BitVec.add_mul,BitVec.add_assoc,BitVec.add_comm 4]
        rfl
      rw [List.cons_append,put_words,ih,next]
      rfl

theorem words_length (l : List Vertex) : (l.flatMap words).length = 4*l.length := by
  induction l with
  | nil => rfl
  | cons v l ih =>
      rw [List.flatMap_cons,List.length_append,ih,List.length_cons]
      show 4 + _ = _
      omega

theorem corners_length (l : List Triangle) : (corners l).length = 3*l.length := by
  induction l with
  | nil => rfl
  | cons t l ih =>
      have rest : (corners (t::l)).length = 3 + (corners l).length := List.length_append
      rw [rest,ih,List.length_cons]
      omega

theorem corners_append (one two : List Triangle) : corners (one ++ two) = corners one ++ corners two :=
  List.flatMap_append

theorem add_vert_filled (room : l.length < MAX_VERTS) (p : Point) :
    add_vert fpu trig frame (filled vm l) p = filled vm (l ++ [turned fpu trig frame p]) := by
  have place : BitVec.ofNat 32 (4*l.length)*4 = BitVec.ofNat 32 l.length*16 := by
    rw [BitVec.ofNat_mul,BitVec.mul_comm (BitVec.ofNat 32 4),BitVec.mul_assoc]
    rfl
  have stored := put_words_append (l.flatMap words) (words (turned fpu trig frame p)) vm VERTEX_BUF
  rw [words_length,place] at stored
  have free : ¬ MAX_VERTS ≤ (filled vm l).vcount := Nat.not_le.mpr room
  rw [add_vert,if_neg free,filled,filled,List.flatMap_append,List.length_append]
  exact congrArg (VertexBuffer.mk · _) stored.symm

theorem add_triangle (room : l.length + 3 ≤ MAX_VERTS) (p q r : Point) :
    add_vert fpu trig frame (add_vert fpu trig frame (add_vert fpu trig frame (filled vm l) p) q) r =
      filled vm (l ++ corners [(turned fpu trig frame p,turned fpu trig frame q,turned fpu trig frame r)]) := by
  have one : (l ++ [turned fpu trig frame p]).length = l.length + 1 := List.length_append
  have two : (l ++ [turned fpu trig frame p] ++ [turned fpu trig frame q]).length = l.length + 1 + 1 := by
    rw [List.length_append,one]
    rfl
  rw [add_vert_filled (by omega),add_vert_filled (by omega),add_vert_filled (by omega),List.append_assoc,List.append_assoc]
  rfl

theorem cell_filled (room : l.length + 3 ≤ MAX_VERTS) (i j : Nat) : cell fpu trig frame i j (filled vm l) =
    filled vm (l ++ corners ((facets fpu trig frame i j).take (if l.length + 6 ≤ MAX_VERTS then 2 else 1))) := by
  unfold cell facets
  dsimp only
  by_cases top : i = 0
  · rw [if_pos top,if_pos top,add_triangle room]
    split <;> rfl
  · by_cases bottom : i = NLAT-1
    · rw [if_neg top,if_neg top,if_pos bottom,if_pos bottom,add_triangle room]
      split <;> rfl
    · rw [if_neg top,if_neg top,if_neg bottom,if_neg bottom,add_triangle room]
      have count (t : Triangle) : (filled vm (l ++ corners [t])).vcount = l.length + 3 := List.length_append
      by_cases more : l.length + 6 ≤ MAX_VERTS
      · rw [if_pos more,count,if_pos more,add_triangle (by rw [List.length_append]; exact more),List.append_assoc]
        rfl
      · rw [if_neg more,count,if_neg more]
        rfl

theorem facets_take (i j : Nat) : (facets fpu trig frame i j).take 2 = facets fpu trig frame i j := by
  unfold facets
  split
  · rfl
  · split <;> rfl

theorem facets_few (i j : Nat) : (facets fpu trig frame i j).length ≤ 2 := by
  rw [← facets_take]
  exact List.length_take_le 2 _

theorem columns_filled (i n j : Nat) (room : l.length + 6*n ≤ MAX_VERTS) : columns fpu trig frame i (n + left) j (filled vm l) =
    columns fpu trig frame i left (j + n)
      (filled vm (l ++ corners (row fpu trig frame i j n))) := by
  induction n generalizing j l with
  | zero => rw [Nat.zero_add,Nat.add_zero,row,List.range'_zero,List.flatMap_nil,corners,List.flatMap_nil,List.append_nil]
  | succ n ih =>
      have goes : (filled vm l).vcount + 3 < MAX_VERTS := by
        show l.length + 3 < MAX_VERTS
        omega
      have few : (facets fpu trig frame i j).length ≤ 2 := facets_few i j
      have longer : (l ++ corners (facets fpu trig frame i j)).length ≤ l.length + 6 := by
        rw [List.length_append,corners_length]
        omega
      rw [Nat.add_right_comm n 1 left,columns,if_pos goes,cell_filled (by omega),if_pos (by omega),facets_take,ih (j+1) (by omega),
        List.append_assoc,← corners_append,Nat.add_right_comm j 1 n]
      rfl

theorem row_few (i n : Nat) : (row fpu trig frame i j n).length ≤ 2*n := by
  induction n generalizing j with
  | zero => exact Nat.le_refl 0
  | succ n ih =>
      have first : (facets fpu trig frame i j).length ≤ 2 := facets_few i j
      have rest : (row fpu trig frame i (j+1) n).length ≤ 2*n := ih
      rw [row] at rest ⊢
      rw [List.range'_succ,List.flatMap_cons,List.length_append]
      omega

theorem rows_filled (n i : Nat) (room : l.length + 84*n ≤ MAX_VERTS) : rows fpu trig frame (n + left) i (filled vm l) =
    rows fpu trig frame left (i + n) (filled vm (l ++ corners (band fpu trig frame i n))) := by
  induction n generalizing i l with
  | zero => rw [Nat.zero_add,Nat.add_zero,band,List.range'_zero,List.flatMap_nil,corners,List.flatMap_nil,List.append_nil]
  | succ n ih =>
      have goes : (filled vm l).vcount + 6 < MAX_VERTS := by
        show l.length + 6 < MAX_VERTS
        omega
      have fourteen : NLON = 14 := rfl
      have whole : columns fpu trig frame i NLON 0 (filled vm l) = filled vm (l ++ corners (row fpu trig frame i 0 NLON)) := by
        have all : columns fpu trig frame i (NLON+0) 0 (filled vm l) = columns fpu trig frame i 0 (0+NLON) _ :=
          columns_filled i NLON 0 (by omega)
        exact all
      have few : (row fpu trig frame i 0 NLON).length ≤ 2*NLON := row_few i NLON
      have longer : (l ++ corners (row fpu trig frame i 0 NLON)).length ≤ l.length + 84 := by
        rw [List.length_append,corners_length]
        omega
      rw [Nat.add_right_comm n 1 left,rows,if_pos goes,whole,ih (i+1) (by omega),List.append_assoc,← corners_append,
        Nat.add_right_comm i 1 n]
      rfl

theorem facets_length (i j : Nat) : (facets fpu trig frame i j).length = if i = 0 ∨ i = NLAT-1 then 1 else 2 := by
  unfold facets
  by_cases top : i = 0
  · rw [if_pos top,if_pos (.inl top)]
    rfl
  · by_cases bottom : i = NLAT-1
    · rw [if_neg top,if_pos bottom,if_pos (.inr bottom)]
      rfl
    · rw [if_neg top,if_neg bottom,if_neg (not_or.mpr ⟨top,bottom⟩)]
      rfl

theorem row_length (i j n : Nat) : (row fpu trig frame i j n).length = n * if i = 0 ∨ i = NLAT-1 then 1 else 2 := by
  induction n generalizing j with
  | zero => rw [Nat.zero_mul]; rfl
  | succ n ih =>
      have rest := ih (j+1)
      rw [row] at rest ⊢
      rw [List.range'_succ,List.flatMap_cons,List.length_append,rest,facets_length,Nat.succ_mul,Nat.add_comm]

theorem band_length (i n : Nat) : (band fpu trig frame i n).length =
    ((List.range' i n).map fun i => NLON * if i = 0 ∨ i = NLAT-1 then 1 else 2).sum := by
  rw [band,List.length_flatMap]
  refine congrArg List.sum (List.map_congr_left fun i _ => row_length i 0 NLON)

theorem row_split (i j m n : Nat) : row fpu trig frame i j (m+n) = row fpu trig frame i j m ++ row fpu trig frame i (j+m) n := by
  rw [row,row,row,← List.flatMap_append,List.range'_append_1]

theorem band_split (i m n : Nat) : band fpu trig frame i (m+n) = band fpu trig frame i m ++ band fpu trig frame (i+m) n := by
  rw [band,band,band,← List.flatMap_append,List.range'_append_1]

-- What fits: twelve rows, nine columns of the next, and one triangle of the tenth.
def fitting (fpu : HostFpu) (trig : HostTrig) (frame : BitVec 32) : List Triangle :=
  band fpu trig frame 0 12 ++ (row fpu trig frame 12 0 9 ++ (facets fpu trig frame 12 9).take 1)

theorem fitting_length : (fitting fpu trig frame).length = DRAWN := by
  rw [fitting,List.length_append,List.length_append,band_length,row_length,List.length_take,facets_length]
  rfl

theorem fitting_taken : fitting fpu trig frame = (tessellation fpu trig frame).take DRAWN := by
  have rows : tessellation fpu trig frame =
      band fpu trig frame 0 12 ++ (band fpu trig frame 12 1 ++ band fpu trig frame 13 1) := by
    rw [tessellation,band_split 0 12 2,band_split 12 1 1]
  have one : row fpu trig frame 12 9 1 = facets fpu trig frame 12 9 := List.append_nil _
  have last : band fpu trig frame 12 1 =
      row fpu trig frame 12 0 9 ++ (facets fpu trig frame 12 9 ++ row fpu trig frame 12 10 4) := by
    have whole : band fpu trig frame 12 1 = row fpu trig frame 12 0 NLON := List.append_nil _
    rw [whole,row_split 12 0 9 5,row_split 12 9 1 4,one]
  have rest : tessellation fpu trig frame = fitting fpu trig frame ++
      ((facets fpu trig frame 12 9).drop 1 ++ row fpu trig frame 12 10 4 ++ band fpu trig frame 13 1) := by
    rw [rows,last,fitting]
    nth_rewrite 1 [← List.take_append_drop 1 (facets fpu trig frame 12 9)]
    simp only [List.append_assoc]
  rw [rest]
  exact (List.take_left' fitting_length).symm

theorem rows_fitting (vm : GuestMem) :
    rows fpu trig frame NLAT 0 ⟨vm,0⟩ = filled vm (corners (fitting fpu trig frame)) := by
  have twelve : rows fpu trig frame (12+2) 0 (filled vm []) = rows fpu trig frame 2 (0+12) _ := rows_filled 12 0 (by decide)
  have full : (corners (band fpu trig frame 0 12)).length = 966 := by
    rw [corners_length,band_length]
    rfl
  rw [List.nil_append] at twelve
  rw [fitting,corners_append,corners_append]
  refine Eq.trans twelve ?_
  generalize corners (band fpu trig frame 0 12) = l at full ⊢
  have nine : columns fpu trig frame 12 (9+5) 0 (filled vm l) = columns fpu trig frame 12 5 (0+9) _ :=
    columns_filled 12 9 0 (by rw [full]; decide)
  have tenth : (l ++ corners (row fpu trig frame 12 0 9)).length = 1020 := by
    rw [List.length_append,full,corners_length,row_length]
    rfl
  rw [← List.append_assoc]
  generalize l ++ corners (row fpu trig frame 12 0 9) = l' at nine tenth ⊢
  have one : cell fpu trig frame 12 9 (filled vm l') = filled vm (l' ++ corners ((facets fpu trig frame 12 9).take 1)) := by
    rw [cell_filled (by rw [tenth]; decide),if_neg (by rw [tenth]; decide)]
  have end_ : (l' ++ corners ((facets fpu trig frame 12 9).take 1)).length = 1023 := by
    rw [List.length_append,tenth,corners_length,List.length_take,facets_length]
    rfl
  generalize l' ++ corners ((facets fpu trig frame 12 9).take 1) = l'' at one end_ ⊢
  have goes : (filled vm l').vcount + 3 < MAX_VERTS := by
    show l'.length + 3 < MAX_VERTS
    rw [tenth]
    decide
  have stops : ¬ (filled vm l'').vcount + 3 < MAX_VERTS := by
    show ¬ l''.length + 3 < MAX_VERTS
    rw [end_]
    decide
  have row_twelve : columns fpu trig frame 12 NLON 0 (filled vm l) = filled vm l'' := by
    refine Eq.trans nine ?_
    rw [columns,if_pos goes,one,columns,if_neg stops]
  have starts : (filled vm l).vcount + 6 < MAX_VERTS := by
    show l.length + 6 < MAX_VERTS
    rw [full]
    decide
  have ends : ¬ (filled vm l'').vcount + 6 < MAX_VERTS := by
    show ¬ l''.length + 6 < MAX_VERTS
    rw [end_]
    decide
  rw [rows,if_pos starts,row_twelve,rows,if_neg ends]

end Filling

section Reading
variable {vm : GuestMem} {a : BitVec 32} {v : Vertex} {rest : List (BitVec 32)}

theorem laid_vertex (laid : Laid vm a (words v ++ rest)) : vertex_at vm a = v ∧ Laid vm (a+16) rest := by
  obtain ⟨x,y,z,w,after⟩ := laid
  have third : a + 4 + 4 = a + 8 := BitVec.add_assoc a 4 4
  have fourth : a + 8 + 4 = a + 12 := BitVec.add_assoc a 8 4
  have past : a + 12 + 4 = a + 16 := BitVec.add_assoc a 12 4
  rw [third] at z w after
  rw [fourth] at w after
  rw [past] at after
  refine ⟨?_,after⟩
  rw [vertex_at,x,y,z,w]

theorem triangle_next (vm : GuestMem) (a : BitVec 32) (i : Nat) :
    triangle_at vm a (BitVec.ofNat 32 (3*(i+1))) = triangle_at vm (a+48) (BitVec.ofNat 32 (3*i)) := by
  have shift (n : BitVec 32) : a + (3 + n)*16 = a + 48 + n*16 := by
    rw [BitVec.add_mul,BitVec.add_assoc a 48]
    rfl
  have tri : BitVec.ofNat 32 (3*(i+1)) = 3 + BitVec.ofNat 32 (3*i) := by
    rw [Nat.mul_succ,Nat.add_comm,BitVec.ofNat_add]
    rfl
  unfold triangle_at
  rw [tri,BitVec.add_assoc,BitVec.add_assoc,shift,shift,shift]

theorem laid_triangles (l : List Triangle) (laid : Laid vm a ((corners l).flatMap words)) :
    (List.range l.length).map (fun i => triangle_at vm a (BitVec.ofNat 32 (3*i))) = l := by
  induction l generalizing a with
  | nil => rfl
  | cons t l ih =>
      obtain ⟨u,laid⟩ := laid_vertex laid
      obtain ⟨v,laid⟩ := laid_vertex laid
      obtain ⟨w,laid⟩ := laid_vertex laid
      have third : a + 16 + 16 = a + 32 := BitVec.add_assoc a 16 16
      have next : a + 32 + 16 = a + 48 := BitVec.add_assoc a 32 16
      rw [third] at w laid
      rw [next] at laid
      have first : triangle_at vm a (BitVec.ofNat 32 (3*0)) = t := by
        have here : a + 0*16 = a := BitVec.add_zero a
        show (vertex_at vm (a + 0*16),vertex_at vm (a + 16),vertex_at vm (a + 32)) = t
        rw [here,u,v,w]
      rw [List.length_cons,List.range_succ_eq_map,List.map_cons,first,List.map_map]
      refine congrArg (t :: ·) (Eq.trans ?_ (ih laid))
      exact List.map_congr_left fun i _ => triangle_next vm a i
end Reading

section Memory
variable {vm : GuestMem} {a b : BitVec 32}

theorem put_words_beside (l : List (BitVec 32)) (vm : GuestMem) (room : 4*l.length < 2^32)
    (past : 4*l.length ≤ (b - a).toNat) : put_words vm a l b = vm b := by
  induction l generalizing vm a with
  | nil => rfl
  | cons w l ih =>
      have four : (4 : BitVec 32).toNat = 4 := rfl
      rw [List.length_cons] at room past
      have rest : 4*l.length ≤ (b - (a+4)).toNat := by
        rw [BitVec.toNat_sub] at past ⊢
        rw [BitVec.toNat_add,four]
        omega
      rw [put_words,ih _ (by omega) rest,put32_beside (by omega)]

variable (fpu : HostFpu) (trig : HostTrig) (frame : BitVec 32)

abbrev written : List (BitVec 32) := (corners (fitting fpu trig frame)).flatMap words

theorem written_length : (written fpu trig frame).length = 4*(3*DRAWN) := by
  rw [words_length,corners_length,fitting_length]

theorem triangles_written (vm : GuestMem) :
    triangles (put_words vm VERTEX_BUF (written fpu trig frame)) VERTEX_BUF (3*DRAWN) = fitting fpu trig frame := by
  have laid : Laid (put_words vm VERTEX_BUF (written fpu trig frame)) VERTEX_BUF (written fpu trig frame) :=
    put_words_laid _ vm (by rw [written_length]; decide)
  have read := laid_triangles _ laid
  rw [fitting_length] at read
  exact read
end Memory

section Tick
variable {fpu : HostFpu} {trig : HostTrig} {fuel : Nat}

theorem bypass_draws (t : RenderThread) :
    rsx_on_edge_write fpu fuel t (VERTEX_BUF + BitVec.ofNat 32 (3*DRAWN)*16) EDGE_LS_SRC =
      (edge_rasterize_triangles fpu fuel t.vm VERTEX_BUF 1023 (frame_begin t.backdrop t.screen)).map fun screen =>
        {t with backdrop := next_frame t.backdrop,screen := screen} := by
  unfold rsx_on_edge_write
  rw [if_neg (by decide),if_neg (by decide)]
  exact if_neg (by decide)

theorem tick_draws (enough : DRAWN < fuel) (t : RenderThread) : spurs_render_sphere_tick fpu trig fuel t =
    (scene fpu (fitting fpu trig (t.frame+1))).map fun l =>
      ⟨t.frame+1,put_words t.vm VERTEX_BUF (written fpu trig (t.frame+1)),next_frame t.backdrop,
        l.foldl depth_test (frame_begin t.backdrop t.screen)⟩ := by
  have count : (corners (fitting fpu trig (t.frame+1))).length = 3*DRAWN := by rw [corners_length,fitting_length]
  have drawn : edge_rasterize_triangles fpu fuel (put_words t.vm VERTEX_BUF (written fpu trig (t.frame+1))) VERTEX_BUF 1023
      (frame_begin t.backdrop t.screen) = (scene fpu (triangles _ VERTEX_BUF (3*DRAWN))).map _ :=
    rasterize_scene (by decide) enough _
  rw [triangles_written] at drawn
  unfold spurs_render_sphere_tick
  dsimp only
  rw [rows_fitting,filled,count]
  dsimp only
  rw [if_pos (by decide),bypass_draws]
  dsimp only
  rw [drawn,Option.map_map]
  rfl
end Tick

def ticks (fpu : HostFpu) (trig : HostTrig) (fuel : Nat) : Nat → RenderThread → Option RenderThread
  | 0,t => some t
  | n+1,t => (ticks fpu trig fuel n t).bind (spurs_render_sphere_tick fpu trig fuel)

-- The backdrop n frames on, with the picture still to be chosen.
def later (b : Backdrop) (n : Nat) : Backdrop := {b with frame_no := b.frame_no + BitVec.ofNat 32 n}

structure Ticked (t : RenderThread) (n : Nat) (u : RenderThread) : Prop where
  frame : u.frame = t.frame + BitVec.ofNat 32 n
  backdrop : ∃ current, u.backdrop = {later t.backdrop n with bg_current := current} ∧
    (¬ 1 < t.backdrop.bg_count.val → current = t.backdrop.bg_current)
  memory : ∀ a, 16*(3*DRAWN) ≤ (a - VERTEX_BUF).toNat → u.vm a = t.vm a
  border : ∀ i, ¬ OnScreen i → u.screen.at_ i = t.screen.at_ i

section Run
variable {fpu : HostFpu} {trig : HostTrig} {fuel n : Nat} {t u w : RenderThread}

theorem counted (x : BitVec 32) (n : Nat) : x + BitVec.ofNat 32 n + 1 = x + BitVec.ofNat 32 (n+1) := by
  rw [BitVec.add_assoc,BitVec.ofNat_add]
  rfl

theorem cycle_alone {b : Backdrop} (one : ¬ 1 < b.bg_count.val) : b.cycle = b.bg_current := dif_neg one

-- Which picture is current matters only where there is nothing to choose from.
theorem cycle_current {b : Backdrop} {current : Fin BG_SLOTS} (alone : ¬ 1 < b.bg_count.val → current = b.bg_current) :
    Backdrop.cycle {b with bg_current := current} = b.cycle := by
  unfold Backdrop.cycle
  split
  · rfl
  · rename_i one
    exact alone one

theorem ticked_frame (ticked : Ticked t n u) (s : Screen) : frame_begin u.backdrop s = frame_begin (later t.backdrop n) s := by
  obtain ⟨current,backdrop,alone⟩ := ticked.backdrop
  have cycle : Backdrop.cycle {later t.backdrop n with bg_current := current} = (later t.backdrop n).cycle := cycle_current alone
  rw [backdrop]
  unfold frame_begin
  rw [cycle]

theorem drawn_repaints {tris : List Triangle} {l : List Fragment} (offered : scene fpu tris = some l) (b : Backdrop)
    (s s' : Screen) :
    Repainted s.at_ s'.at_ (l.foldl depth_test (frame_begin b s)).at_ (l.foldl depth_test (frame_begin b s')).at_ :=
  tested_repaints (scene_on_screen offered) (frame_begin_repaints b s s')

theorem tick_some (enough : DRAWN < fuel) (went : spurs_render_sphere_tick fpu trig fuel u = some w) :
    ∃ l, scene fpu (fitting fpu trig (u.frame+1)) = some l ∧ w =
      ⟨u.frame+1,put_words u.vm VERTEX_BUF (written fpu trig (u.frame+1)),next_frame u.backdrop,
        l.foldl depth_test (frame_begin u.backdrop u.screen)⟩ := by
  rw [tick_draws enough] at went
  obtain ⟨l,offered,rfl⟩ := Option.map_eq_some_iff.mp went
  exact ⟨l,offered,rfl⟩

theorem ticked_tick (enough : DRAWN < fuel) (ticked : Ticked t n u)
    (went : spurs_render_sphere_tick fpu trig fuel u = some w) : Ticked t (n+1) w := by
  obtain ⟨l,offered,rfl⟩ := tick_some enough went
  obtain ⟨current,backdrop,alone⟩ := ticked.backdrop
  refine ⟨?_,⟨u.backdrop.cycle,?_,fun one => ?_⟩,fun a past => ?_,fun i off => ?_⟩
  · rw [ticked.frame]
    exact counted t.frame n
  · show next_frame u.backdrop = _
    rw [next_frame,later,← counted,backdrop]
    rfl
  · have same : u.backdrop.cycle = (later t.backdrop n).cycle := by
      rw [backdrop]
      exact cycle_current alone
    exact same.trans (cycle_alone one)
  · have length : (written fpu trig (u.frame+1)).length = 4*(3*DRAWN) := written_length fpu trig _
    dsimp only
    rw [put_words_beside _ u.vm (by rw [length]; decide) (by rw [length]; omega)]
    exact ticked.memory a past
  · exact ((drawn_repaints offered u.backdrop u.screen u.screen).outside i off).1.trans (ticked.border i off)

theorem ticked_run (enough : DRAWN < fuel) (ran : ticks fpu trig fuel n t = some u) : Ticked t n u := by
  induction n generalizing u with
  | zero =>
      cases ran
      have same (x : BitVec 32) : x = x + BitVec.ofNat 32 0 := (BitVec.add_zero x).symm
      refine ⟨same _,⟨t.backdrop.bg_current,?_,fun _ => rfl⟩,fun _ _ => rfl,fun _ _ => rfl⟩
      rw [later,← same]
  | succ n ih =>
      obtain ⟨v,before,went⟩ := Option.bind_eq_some_iff.mp ran
      exact ticked_tick enough (ih before) went

-- However long the render thread has run: the picture is that of the last tick alone, made
-- of the triangles that fit, and nothing but the vertex buffer and the screen was written.
theorem sphere_ticks (enough : DRAWN < fuel) (ran : ticks fpu trig fuel (n+1) t = some u) :
    u.frame = t.frame + BitVec.ofNat 32 (n+1) ∧
      (∀ a, 16*(3*DRAWN) ≤ (a - VERTEX_BUF).toNat → u.vm a = t.vm a) ∧
      ∃ l, scene fpu ((tessellation fpu trig u.frame).take DRAWN) = some l ∧ ∀ s i,
        (OnScreen i → u.screen.at_ i = (l.foldl depth_test (frame_begin (later t.backdrop n) s)).at_ i) ∧
          (¬ OnScreen i → u.screen.at_ i = t.screen.at_ i) := by
  have whole := ticked_run enough ran
  obtain ⟨v,before,went⟩ := Option.bind_eq_some_iff.mp ran
  have ticked := ticked_run enough before
  obtain ⟨l,offered,rfl⟩ := tick_some enough went
  refine ⟨whole.frame,whole.memory,l,?_,fun s i => ⟨fun on => ?_,whole.border i⟩⟩
  · rw [← fitting_taken]
    exact offered
  · rw [← ticked_frame ticked]
    have alike := (drawn_repaints offered v.backdrop s v.screen).inside i on
    exact alike

-- A host that keeps only the sign of each result, and two ticks on it.
def sign_of (x y : F32) : F32 := if fgt x y then ONE else if fgt y x then 0xBF800000 else 0

def sign_mul (x y : F32) : F32 :=
  if feq x 0 || feq y 0 then 0 else if fgt x 0 == fgt y 0 then ONE else 0xBF800000

def signFpu : HostFpu where
  fadd x y := sign_of x (y ^^^ 0x80000000)
  fsub x y := sign_of x y
  fmul x y := sign_mul x y
  fdiv x y := sign_mul x y
  fabs x := sign_mul x x
  fsqrt x := sign_of x 0
  feq x y := feq x y
  fgt x y := fgt x y
  dadd _ _ := 0
  dsub _ _ := 0
  dmul _ _ := 0
  dneg _ := 0
  dabs _ := 0
  deq _ _ := false
  dgt _ _ := false
  dge _ _ := false
  ldexp1 _ := 0
  f2d _ := 0
  d2f _ := 0
  i2d _ := 0
  u2d _ := 0
  d2i _ := 0
  d2u _ := 0

def signTrig : HostTrig := ⟨fun x => sign_of x 0,fun x => if feq x 0 then ONE else 0xBF800000,fun n => of_nat n.toNat⟩

def firstTick : RenderThread := ⟨0,fun _ => 0,noPictures,blankScreen⟩

-- The angle of every frame is 1 there.
theorem sign_fitting : fitting signFpu signTrig 2 = fitting signFpu signTrig 1 := by
  have angle : signFpu.fmul (signTrig.u2f 2) (signFpu.fdiv PI 0x42F00000) =
      signFpu.fmul (signTrig.u2f 1) (signFpu.fdiv PI 0x42F00000) := by decide
  have turned_same : turned signFpu signTrig 2 = turned signFpu signTrig 1 := by
    funext ⟨x,y,z⟩
    simp only [turned,angle]
  rw [fitting_taken,fitting_taken]
  unfold tessellation band row facets
  rw [turned_same]

theorem sphere_ticks_second : ∃ u l, ticks signFpu signTrig 342 2 firstTick = some u ∧
    scene signFpu ((tessellation signFpu signTrig 2).take DRAWN) = some l ∧ l ≠ [] ∧
      ∀ s i, OnScreen i → u.screen.at_ i = (l.foldl depth_test (frame_begin (later noPictures 1) s)).at_ i := by
  have one : ((scene signFpu (fitting signFpu signTrig 1)).map (·.isEmpty)) = some false := by decide +kernel
  obtain ⟨first,offered,drawn⟩ := Option.map_eq_some_iff.mp one
  obtain ⟨u,went⟩ : ∃ u, ticks signFpu signTrig 342 2 firstTick = some u := by
    have start : firstTick.frame + 1 = 1 := rfl
    have next : (1 : BitVec 32) + 1 = 2 := rfl
    rw [ticks,ticks,ticks,Option.bind_some,tick_draws (by decide),start,offered,Option.map_some,Option.bind_some,
      tick_draws (by decide)]
    dsimp only
    rw [next,sign_fitting,offered]
    exact ⟨_,rfl⟩
  obtain ⟨frame,_,l,scene_,picture⟩ := sphere_ticks (by decide) went
  have last : u.frame = 2 := frame
  rw [last] at scene_
  rw [← sign_fitting,fitting_taken,scene_] at offered
  have same : l = first := Option.some.inj offered
  refine ⟨u,l,went,scene_,fun none_ => ?_,fun s i => (picture s i).1⟩
  rw [← same,none_] at drawn
  cases drawn
end Run

end BudokaiRuntime.Rsx.SphereTick
