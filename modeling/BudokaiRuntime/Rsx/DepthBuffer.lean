import BudokaiRuntime.Rsx.Rasterizer

-- What the depth test leaves: the frontmost fragment of each pixel, in whatever order the
-- triangles came.
namespace BudokaiRuntime.Rsx
open Guest Binary32 Champion ProgramGraph Spu

-- A pixel as the depth test sees it: a depth, and the colour that goes with it.
abbrev Sample : Type := F32 × BitVec 32

def depth (x : Sample) : Option Int := rank x.1

def Screen.at_ (s : Screen) (i : Int) : Sample := (s.z i,s.fb i)

def candidates (l : List Fragment) (i : Int) : List Sample :=
  (l.filter (·.idx = i)).map fun f => (f.z,f.color)

section Test
variable {s : Screen} {f : Fragment} {i : Int}

theorem fgt_beats (x y : Sample) : fgt x.1 y.1 = true ↔ Beats depth x y := by
  unfold fgt Beats depth
  constructor
  · intro greater
    split at greater
    · rename_i p q one two
      exact ⟨p,q,one,two,of_decide_eq_true greater⟩
    · cases greater
  · rintro ⟨p,q,one,two,less⟩
    rw [one,two]
    exact decide_eq_true less

theorem depth_test_here (s : Screen) (f : Fragment) :
    (depth_test s f).at_ f.idx = challenge depth (s.at_ f.idx) (f.z,f.color) := by
  have same := fgt_beats (f.z,f.color) (s.at_ f.idx)
  unfold depth_test challenge
  by_cases above : fgt f.z (s.z f.idx) = true
  · rw [if_pos above,if_pos (same.mp above)]
    exact congrArg₂ Prod.mk (Function.update_self _ _ _) (Function.update_self _ _ _)
  · rw [if_neg above,if_neg fun beats => above (same.mpr beats)]

theorem depth_test_elsewhere (s : Screen) (f : Fragment) (other : i ≠ f.idx) : (depth_test s f).at_ i = s.at_ i := by
  unfold depth_test
  split
  · exact congrArg₂ Prod.mk (Function.update_of_ne other _ _) (Function.update_of_ne other _ _)
  · rfl

theorem scene_at (l : List Fragment) (s : Screen) (i : Int) :
    (l.foldl depth_test s).at_ i = (candidates l i).foldl (challenge depth) (s.at_ i) := by
  induction l generalizing s with
  | nil => rfl
  | cons f l ih =>
      rw [List.foldl_cons,ih]
      by_cases here : f.idx = i
      · have first : candidates (f::l) i = (f.z,f.color)::candidates l i := by
          unfold candidates
          rw [List.filter_cons,if_pos (decide_eq_true here)]
          rfl
        rw [first,List.foldl_cons,← here,depth_test_here]
      · have same : candidates (f::l) i = candidates l i := by
          unfold candidates
          rw [List.filter_cons,if_neg (by simpa using here)]
        rw [same,depth_test_elsewhere s f fun same => here same.symm]

theorem scene_wins (l : List Fragment) (s : Screen) (i : Int) :
    Wins depth (s.at_ i) (candidates l i) ((l.foldl depth_test s).at_ i) := by
  rw [scene_at]
  exact wins_fold _ _
end Test

section Order
variable {fpu : HostFpu} {one two : List Fragment} {s : Screen} {i : Int}

theorem candidate_fragment {x : Sample} : x ∈ candidates one i ↔ ∃ f ∈ one, f.idx = i ∧ x = (f.z,f.color) := by
  unfold candidates
  constructor
  · intro member
    obtain ⟨f,kept,rfl⟩ := List.mem_map.mp member
    obtain ⟨inside,here⟩ := List.mem_filter.mp kept
    exact ⟨f,inside,of_decide_eq_true here,rfl⟩
  · rintro ⟨f,inside,here,rfl⟩
    exact List.mem_map.mpr ⟨f,List.mem_filter.mpr ⟨inside,decide_eq_true here⟩,rfl⟩

-- Fragments of one pixel at one depth have one colour.
def Untied (l : List Fragment) (i : Int) : Prop :=
  ∀ f ∈ l, ∀ g ∈ l, f.idx = i → g.idx = i → rank f.z = rank g.z → f.color = g.color

theorem perm_pixel (perm : one.Perm two) (s : Screen) (i : Int) :
    rank ((two.foldl depth_test s).z i) = rank ((one.foldl depth_test s).z i) ∧
      (Untied one i → (two.foldl depth_test s).fb i = (one.foldl depth_test s).fb i) := by
  have same : ∀ x, x ∈ candidates one i ↔ x ∈ candidates two i := fun x => by
    rw [candidate_fragment,candidate_fragment]
    exact exists_congr fun f => and_congr_left fun _ => perm.mem_iff
  rcases wins_unique (scene_wins one s i) (scene_wins two s i) same with equal | ⟨first,second,p,here,there⟩
  · exact ⟨congrArg (fun x : Sample => rank x.1) equal.symm,fun _ => congrArg Prod.snd equal.symm⟩
  · refine ⟨there.trans here.symm,fun untied => ?_⟩
    obtain ⟨f,inside,at_f,left⟩ := candidate_fragment.mp first
    obtain ⟨g,within,at_g,right⟩ := candidate_fragment.mp second
    have level : rank f.z = rank g.z := by
      rw [left] at here
      rw [right] at there
      exact here.trans there.symm
    have color := untied f inside g within at_f at_g level
    have left_color : (one.foldl depth_test s).fb i = f.color := congrArg Prod.snd left
    have right_color : (two.foldl depth_test s).fb i = g.color := congrArg Prod.snd right
    rw [left_color,right_color,color]

theorem scene_perm {tris tris' : List Triangle} (perm : tris.Perm tris') :
    Both List.Perm (scene fpu tris) (scene fpu tris') := by
  induction perm with
  | nil => exact .arrives (List.Perm.refl _)
  | cons tri _ ih =>
      rw [scene,scene]
      cases fragments fpu tri with
      | none => exact .stops
      | some one => exact both_map ih fun _ _ rest => rest.append_left one
  | swap tri other rest =>
      rw [scene,scene,scene,scene]
      cases fragments fpu tri with
      | none =>
          cases fragments fpu other with
          | none => exact .stops
          | some _ => exact .stops
      | some one =>
          cases fragments fpu other with
          | none => exact .stops
          | some two =>
              simp only [Option.bind_some,Option.map_map]
              cases scene fpu rest with
              | none => exact .stops
              | some l =>
                  refine .arrives ?_
                  show (two ++ (one ++ l)).Perm (one ++ (two ++ l))
                  rw [← List.append_assoc,← List.append_assoc]
                  exact List.perm_append_comm.append_right l
  | trans _ _ first second => exact both_trans first second fun _ _ _ => List.Perm.trans

-- The picture does not depend on the order of the triangles: the depths never, and a
-- colour only where two fragments tie.
theorem picture_order_free (fpu : HostFpu) (vm vm' : GuestMem) (vertex_ea vertex_ea' vertex_count : BitVec 32)
    (perm : (triangles vm vertex_ea vertex_count.toNat).Perm (triangles vm' vertex_ea' vertex_count.toNat))
    (last : vertex_count ≠ 0xFFFFFFFF) (enough : vertex_count.toNat/3 < fuel) (s : Screen) :
    Both (fun t t' => ∀ i, rank (t'.z i) = rank (t.z i) ∧
        ((∀ l, scene fpu (triangles vm vertex_ea vertex_count.toNat) = some l → Untied l i) → t'.fb i = t.fb i))
      (edge_rasterize_triangles fpu fuel vm vertex_ea vertex_count s)
      (edge_rasterize_triangles fpu fuel vm' vertex_ea' vertex_count s) := by
  rw [rasterize_scene last enough,rasterize_scene last enough]
  have both : Both List.Perm (scene fpu (triangles vm vertex_ea vertex_count.toNat))
    (scene fpu (triangles vm' vertex_ea' vertex_count.toNat)) := scene_perm perm
  generalize scene fpu (triangles vm vertex_ea vertex_count.toNat) = one at both ⊢
  generalize scene fpu (triangles vm' vertex_ea' vertex_count.toNat) = two at both ⊢
  cases both with
  | stops => exact .stops
  | @arrives l l' same =>
      refine .arrives fun i => ?_
      obtain ⟨depths,colors⟩ := perm_pixel same s i
      exact ⟨depths,fun untied => colors (untied l rfl)⟩

def twoTriangles : GuestMem := fun a => if a.toNat % 96 < 48 then 0x3F else 0x40

def blankScreen : Screen := ⟨fun _ => 0xFF080810,fun _ => FAR⟩

theorem picture_order_free_two :
    Both (fun t t' => ∀ i, rank (t'.z i) = rank (t.z i) ∧
        ((∀ l, scene hostFpu (triangles twoTriangles 0 6) = some l → Untied l i) → t'.fb i = t.fb i))
      (edge_rasterize_triangles hostFpu 3 twoTriangles 0 6 blankScreen)
      (edge_rasterize_triangles hostFpu 3 twoTriangles 48 6 blankScreen) := by
  refine picture_order_free hostFpu twoTriangles twoTriangles 0 48 6 ?_ (by decide) (by decide) blankScreen
  have first : triangles twoTriangles 0 6 = [triangle_at twoTriangles 0 0,triangle_at twoTriangles 0 3] := rfl
  have second : triangles twoTriangles 48 6 = [triangle_at twoTriangles 0 3,triangle_at twoTriangles 0 0] := by decide +kernel
  show (triangles twoTriangles 0 6).Perm (triangles twoTriangles 48 6)
  rw [first,second]
  exact .swap _ _ _
end Order

end BudokaiRuntime.Rsx
