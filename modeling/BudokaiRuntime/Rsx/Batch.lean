import Mathlib.Data.BitVec
import Mathlib.Tactic.LinearCombination
import BudokaiRuntime.Foundations.Pieces
import BudokaiRuntime.Rsx.Fifo

-- The vertices a primitive batch names, and those it has rasterized.
namespace BudokaiRuntime.Rsx
open Pieces

def draw_first (arg : BitVec 32) : BitVec 32 := arg &&& 0x00FFFFFF
def draw_count (arg : BitVec 32) : BitVec 32 := ((arg >>> 24) &&& 0xFF) + 1
def vtx_stride (format : BitVec 32) : BitVec 32 := (format >>> 8) &&& 0xFFFF

def draw_total (args : List (BitVec 32)) : Nat := (args.map fun arg => (draw_count arg).toNat).sum

-- SET_BEGIN_END(mode), DRAW_ARRAYS of every argument, SET_BEGIN_END(0).
def batch (mode : BitVec 32) (args : List (BitVec 32)) : List RsxCall :=
  ⟨0x17FC,mode⟩ :: args.map (fun arg => ⟨0x1808,arg⟩) ++ [⟨0x17FC,0⟩]

def namedVertices (rsx : Renderer) (args : List (BitVec 32)) : List (BitVec 32) :=
  args.flatMap fun arg => (List.range (draw_count arg).toNat).map fun j =>
    rsx_io_to_ea (rsx.vtx_io_offset 0) + (draw_first arg + BitVec.ofNat 32 j) * vtx_stride (rsx.vtx_format 0)

-- The rasterizer takes a vertex every 16 bytes.
def rasterizedVertices (vertex_ea vertex_count : BitVec 32) : List (BitVec 32) :=
  (List.range vertex_count.toNat).map fun k => vertex_ea + BitVec.ofNat 32 k * 16

def DrawsNamed (rsx : Renderer) (mode : BitVec 32) (args : List (BitVec 32)) : Prop :=
  ∃ vertex_ea vertex_count, (handled rsx (batch mode args)).outputs = rsx.outputs ++ [.draw vertex_ea vertex_count] ∧
    rasterizedVertices vertex_ea vertex_count = namedVertices rsx args

-- One array of 16-byte vertices: each range starts where the ranges before it end, and the
-- stride is 16 unless no range is longer than one vertex.
structure OneArray (stride start : BitVec 32) (args : List (BitVec 32)) : Prop where
  counted : draw_total args < 2^32
  joined : ∀ before arg rest, args = before++arg::rest →
    draw_first arg * stride = (start + BitVec.ofNat 32 (draw_total before)) * 16
  spaced : ∀ arg ∈ args, draw_count arg ≠ 1 → stride = 16

section Accumulator
variable (rsx : Renderer)

theorem draw_count_pos (arg : BitVec 32) : 0 < (draw_count arg).toNat := by
  have field : ((arg >>> 24) &&& 0xFF).toNat ≤ 0xFF := by
    rw [BitVec.toNat_and]
    exact Nat.and_le_right
  have one : (1 : BitVec 32).toNat = 1 := rfl
  rw [draw_count,BitVec.toNat_add,one]
  omega

theorem draw_first_small (arg : BitVec 32) : draw_first arg ≠ ~~~0 := by
  intro sentinel
  have field : (draw_first arg).toNat ≤ 0x00FFFFFF := by
    rw [draw_first,BitVec.toNat_and]
    exact Nat.and_le_right
  rw [sentinel] at field
  exact absurd field (by decide)

theorem draw_total_cons (arg : BitVec 32) (args : List (BitVec 32)) :
    draw_total (arg::args) = (draw_count arg).toNat+draw_total args := rfl

theorem draws_accumulate (args : List (BitVec 32)) (started : rsx.draw_vtx_start ≠ ~~~0) :
    handled rsx (args.map fun arg => ⟨0x1808,arg⟩) =
      {rsx with draw_vtx_total := rsx.draw_vtx_total + BitVec.ofNat 32 (draw_total args)} := by
  induction args generalizing rsx with
  | nil =>
      have none : rsx.draw_vtx_total + BitVec.ofNat 32 (draw_total []) = rsx.draw_vtx_total := BitVec.add_zero _
      rw [none]
      rfl
  | cons arg args ih =>
      have step : rsx_handle rsx 0x1808 arg = {rsx with draw_vtx_total := rsx.draw_vtx_total + draw_count arg} := by
        show draw_arrays rsx arg = _
        rw [draw_arrays,if_neg started]
        rfl
      have first : handled rsx ((arg::args).map fun arg => ⟨0x1808,arg⟩) =
        handled (rsx_handle rsx 0x1808 arg) (args.map fun arg => ⟨0x1808,arg⟩) := rfl
      rw [first,step,ih {rsx with draw_vtx_total := rsx.draw_vtx_total + draw_count arg} started,draw_total_cons,
        BitVec.ofNat_add,BitVec.ofNat_toNat,BitVec.setWidth_eq,BitVec.add_assoc]

theorem batch_outputs (mode arg : BitVec 32) (args : List (BitVec 32)) (opens : mode ≠ 0)
    (offset : rsx.vtx_io_offset 0 ≠ 0) : (handled rsx (batch mode (arg::args))).outputs =
      if BitVec.ofNat 32 (draw_total (arg::args)) ≥ 3 then
        rsx.outputs ++ [.draw (rsx_io_to_ea (rsx.vtx_io_offset 0) + draw_first arg * 16)
          (BitVec.ofNat 32 (draw_total (arg::args)))]
      else rsx.outputs := by
  have opened : rsx_handle rsx 0x17FC mode = {rsx with draw_vtx_start := ~~~0,draw_vtx_total := 0} := by
    show set_begin_end rsx mode = _
    rw [set_begin_end,if_neg fun closes => opens closes.1]
  have first : rsx_handle {rsx with draw_vtx_start := ~~~0,draw_vtx_total := 0} 0x1808 arg =
      {rsx with draw_vtx_start := draw_first arg,draw_vtx_total := draw_count arg} := by
    show draw_arrays _ arg = _
    rw [draw_arrays,if_pos rfl]
    exact congrArg (fun total => {rsx with draw_vtx_start := draw_first arg,draw_vtx_total := total})
      (BitVec.zero_add (draw_count arg))
  have whole : handled rsx (batch mode (arg::args)) = set_begin_end
      {rsx with draw_vtx_start := draw_first arg,draw_vtx_total := BitVec.ofNat 32 (draw_total (arg::args))} 0 := by
    have split : handled rsx (batch mode (arg::args)) =
        rsx_handle (handled (rsx_handle (rsx_handle rsx 0x17FC mode) 0x1808 arg)
          (args.map fun arg => ⟨0x1808,arg⟩)) 0x17FC 0 := by
      rw [batch,handled_append]
      rfl
    rw [split,opened,first,draws_accumulate _ args (draw_first_small arg),draw_total_cons,BitVec.ofNat_add,
      BitVec.ofNat_toNat,BitVec.setWidth_eq]
    rfl
  rw [whole,set_begin_end]
  simp only [true_and,offset,ne_eq,not_false_eq_true,and_true]
end Accumulator

section Vertices
variable (rsx : Renderer)

theorem range_agrees_iff (base start first stride place : BitVec 32) (count : BitVec 32) (some : 0 < count.toNat) :
    (∀ j < count.toNat, base + start * 16 + (place + BitVec.ofNat 32 j) * 16 =
      base + (first + BitVec.ofNat 32 j) * stride) ↔
        first * stride = (start + place) * 16 ∧ (count ≠ 1 → stride = 16) := by
  constructor
  · intro all
    have zero : BitVec.ofNat 32 0 = 0 := rfl
    have one : BitVec.ofNat 32 1 = 1 := rfl
    have here := all 0 some
    rw [zero] at here
    refine ⟨by linear_combination -here,fun more => ?_⟩
    have two : 1 < count.toNat := by
      refine Nat.lt_of_le_of_ne some fun single => more ?_
      exact BitVec.eq_of_toNat_eq single.symm
    have next := all 1 two
    rw [one] at next
    linear_combination here - next
  · intro ⟨here,spaced⟩ j inside
    by_cases single : count = 1
    · have first : j = 0 := by
        rw [single] at inside
        have one : (1 : BitVec 32).toNat = 1 := rfl
        omega
      have zero : BitVec.ofNat 32 0 = 0 := rfl
      rw [first,zero]
      linear_combination -here
    · rw [spaced single] at here ⊢
      linear_combination -here

theorem named_length (args : List (BitVec 32)) : (namedVertices rsx args).length = draw_total args := by
  simp [namedVertices,draw_total,List.length_flatMap]

theorem rasterized_named_iff (arg : BitVec 32) (args : List (BitVec 32)) :
    rasterizedVertices (rsx_io_to_ea (rsx.vtx_io_offset 0) + draw_first arg * 16)
        (BitVec.ofNat 32 (draw_total (arg::args))) = namedVertices rsx (arg::args) ↔
      OneArray (vtx_stride (rsx.vtx_format 0)) (draw_first arg) (arg::args) := by
  have size : (BitVec.ofNat 32 (draw_total (arg::args))).toNat = draw_total (arg::args) % 2^32 := BitVec.toNat_ofNat _ _
  have pieces := range_pieces_iff
    (fun k => rsx_io_to_ea (rsx.vtx_io_offset 0) + draw_first arg * 16 + BitVec.ofNat 32 k * 16)
    (fun arg => (draw_count arg).toNat) (fun arg j => rsx_io_to_ea (rsx.vtx_io_offset 0) +
      (draw_first arg + BitVec.ofNat 32 j) * vtx_stride (rsx.vtx_format 0)) 0 (arg::args)
  have range (before : List (BitVec 32)) (x : BitVec 32) := range_agrees_iff (rsx_io_to_ea (rsx.vtx_io_offset 0))
    (draw_first arg) (draw_first x) (vtx_stride (rsx.vtx_format 0)) (BitVec.ofNat 32 (draw_total before)) (draw_count x)
    (draw_count_pos x)
  simp only [← BitVec.ofNat_add] at range
  rw [← List.range_eq_range'] at pieces
  simp only [Nat.zero_add] at pieces
  constructor
  · intro same
    have counted : draw_total (arg::args) < 2^32 := by
      have lengths := congrArg List.length same
      rw [named_length,rasterizedVertices,List.length_map,List.length_range,size] at lengths
      rw [← lengths]
      exact Nat.mod_lt _ (by decide)
    rw [rasterizedVertices,size,Nat.mod_eq_of_lt counted] at same
    have agrees := pieces.mp same
    refine ⟨counted,fun before x rest split => ?_,fun x member => ?_⟩
    · exact ((range before x).mp fun j inside => agrees before x rest split j inside).1
    · obtain ⟨before,rest,split⟩ := List.append_of_mem member
      exact ((range before x).mp fun j inside => agrees before x rest split j inside).2
  · intro ⟨counted,joined,spaced⟩
    rw [rasterizedVertices,size,Nat.mod_eq_of_lt counted]
    refine pieces.mpr fun before x rest split j inside => ?_
    have member : x ∈ arg::args := by simp [split]
    exact (range before x).mpr ⟨joined before x rest split,spaced x member⟩ j inside
end Vertices

theorem draws_named_iff (rsx : Renderer) (mode : BitVec 32) (args : List (BitVec 32)) (opens : mode ≠ 0)
    (offset : rsx.vtx_io_offset 0 ≠ 0) (three : 3 ≤ draw_total args) : DrawsNamed rsx mode args ↔
      OneArray (vtx_stride (rsx.vtx_format 0)) (draw_first (args.headD 0)) args := by
  cases args with
  | nil => exact absurd three (by decide)
  | cons arg args =>
      have outputs := batch_outputs rsx mode arg args opens offset
      rw [List.headD_cons,← rasterized_named_iff,DrawsNamed,outputs]
      constructor
      · intro ⟨ea,count,drawn,same⟩
        split at drawn
        · cases List.append_cancel_left drawn
          exact same
        · exact absurd drawn (by simp)
      · intro same
        have counted := ((rasterized_named_iff rsx arg args).mp same).counted
        have enough : BitVec.ofNat 32 (draw_total (arg::args)) ≥ 3 := by
          have size : (BitVec.ofNat 32 (draw_total (arg::args))).toNat = draw_total (arg::args) :=
            Nat.mod_eq_of_lt counted
          show (3 : BitVec 32).toNat ≤ _
          rw [size]
          exact three
        rw [if_pos enough]
        exact ⟨_,_,rfl,same⟩

def sphereArray : Renderer :=
  {rsx_init with vtx_io_offset := fun _ => 0x1000,vtx_format := fun _ => 0x20001000}

def gapRanges : List (BitVec 32) := [0x02000000,0x0200000A]

theorem draws_named_iff_gap : (5 : BitVec 32) ≠ 0 ∧ sphereArray.vtx_io_offset 0 ≠ 0 ∧ 3 ≤ draw_total gapRanges ∧
    (DrawsNamed sphereArray 5 gapRanges ↔
      OneArray (vtx_stride (sphereArray.vtx_format 0)) (draw_first (gapRanges.headD 0)) gapRanges) :=
  ⟨by decide,by decide,by decide,draws_named_iff sphereArray 5 gapRanges (by decide) (by decide) (by decide)⟩

theorem gap_is_not_drawn : ¬ ∀ (rsx : Renderer) (mode : BitVec 32) (args : List (BitVec 32)), mode ≠ 0 →
    rsx.vtx_io_offset 0 ≠ 0 → 3 ≤ draw_total args → DrawsNamed rsx mode args := by
  intro draws
  obtain ⟨ea,count,drawn,same⟩ := draws sphereArray 5 gapRanges (by decide) (by decide) (by decide)
  have made : (handled sphereArray (batch 5 gapRanges)).outputs = [.draw 0xD0101000 6] := by decide
  rw [made] at drawn
  cases drawn
  exact absurd same (by decide)

end BudokaiRuntime.Rsx
