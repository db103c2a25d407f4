import BudokaiRuntime.Guest.Memory
import Mathlib.Logic.Function.Basic

-- The state rsx_handle keeps between NV4097 commands.
namespace BudokaiRuntime.Rsx

@[match_pattern] abbrev NV4097_SET_SURFACE_COLOR_AOFFSET : Nat := 0x0200
@[match_pattern] abbrev NV4097_SET_BEGIN_END : Nat := 0x17FC
@[match_pattern] abbrev NV4097_DRAW_ARRAYS : Nat := 0x1808
@[match_pattern] abbrev NV4097_SET_COLOR_CLEAR_VALUE : Nat := 0x1820
@[match_pattern] abbrev NV4097_CLEAR_SURFACE : Nat := 0x1D94
abbrev NV4097_SET_VERTEX_DATA_ARRAY_OFFSET : Nat := 0x1680
abbrev NV4097_SET_VERTEX_DATA_ARRAY_FORMAT : Nat := 0x1740

-- What a command has the host do: fill the framebuffer if there is one, or rasterize
-- vertices. Both present the frame.
inductive RsxOutput where
  | clear (bgra : BitVec 32)
  | draw (vertex_ea vertex_count : BitVec 32)
deriving DecidableEq

structure Renderer where
  rsx_get_ea : BitVec 32
  rsx_clr_color : BitVec 32
  rsx_surf_ea : BitVec 32
  vtx_io_offset : Fin 16 → BitVec 32
  vtx_format : Fin 16 → BitVec 32
  draw_vtx_start : BitVec 32
  draw_vtx_total : BitVec 32
  outputs : List RsxOutput

def rsx_init : Renderer where
  rsx_get_ea := 0
  rsx_clr_color := 0
  rsx_surf_ea := 0
  vtx_io_offset := fun _ => 0
  vtx_format := fun _ => 0
  draw_vtx_start := ~~~0
  draw_vtx_total := 0
  outputs := []

-- RSX IO offsets map to the command buffer; larger values are guest addresses already.
def rsx_io_to_ea (io_off : BitVec 32) : BitVec 32 := if io_off < 0x1000000 then 0xD0100000 + io_off else io_off

def clear_surface (rsx : Renderer) (arg : BitVec 32) : Renderer :=
  if arg &&& 0xF0 ≠ 0 then
    let r := (rsx.rsx_clr_color >>> 24) &&& 0xFF
    let g := (rsx.rsx_clr_color >>> 16) &&& 0xFF
    let b := (rsx.rsx_clr_color >>> 8) &&& 0xFF
    let a := rsx.rsx_clr_color &&& 0xFF
    let bgra := a <<< 24 ||| r <<< 16 ||| g <<< 8 ||| b
    {rsx with outputs := rsx.outputs ++ [.clear bgra]}
  else rsx

-- A non-zero argument opens a batch, zero closes it and draws what it accumulated.
def set_begin_end (rsx : Renderer) (arg : BitVec 32) : Renderer :=
  let drawn :=
    if arg = 0 ∧ rsx.draw_vtx_total ≥ 3 ∧ rsx.vtx_io_offset 0 ≠ 0 then
      let vtx_ea := rsx_io_to_ea (rsx.vtx_io_offset 0) + rsx.draw_vtx_start * 16
      rsx.outputs ++ [.draw vtx_ea rsx.draw_vtx_total]
    else rsx.outputs
  {rsx with draw_vtx_start := ~~~0,draw_vtx_total := 0,outputs := drawn}

def draw_arrays (rsx : Renderer) (arg : BitVec 32) : Renderer :=
  let first := arg &&& 0x00FFFFFF
  let cnt := ((arg >>> 24) &&& 0xFF) + 1
  {rsx with
    draw_vtx_start := if rsx.draw_vtx_start = ~~~0 then first else rsx.draw_vtx_start
    draw_vtx_total := rsx.draw_vtx_total + cnt}

def vtx_attr (base : Nat) (m : BitVec 32) : Option (Fin 16) :=
  if inside : base ≤ m.toNat ∧ m.toNat < base+0x40 then some ⟨(m.toNat-base)/4,by omega⟩ else none

-- Methods outside the list are only counted for the log.
def rsx_handle (rsx : Renderer) (method arg : BitVec 32) : Renderer :=
  let m := method &&& 0xFFFF
  match m.toNat with
  | NV4097_SET_COLOR_CLEAR_VALUE => {rsx with rsx_clr_color := arg}
  | NV4097_SET_SURFACE_COLOR_AOFFSET => {rsx with rsx_surf_ea := 0xD0000000 + arg}
  | NV4097_CLEAR_SURFACE => clear_surface rsx arg
  | NV4097_SET_BEGIN_END => set_begin_end rsx arg
  | NV4097_DRAW_ARRAYS => draw_arrays rsx arg
  | _ =>
      match vtx_attr NV4097_SET_VERTEX_DATA_ARRAY_OFFSET m with
      | some attr => {rsx with vtx_io_offset := Function.update rsx.vtx_io_offset attr arg}
      | none =>
          match vtx_attr NV4097_SET_VERTEX_DATA_ARRAY_FORMAT m with
          | some attr => {rsx with vtx_format := Function.update rsx.vtx_format attr arg}
          | none => rsx

end BudokaiRuntime.Rsx
