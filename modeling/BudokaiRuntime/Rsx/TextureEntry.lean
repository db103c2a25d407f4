import Mathlib.Data.List.Find
import BudokaiRuntime.Foundations.Pieces
import BudokaiRuntime.Rsx.Morton

-- load_a3t_entry: what it reads from the archive and what becomes of a short read.
namespace BudokaiRuntime.Rsx
open Pieces

structure Archive where
  length : Nat
  bytes : Nat → BitVec 8

-- fread of `size` bytes at `pos`: the bytes there are, and behind them what the buffer held.
def Archive.got (a : Archive) (pos size : Nat) : Nat := min size (a.length-pos)

def Archive.read (a : Archive) (pos size : Nat) (before : Nat → BitVec 8) : Nat → BitVec 8 :=
  fun k => if k < a.got pos size then a.bytes (pos+k) else before k

-- fseek from `pos`: a negative offset is refused and the position stays. `long` has 32 bits.
def seek (pos : Nat) (offset : BitVec 32) : Nat := if offset.toInt < 0 then pos else offset.toNat

def littleWord (b : Nat → BitVec 8) : BitVec 32 :=
  (b 0).setWidth 32 ||| (b 1).setWidth 32 <<< 8 ||| (b 2).setWidth 32 <<< 16 ||| (b 3).setWidth 32 <<< 24

-- What the three buffers hold before anything is read into them.
structure Uninit where
  magic : Nat → BitVec 8
  hdr : Nat → BitVec 8
  src : Nat → BitVec 8

structure Texture where
  pixels : List (BitVec 8)
  w : Nat
  h : Nat

section Places
variable (a : Archive) (entry_idx : BitVec 32)

def record_pos : Nat := seek (a.got 0 4) (8 + entry_idx*8)

def entry_off : BitVec 32 := littleWord (a.read (record_pos a entry_idx) 4 fun _ => 0)

def record_end : Nat :=
  let sz_pos := record_pos a entry_idx + a.got (record_pos a entry_idx) 4
  sz_pos + a.got sz_pos 4

def hdr_pos : Nat := seek (record_end a entry_idx) (entry_off a entry_idx)

def hdr_read : Nat := a.got (hdr_pos a entry_idx) 0x200

def pixel_pos (gcm_off : Nat) : Nat :=
  seek (hdr_pos a entry_idx + hdr_read a entry_idx) (entry_off a entry_idx + BitVec.ofNat 32 (gcm_off+0x68))
end Places

def validFmt (fmt : BitVec 8) : Bool := fmt == 0x84 || fmt == 0x85 || fmt == 0xA4 || fmt == 0xA5

def texDim (hdr : Nat → BitVec 8) (place : Nat) : Nat := (hdr place).toNat*256 + (hdr (place+1)).toNat

def gcm_at (hdr : Nat → BitVec 8) (i : Nat) : Bool :=
  validFmt (hdr i) && hdr (i+2) == 2 && !(hdr (i+1) < 1 || hdr (i+1) > 12) &&
    texDimAccepted (texDim hdr (i+8)) && texDimAccepted (texDim hdr (i+10))

-- The first place from 0x18 to hdr_read-24 that looks like a texture descriptor.
def find_gcm (hdr : Nat → BitVec 8) (hdr_read : Nat) : Option Nat :=
  (List.range' 0x18 (hdr_read-47)).find? (gcm_at hdr)

def tex_linear (fmt : BitVec 8) : Bool := fmt &&& 0x20 != 0

def texel_size (fmt : BitVec 8) : Nat := if fmt &&& 0x1F = 4 then 2 else 4

def bgra (fmt : BitVec 8) (src : Nat → BitVec 8) (si : Nat) : List (BitVec 8) :=
  if fmt &&& 0x1F = 4 then
    let px := (src (si*2)).setWidth 16 <<< 8 ||| (src (si*2+1)).setWidth 16
    let r5 := (px >>> 11) &&& 0x1F
    let g6 := (px >>> 5) &&& 0x3F
    let b5 := px &&& 0x1F
    [(b5 <<< 3 ||| b5 >>> 2).setWidth 8,(g6 <<< 2 ||| g6 >>> 4).setWidth 8,(r5 <<< 3 ||| r5 >>> 2).setWidth 8,0xFF]
  else [src (si*4+3),src (si*4+2),src (si*4+1),src (si*4)]

def source_index (fmt : BitVec 8) (w x y : Nat) : Nat := if tex_linear fmt then y*w+x else texelIndex x y

def decoded (fmt : BitVec 8) (w h : Nat) (src : Nat → BitVec 8) : List (BitVec 8) :=
  (List.range h).flatMap fun y => (List.range w).flatMap fun x => bgra fmt src (source_index fmt w x y)

-- `none`: the file does not open. `out` is what the three out parameters point to.
def load_a3t_entry (uninit : Uninit) (afs : Option Archive) (entry_idx : BitVec 32) (out : Texture) : Bool × Texture :=
  match afs with
  | none => (false,out)
  | some a =>
      let magic := a.read 0 4 uninit.magic
      if magic 0 ≠ 0x41 ∨ magic 1 ≠ 0x46 ∨ magic 2 ≠ 0x53 then (false,out)
      else if hdr_read a entry_idx < 0xE0 then (false,out)
      else
        let hdr := a.read (hdr_pos a entry_idx) 0x200 uninit.hdr
        if hdr 0 ≠ 0x23 ∨ hdr 1 ≠ 0x41 ∨ hdr 2 ≠ 0x33 ∨ hdr 3 ≠ 0x54 then (false,out)
        else match find_gcm hdr (hdr_read a entry_idx) with
        | none => (false,out)
        | some gcm_off =>
            let fmt := hdr gcm_off
            let w := texDim hdr (gcm_off+8)
            let h := texDim hdr (gcm_off+10)
            let src := a.read (pixel_pos a entry_idx gcm_off) (w*h*texel_size fmt) uninit.src
            (true,⟨decoded fmt w h src,w,h⟩)

def entry_hdr (a : Archive) (entry_idx : BitVec 32) : Nat → BitVec 8 := fun k => a.bytes (hdr_pos a entry_idx + k)

def accepted (a : Archive) (entry_idx : BitVec 32) : Option Nat :=
  let hdr := entry_hdr a entry_idx
  if a.bytes 0 ≠ 0x41 ∨ a.bytes 1 ≠ 0x46 ∨ a.bytes 2 ≠ 0x53 ∨ hdr_read a entry_idx < 0xE0 ∨
      hdr 0 ≠ 0x23 ∨ hdr 1 ≠ 0x41 ∨ hdr 2 ≠ 0x33 ∨ hdr 3 ≠ 0x54 then none
  else find_gcm hdr (hdr_read a entry_idx)

section Fields
variable (a : Archive) (entry_idx : BitVec 32) (gcm_off : Nat)

def tex_fmt : BitVec 8 := entry_hdr a entry_idx gcm_off
def tex_w : Nat := texDim (entry_hdr a entry_idx) (gcm_off+8)
def tex_h : Nat := texDim (entry_hdr a entry_idx) (gcm_off+10)

-- The offset in the directory record of the index, the header it leads to and all texels behind
-- that lie in the file, and are what the loader reads.
structure EntryPresent : Prop where
  index : 0 ≤ entry_idx.toInt
  record : record_pos a entry_idx = 8+8*entry_idx.toNat ∧ record_pos a entry_idx + 4 ≤ a.length
  header : hdr_pos a entry_idx = (entry_off a entry_idx).toNat ∧ hdr_pos a entry_idx + 0xE0 ≤ a.length
  texels : pixel_pos a entry_idx gcm_off = (entry_off a entry_idx).toNat+gcm_off+0x68 ∧
    pixel_pos a entry_idx gcm_off + tex_w a entry_idx gcm_off*tex_h a entry_idx gcm_off*
      texel_size (tex_fmt a entry_idx gcm_off) ≤ a.length
end Fields

-- true only with everything there and nothing uninitialised in the result; false touches nothing.
structure SucceedsComplete (afs : Option Archive) (entry_idx : BitVec 32) : Prop where
  complete : ∀ uninit out, (load_a3t_entry uninit afs entry_idx out).1 = true →
    ∃ a gcm_off, afs = some a ∧ accepted a entry_idx = some gcm_off ∧ EntryPresent a entry_idx gcm_off
  determined : ∀ uninit uninit' out, (load_a3t_entry uninit afs entry_idx out).1 = true →
    load_a3t_entry uninit' afs entry_idx out = load_a3t_entry uninit afs entry_idx out
  untouched : ∀ uninit out, (load_a3t_entry uninit afs entry_idx out).1 = false →
    (load_a3t_entry uninit afs entry_idx out).2 = out

def ShapeFits (fmt : BitVec 8) (w h : Nat) : Prop := tex_linear fmt = true ∨ w = h ∨ w = 2*h

section Reading
variable (a : Archive)

theorem read_file (pos size : Nat) (before : Nat → BitVec 8) (k : Nat) (present : pos+size ≤ a.length)
    (inside : k < size) : a.read pos size before k = a.bytes (pos+k) := by
  refine if_pos ?_
  rw [Archive.got]
  omega

theorem gcm_at_congr (hdr hdr' : Nat → BitVec 8) (n i : Nat) (same : ∀ k < n, hdr k = hdr' k) (inside : i+11 < n) :
    gcm_at hdr i = gcm_at hdr' i := by
  unfold gcm_at texDim
  rw [same i (by omega),same (i+1) (by omega),same (i+2) (by omega),same (i+8) (by omega),same (i+8+1) (by omega),
    same (i+10) (by omega),same (i+10+1) (by omega)]

theorem find_gcm_congr (hdr hdr' : Nat → BitVec 8) (n : Nat) (same : ∀ k < n, hdr k = hdr' k) :
    find_gcm hdr n = find_gcm hdr' n := by
  refine List.find?_congr fun i member => ?_
  have range := List.mem_range'_1.mp member
  exact gcm_at_congr hdr hdr' n i same (by omega)

theorem find_gcm_found (hdr : Nat → BitVec 8) (n : Nat) (found : find_gcm hdr n = some i) :
    i+23 < n ∧ texDimAccepted (texDim hdr (i+8)) = true ∧ texDimAccepted (texDim hdr (i+10)) = true := by
  have range := List.mem_range'_1.mp (List.mem_of_find?_eq_some found)
  have passes := List.find?_some found
  simp only [gcm_at,Bool.and_eq_true] at passes
  exact ⟨by omega,passes.1.2,passes.2⟩
end Reading

section Load
variable (a : Archive) (entry_idx : BitVec 32)

def texture (src : Nat → BitVec 8) (gcm_off : Nat) : Texture :=
  let fmt := tex_fmt a entry_idx gcm_off
  let w := tex_w a entry_idx gcm_off
  let h := tex_h a entry_idx gcm_off
  ⟨decoded fmt w h (a.read (pixel_pos a entry_idx gcm_off) (w*h*texel_size fmt) src),w,h⟩

theorem load_cases (uninit : Uninit) (out : Texture) : load_a3t_entry uninit (some a) entry_idx out =
    match accepted a entry_idx with
    | none => (false,out)
    | some gcm_off => (true,texture a entry_idx uninit.src gcm_off) := by
  have header (k : Nat) (inside : k < hdr_read a entry_idx) :
      a.read (hdr_pos a entry_idx) 0x200 uninit.hdr k = entry_hdr a entry_idx k := if_pos inside
  by_cases short : hdr_read a entry_idx < 0xE0
  · have refused : accepted a entry_idx = none := if_pos (by simp only [short,true_or,or_true])
    rw [refused]
    simp only [load_a3t_entry,short,if_true,ite_self]
  · have long : 4 ≤ a.length := by
      rw [hdr_read,Archive.got] at short
      omega
    have magic (k : Nat) (inside : k < 4) : a.read 0 4 uninit.magic k = a.bytes k := by
      rw [read_file a 0 4 uninit.magic k long inside,Nat.zero_add]
    have found := find_gcm_congr _ _ _ header
    simp only [load_a3t_entry,accepted,magic 0 (by omega),magic 1 (by omega),magic 2 (by omega),
      header 0 (by omega),header 1 (by omega),header 2 (by omega),header 3 (by omega),found,short,if_false,false_or]
    by_cases afs : a.bytes 0 ≠ 0x41 ∨ a.bytes 1 ≠ 0x46 ∨ a.bytes 2 ≠ 0x53
    · rw [if_pos afs,if_pos (by tauto)]
    · by_cases a3t : entry_hdr a entry_idx 0 ≠ 0x23 ∨ entry_hdr a entry_idx 1 ≠ 0x41 ∨
        entry_hdr a entry_idx 2 ≠ 0x33 ∨ entry_hdr a entry_idx 3 ≠ 0x54
      · rw [if_neg afs,if_pos a3t,if_pos (by tauto)]
      · rw [if_neg afs,if_neg a3t,if_neg (by tauto)]
        cases gcm : find_gcm (entry_hdr a entry_idx) (hdr_read a entry_idx) with
        | none => rfl
        | some gcm_off =>
            have inside := (find_gcm_found _ _ gcm).1
            have dim (place : Nat) (low : place+1 < hdr_read a entry_idx) :
                texDim (a.read (hdr_pos a entry_idx) 0x200 uninit.hdr) place =
                  texDim (entry_hdr a entry_idx) place := by
              rw [texDim,texDim,header place (by omega),header (place+1) low]
            simp only [header gcm_off (by omega),dim (gcm_off+8) (by omega),dim (gcm_off+10) (by omega)]
            rfl

theorem load_true_iff (uninit : Uninit) (out : Texture) :
    (load_a3t_entry uninit (some a) entry_idx out).1 = true ↔ ∃ gcm_off, accepted a entry_idx = some gcm_off := by
  rw [load_cases]
  cases accepted a entry_idx with
  | none => simp
  | some gcm_off => simp

theorem accepted_found (found : accepted a entry_idx = some gcm_off) :
    texDimAccepted (tex_w a entry_idx gcm_off) = true ∧ texDimAccepted (tex_h a entry_idx gcm_off) = true := by
  unfold accepted at found
  dsimp only at found
  split at found
  · cases found
  · exact (find_gcm_found _ _ found).2
end Load

section Decode
variable (fmt : BitVec 8) (w h : Nat)

theorem bgra_congr (src src' : Nat → BitVec 8) (si : Nat)
    (same : ∀ k < texel_size fmt, src (si*texel_size fmt+k) = src' (si*texel_size fmt+k)) :
    bgra fmt src si = bgra fmt src' si := by
  unfold texel_size at same
  unfold bgra
  by_cases packed : fmt &&& 0x1F = 4
  · simp only [if_pos packed] at same ⊢
    have zero := same 0 (by omega)
    have one := same 1 (by omega)
    rw [Nat.add_zero] at zero
    rw [zero,one]
  · simp only [if_neg packed] at same ⊢
    have zero := same 0 (by omega)
    rw [Nat.add_zero] at zero
    rw [zero,same 1 (by omega),same 2 (by omega),same 3 (by omega)]

theorem bgra_shows (src src' : Nat → BitVec 8) (si : Nat) (zeros : ∀ k, si*texel_size fmt ≤ k → src k = 0)
    (ones : ∀ k, si*texel_size fmt ≤ k → src' k = 0xFF) : bgra fmt src si ≠ bgra fmt src' si := by
  unfold texel_size at zeros ones
  unfold bgra
  by_cases packed : fmt &&& 0x1F = 4
  · simp only [if_pos packed] at zeros ones ⊢
    rw [zeros (si*2) (by omega),zeros (si*2+1) (by omega),ones (si*2) (by omega),ones (si*2+1) (by omega)]
    decide
  · simp only [if_neg packed] at zeros ones ⊢
    rw [zeros (si*4+3) (by omega),ones (si*4+3) (by omega)]
    intro same
    exact absurd (List.cons.inj same).1 (by decide)

theorem bgra_length (src : Nat → BitVec 8) (si : Nat) : (bgra fmt src si).length = 4 := by
  unfold bgra
  split <;> rfl

theorem decoded_eq_iff (src src' : Nat → BitVec 8) : decoded fmt w h src = decoded fmt w h src' ↔
    ∀ y < h, ∀ x < w, bgra fmt src (source_index fmt w x y) = bgra fmt src' (source_index fmt w x y) := by
  have row (src : Nat → BitVec 8) (y : Nat) :
      ((List.range w).flatMap fun x => bgra fmt src (source_index fmt w x y)).length = w*4 := by
    simp [List.length_flatMap,bgra_length]
  constructor
  · intro same y ys x xs
    have rows := flatMap_pieces _ _ _ (fun y _ => (row src y).trans (row src' y).symm) same y (List.mem_range.mpr ys)
    exact flatMap_pieces _ _ _ (fun x _ => (bgra_length fmt src _).trans (bgra_length fmt src' _).symm) rows x
      (List.mem_range.mpr xs)
  · intro all
    refine List.flatMap_congr fun y ys => List.flatMap_congr fun x xs => ?_
    exact all y (List.mem_range.mp ys) x (List.mem_range.mp xs)

theorem source_inside (width : texDimAccepted w = true) (height : texDimAccepted h = true) :
    (∀ x < w, ∀ y < h, source_index fmt w x y < w*h) ↔ ShapeFits fmt w h := by
  unfold source_index ShapeFits
  cases tex_linear fmt with
  | true =>
      simp only [if_true,true_or,iff_true]
      intro x xs y ys
      calc y*w+x < y*w+w := Nat.add_lt_add_left xs _
        _ = (y+1)*w := (Nat.succ_mul y w).symm
        _ ≤ h*w := Nat.mul_le_mul_right w ys
        _ = w*h := Nat.mul_comm h w
  | false =>
      simp only [Bool.false_eq_true,if_false,false_or]
      exact indices_inside_iff w h width height
end Decode

section Completeness
variable (a : Archive) (entry_idx : BitVec 32) (gcm_off : Nat)

theorem seek_taken (pos : Nat) (offset : BitVec 32) (low : offset.toNat < 2^31) : seek pos offset = offset.toNat := by
  refine if_neg ?_
  rw [BitVec.toInt_eq_toNat_of_lt (by omega)]
  omega

theorem present_of_offsets (index : entry_idx.toNat < 2^28-1) (record : 16+8*entry_idx.toNat ≤ a.length)
    (low : (entry_off a entry_idx).toNat+gcm_off+0x68 < 2^31)
    (header : (entry_off a entry_idx).toNat+0xE0 ≤ a.length)
    (texels : (entry_off a entry_idx).toNat+gcm_off+0x68 + tex_w a entry_idx gcm_off*tex_h a entry_idx gcm_off*
      texel_size (tex_fmt a entry_idx gcm_off) ≤ a.length) : EntryPresent a entry_idx gcm_off := by
  have place : (8 + entry_idx*8).toNat = 8+8*entry_idx.toNat := by
    have eight : (8 : BitVec 32).toNat = 8 := rfl
    rw [BitVec.toNat_add,BitVec.toNat_mul,eight]
    omega
  have pixels : (entry_off a entry_idx + BitVec.ofNat 32 (gcm_off+0x68)).toNat =
      (entry_off a entry_idx).toNat+gcm_off+0x68 := by
    rw [BitVec.toNat_add,BitVec.toNat_ofNat]
    omega
  have recordAt : record_pos a entry_idx = 8+8*entry_idx.toNat :=
    (seek_taken _ _ (by rw [place]; omega)).trans place
  have headerAt : hdr_pos a entry_idx = (entry_off a entry_idx).toNat := seek_taken _ _ (by omega)
  have pixelsAt : pixel_pos a entry_idx gcm_off = (entry_off a entry_idx).toNat+gcm_off+0x68 :=
    (seek_taken _ _ (by rw [pixels]; exact low)).trans pixels
  refine ⟨?_,⟨recordAt,by omega⟩,⟨headerAt,by omega⟩,⟨pixelsAt,by rw [pixelsAt]; exact texels⟩⟩
  rw [BitVec.toInt_eq_toNat_of_lt (by omega)]
  exact Int.natCast_nonneg _

theorem texture_determined (present : EntryPresent a entry_idx gcm_off) (found : accepted a entry_idx = some gcm_off)
    (fits : ShapeFits (tex_fmt a entry_idx gcm_off) (tex_w a entry_idx gcm_off) (tex_h a entry_idx gcm_off))
    (src src' : Nat → BitVec 8) : texture a entry_idx src gcm_off = texture a entry_idx src' gcm_off := by
  obtain ⟨width,height⟩ := accepted_found a entry_idx found
  have inside := (source_inside _ _ _ width height).mpr fits
  have texels := present.texels.2
  refine congrArg (fun pixels => (⟨pixels,_,_⟩ : Texture)) ((decoded_eq_iff _ _ _ _ _).mpr fun y ys x xs => ?_)
  refine bgra_congr _ _ _ _ fun k low => ?_
  have below := inside x xs y ys
  have place : source_index (tex_fmt a entry_idx gcm_off) (tex_w a entry_idx gcm_off) x y*
      texel_size (tex_fmt a entry_idx gcm_off)+k <
        tex_w a entry_idx gcm_off*tex_h a entry_idx gcm_off*texel_size (tex_fmt a entry_idx gcm_off) :=
    calc _ < source_index _ _ x y*texel_size (tex_fmt a entry_idx gcm_off)+texel_size (tex_fmt a entry_idx gcm_off) :=
          Nat.add_lt_add_left low _
      _ = (source_index _ _ x y+1)*texel_size (tex_fmt a entry_idx gcm_off) := (Nat.succ_mul _ _).symm
      _ ≤ _ := Nat.mul_le_mul_right _ below
  rw [read_file a _ _ src _ texels place,read_file a _ _ src' _ texels place]

-- An index past the buffer brings in whatever lies behind it.
theorem texture_undetermined (found : accepted a entry_idx = some gcm_off)
    (unfit : ¬ ShapeFits (tex_fmt a entry_idx gcm_off) (tex_w a entry_idx gcm_off) (tex_h a entry_idx gcm_off)) :
    texture a entry_idx (fun _ => 0) gcm_off ≠ texture a entry_idx (fun _ => 0xFF) gcm_off := by
  obtain ⟨width,height⟩ := accepted_found a entry_idx found
  rw [← source_inside _ _ _ width height] at unfit
  push Not at unfit
  obtain ⟨x,xs,y,ys,past⟩ := unfit
  intro same
  have pixels := (decoded_eq_iff _ _ _ _ _).mp (congrArg Texture.pixels same) y ys x xs
  have behind (before : Nat → BitVec 8) (k : Nat)
      (far : source_index (tex_fmt a entry_idx gcm_off) (tex_w a entry_idx gcm_off) x y*
        texel_size (tex_fmt a entry_idx gcm_off) ≤ k) :
      a.read (pixel_pos a entry_idx gcm_off) (tex_w a entry_idx gcm_off*tex_h a entry_idx gcm_off*
        texel_size (tex_fmt a entry_idx gcm_off)) before k = before k := by
    refine if_neg ?_
    have least := Nat.mul_le_mul_right (texel_size (tex_fmt a entry_idx gcm_off)) past
    rw [Archive.got]
    omega
  exact bgra_shows _ _ _ _ (behind fun _ => 0) (behind fun _ => 0xFF) pixels
end Completeness

theorem succeeds_complete_iff (afs : Option Archive) (entry_idx : BitVec 32) : SucceedsComplete afs entry_idx ↔
    ∀ a gcm_off, afs = some a → accepted a entry_idx = some gcm_off → EntryPresent a entry_idx gcm_off ∧
      ShapeFits (tex_fmt a entry_idx gcm_off) (tex_w a entry_idx gcm_off) (tex_h a entry_idx gcm_off) := by
  constructor
  · rintro complete a gcm_off rfl found
    have loads (uninit : Uninit) (out : Texture) : (load_a3t_entry uninit (some a) entry_idx out).1 = true :=
      (load_true_iff a entry_idx uninit out).mpr ⟨gcm_off,found⟩
    have result (src : Nat → BitVec 8) : load_a3t_entry ⟨src,src,src⟩ (some a) entry_idx ⟨[],0,0⟩ =
        (true,texture a entry_idx src gcm_off) := by rw [load_cases,found]
    constructor
    · obtain ⟨_,_,same,again,present⟩ := complete.complete ⟨fun _ => 0,fun _ => 0,fun _ => 0⟩ ⟨[],0,0⟩ (loads _ _)
      cases same
      cases found.symm.trans again
      exact present
    · by_contra unfit
      have same := complete.determined ⟨fun _ => 0xFF,fun _ => 0xFF,fun _ => 0xFF⟩ ⟨fun _ => 0,fun _ => 0,fun _ => 0⟩
        ⟨[],0,0⟩ (loads _ _)
      rw [result,result] at same
      exact texture_undetermined a entry_idx gcm_off found unfit (congrArg Prod.snd same)
  · intro whole
    have opens (uninit : Uninit) (out : Texture) (loaded : (load_a3t_entry uninit afs entry_idx out).1 = true) :
        ∃ a gcm_off, afs = some a ∧ accepted a entry_idx = some gcm_off := by
      cases afs with
      | none => cases loaded
      | some a =>
          obtain ⟨gcm_off,found⟩ := (load_true_iff a entry_idx uninit out).mp loaded
          exact ⟨a,gcm_off,rfl,found⟩
    constructor
    · intro uninit out loaded
      obtain ⟨a,gcm_off,opened,found⟩ := opens uninit out loaded
      exact ⟨a,gcm_off,opened,found,(whole a gcm_off opened found).1⟩
    · intro uninit uninit' out loaded
      obtain ⟨a,gcm_off,rfl,found⟩ := opens uninit out loaded
      obtain ⟨present,fits⟩ := whole a gcm_off rfl found
      rw [load_cases,load_cases,found]
      exact congrArg (Prod.mk true) (texture_determined a entry_idx gcm_off present found fits _ _)
    · intro uninit out failed
      cases afs with
      | none => rfl
      | some a =>
          rw [load_cases] at failed ⊢
          cases found : accepted a entry_idx with
          | none => rfl
          | some gcm_off =>
              rw [found] at failed
              cases failed

-- Entry 0 at 16: a 64 by 64 linear R5G6B5 header in a file that ends 512 bytes behind its start.
def cutShort : Archive where
  length := 528
  bytes := fun k => ([0x41,0x46,0x53,0,1,0,0,0, 16,0,0,0,0,0,0,0, 0x23,0x41,0x33,0x54,0,0,0,0, 0,0,0,0,0,0,0,0,
    0,0,0,0,0,0,0,0, 0xA4,1,2,0,0,0,0,0, 0,64,0,64] : List (BitVec 8)).getD k 0

theorem short_texels_succeed : ¬ ∀ afs entry_idx, SucceedsComplete afs entry_idx := by
  intro complete
  have found : accepted cutShort 0 = some 0x18 := by decide +kernel
  have loads := (load_true_iff cutShort 0 ⟨fun _ => 0,fun _ => 0,fun _ => 0⟩ ⟨[],0,0⟩).mpr ⟨_,found⟩
  obtain ⟨_,_,same,again,present⟩ := (complete (some cutShort) 0).complete _ _ loads
  cases same
  cases found.symm.trans again
  have texels := present.texels.2
  exact absurd texels (by decide +kernel)

end BudokaiRuntime.Rsx
