import BudokaiRuntime.Guest.Memory
import BudokaiRuntime.Guest.MemoryMap

-- elf_load: the game executable, its accesses, and what its return value vouches for.
namespace BudokaiRuntime.Guest

-- `bytes` is the memory behind the malloc'd pointer; the file is its first `length` bytes.
structure GameElf where
  length : Nat
  bytes : Nat → BitVec 8

section Header
variable (elf : GameElf)

def elf_u16 (o : BitVec 64) : BitVec 16 :=
  (elf.bytes o.toNat).setWidth 16 <<< 8 ||| (elf.bytes (o+1).toNat).setWidth 16

def elf_u32 (o : BitVec 64) : BitVec 32 :=
  (elf.bytes o.toNat).setWidth 32 <<< 24 ||| (elf.bytes (o+1).toNat).setWidth 32 <<< 16 |||
    (elf.bytes (o+2).toNat).setWidth 32 <<< 8 ||| (elf.bytes (o+3).toNat).setWidth 32

def elf_u64 (o : BitVec 64) : BitVec 64 := (elf_u32 elf o).setWidth 64 <<< 32 ||| (elf_u32 elf (o+4)).setWidth 64

def elf_magic : Bool := elf.bytes 0 == 0x7F && elf.bytes 1 == 0x45 && elf.bytes 2 == 0x4C && elf.bytes 3 == 0x46

-- fsize is a `long` of 32 bits: ftell fails on a larger file, and nothing is allocated.
def elf_read : Bool := elf.length < 2^31

def GameElf.e_phoff : BitVec 64 := elf_u64 elf 0x20
def GameElf.e_phentsize : BitVec 16 := elf_u16 elf 0x36
def GameElf.e_phnum : Nat := (elf_u16 elf 0x38).toNat

def GameElf.ph (i : Nat) : BitVec 64 := elf.e_phoff + BitVec.ofNat 64 i * elf.e_phentsize.setWidth 64
def GameElf.p_type (i : Nat) : BitVec 32 := elf_u32 elf (elf.ph i)
def GameElf.p_off (i : Nat) : BitVec 64 := elf_u64 elf (elf.ph i + 8)
def GameElf.p_vaddr (i : Nat) : BitVec 64 := elf_u64 elf (elf.ph i + 16)
def GameElf.p_filesz (i : Nat) : BitVec 64 := elf_u64 elf (elf.ph i + 32)
def GameElf.p_memsz (i : Nat) : BitVec 64 := elf_u64 elf (elf.ph i + 40)

def GameElf.segLoaded (i : Nat) : Bool := !(elf.p_type i != 1 || elf.p_vaddr i == 0 || elf.p_memsz i == 0)

def GameElf.seg_dest (i : Nat) : Nat := ((elf.p_vaddr i).setWidth 32).toNat
end Header

inductive ElfOp where
  | field (o : BitVec 64) (size : Nat)
  | memcpy (dest : Nat) (off filesz : BitVec 64)
  | memset (dest size : Nat)

def ElfOp.fileOffsets : ElfOp → List Nat
  | .field o size => (List.range size).map fun k => (o + BitVec.ofNat 64 k).toNat
  | .memcpy _ off filesz => List.range' off.toNat filesz.toNat
  | .memset .. => []

def ElfOp.guestBytes : ElfOp → List Nat
  | .field .. => []
  | .memcpy dest _ filesz => List.range' dest filesz.toNat
  | .memset dest size => List.range' dest size

def ElfOp.run (elf : GameElf) (vm : GuestMem) (op : ElfOp) : GuestMem := fun a => match op with
  | .field .. => vm a
  | .memcpy dest off filesz =>
      if dest ≤ a.toNat ∧ a.toNat < dest+filesz.toNat then elf.bytes (off.toNat+(a.toNat-dest)) else vm a
  | .memset dest size => if dest ≤ a.toNat ∧ a.toNat < dest+size then 0 else vm a

def GameElf.header_ops (elf : GameElf) (i : Nat) : List ElfOp :=
  [.field (elf.ph i) 4,.field (elf.ph i + 8) 8,.field (elf.ph i + 16) 8,.field (elf.ph i + 32) 8,
    .field (elf.ph i + 40) 8]

def GameElf.segment_ops (elf : GameElf) (i : Nat) : List ElfOp :=
  if elf.segLoaded i then
    (if elf.p_filesz i > 0 then [.memcpy (elf.seg_dest i) (elf.p_off i) (elf.p_filesz i)] else []) ++
    (if elf.p_memsz i > elf.p_filesz i then
      [.memset (elf.seg_dest i + (elf.p_filesz i).toNat) (elf.p_memsz i - elf.p_filesz i).toNat] else [])
  else []

-- The accesses of a call, in order, up to the header that comes next.
def GameElf.table_ops (elf : GameElf) (n : Nat) : List ElfOp :=
  (List.range n).flatMap fun i => elf.header_ops i ++ elf.segment_ops i

def elf_ops (elf : GameElf) : List ElfOp :=
  if elf_read elf then
    .field 0 4 ::
      if elf_magic elf then
        [.field 0x20 8,.field 0x36 2,.field 0x38 2] ++ elf.table_ops elf.e_phnum
      else []
  else []

def GameElf.loaded (elf : GameElf) : Nat := (List.range elf.e_phnum).countP elf.segLoaded

def elf_load (vm : GuestMem) (elf : GameElf) : GuestMem × Bool :=
  ((elf_ops elf).foldl (ElfOp.run elf) vm,elf_read elf && elf_magic elf && decide (elf.loaded > 0))

def InSegment (elf : GameElf) (i g : Nat) : Prop :=
  (elf.p_vaddr i).toNat ≤ g ∧ g < (elf.p_vaddr i).toNat+(elf.p_memsz i).toNat ∧
    ∃ region ∈ vm_init, region.covers (elf.p_vaddr i).toNat (elf.p_memsz i).toNat

def RejectsMalformed (vm : GuestMem) (elf : GameElf) : Prop := (elf_load vm elf).2 = false ∨
  (∀ op ∈ elf_ops elf, ∀ o ∈ op.fileOffsets, o < elf.length) ∧
    ∀ i < elf.e_phnum, ∀ op ∈ elf.segment_ops i, ∀ g ∈ op.guestBytes, InSegment elf i g

structure SegmentFits (elf : GameElf) (i : Nat) : Prop where
  sizes : (elf.p_filesz i).toNat ≤ (elf.p_memsz i).toNat
  file : elf.p_filesz i = 0 ∨ (elf.p_off i).toNat+(elf.p_filesz i).toNat ≤ elf.length
  region : ∃ region ∈ vm_init, region.covers (elf.p_vaddr i).toNat (elf.p_memsz i).toNat

structure WellFormed (elf : GameElf) : Prop where
  header : 0x3A ≤ elf.length
  table : ∀ i < elf.e_phnum, (elf.ph i).toNat+48 ≤ elf.length
  segments : ∀ i < elf.e_phnum, elf.segLoaded i = true → SegmentFits elf i

theorem vm_init_below (region : Region) (member : region ∈ vm_init) : region.base+region.size ≤ 2^32 := by
  have all : ∀ region ∈ vm_init, region.base+region.size ≤ 2^32 := by decide
  exact all region member

theorem covered_below (covered : ∃ region ∈ vm_init, region.covers first size) : first+size ≤ 2^32 := by
  obtain ⟨region,member,_,high⟩ := covered
  exact high.trans (vm_init_below region member)

section Offsets
variable (elf : GameElf)

theorem field_inside (o : BitVec 64) (size : Nat) :
    (∀ x ∈ (ElfOp.field o size).fileOffsets, x < elf.length) ↔ ∀ k < size, (o.toNat+k)%2^64 < elf.length := by
  have place (k : Nat) : (o + BitVec.ofNat 64 k).toNat = (o.toNat+k)%2^64 := by
    rw [BitVec.toNat_add,BitVec.toNat_ofNat,Nat.add_mod_mod]
  simp only [ElfOp.fileOffsets,List.mem_map,List.mem_range,forall_exists_index,and_imp,forall_apply_eq_imp_iff₂]
  exact forall₂_congr fun k _ => by rw [place k]

theorem header_inside (i : Nat) (small : elf.length < 2^31) :
    (∀ op ∈ elf.header_ops i, ∀ o ∈ op.fileOffsets, o < elf.length) ↔ (elf.ph i).toNat+48 ≤ elf.length := by
  have bound := (elf.ph i).isLt
  have shifted (c : BitVec 64) (k : Nat) :
      ((elf.ph i + c).toNat+k)%2^64 = ((elf.ph i).toNat+(c.toNat+k))%2^64 := by
    rw [BitVec.toNat_add,Nat.mod_add_mod,Nat.add_assoc]
  simp only [GameElf.header_ops,List.forall_mem_cons,List.not_mem_nil,false_imp_iff,implies_true,and_true]
  rw [field_inside elf _ 4,field_inside elf _ 8,field_inside elf _ 8,field_inside elf _ 8,field_inside elf _ 8]
  simp only [shifted,BitVec.reduceToNat]
  constructor
  · intro ⟨type,_,_,_,memsz⟩
    have first := type 0 (by decide)
    have last := memsz 7 (by decide)
    omega
  · intro inside
    exact ⟨fun k low => by omega,fun k low => by omega,fun k low => by omega,fun k low => by omega,
      fun k low => by omega⟩

theorem segment_file_inside (i : Nat) (chosen : elf.segLoaded i = true) :
    (∀ op ∈ elf.segment_ops i, ∀ o ∈ op.fileOffsets, o < elf.length) ↔
      elf.p_filesz i = 0 ∨ (elf.p_off i).toNat+(elf.p_filesz i).toNat ≤ elf.length := by
  have cleared : ∀ op ∈ (if elf.p_memsz i > elf.p_filesz i then
      [ElfOp.memset (elf.seg_dest i + (elf.p_filesz i).toNat) (elf.p_memsz i - elf.p_filesz i).toNat] else []),
      ∀ o ∈ op.fileOffsets, o < elf.length := by
    intro op member o read
    split at member
    · cases List.mem_singleton.mp member
      cases read
    · cases member
  rw [GameElf.segment_ops,if_pos chosen,List.forall_mem_append,and_iff_left cleared]
  by_cases empty : elf.p_filesz i = 0
  · have none : ¬ elf.p_filesz i > 0 := by rw [empty]; decide
    rw [if_neg none]
    exact iff_of_true (fun op absent => absurd absent List.not_mem_nil) (.inl empty)
  · have size : 0 < (elf.p_filesz i).toNat := Nat.pos_of_ne_zero fun zero => empty (BitVec.eq_of_toNat_eq zero)
    have some : elf.p_filesz i > 0 := size
    rw [if_pos some,List.forall_mem_singleton,or_iff_right empty]
    simp only [ElfOp.fileOffsets,List.mem_range'_1]
    constructor
    · intro inside
      have last := inside ((elf.p_off i).toNat+(elf.p_filesz i).toNat-1) (by omega)
      omega
    · intro inside o range
      omega
end Offsets

section Segments
variable (elf : GameElf) (i : Nat)

theorem chosen_memsz (chosen : elf.segLoaded i = true) : 0 < (elf.p_memsz i).toNat := by
  simp only [GameElf.segLoaded,Bool.not_eq_true',Bool.or_eq_false_iff,beq_eq_false_iff_ne] at chosen
  exact Nat.pos_of_ne_zero fun zero => chosen.2 (BitVec.eq_of_toNat_eq zero)

theorem seg_dest_below (below : (elf.p_vaddr i).toNat < 2^32) : elf.seg_dest i = (elf.p_vaddr i).toNat := by
  rw [GameElf.seg_dest,BitVec.toNat_setWidth,Nat.mod_eq_of_lt below]

theorem memcpy_made (chosen : elf.segLoaded i = true) (some : 0 < (elf.p_filesz i).toNat) :
    ElfOp.memcpy (elf.seg_dest i) (elf.p_off i) (elf.p_filesz i) ∈ elf.segment_ops i := by
  have copies : elf.p_filesz i > 0 := some
  rw [GameElf.segment_ops,if_pos chosen,if_pos copies]
  exact List.mem_append_left _ (List.mem_singleton_self _)

theorem memset_made (chosen : elf.segLoaded i = true) (longer : (elf.p_filesz i).toNat < (elf.p_memsz i).toNat) :
    ElfOp.memset (elf.seg_dest i + (elf.p_filesz i).toNat) (elf.p_memsz i - elf.p_filesz i).toNat ∈
      elf.segment_ops i := by
  have clears : elf.p_memsz i > elf.p_filesz i := longer
  rw [GameElf.segment_ops,if_pos chosen,if_pos clears]
  exact List.mem_append_right _ (List.mem_singleton_self _)

theorem segment_bytes (sizes : (elf.p_filesz i).toNat ≤ (elf.p_memsz i).toNat) (op : ElfOp)
    (member : op ∈ elf.segment_ops i) (g : Nat) (touched : g ∈ op.guestBytes) :
    elf.seg_dest i ≤ g ∧ g < elf.seg_dest i + (elf.p_memsz i).toNat := by
  unfold GameElf.segment_ops at member
  split at member
  case isFalse => cases member
  case isTrue =>
    rcases List.mem_append.mp member with copy | clear
    · split at copy
      · cases List.mem_singleton.mp copy
        have range := List.mem_range'_1.mp touched
        omega
      · cases copy
    · split at clear
      · cases List.mem_singleton.mp clear
        have range := List.mem_range'_1.mp touched
        have size : (elf.p_memsz i - elf.p_filesz i).toNat = (elf.p_memsz i).toNat-(elf.p_filesz i).toNat :=
          BitVec.toNat_sub_of_le sizes
        omega
      · cases clear

theorem segment_guest_inside (chosen : elf.segLoaded i = true) :
    (∀ op ∈ elf.segment_ops i, ∀ g ∈ op.guestBytes, InSegment elf i g) ↔
      (elf.p_filesz i).toNat ≤ (elf.p_memsz i).toNat ∧
        ∃ region ∈ vm_init, region.covers (elf.p_vaddr i).toNat (elf.p_memsz i).toNat := by
  have image := chosen_memsz elf i chosen
  constructor
  · intro inside
    by_cases empty : (elf.p_filesz i).toNat = 0
    · have size : (elf.p_memsz i - elf.p_filesz i).toNat = (elf.p_memsz i).toNat-(elf.p_filesz i).toNat :=
        BitVec.toNat_sub_of_le (by rw [BitVec.le_def]; omega)
      have first := inside _ (memset_made elf i chosen (by omega)) (elf.seg_dest i + (elf.p_filesz i).toNat)
        (List.mem_range'_1.mpr (by omega))
      exact ⟨by omega,first.2.2⟩
    · have copied := inside _ (memcpy_made elf i chosen (by omega))
      have first := copied (elf.seg_dest i) (List.mem_range'_1.mpr (by omega))
      have last := copied (elf.seg_dest i + (elf.p_filesz i).toNat - 1) (List.mem_range'_1.mpr (by omega))
      have below := covered_below first.2.2
      have place := seg_dest_below elf i (by omega)
      exact ⟨by have := last.2.1; omega,first.2.2⟩
  · intro ⟨sizes,region⟩ op member g touched
    have below := covered_below region
    have place := seg_dest_below elf i (by omega)
    obtain ⟨low,high⟩ := segment_bytes elf i sizes op member g touched
    exact ⟨by omega,by omega,region⟩
end Segments

section Load
variable (vm : GuestMem) (elf : GameElf)

theorem elf_load_true_iff : (elf_load vm elf).2 = true ↔
    elf_read elf = true ∧ elf_magic elf = true ∧ ∃ i < elf.e_phnum, elf.segLoaded i = true := by
  have some : 0 < elf.loaded ↔ ∃ i < elf.e_phnum, elf.segLoaded i = true := by
    rw [GameElf.loaded,List.countP_pos_iff]
    exact exists_congr fun i => and_congr_left fun _ => List.mem_range
  simp only [elf_load,Bool.and_eq_true,decide_eq_true_eq,gt_iff_lt,some,and_assoc]

theorem skipped_ops (i : Nat) (skipped : ¬ elf.segLoaded i = true) : elf.segment_ops i = [] := if_neg skipped

theorem table_ops_forall (holds : ElfOp → Prop) (n : Nat) : (∀ op ∈ elf.table_ops n, holds op) ↔
    ∀ i < n, (∀ op ∈ elf.header_ops i, holds op) ∧ ∀ op ∈ elf.segment_ops i, holds op := by
  constructor
  · intro all i low
    have piece (op : ElfOp) (member : op ∈ elf.header_ops i ++ elf.segment_ops i) : holds op :=
      all op (List.mem_flatMap.mpr ⟨i,List.mem_range.mpr low,member⟩)
    exact ⟨fun op member => piece op (List.mem_append_left _ member),
      fun op member => piece op (List.mem_append_right _ member)⟩
  · intro all op member
    obtain ⟨i,low,piece⟩ := List.mem_flatMap.mp member
    obtain ⟨header,segment⟩ := all i (List.mem_range.mp low)
    exact (List.mem_append.mp piece).elim (header op) (segment op)

theorem file_inside_iff (read : elf_read elf = true) (magic : elf_magic elf = true) :
    (∀ op ∈ elf_ops elf, ∀ o ∈ op.fileOffsets, o < elf.length) ↔ 0x3A ≤ elf.length ∧
      ∀ i < elf.e_phnum, (elf.ph i).toNat+48 ≤ elf.length ∧ (elf.segLoaded i = true →
        elf.p_filesz i = 0 ∨ (elf.p_off i).toNat+(elf.p_filesz i).toNat ≤ elf.length) := by
  have small : elf.length < 2^31 := of_decide_eq_true read
  have table : (∀ op ∈ elf.table_ops elf.e_phnum, ∀ o ∈ op.fileOffsets, o < elf.length) ↔
      ∀ i < elf.e_phnum, (elf.ph i).toNat+48 ≤ elf.length ∧ (elf.segLoaded i = true →
        elf.p_filesz i = 0 ∨ (elf.p_off i).toNat+(elf.p_filesz i).toNat ≤ elf.length) := by
    rw [table_ops_forall]
    refine forall₂_congr fun i _ => and_congr (header_inside elf i small) ?_
    by_cases chosen : elf.segLoaded i = true
    · rw [segment_file_inside elf i chosen]
      exact ⟨fun inside _ => inside,fun inside => inside chosen⟩
    · rw [skipped_ops elf i chosen]
      exact iff_of_true (fun op absent => absurd absent List.not_mem_nil) fun yes => absurd yes chosen
  rw [elf_ops,if_pos read,if_pos magic,List.forall_mem_cons,List.forall_mem_append,table,← and_assoc]
  refine and_congr_left fun _ => ?_
  simp only [List.forall_mem_cons,List.not_mem_nil,false_imp_iff,implies_true,and_true]
  rw [field_inside elf 0 4,field_inside elf 0x20 8,field_inside elf 0x36 2,field_inside elf 0x38 2]
  simp only [BitVec.reduceToNat]
  constructor
  · intro ⟨_,_,_,phnum⟩
    have last := phnum 1 (by decide)
    omega
  · intro long
    exact ⟨fun k low => by omega,fun k low => by omega,fun k low => by omega,fun k low => by omega⟩

theorem elf_load_frame (a : BitVec 32) (outside : ∀ op ∈ elf_ops elf, a.toNat ∉ op.guestBytes) :
    (elf_load vm elf).1 a = vm a := by
  rw [elf_load]
  generalize elf_ops elf = ops at outside
  induction ops generalizing vm with
  | nil => rfl
  | cons op ops ih =>
      have here := outside op List.mem_cons_self
      have kept : ElfOp.run elf vm op a = vm a := by
        cases op with
        | field o size => rfl
        | memcpy dest off filesz => exact if_neg fun inside => here (List.mem_range'_1.mpr inside)
        | memset dest size => exact if_neg fun inside => here (List.mem_range'_1.mpr inside)
      rw [List.foldl_cons]
      exact (ih (ElfOp.run elf vm op) fun other member => outside other (List.mem_cons_of_mem op member)).trans kept
end Load

theorem rejects_malformed_iff (vm : GuestMem) (elf : GameElf) : RejectsMalformed vm elf ↔
    (elf_read elf = true → elf_magic elf = true → (∃ i < elf.e_phnum, elf.segLoaded i = true) → WellFormed elf) := by
  rw [RejectsMalformed,or_iff_not_imp_left,Bool.not_eq_false,elf_load_true_iff]
  constructor
  · intro inside read magic chosen
    obtain ⟨file,guest⟩ := inside ⟨read,magic,chosen⟩
    obtain ⟨long,table⟩ := (file_inside_iff elf read magic).mp file
    refine ⟨long,fun i low => (table i low).1,fun i low chosen => ?_⟩
    obtain ⟨sizes,region⟩ := (segment_guest_inside elf i chosen).mp (guest i low)
    exact ⟨sizes,(table i low).2 chosen,region⟩
  · intro formed ⟨read,magic,chosen⟩
    have whole := formed read magic chosen
    refine ⟨(file_inside_iff elf read magic).mpr ⟨whole.header,fun i low =>
      ⟨whole.table i low,fun chosen => (whole.segments i low chosen).file⟩⟩,fun i low => ?_⟩
    by_cases chosen : elf.segLoaded i = true
    · have fits := whole.segments i low chosen
      exact (segment_guest_inside elf i chosen).mpr ⟨fits.sizes,fits.region⟩
    · rw [skipped_ops elf i chosen]
      exact fun op absent => absurd absent List.not_mem_nil

-- One PT_LOAD header: vaddr 0x20000000, between main RAM and the stack, memsz 1.
def uncommittedElf : GameElf where
  length := 120
  bytes := fun k => ([0x7F,0x45,0x4C,0x46,0,0,0,0, 0,0,0,0,0,0,0,0, 0,0,0,0,0,0,0,0, 0,0,0,0,0,0,0,0,
    0,0,0,0,0,0,0,64, 0,0,0,0,0,0,0,0, 0,0,0,0,0,0,0,56, 0,1,0,0,0,0,0,0, 0,0,0,1,0,0,0,0, 0,0,0,0,0,0,0,0,
    0,0,0,0,0x20,0,0,0, 0,0,0,0,0,0,0,0, 0,0,0,0,0,0,0,0, 0,0,0,0,0,0,0,1] : List (BitVec 8)).getD k 0

theorem uncommitted_segment_is_cleared : ¬ ∀ vm elf, RejectsMalformed vm elf := by
  intro rejects
  have taken : (elf_load (fun _ => 0) uncommittedElf).2 = true :=
    (elf_load_true_iff _ _).mpr ⟨by decide,by decide,0,by decide +kernel,by decide +kernel⟩
  rcases rejects (fun _ => 0) uncommittedElf with refused | ⟨_,guest⟩
  · rw [taken] at refused
    cases refused
  · have fits := ((segment_guest_inside uncommittedElf 0 (by decide +kernel)).mp (guest 0 (by decide +kernel))).2
    have outside : ¬ ∃ region ∈ vm_init,
        region.covers (uncommittedElf.p_vaddr 0).toNat (uncommittedElf.p_memsz 0).toNat := by decide +kernel
    exact outside fits

end BudokaiRuntime.Guest
