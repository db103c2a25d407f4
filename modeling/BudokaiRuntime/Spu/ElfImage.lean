import BudokaiRuntime.Spu.LoadElf

-- What an ELF image says, in unbounded arithmetic, and when spu_load_elf does that.
namespace BudokaiRuntime.Spu
open Guest

def PT_LOAD : Nat := 1

structure Phdr where
  type : Nat
  off : Nat
  vaddr : Nat
  filesz : Nat
  memsz : Nat

def Elf.field (elf : Elf) (place : Nat) : Nat :=
  (bigEndian (elf.bytes place) (elf.bytes (place+1)) (elf.bytes (place+2)) (elf.bytes (place+3))).toNat

def Elf.start (elf : Elf) (i : Nat) : Nat := (e_phoff elf).toNat + i*(e_phentsz elf).toNat

def Elf.phdr (elf : Elf) (i : Nat) : Phdr where
  type := elf.field (elf.start i)
  off := elf.field (elf.start i+4)
  vaddr := elf.field (elf.start i+8)
  filesz := elf.field (elf.start i+16)
  memsz := elf.field (elf.start i+20)

def Phdr.InBounds (elf : Elf) (h : Phdr) : Prop :=
  h.off+h.filesz ≤ elf.length.toNat ∧ h.vaddr+h.filesz ≤ SPU_LS_SIZE ∧ h.vaddr+h.memsz ≤ SPU_LS_SIZE

-- The file's bytes, then zeros up to the memory size.
def Phdr.place (elf : Elf) (h : Phdr) (ls : LocalStore) : LocalStore := fun a =>
  if h.vaddr ≤ a.val ∧ a.val < h.vaddr+h.filesz then elf.bytes (h.off+(a.val-h.vaddr))
  else if h.vaddr ≤ a.val ∧ a.val < h.vaddr+h.memsz then 0
  else ls a

def Elf.placeHeader (elf : Elf) (ls : LocalStore) (i : Nat) : LocalStore :=
  if (elf.phdr i).type = PT_LOAD then (elf.phdr i).place elf ls else ls

def Elf.image (elf : Elf) (ls : LocalStore) : LocalStore :=
  (List.range (e_phnum elf).toNat).foldl elf.placeHeader ls

def Elf.PhdrValid (elf : Elf) (i : Nat) : Prop :=
  elf.start i+32 ≤ elf.length.toNat ∧ ((elf.phdr i).type = PT_LOAD → (elf.phdr i).InBounds elf)

def Elf.TableValid (elf : Elf) : Prop := ∀ i < (e_phnum elf).toNat, elf.PhdrValid i

def Elf.Valid (elf : Elf) : Prop := headerValid elf = true ∧ elf.TableValid

-- 0 with the segments in place and pc at the entry exactly for a valid image, otherwise -1 and
-- nothing changed.
def LoadMeansResult (ctx : SpuCtx) (elf : Elf) : Prop :=
  (elf.Valid → spu_load_elf ctx elf =
    some ({ctx with ls := elf.image ctx.ls, pc := e_entry elf, running := true},0)) ∧
  (¬ elf.Valid → spu_load_elf ctx elf = some (ctx,-1))

section Header
variable (elf : Elf) (i : Nat) (valid : elf.PhdrValid i)
include valid

theorem ph_toNat : (ph elf i).toNat = elf.start i := by
  have room := valid.1
  have image := elf.length.isLt
  rw [Elf.start] at room ⊢
  simp only [ph,BitVec.toNat_add,BitVec.toNat_mul,BitVec.toNat_ofNat,BitVec.toNat_setWidth,Nat.add_mod_mod,
    Nat.mod_mul_mod,Nat.mul_mod_mod]
  exact Nat.mod_eq_of_lt (by omega)

theorem ph_passed : ph elf i + 32 ≤ elf.length := by
  have room := valid.1
  have image := elf.length.isLt
  rw [BitVec.le_def,BitVec.toNat_add,ph_toNat elf i valid]
  rw [show (32 : BitVec 32).toNat = 32 from rfl]
  omega

theorem word_toNat (k : Nat) (small : k < 28) :
    (elf.word (ph elf i + BitVec.ofNat 32 k)).toNat = elf.field (elf.start i+k) := by
  have room := valid.1
  have image := elf.length.isLt
  have place (c : Nat) (near : c ≤ 31) : (ph elf i + BitVec.ofNat 32 c).toNat = elf.start i+c := by
    rw [BitVec.toNat_add,BitVec.toNat_ofNat,ph_toNat elf i valid]
    omega
  have next (c : Nat) (near : c ≤ 3) :
      (ph elf i + BitVec.ofNat 32 k + BitVec.ofNat 32 c).toNat = elf.start i+k+c := by
    rw [BitVec.toNat_add,BitVec.toNat_ofNat,place k (by omega)]
    omega
  rw [Elf.word,Elf.field,place k (by omega)]
  rw [show (1 : BitVec 32) = BitVec.ofNat 32 1 from rfl,show (2 : BitVec 32) = BitVec.ofNat 32 2 from rfl,
    show (3 : BitVec 32) = BitVec.ofNat 32 3 from rfl,next 1 (by omega),next 2 (by omega),next 3 (by omega)]

theorem p_type_toNat : (p_type elf i).toNat = (elf.phdr i).type := by
  have read := word_toNat elf i valid 0 (by omega)
  rwa [BitVec.add_zero] at read

theorem p_off_toNat : (p_off elf i).toNat = (elf.phdr i).off := word_toNat elf i valid 4 (by omega)
theorem p_vaddr_toNat : (p_vaddr elf i).toNat = (elf.phdr i).vaddr := word_toNat elf i valid 8 (by omega)
theorem p_filesz_toNat : (p_filesz elf i).toNat = (elf.phdr i).filesz := word_toNat elf i valid 16 (by omega)
theorem p_memsz_toNat : (p_memsz elf i).toNat = (elf.phdr i).memsz := word_toNat elf i valid 20 (by omega)

-- On a valid header the wrapping guards let exactly the PT_LOAD segments through.
theorem valid_loaded_iff : phdrLoaded elf i = true ↔ (elf.phdr i).type = PT_LOAD := by
  rw [phdrLoaded_iff,← p_type_toNat elf i valid]
  constructor
  · intro loaded
    rw [loaded.1]
    rfl
  · intro type
    obtain ⟨file,_,memory⟩ := valid.2 ((p_type_toNat elf i valid).symm.trans type)
    have image := elf.length.isLt
    have size := ls_size
    refine ⟨BitVec.eq_of_toNat_eq type,?_,?_⟩
    · rw [p_vaddr_toNat elf i valid,p_memsz_toNat elf i valid,Nat.mod_eq_of_lt (by omega)]
      exact memory
    · rw [p_off_toNat elf i valid,p_filesz_toNat elf i valid,Nat.mod_eq_of_lt (by omega)]
      exact file

theorem valid_phdr_inside : PhdrInside elf i := by
  have room := valid.1
  rw [PhdrInside,ph_toNat elf i valid]
  omega

theorem valid_segment_inside (loaded : phdrLoaded elf i = true) : SegmentInside elf i := by
  obtain ⟨file,copied,memory⟩ := valid.2 ((valid_loaded_iff elf i valid).mp loaded)
  have image := elf.length.isLt
  have size := ls_size
  rw [SegmentInside,p_vaddr_toNat elf i valid,p_memsz_toNat elf i valid,p_off_toNat elf i valid,
    p_filesz_toNat elf i valid]
  exact ⟨by omega,.inr ⟨copied,by omega⟩⟩

theorem valid_ops_inside (image : 52 ≤ elf.length.toNat) :
    ∀ op ∈ phdr_ops elf i, op.inside elf = true := by
  rw [phdr_ops,List.forall_mem_append,header_inside elf i image]
  refine ⟨valid_phdr_inside elf i valid,?_⟩
  by_cases loaded : phdrLoaded elf i = true
  · exact (segment_inside elf i loaded).mpr (valid_segment_inside elf i valid loaded)
  · rw [segment_ops,if_neg loaded]
    exact fun op absent => absurd absent List.not_mem_nil

end Header

theorem fetch_run (elf : Elf) (ls : LocalStore) (place : BitVec 32)
    (inside : (LoadOp.fetch place).inside elf = true) : LoadOp.run elf ls (.fetch place) = some ls := by
  rw [LoadOp.run,if_pos inside]

theorem memset_run (elf : Elf) (ls : LocalStore) (vaddr memsz : BitVec 32)
    (inside : (LoadOp.memset vaddr memsz).inside elf = true) :
    LoadOp.run elf ls (.memset vaddr memsz) =
      some (ls.splice vaddr.toNat fun _ : Fin memsz.toNat => 0) := by
  rw [LoadOp.run,if_pos inside]

theorem memcpy_run (elf : Elf) (ls : LocalStore) (vaddr off filesz : BitVec 32)
    (inside : (LoadOp.memcpy vaddr off filesz).inside elf = true) :
    LoadOp.run elf ls (.memcpy vaddr off filesz) =
      some (ls.splice vaddr.toNat fun k : Fin filesz.toNat => elf.bytes (off.toNat+k)) := by
  rw [LoadOp.run,if_pos inside]

theorem ops_run_iff (elf : Elf) (ops : List LoadOp) (ls : LocalStore) :
    (ops.foldlM (LoadOp.run elf) ls).isSome ↔ ∀ op ∈ ops, op.inside elf = true := by
  induction ops generalizing ls with
  | nil => exact iff_of_true rfl fun op absent => absurd absent List.not_mem_nil
  | cons op ops ih =>
      rw [List.foldlM_cons,List.forall_mem_cons,LoadOp.run.eq_def]
      by_cases inside : op.inside elf = true
      · rw [if_pos inside]
        exact (ih _).trans ⟨fun rest => ⟨inside,rest⟩,fun all => all.2⟩
      · rw [if_neg inside]
        exact iff_of_false (fun some_ => Bool.noConfusion some_) fun all => inside all.1

theorem place_eq (elf : Elf) (ls : LocalStore) (vaddr off filesz memsz : Nat) (type : Nat) :
    (ls.splice vaddr fun _ : Fin memsz => 0).splice vaddr (fun k : Fin filesz => elf.bytes (off+k)) =
      (Phdr.mk type off vaddr filesz memsz).place elf ls := by
  funext a
  simp only [LocalStore.splice,Phdr.place]
  by_cases copied : vaddr ≤ a.val ∧ a.val < vaddr+filesz
  · rw [dif_pos copied,if_pos copied]
  · rw [dif_neg copied,if_neg copied]
    by_cases zeroed : vaddr ≤ a.val ∧ a.val < vaddr+memsz
    · rw [dif_pos zeroed,if_pos zeroed]
    · rw [dif_neg zeroed,if_neg zeroed]

theorem place_empty (elf : Elf) (ls : LocalStore) (vaddr off memsz : Nat) (type : Nat) :
    (ls.splice vaddr fun _ : Fin memsz => 0) = (Phdr.mk type off vaddr 0 memsz).place elf ls := by
  funext a
  simp only [LocalStore.splice,Phdr.place]
  rw [if_neg (show ¬ (vaddr ≤ a.val ∧ a.val < vaddr+0) by omega)]
  by_cases zeroed : vaddr ≤ a.val ∧ a.val < vaddr+memsz
  · rw [dif_pos zeroed,if_pos zeroed]
  · rw [dif_neg zeroed,if_neg zeroed]

section Segment
variable (elf : Elf) (i : Nat) (valid : elf.PhdrValid i) (image : 52 ≤ elf.length.toNat) (ls : LocalStore)
include valid image

theorem segment_run : (segment_ops elf i).foldlM (LoadOp.run elf) ls = some (elf.placeHeader ls i) := by
  have inside := (List.forall_mem_append.mp (valid_ops_inside elf i valid image)).2
  by_cases loaded : phdrLoaded elf i = true
  · rw [Elf.placeHeader,if_pos ((valid_loaded_iff elf i valid).mp loaded)]
    rw [segment_ops,if_pos loaded] at inside ⊢
    have zeroed := memset_run elf ls _ _ (inside _ (.head _))
    rw [List.foldlM_cons,zeroed,p_vaddr_toNat elf i valid,p_memsz_toNat elf i valid]
    by_cases copied : p_filesz elf i ≠ 0
    · rw [if_pos copied] at inside ⊢
      have run := memcpy_run elf (ls.splice (elf.phdr i).vaddr fun _ : Fin (elf.phdr i).memsz => 0) _ _ _
        (inside _ (.tail _ (.head _)))
      rw [p_vaddr_toNat elf i valid,p_off_toNat elf i valid,p_filesz_toNat elf i valid,
        place_eq elf ls _ _ _ _ (elf.phdr i).type] at run
      rw [Option.bind_eq_bind,Option.bind_some,List.foldlM_cons,run]
      rfl
    · have empty : (elf.phdr i).filesz = 0 := by
        rw [← p_filesz_toNat elf i valid,not_not.mp copied]
        rfl
      rw [if_neg copied]
      have placed := place_empty elf ls (elf.phdr i).vaddr (elf.phdr i).off (elf.phdr i).memsz (elf.phdr i).type
      rw [← empty] at placed
      exact congrArg some placed
  · rw [Elf.placeHeader,if_neg (fun type => loaded ((valid_loaded_iff elf i valid).mpr type)),segment_ops,
      if_neg loaded]
    rfl

theorem phdr_run : (phdr_ops elf i).foldlM (LoadOp.run elf) ls = some (elf.placeHeader ls i) := by
  have inside := (List.forall_mem_append.mp (valid_ops_inside elf i valid image)).1
  have read (place : BitVec 32) (member : LoadOp.fetch place ∈ [LoadOp.fetch (ph elf i),.fetch (ph elf i + 4),
      .fetch (ph elf i + 8),.fetch (ph elf i + 16),.fetch (ph elf i + 20)]) (rest : List LoadOp) :
      (LoadOp.fetch place :: rest).foldlM (LoadOp.run elf) ls = rest.foldlM (LoadOp.run elf) ls := by
    rw [List.foldlM_cons,fetch_run elf ls place (inside _ member)]
    rfl
  rw [phdr_ops,List.cons_append,read _ (.head _),List.cons_append,read _ (.tail _ (.head _)),List.cons_append,
    read _ (.tail _ (.tail _ (.head _))),List.cons_append,read _ (.tail _ (.tail _ (.tail _ (.head _)))),
    List.cons_append,read _ (.tail _ (.tail _ (.tail _ (.tail _ (.head _))))),List.nil_append]
  exact segment_run elf i valid image ls

end Segment

theorem table_run (elf : Elf) (image : 52 ≤ elf.length.toNat) (i left : Nat) (ls : LocalStore)
    (valid : ∀ j, i ≤ j → j < i+left → elf.PhdrValid j) :
    (table_ops elf i left).foldlM (LoadOp.run elf) ls = some ((List.range' i left).foldl elf.placeHeader ls) := by
  induction left generalizing i ls with
  | zero => rfl
  | succ left ih =>
      have here := valid i (Nat.le_refl i) (by omega)
      have passed := ph_passed elf i here
      have within : ¬ ph elf i + 32 > elf.length := by
        rw [gt_iff_lt,BitVec.lt_def]
        rw [BitVec.le_def] at passed
        omega
      have rest := ih (i+1) (elf.placeHeader ls i) fun j start below => valid j (by omega) (by omega)
      rw [table_ops,if_neg within,List.foldlM_append,phdr_run elf i here image ls,List.range'_succ,
        List.foldl_cons,← rest]
      rfl

theorem entry_masked_iff (entry : BitVec 32) :
    entry &&& BitVec.ofNat 32 (SPU_LS_SIZE-1) = entry ↔ entry.toNat < SPU_LS_SIZE := by
  have masked : (entry &&& BitVec.ofNat 32 (SPU_LS_SIZE-1)).toNat = entry.toNat % SPU_LS_SIZE :=
    and_ls_mask_toNat entry
  constructor
  · intro same
    rw [← same,masked]
    exact Nat.mod_lt _ (by decide)
  · intro small
    exact BitVec.eq_of_toNat_eq (masked.trans (Nat.mod_eq_of_lt small))

section Result
variable (ctx : SpuCtx) (elf : Elf)

theorem spu_load_elf_refused (refused : headerValid elf = false) : spu_load_elf ctx elf = some (ctx,-1) := by
  rw [spu_load_elf]
  by_cases short : elf.length < 52
  · rw [if_pos short]
  · rw [if_neg short]
    have magic : e_magic elf = false := by
      have long : decide (elf.length ≥ 52) = true := decide_eq_true ((image_size_iff elf).mp short)
      rwa [headerValid,long] at refused
    rw [magic]
    rfl

theorem spu_load_elf_accepted (valid : headerValid elf = true) : spu_load_elf ctx elf =
    ((table_ops elf 0 (e_phnum elf).toNat).foldlM (LoadOp.run elf) ctx.ls).map fun ls =>
      ({ctx with ls := ls, pc := e_entry elf &&& BitVec.ofNat 32 (SPU_LS_SIZE-1), running := true},0) := by
  obtain ⟨long,magic⟩ := Bool.and_eq_true_iff.mp valid
  rw [spu_load_elf,if_neg ((image_size_iff elf).mpr (of_decide_eq_true long)),magic]
  rfl

theorem spu_load_elf_valid (valid : elf.Valid) : spu_load_elf ctx elf = some
    ({ctx with ls := elf.image ctx.ls, pc := e_entry elf &&& BitVec.ofNat 32 (SPU_LS_SIZE-1), running := true},0) := by
  have long := of_decide_eq_true (Bool.and_eq_true_iff.mp valid.1).1
  have run := table_run elf long 0 (e_phnum elf).toNat ctx.ls fun j _ below => valid.2 j (by omega)
  rw [spu_load_elf_accepted ctx elf valid.1,run,Elf.image,List.range_eq_range']
  rfl

-- The loader has a result in C exactly when none of its accesses leaves its buffer.
theorem spu_load_elf_defined_iff : (spu_load_elf ctx elf).isSome ↔
    (headerValid elf = true → ∀ op ∈ table_ops elf 0 (e_phnum elf).toNat, op.inside elf = true) := by
  cases header : headerValid elf with
  | false =>
      rw [spu_load_elf_refused ctx elf header]
      exact iff_of_true rfl fun yes => Bool.noConfusion yes
  | true =>
      rw [spu_load_elf_accepted ctx elf header,Option.isSome_map,ops_run_iff]
      exact ⟨fun inside _ => inside,fun inside => inside rfl⟩

-- Once the header is accepted, no return of the loader is -1.
theorem spu_load_elf_zero (valid : headerValid elf = true) (after : SpuCtx × Int)
    (result : spu_load_elf ctx elf = some after) : after.2 = 0 := by
  rw [spu_load_elf_accepted ctx elf valid,Option.map_eq_some_iff] at result
  obtain ⟨_,_,returned⟩ := result
  exact returned ▸ rfl

theorem load_elf_means_result_iff : LoadMeansResult ctx elf ↔
    headerValid elf = false ∨ elf.TableValid ∧ (e_entry elf).toNat < SPU_LS_SIZE := by
  cases header : headerValid elf with
  | false =>
      refine iff_of_true ⟨fun valid => ?_,fun _ => spu_load_elf_refused ctx elf header⟩ (.inl rfl)
      exact Bool.noConfusion (header.symm.trans valid.1)
  | true =>
      rw [or_iff_right Bool.noConfusion]
      constructor
      · intro ⟨accepted,refused⟩
        by_cases table : elf.TableValid
        · have run := (spu_load_elf_valid ctx elf ⟨header,table⟩).symm.trans (accepted ⟨header,table⟩)
          have entry := congrArg SpuCtx.pc (Prod.ext_iff.mp (Option.some.inj run)).1
          exact ⟨table,(entry_masked_iff _).mp entry⟩
        · have result := refused fun valid => table valid.2
          exact absurd (spu_load_elf_zero ctx elf header _ result) (show (-1 : Int) ≠ 0 by decide)
      · intro ⟨table,entry⟩
        refine ⟨fun valid => ?_,fun invalid => absurd ⟨header,table⟩ invalid⟩
        rw [spu_load_elf_valid ctx elf valid,(entry_masked_iff _).mpr entry]

end Result

-- A table of one header that ends past the image: the loop breaks at once and 0 is returned.
def truncated : Elf where
  length := 52
  bytes := fun k => ([0x7F,0x45,0x4C,0x46,0,0,0,0, 0,0,0,0,0,0,0,0, 0,0,0,0,0,0,0,0, 0,0,0,0,0,0,0,52,
    0,0,0,0,0,0,0,0, 0,0,0,32,0,1,0,0, 0,0,0,0] : List (BitVec 8)).getD k 0

theorem truncated_table_accepted : ¬ ∀ ctx elf, LoadMeansResult ctx elf := by
  intro means
  have invalid : ¬ truncated.Valid := fun valid => absurd (valid.2 0 (by decide +kernel)).1 (by decide +kernel)
  have result := (means (spu_ctx_init 0 none) truncated).2 invalid
  exact absurd (spu_load_elf_zero _ _ (by decide +kernel) _ result) (show (-1 : Int) ≠ 0 by decide)

end BudokaiRuntime.Spu
