import BudokaiRuntime.Spu.HostAccess

-- spu_load_elf: what it reads and writes, and what its return value means.
namespace BudokaiRuntime.Spu
open Guest

-- `bytes` is the memory behind the pointer; the image is its first `length` bytes.
structure Elf where
  length : BitVec 32
  bytes : Nat → BitVec 8

def bigEndian (b0 b1 b2 b3 : BitVec 8) : BitVec 32 :=
  b0.setWidth 32 <<< 24 ||| b1.setWidth 32 <<< 16 ||| b2.setWidth 32 <<< 8 ||| b3.setWidth 32

-- elf[place+0] .. elf[place+3]: every index is computed in uint32_t.
def Elf.word (elf : Elf) (place : BitVec 32) : BitVec 32 :=
  bigEndian (elf.bytes place.toNat) (elf.bytes (place+1).toNat) (elf.bytes (place+2).toNat)
    (elf.bytes (place+3).toNat)

def e_magic (elf : Elf) : Bool :=
  elf.bytes 0 == 0x7F && elf.bytes 1 == 0x45 && elf.bytes 2 == 0x4C && elf.bytes 3 == 0x46

def e_entry (elf : Elf) : BitVec 32 := elf.word 24
def e_phoff (elf : Elf) : BitVec 32 := elf.word 28
def e_phentsz (elf : Elf) : BitVec 16 := (elf.bytes 42).setWidth 16 <<< 8 ||| (elf.bytes 43).setWidth 16
def e_phnum (elf : Elf) : BitVec 16 := (elf.bytes 44).setWidth 16 <<< 8 ||| (elf.bytes 45).setWidth 16

def ph (elf : Elf) (i : Nat) : BitVec 32 := e_phoff elf + BitVec.ofNat 32 i * (e_phentsz elf).setWidth 32
def p_type (elf : Elf) (i : Nat) : BitVec 32 := elf.word (ph elf i)
def p_off (elf : Elf) (i : Nat) : BitVec 32 := elf.word (ph elf i + 4)
def p_vaddr (elf : Elf) (i : Nat) : BitVec 32 := elf.word (ph elf i + 8)
def p_filesz (elf : Elf) (i : Nat) : BitVec 32 := elf.word (ph elf i + 16)
def p_memsz (elf : Elf) (i : Nat) : BitVec 32 := elf.word (ph elf i + 20)

-- The accesses of the loader: four bytes of the image, a memset, a memcpy.
inductive LoadOp where
  | fetch (place : BitVec 32)
  | memset (vaddr memsz : BitVec 32)
  | memcpy (vaddr off filesz : BitVec 32)

def LoadOp.elfIndices : LoadOp → List Nat
  | .fetch place => (List.range 4).map fun k => (place + BitVec.ofNat 32 k).toNat
  | .memset .. => []
  | .memcpy _ off filesz => List.range' off.toNat filesz.toNat

def LoadOp.lsIndices : LoadOp → List Nat
  | .fetch _ => []
  | .memset vaddr memsz => List.range' vaddr.toNat memsz.toNat
  | .memcpy vaddr _ filesz => List.range' vaddr.toNat filesz.toNat

def LoadOp.inside (elf : Elf) (op : LoadOp) : Bool :=
  op.elfIndices.all (· < elf.length.toNat) && op.lsIndices.all (· < SPU_LS_SIZE)

-- C leaves an access outside the two buffers undefined: `none`.
def LoadOp.run (elf : Elf) (ls : LocalStore) (op : LoadOp) : Option LocalStore :=
  if op.inside elf then
    some <| match op with
      | .fetch _ => ls
      | .memset vaddr memsz => ls.splice vaddr.toNat fun _ : Fin memsz.toNat => 0
      | .memcpy vaddr off filesz => ls.splice vaddr.toNat fun k : Fin filesz.toNat => elf.bytes (off.toNat+k)
  else none

-- The three tests that let a program header through, in the loop's own arithmetic.
def phdrLoaded (elf : Elf) (i : Nat) : Bool :=
  p_type elf i == 1 && p_vaddr elf i + p_memsz elf i ≤ BitVec.ofNat 32 SPU_LS_SIZE &&
    p_off elf i + p_filesz elf i ≤ elf.length

def segment_ops (elf : Elf) (i : Nat) : List LoadOp :=
  if phdrLoaded elf i then
    .memset (p_vaddr elf i) (p_memsz elf i) ::
      if p_filesz elf i ≠ 0 then [.memcpy (p_vaddr elf i) (p_off elf i) (p_filesz elf i)] else []
  else []

-- Bytes 12 to 15 (p_paddr) and everything from 24 on stay unread.
def phdr_ops (elf : Elf) (i : Nat) : List LoadOp :=
  [.fetch (ph elf i),.fetch (ph elf i + 4),.fetch (ph elf i + 8),.fetch (ph elf i + 16),
    .fetch (ph elf i + 20)] ++ segment_ops elf i

def table_ops (elf : Elf) : Nat → Nat → List LoadOp
  | _,0 => []
  | i,left+1 => if ph elf i + 32 > elf.length then [] else phdr_ops elf i ++ table_ops elf (i+1) left

def headerValid (elf : Elf) : Bool := elf.length ≥ 52 && e_magic elf

def spu_load_elf (ctx : SpuCtx) (elf : Elf) : Option (SpuCtx × Int) :=
  if elf.length < 52 then some (ctx,-1)
  else if !e_magic elf then some (ctx,-1)
  else
    ((table_ops elf 0 (e_phnum elf).toNat).foldlM (LoadOp.run elf) ctx.ls).map fun ls =>
      ({ctx with ls := ls, pc := e_entry elf &&& BitVec.ofNat 32 (SPU_LS_SIZE-1), running := true},0)

def load_ops (elf : Elf) : List LoadOp :=
  if elf.length < 52 then []
  else .fetch 0 :: if !e_magic elf then []
    else [.fetch 24,.fetch 28,.fetch 42] ++ table_ops elf 0 (e_phnum elf).toNat

-- The loop looks at header i: no earlier one, nor it, ends past the image in uint32_t arithmetic.
def phdrReached (elf : Elf) (i : Nat) : Prop :=
  i < (e_phnum elf).toNat ∧ ∀ j ≤ i, ph elf j + 32 ≤ elf.length

-- The header's bytes that are read lie in the image: all before byte 12, and those from byte 16
-- on as well unless they wrap to the start.
def PhdrInside (elf : Elf) (i : Nat) : Prop :=
  (ph elf i).toNat+12 ≤ elf.length.toNat ∧
    ((ph elf i).toNat+24 ≤ elf.length.toNat ∨ 2^32 ≤ (ph elf i).toNat+16)

-- The sums of the two guards do not wrap, and the file bytes fit the local store too.
def SegmentInside (elf : Elf) (i : Nat) : Prop :=
  (p_vaddr elf i).toNat+(p_memsz elf i).toNat < 2^32 ∧
    (p_filesz elf i = 0 ∨ (p_vaddr elf i).toNat+(p_filesz elf i).toNat ≤ SPU_LS_SIZE ∧
      (p_off elf i).toNat+(p_filesz elf i).toNat < 2^32)

theorem range_below_iff (base size bound : Nat) :
    (∀ i ∈ List.range' base size, i < bound) ↔ size = 0 ∨ base+size ≤ bound := by
  constructor
  · intro below
    by_cases empty : size = 0
    · exact .inl empty
    · have last := below (base+size-1) (by rw [List.mem_range'_1]; omega)
      omega
  · intro fits i member
    rw [List.mem_range'_1] at member
    omega

section Accesses
variable (elf : Elf)

theorem fetch_inside (place : BitVec 32) : (LoadOp.fetch place).inside elf = true ↔
    ∀ k < 4, (place.toNat+k)%2^32 < elf.length.toNat := by
  simp only [LoadOp.inside,LoadOp.elfIndices,LoadOp.lsIndices,List.all_nil,Bool.and_true,List.all_map,
    List.all_eq_true,List.mem_range,Function.comp_apply,decide_eq_true_eq,BitVec.toNat_add]
  refine forall₂_congr fun k small => ?_
  rw [BitVec.toNat_ofNat,Nat.mod_eq_of_lt (show k < 2^32 by omega)]

theorem memset_inside (vaddr memsz : BitVec 32) : (LoadOp.memset vaddr memsz).inside elf = true ↔
    memsz.toNat = 0 ∨ vaddr.toNat+memsz.toNat ≤ SPU_LS_SIZE := by
  simp only [LoadOp.inside,LoadOp.elfIndices,LoadOp.lsIndices,List.all_nil,Bool.true_and,List.all_eq_true,
    decide_eq_true_eq]
  exact range_below_iff _ _ _

theorem memcpy_inside (vaddr off filesz : BitVec 32) : (LoadOp.memcpy vaddr off filesz).inside elf = true ↔
    filesz.toNat = 0 ∨
      off.toNat+filesz.toNat ≤ elf.length.toNat ∧ vaddr.toNat+filesz.toNat ≤ SPU_LS_SIZE := by
  simp only [LoadOp.inside,LoadOp.elfIndices,LoadOp.lsIndices,Bool.and_eq_true,List.all_eq_true,
    decide_eq_true_eq,range_below_iff]
  omega

theorem header_bytes_inside (p len : Nat) (small : p < 2^32) (bound : len < 2^32) (image : 52 ≤ len) :
    (∀ j, j < 12 ∨ 16 ≤ j ∧ j < 24 → (p+j)%2^32 < len) ↔
      p+12 ≤ len ∧ (p+24 ≤ len ∨ 2^32 ≤ p+16) := by
  constructor
  · intro inside
    by_cases short : p+12 ≤ 2^32
    · have low := inside 11 (by omega)
      refine ⟨by omega,?_⟩
      by_cases wrapped : 2^32 ≤ p+16
      · exact .inr wrapped
      · by_cases middle : p+24 ≤ 2^32
        · have high := inside 23 (by omega)
          omega
        · have top := inside (2^32-1-p) (by omega)
          omega
    · have top := inside (2^32-1-p) (by omega)
      omega
  · intro ⟨low,high⟩ j chosen
    omega

theorem header_inside (i : Nat) (image : 52 ≤ elf.length.toNat) :
    (∀ op ∈ [LoadOp.fetch (ph elf i),.fetch (ph elf i + 4),.fetch (ph elf i + 8),.fetch (ph elf i + 16),
      .fetch (ph elf i + 20)], op.inside elf = true) ↔ PhdrInside elf i := by
  rw [PhdrInside,← header_bytes_inside _ _ (ph elf i).isLt elf.length.isLt image]
  have shifted (c k : Nat) (small : c < 24) :
      ((ph elf i + BitVec.ofNat 32 c).toNat+k)%2^32 = ((ph elf i).toNat+(c+k))%2^32 := by
    rw [BitVec.toNat_add,BitVec.toNat_ofNat,Nat.mod_eq_of_lt (show c < 2^32 by omega),Nat.mod_add_mod,
      Nat.add_assoc]
  simp only [List.forall_mem_cons,List.not_mem_nil,false_imp_iff,implies_true,and_true,fetch_inside]
  rw [show (4 : BitVec 32) = BitVec.ofNat 32 4 from rfl,show (8 : BitVec 32) = BitVec.ofNat 32 8 from rfl,
    show (16 : BitVec 32) = BitVec.ofNat 32 16 from rfl,show (20 : BitVec 32) = BitVec.ofNat 32 20 from rfl]
  simp only [shifted _ _ (show 4 < 24 by omega),shifted _ _ (show 8 < 24 by omega),
    shifted _ _ (show 16 < 24 by omega),shifted _ _ (show 20 < 24 by omega)]
  constructor
  · intro ⟨first,second,third,fifth,sixth⟩ j chosen
    by_cases word : j < 4
    · exact first j word
    · by_cases word : j < 8
      · have read := second (j-4) (by omega)
        rwa [show 4+(j-4) = j by omega] at read
      · by_cases word : j < 12
        · have read := third (j-8) (by omega)
          rwa [show 8+(j-8) = j by omega] at read
        · by_cases word : j < 20
          · have read := fifth (j-16) (by omega)
            rwa [show 16+(j-16) = j by omega] at read
          · have read := sixth (j-20) (by omega)
            rwa [show 20+(j-20) = j by omega] at read
  · intro inside
    exact ⟨fun k small => inside k (by omega),fun k small => inside (4+k) (by omega),
      fun k small => inside (8+k) (by omega),fun k small => inside (16+k) (by omega),
      fun k small => inside (20+k) (by omega)⟩

theorem phdrLoaded_iff (i : Nat) : phdrLoaded elf i = true ↔ p_type elf i = 1 ∧
    ((p_vaddr elf i).toNat+(p_memsz elf i).toNat)%2^32 ≤ SPU_LS_SIZE ∧
      ((p_off elf i).toNat+(p_filesz elf i).toNat)%2^32 ≤ elf.length.toNat := by
  simp only [phdrLoaded,Bool.and_eq_true,beq_iff_eq,decide_eq_true_eq,and_assoc,BitVec.le_def,BitVec.toNat_add]
  rfl

theorem filesz_zero_iff (i : Nat) : p_filesz elf i = 0 ↔ (p_filesz elf i).toNat = 0 :=
  ⟨fun zero => by rw [zero]; rfl,fun zero => BitVec.eq_of_toNat_eq zero⟩

theorem segment_inside (i : Nat) (loaded : phdrLoaded elf i = true) :
    (∀ op ∈ segment_ops elf i, op.inside elf = true) ↔ SegmentInside elf i := by
  obtain ⟨_,memory,file⟩ := (phdrLoaded_iff elf i).mp loaded
  have image := elf.length.isLt
  have size := ls_size
  rw [SegmentInside,filesz_zero_iff,segment_ops,if_pos loaded,List.forall_mem_cons,memset_inside]
  have address := (p_vaddr elf i).isLt
  have offset := (p_off elf i).isLt
  have copied : (∀ op ∈ if p_filesz elf i ≠ 0 then [LoadOp.memcpy (p_vaddr elf i) (p_off elf i) (p_filesz elf i)]
      else [], op.inside elf = true) ↔ (p_filesz elf i).toNat = 0 ∨
        (p_off elf i).toNat+(p_filesz elf i).toNat ≤ elf.length.toNat ∧
        (p_vaddr elf i).toNat+(p_filesz elf i).toNat ≤ SPU_LS_SIZE := by
    by_cases empty : p_filesz elf i = 0
    · rw [if_neg (not_not_intro empty)]
      exact iff_of_true (fun op absent => absurd absent List.not_mem_nil)
        (.inl ((filesz_zero_iff elf i).mp empty))
    · rw [if_pos empty,List.forall_mem_singleton]
      exact memcpy_inside elf _ _ _
  rw [copied]
  rw [size] at memory ⊢
  omega

theorem table_ops_forall (P : LoadOp → Prop) (i left : Nat) : (∀ op ∈ table_ops elf i left, P op) ↔
    ∀ j, i ≤ j → j < i+left → (∀ k, i ≤ k → k ≤ j → ph elf k + 32 ≤ elf.length) →
      ∀ op ∈ phdr_ops elf j, P op := by
  induction left generalizing i with
  | zero => exact iff_of_true (fun op absent => absurd absent List.not_mem_nil) (fun j from_ below => by omega)
  | succ left ih =>
      rw [table_ops]
      by_cases past : ph elf i + 32 > elf.length
      · rw [if_pos past]
        refine iff_of_true (fun op absent => absurd absent List.not_mem_nil) fun j start _ reached => ?_
        have here := reached i (Nat.le_refl i) start
        exact absurd past (by rw [gt_iff_lt,BitVec.lt_def]; rw [BitVec.le_def] at here; omega)
      · have here : ph elf i + 32 ≤ elf.length := by
          rw [BitVec.le_def]
          rw [gt_iff_lt,BitVec.lt_def] at past
          omega
        rw [if_neg past,List.forall_mem_append,ih (i+1)]
        constructor
        · intro ⟨first,later⟩ j start below reached
          by_cases same : i = j
          · exact same ▸ first
          · exact later j (by omega) (by omega) fun k from_next upto => reached k (by omega) upto
        · intro all
          refine ⟨all i (Nat.le_refl i) (by omega) fun k start upto => ?_,fun j start below reached => ?_⟩
          · rwa [show k = i by omega]
          · refine all j (by omega) (by omega) fun k from_here upto => ?_
            by_cases same : k = i
            · rwa [same]
            · exact reached k (by omega) upto

theorem reached_ops_forall (P : LoadOp → Prop) :
    (∀ op ∈ table_ops elf 0 (e_phnum elf).toNat, P op) ↔
      ∀ i, phdrReached elf i → ∀ op ∈ phdr_ops elf i, P op := by
  rw [table_ops_forall,Nat.zero_add]
  constructor
  · intro all i reached
    exact all i (Nat.zero_le i) reached.1 fun j _ upto => reached.2 j upto
  · intro all i _ below reached
    exact all i ⟨below,fun j upto => reached j (Nat.zero_le j) upto⟩

theorem phdr_inside (i : Nat) (image : 52 ≤ elf.length.toNat) :
    (∀ op ∈ phdr_ops elf i, op.inside elf = true) ↔
      PhdrInside elf i ∧ (phdrLoaded elf i = true → SegmentInside elf i) := by
  rw [phdr_ops,List.forall_mem_append,header_inside elf i image]
  refine and_congr_right fun _ => ?_
  by_cases loaded : phdrLoaded elf i = true
  · rw [segment_inside elf i loaded]
    exact ⟨fun inside _ => inside,fun inside => inside loaded⟩
  · rw [segment_ops,if_neg loaded]
    exact iff_of_true (fun op absent => absurd absent List.not_mem_nil) fun yes => absurd yes loaded

def TableInside : Prop := ∀ i, phdrReached elf i →
  PhdrInside elf i ∧ (phdrLoaded elf i = true → SegmentInside elf i)

theorem table_inside_iff (image : 52 ≤ elf.length.toNat) :
    (∀ op ∈ table_ops elf 0 (e_phnum elf).toNat, op.inside elf = true) ↔ TableInside elf := by
  rw [reached_ops_forall]
  exact forall₂_congr fun i _ => phdr_inside elf i image

theorem fixed_fetch_inside (place : Nat) (small : place < 49) (image : 52 ≤ elf.length.toNat) :
    (LoadOp.fetch (BitVec.ofNat 32 place)).inside elf = true := by
  rw [fetch_inside]
  intro k word
  rw [BitVec.toNat_ofNat]
  omega

theorem image_size_iff : ¬ elf.length < 52 ↔ 52 ≤ elf.length.toNat := by
  rw [BitVec.lt_def]
  exact Nat.not_lt

theorem load_ops_inside_iff : (∀ op ∈ load_ops elf, op.inside elf = true) ↔
    (headerValid elf = true → TableInside elf) := by
  rw [headerValid]
  by_cases short : elf.length < 52
  · rw [load_ops,if_pos short]
    refine iff_of_true (fun op absent => absurd absent List.not_mem_nil) fun valid => ?_
    rw [Bool.and_eq_true,decide_eq_true_eq,ge_iff_le,BitVec.le_def] at valid
    rw [BitVec.lt_def] at short
    omega
  · have image := (image_size_iff elf).mp short
    have long : (decide (elf.length ≥ 52)) = true := decide_eq_true image
    have first := fixed_fetch_inside elf 0 (by omega) image
    rw [load_ops,if_neg short,long,Bool.true_and,List.forall_mem_cons]
    cases magic : e_magic elf with
    | false => exact iff_of_true ⟨first,fun op absent => absurd absent List.not_mem_nil⟩ nofun
    | true =>
        have rest : (∀ op ∈ [LoadOp.fetch 24,.fetch 28,.fetch 42], op.inside elf = true) :=
          List.forall_mem_cons.mpr ⟨fixed_fetch_inside elf 24 (by omega) image,
            List.forall_mem_cons.mpr ⟨fixed_fetch_inside elf 28 (by omega) image,
              List.forall_mem_singleton.mpr (fixed_fetch_inside elf 42 (by omega) image)⟩⟩
        rw [Bool.not_true,if_neg Bool.false_ne_true,List.forall_mem_append,table_inside_iff elf image]
        exact ⟨fun inside _ => inside.2.2,fun inside => ⟨first,rest,inside rfl⟩⟩

def MemorySafe : Prop := ∀ op ∈ load_ops elf,
  (∀ i ∈ op.elfIndices, i < elf.length.toNat) ∧ ∀ i ∈ op.lsIndices, i < SPU_LS_SIZE

theorem load_elf_memory_safe_iff : MemorySafe elf ↔ (headerValid elf = true →
    ∀ i, phdrReached elf i → PhdrInside elf i ∧ (phdrLoaded elf i = true → SegmentInside elf i)) := by
  rw [show (headerValid elf = true → ∀ i, phdrReached elf i → _) ↔ _ from (load_ops_inside_iff elf).symm,MemorySafe]
  refine forall₂_congr fun op _ => ?_
  simp only [LoadOp.inside,Bool.and_eq_true,List.all_eq_true,decide_eq_true_eq]

end Accesses

-- One PT_LOAD header: vaddr 0x3FFFC, filesz 8, memsz 4. The guard looks at memsz only.
def short_memsz : Elf where
  length := 84
  bytes := fun k => ([0x7F,0x45,0x4C,0x46,0,0,0,0, 0,0,0,0,0,0,0,0, 0,0,0,0,0,0,0,0, 0,0,0,0,0,0,0,52,
    0,0,0,0,0,0,0,0, 0,0,0,32,0,1,0,0, 0,0,0,0, 0,0,0,1,0,0,0,0, 0,3,0xFF,0xFC,0,0,0,0,
    0,0,0,8,0,0,0,4, 0,0,0,0,0,0,0,0] : List (BitVec 8)).getD k 0

theorem filesz_passes_memsz : ¬ ∀ elf, MemorySafe elf := by
  intro safe
  have overran : (load_ops short_memsz).all (fun op => op.lsIndices.all (· < SPU_LS_SIZE)) = false := by decide +kernel
  obtain ⟨op,member,outside⟩ := List.all_eq_false.mp overran
  have inside := (safe short_memsz op member).2
  exact outside (List.all_eq_true.mpr fun i touched => decide_eq_true (inside i touched))

end BudokaiRuntime.Spu
