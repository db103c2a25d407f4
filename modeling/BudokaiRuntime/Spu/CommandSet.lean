import BudokaiRuntime.Spu.HostAccess

-- The command codes of mfc_execute against those of the MFC command set.
namespace BudokaiRuntime.Spu
open Guest

-- Six single-transfer codes; the list commands and everything else transfer nothing by EAL.
def baseCommand : Nat → Option (BitVec 32)
  | 0x20 | 0x21 | 0x22 => some 0x20
  | 0x40 | 0x41 | 0x42 => some 0x40
  | _ => none

-- The codes the interpreter has elsewhere: a barrier it leaves out, and a list command it
-- takes for the fence.
def misnumbered : Nat → Option (BitVec 32)
  | 0x21 | 0x24 => some 0x20
  | 0x41 | 0x44 => some 0x40
  | _ => none

-- The base command whose branch of the switch a code takes.
def takenAs : Nat → Option (BitVec 32)
  | MFC_PUT | MFC_PUTB | MFC_PUTF => some 0x20
  | MFC_GET | MFC_GETB | MFC_GETF => some 0x40
  | _ => none

inductive MovePlace where
  | ls (i : Nat)
  | vm (a : Nat)
deriving DecidableEq

def DmaCopy.moves : DmaCopy → List (MovePlace × MovePlace)
  | .lsFromLs dst src size => (List.range size.toNat).map fun k => (.ls (dst.toNat+k),.ls (src.toNat+k))
  | .lsFromVm lsa ea size => (List.range size.toNat).map fun k => (.ls (lsa.toNat+k),.vm (ea.toNat+k))
  | .vmFromLs ea lsa size => (List.range size.toNat).map fun k => (.vm (ea.toNat+k),.ls (lsa.toNat+k))

def moved (ctx : SpuCtx) (cmd : BitVec 32) : List (MovePlace × MovePlace) := (mfc_copies ctx cmd).flatMap DmaCopy.moves

def MovesAs (ctx : SpuCtx) (cmd : BitVec 32) : Option (BitVec 32) → Prop
  | some base => moved ctx cmd = moved ctx base ∧ mfc_execute ctx cmd = mfc_execute ctx base
  | none => moved ctx cmd = [] ∧ mfc_execute ctx cmd = some ctx

def mfcCode (cmd : BitVec 32) : Nat := (cmd &&& 0xFF).toNat

def FollowsCommandSet (ctx : SpuCtx) (cmd : BitVec 32) : Prop := MovesAs ctx cmd (baseCommand (mfcCode cmd))

section Moves
variable (ctx : SpuCtx)

def DmaCopy.size : DmaCopy → BitVec 32
  | .lsFromLs _ _ size | .lsFromVm _ _ size | .vmFromLs _ _ size => size

theorem DmaCopy.moves_nil_iff (copy : DmaCopy) : copy.moves = [] ↔ copy.size = 0 := by
  have range (size : BitVec 32) (move : Nat → MovePlace × MovePlace) :
      (List.range size.toNat).map move = [] ↔ size = 0 := by
    rw [List.map_eq_nil_iff,List.range_eq_nil]
    exact ⟨fun zero => BitVec.eq_of_toNat_eq zero,fun zero => by rw [zero]; rfl⟩
  cases copy <;> exact range _ _

theorem copy_size (copy : DmaCopy) (made : copy ∈ mfc_copies ctx cmd) : copy.size = mfc_sz ctx := by
  have got (member : copy ∈ mfc_get ctx) : copy.size = mfc_sz ctx := by
    simp only [mfc_get] at member
    split at member <;> split at member <;>
      first | (cases List.mem_singleton.mp member; rfl) | cases member
  have put (member : copy ∈ mfc_put ctx) : copy.size = mfc_sz ctx := by
    simp only [mfc_put] at member
    split at member
    · split at member
      · cases List.mem_singleton.mp member
        rfl
      · cases member
    · rcases List.mem_append.mp member with ram | rsx
      · split at ram
        · cases List.mem_singleton.mp ram
          rfl
        · cases ram
      · split at rsx
        · cases List.mem_singleton.mp rsx
          rfl
        · cases rsx
  unfold mfc_copies at made
  split at made
  · cases made
  split at made
  · exact got made
  · exact got made
  · exact got made
  · exact put made
  · exact put made
  · exact put made
  · cases made

theorem mfc_sz_zero_iff : mfc_sz ctx = 0 ↔ ctx.mfc_size = 0 := by
  unfold mfc_sz
  split
  · rename_i large
    exact iff_of_false (by decide) fun zero => absurd (zero ▸ large) (by decide)
  · rfl

theorem moved_nil_iff (cmd : BitVec 32) :
    moved ctx cmd = [] ↔ ctx.mfc_size = 0 ∨ ¬ transferAccepted ctx cmd = true := by
  rw [moved,List.flatMap_eq_nil_iff,← mfc_sz_zero_iff,← copies_made ctx cmd,not_not]
  constructor
  · intro still
    by_cases none : mfc_copies ctx cmd = []
    · exact .inr none
    · obtain ⟨copy,made⟩ := List.exists_mem_of_ne_nil _ none
      exact .inl ((copy_size ctx copy made).symm.trans ((copy.moves_nil_iff).mp (still copy made)))
  · rintro (zero | none) copy made
    · exact copy.moves_nil_iff.mpr ((copy_size ctx copy made).trans zero)
    · rw [none] at made
      cases made

theorem splice_nothing (ls : LocalStore) (base : Nat) (bytes : Fin size → BitVec 8) (zero : size = 0) :
    ls.splice base bytes = ls := by
  funext i
  exact dif_neg (by omega)

theorem vm_splice_nothing (vm : GuestMem) (ea : BitVec 32) (bytes : Fin size → BitVec 8) (zero : size = 0) :
    vm.splice ea bytes = vm := by
  funext a
  exact dif_neg (by omega)

theorem DmaCopy.run_nothing (copy : DmaCopy) (empty : copy.size = 0) (fits : copy.Fits)
    (mapped : ctx.vm_base.isSome = true) : copy.run ctx = some ctx := by
  obtain ⟨vm,present⟩ := Option.isSome_iff_exists.mp mapped
  have zero : copy.size.toNat = 0 := by rw [empty]; rfl
  cases copy with
  | lsFromLs dst src size =>
      simp only [DmaCopy.Fits] at fits
      have none : size.toNat = 0 := zero
      rw [DmaCopy.run,dif_pos fits,splice_nothing ctx.ls dst.toNat _ none]
  | lsFromVm lsa ea size =>
      simp only [DmaCopy.Fits] at fits
      have none : size.toNat = 0 := zero
      rw [DmaCopy.run,if_pos fits,present,Option.map_some,splice_nothing ctx.ls lsa.toNat _ none,← present]
  | vmFromLs ea lsa size =>
      simp only [DmaCopy.Fits] at fits
      have none : size.toNat = 0 := zero
      rw [DmaCopy.run,dif_pos fits,present,Option.map_some,vm_splice_nothing vm ea _ none,← present]

theorem copies_run_nothing (copies : List DmaCopy) (still : ∀ copy ∈ copies, copy.run ctx = some ctx) :
    copies.foldlM DmaCopy.run ctx = some ctx := by
  induction copies with
  | nil => rfl
  | cons copy copies ih =>
      rw [List.foldlM_cons,still copy List.mem_cons_self]
      exact ih fun other member => still other (List.mem_cons_of_mem copy member)

theorem mfc_execute_nothing (cmd : BitVec 32) (none : moved ctx cmd = []) : mfc_execute ctx cmd = some ctx := by
  refine copies_run_nothing ctx _ fun copy made => ?_
  have empty : copy.size = 0 := copy.moves_nil_iff.mp (List.flatMap_eq_nil_iff.mp none copy made)
  have lsa : lsaFits ctx := by
    have zero : mfc_sz ctx = 0 := (copy_size ctx copy made).symm.trans empty
    rw [lsaFits,zero]
    exact Nat.le_of_lt (mfc_lsa_lt ctx)
  have accepted := (copies_made ctx cmd).mp (List.ne_nil_of_mem made)
  simp only [transferAccepted,Bool.and_eq_true] at accepted
  exact copy.run_nothing ctx empty ((copy_covers ctx cmd copy made).1.mpr lsa) accepted.1

theorem mfc_copies_taken (cmd : BitVec 32) :
    mfc_copies ctx cmd = (takenAs (mfcCode cmd)).elim [] (mfc_copies ctx) := by
  unfold takenAs mfcCode
  split
  case h_7 =>
    unfold mfc_copies
    split
    · rfl
    · split <;> first | rfl | contradiction
  all_goals
    rename_i code
    rw [mfc_copies,code]
    rfl

theorem code_cases (code : Nat) : misnumbered code = none ∧ takenAs code = baseCommand code ∨
    ∃ base, misnumbered code = some base ∧
      (baseCommand code = some base ∧ takenAs code = none ∨ baseCommand code = none ∧ takenAs code = some base) := by
  unfold misnumbered
  split
  case h_1 | h_3 => exact .inr ⟨_,rfl,.inl ⟨rfl,rfl⟩⟩
  case h_2 | h_4 => exact .inr ⟨_,rfl,.inr ⟨rfl,rfl⟩⟩
  case h_5 barrier fence getb getf =>
    refine .inl ⟨rfl,?_⟩
    unfold takenAs
    split
    case h_7 put putb putf get getb' getf' =>
      unfold baseCommand
      split <;> first | rfl | contradiction
    all_goals first | rfl | contradiction

theorem vanished_iff (base : BitVec 32) (none : mfc_copies ctx cmd = []) :
    MovesAs ctx cmd (some base) ↔ moved ctx base = [] := by
  have still : moved ctx cmd = [] := by rw [moved,none,List.flatMap_nil]
  rw [MovesAs,still,mfc_execute_nothing ctx cmd still]
  exact ⟨fun same => same.1.symm,fun idle => ⟨idle.symm,(mfc_execute_nothing ctx base idle).symm⟩⟩

theorem plain_iff (base : BitVec 32) (same : mfc_copies ctx cmd = mfc_copies ctx base) :
    MovesAs ctx cmd none ↔ moved ctx base = [] := by
  have bytes : moved ctx cmd = moved ctx base := by rw [moved,same,moved]
  rw [MovesAs,bytes]
  exact ⟨And.left,fun idle => ⟨idle,mfc_execute_nothing ctx cmd (bytes.trans idle)⟩⟩

theorem moves_as_taken (base : Option (BitVec 32)) (same : mfc_copies ctx cmd = base.elim [] (mfc_copies ctx)) :
    MovesAs ctx cmd base := by
  cases base with
  | none =>
      have still : moved ctx cmd = [] := by
        rw [moved,same]
        rfl
      exact ⟨still,mfc_execute_nothing ctx cmd still⟩
  | some base =>
      rw [MovesAs,moved,moved,mfc_execute,mfc_execute,same]
      exact ⟨rfl,rfl⟩
end Moves

theorem follows_command_set_iff (ctx : SpuCtx) (cmd : BitVec 32) : FollowsCommandSet ctx cmd ↔
    ∀ base, misnumbered (mfcCode cmd) = some base → ctx.mfc_size = 0 ∨ ¬ transferAccepted ctx base = true := by
  have copies := mfc_copies_taken ctx cmd
  rcases code_cases (mfcCode cmd) with ⟨numbered,same⟩ | ⟨base,wrong,missing | list⟩
  · rw [same] at copies
    rw [numbered]
    exact iff_of_true (moves_as_taken ctx _ copies) (by intro base wrong; cases wrong)
  · rw [missing.2] at copies
    rw [FollowsCommandSet,missing.1,vanished_iff ctx base copies,moved_nil_iff,wrong]
    exact ⟨fun still other same => Option.some.inj same ▸ still,fun all => all base rfl⟩
  · rw [list.2] at copies
    rw [FollowsCommandSet,list.1,plain_iff ctx base copies,moved_nil_iff,wrong]
    exact ⟨fun still other same => Option.some.inj same ▸ still,fun all => all base rfl⟩

def stagedPut : SpuCtx := {spu_ctx_init 0 (some fun _ => 0) with mfc_eal := 0x20000,mfc_size := 16}

theorem barrier_put_vanishes : ¬ ∀ (ctx : SpuCtx) (cmd : BitVec 32), FollowsCommandSet ctx cmd := by
  intro follows
  have same : moved stagedPut 0x21 = moved stagedPut 0x20 := (follows stagedPut 0x21).1
  exact absurd same (by decide)

end BudokaiRuntime.Spu
