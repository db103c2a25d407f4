import BudokaiRuntime.Guest.Stores

-- The cells that vm_write32 guards, under every kind of store.
namespace BudokaiRuntime.Guest
open ByteLanes Rsx Spu

def cells : List (BitVec 32) := [WORKLOADS,STATES,ROOT,REF]

-- A vm_write32 at exactly the cell: the stores that the guards see.
def GuestStore.intercepted : GuestStore → BitVec 32 → Prop
  | .write32 addr _,g => addr.setWidth 32 = g
  | .write64 addr _,g => addr.setWidth 32 = g ∨ (addr+4).setWidth 32 = g
  | _,_ => False

def GuestStore.left (s : GuestStore) (vm : GuestMem) (a : BitVec 32) : BitVec 8 := (s.byte a).getD (vm a)

def Guarded (g : BitVec 32) (before after : GuestMem) : Prop :=
  (g = WORKLOADS ∨ g = STATES → after.be32 g ≠ 0) ∧ (g = ROOT → before.be32 g ≠ 0 → after.be32 g ≠ 0) ∧
    (g = REF → after.be32 g = before.be32 g)

section Word
variable {fuel : Nat} {m m' : Machine} {addr : BitVec 64} {val g : BitVec 32}

theorem chain_val_other (chains : a ≠ WORKLOADS ∧ a ≠ STATES) : chain_val a val = val := by
  rw [chain_val,if_neg fun both => chains.1 both.1,if_neg fun both => chains.2 both.1]

theorem chain_val_ne_zero (chain : a = WORKLOADS ∨ a = STATES) : chain_val a val ≠ 0 := by
  by_cases zero : val = 0
  · rcases chain with rfl | rfl
    · rw [zero]
      decide
    · rw [zero]
      decide
  · rw [chain_val,if_neg fun both => zero both.2,if_neg fun both => zero both.2]
    exact zero

-- Everything one vm_write32 can do to memory.
theorem write32_cases (went : vm_write32 fuel m addr val = some m') :
    (addr.setWidth 32 = ROOT ∧ m'.vm = m.vm) ∨ (addr.setWidth 32 = REF ∧ m'.vm = m.vm) ∨
    (addr.setWidth 32 = RSX_PUT ∧ m'.vm = (m.vm.put32 0 val).put32 RSX_PUT val) ∨
    (addr.setWidth 32 ≠ REF ∧ (addr.setWidth 32 = ROOT → val ≠ 0) ∧
      m'.vm = m.vm.put32 (addr.setWidth 32) (chain_val (addr.setWidth 32) val)) := by
  unfold vm_write32 at went
  dsimp only at went
  generalize addr.setWidth 32 = a at went ⊢
  split at went
  · rename_i root
    cases went
    exact .inl ⟨root.1,rfl⟩
  · rename_i root
    obtain ⟨mid,parsed,rfl⟩ := Option.map_eq_some_iff.mp went
    split at parsed
    · rename_i put
      subst put
      obtain ⟨⟨_,rsx⟩,_,rfl⟩ := Option.map_eq_some_iff.mp parsed
      exact .inr (.inr (.inl ⟨rfl,rfl⟩))
    · cases parsed
      by_cases ref : a = REF
      · rw [if_pos ref]
        exact .inr (.inl ⟨ref,rfl⟩)
      · rw [if_neg ref]
        refine .inr (.inr (.inr ⟨ref,fun at' zero => root ⟨at',?_⟩,rfl⟩))
        rw [at',zero]
        rfl

theorem cells_distance : ∀ g ∈ cells, ∀ a ∈ RSX_PUT::0::cells,
    a = g ∨ 4 ≤ (g - a).toNat ∧ (g - a).toNat < 0xFFFFFFFC := by
  simp [cells]

theorem cells_apart (cell : g ∈ cells) (special : a ∈ RSX_PUT::0::cells) (other : a ≠ g) (j : Fin 4) :
    4 ≤ (g + BitVec.ofNat 32 j - a).toNat := by
  obtain ⟨low,high⟩ := (cells_distance g cell a special).resolve_left other
  rw [BitVec.toNat_sub] at low high ⊢
  rw [BitVec.toNat_add,BitVec.toNat_ofNat]
  omega

theorem put32_apart (vm : GuestMem) (v : BitVec 32) (cell : g ∈ cells) (special : a ∈ RSX_PUT::0::cells)
    (other : a ≠ g) (j : Fin 4) : vm.put32 a v (g + BitVec.ofNat 32 j) = vm (g + BitVec.ofNat 32 j) := by
  rw [put32_at,carried_past (cells_apart cell special other j)]
  rfl

theorem write32_missed (went : vm_write32 fuel m addr val = some m') (cell : g ∈ cells)
    (other : addr.setWidth 32 ≠ g) (j : Fin 4) : m'.vm (g + BitVec.ofNat 32 j) =
      (carried (byteAt (k:=4) val) (addr.setWidth 32) (g + BitVec.ofNat 32 j)).getD
        (m.vm (g + BitVec.ofNat 32 j)) := by
  have beside (special : addr.setWidth 32 ∈ RSX_PUT::0::cells) :
      carried (byteAt (k:=4) val) (addr.setWidth 32) (g + BitVec.ofNat 32 j) = none :=
    carried_past (cells_apart cell special other j)
  rcases write32_cases went with ⟨root,same⟩ | ⟨ref,same⟩ | ⟨put,stored⟩ | ⟨_,_,stored⟩
  · rw [same,beside (by rw [root]; decide)]
    rfl
  · rw [same,beside (by rw [ref]; decide)]
    rfl
  · have zero : (0 : BitVec 32) ≠ g := by
      rintro rfl
      exact absurd cell (by decide)
    rw [stored,beside (by rw [put]; decide),put32_apart _ _ cell (by decide) (put ▸ other),
      put32_apart _ _ cell (by decide) zero]
    rfl
  · rw [stored]
    by_cases chain : addr.setWidth 32 = WORKLOADS ∨ addr.setWidth 32 = STATES
    · have special : addr.setWidth 32 ∈ RSX_PUT::0::cells := by
        rcases chain with at' | at'
        · rw [at']
          decide
        · rw [at']
          decide
      rw [beside special,put32_apart _ _ cell special other]
      rfl
    · rw [chain_val_other (not_or.mp chain),put32_at]

theorem write32_hit (went : vm_write32 fuel m addr val = some m') (here : addr.setWidth 32 = g) :
    Guarded g m.vm m'.vm := by
  rcases write32_cases went with ⟨root,same⟩ | ⟨ref,same⟩ | ⟨put,stored⟩ | ⟨ref,root,stored⟩
  · rw [same,← here,root]
    exact ⟨fun chain => absurd chain (by decide),fun _ live => live,fun _ => rfl⟩
  · rw [same,← here,ref]
    exact ⟨fun chain => absurd chain (by decide),fun _ live => live,fun _ => rfl⟩
  · rw [← here,put]
    exact ⟨fun chain => absurd chain (by decide),fun root => absurd root (by decide),fun ref => absurd ref (by decide)⟩
  · have word : m'.vm.be32 g = chain_val g val := by
      rw [stored,← here,be32_put32]
    rw [here] at ref root
    refine ⟨fun chain => ?_,fun at' _ => ?_,fun at' => absurd at' ref⟩
    · rw [word]
      exact chain_val_ne_zero chain
    · rw [word,chain_val_other (by rw [at']; decide)]
      exact root at'
end Word

section Dma
variable {ctx after : SpuCtx} {vm : GuestMem}

theorem copy_carries {c : DmaCopy} (went : c.run ctx = some after) (base : ctx.vm_base = some vm) :
    ∃ memory, after.vm_base = some memory ∧ ∀ a, memory a = (copied ctx.ls c a).getD (vm a) := by
  cases c with
  | lsFromLs dst src size =>
      unfold DmaCopy.run at went
      dsimp only at went
      split at went
      · cases went
        exact ⟨vm,base,fun _ => rfl⟩
      · cases went
  | lsFromVm lsa ea size =>
      unfold DmaCopy.run at went
      dsimp only at went
      split at went
      · obtain ⟨_,_,rfl⟩ := Option.map_eq_some_iff.mp went
        exact ⟨vm,base,fun _ => rfl⟩
      · cases went
  | vmFromLs ea lsa size =>
      unfold DmaCopy.run at went
      dsimp only at went
      split at went
      · rename_i inside
        rw [base] at went
        cases went
        refine ⟨_,rfl,fun a => ?_⟩
        unfold GuestMem.splice copied
        dsimp only
        by_cases reach : ea.toNat ≤ a.toNat ∧ a.toNat < ea.toNat+size.toNat
        · rw [dif_pos reach,dif_pos ⟨inside,reach⟩]
          rfl
        · rw [dif_neg reach,dif_neg fun both => reach both.2]
          rfl
      · cases went

theorem copy_keeps_ls (went : (DmaCopy.vmFromLs ea lsa size).run ctx = some after) : after.ls = ctx.ls := by
  unfold DmaCopy.run at went
  dsimp only at went
  split at went
  · obtain ⟨_,_,rfl⟩ := Option.map_eq_some_iff.mp went
    rfl
  · cases went

theorem mfc_get_shape (ctx : SpuCtx) : mfc_get ctx = [] ∨ ∃ c, mfc_get ctx = [c] := by
  unfold mfc_get
  dsimp only
  split
  · split
    · exact .inr ⟨_,rfl⟩
    · exact .inl rfl
  · split
    · exact .inr ⟨_,rfl⟩
    · exact .inl rfl

theorem mfc_put_shape (ctx : SpuCtx) : mfc_put ctx = [] ∨ (∃ c, mfc_put ctx = [c]) ∨
    ∃ ea lsa size, mfc_put ctx = [.vmFromLs ea lsa size,.vmFromLs ea lsa size] := by
  unfold mfc_put
  dsimp only
  split
  · split
    · exact .inr (.inl ⟨_,rfl⟩)
    · exact .inl rfl
  · split
    · split
      · exact .inr (.inr ⟨_,_,_,rfl⟩)
      · exact .inr (.inl ⟨_,rfl⟩)
    · split
      · exact .inr (.inl ⟨_,rfl⟩)
      · exact .inl rfl

theorem mfc_copies_shape (ctx : SpuCtx) (cmd : BitVec 32) : mfc_copies ctx cmd = [] ∨
    (∃ c, mfc_copies ctx cmd = [c]) ∨
      ∃ ea lsa size, mfc_copies ctx cmd = [.vmFromLs ea lsa size,.vmFromLs ea lsa size] := by
  have get := mfc_get_shape ctx
  have put := mfc_put_shape ctx
  generalize read : mfc_get ctx = gets at get
  generalize written : mfc_put ctx = puts at put
  unfold mfc_copies
  rw [read,written]
  split
  · exact .inl rfl
  · split
    · exact get.imp_right .inl
    · exact get.imp_right .inl
    · exact get.imp_right .inl
    · exact put
    · exact put
    · exact put
    · exact .inl rfl

theorem mfc_left {m m' : Machine} {spu : SpuCtx} {cmd : BitVec 32} (went : mfc_store m spu cmd = some m')
    (a : BitVec 32) : m'.vm a = (GuestStore.mfc spu cmd).left m.vm a := by
  obtain ⟨after,ran,out⟩ := Option.bind_eq_some_iff.mp went
  obtain ⟨vm,base,rfl⟩ := Option.map_eq_some_iff.mp out
  have start : ({spu with vm_base := some m.vm} : SpuCtx).vm_base = some m.vm := rfl
  have same : mfc_copies {spu with vm_base := some fun _ => 0} cmd =
    mfc_copies {spu with vm_base := some m.vm} cmd := rfl
  unfold mfc_execute at ran
  unfold GuestStore.left GuestStore.byte
  dsimp only
  rw [same]
  rcases mfc_copies_shape {spu with vm_base := some m.vm} cmd with none | ⟨c,one⟩ | ⟨ea,lsa,size,twice⟩
  · rw [none] at ran ⊢
    cases ran
    cases base
    rfl
  · rw [one] at ran ⊢
    obtain ⟨mid,first,last⟩ := Option.bind_eq_some_iff.mp ran
    cases last
    obtain ⟨memory,holds,bytes⟩ := copy_carries first start
    cases base.symm.trans holds
    rw [bytes,List.findSome?_cons]
    cases copied spu.ls c a with
    | none => rfl
    | some v => rfl
  · rw [twice] at ran ⊢
    obtain ⟨mid,first,rest⟩ := Option.bind_eq_some_iff.mp ran
    obtain ⟨final,second,last⟩ := Option.bind_eq_some_iff.mp rest
    cases last
    obtain ⟨memory,holds,bytes⟩ := copy_carries first start
    obtain ⟨memory',holds',bytes'⟩ := copy_carries second holds
    cases base.symm.trans holds'
    rw [bytes',copy_keeps_ls first,bytes,List.findSome?_cons,List.findSome?_cons]
    cases copied spu.ls (.vmFromLs ea lsa size) a with
    | none => rfl
    | some v => rfl
end Dma

section Store
variable {fuel : Nat} {m m' : Machine} {s : GuestStore} {g : BitVec 32}

theorem run_missed (went : s.run fuel m = some m') (cell : g ∈ cells) (missed : ¬ s.intercepted g) (j : Fin 4) :
    m'.vm (g + BitVec.ofNat 32 j) = s.left m.vm (g + BitVec.ofNat 32 j) := by
  cases s with
  | write8 addr val =>
      cases went
      exact poke_carried _ _ _ _
  | write16 addr val =>
      cases went
      exact put16_at _ _ _ _
  | write32 addr val => exact write32_missed went cell missed j
  | write64 addr val =>
      obtain ⟨high,low⟩ := not_or.mp missed
      obtain ⟨mid,first,second⟩ := Option.bind_eq_some_iff.mp went
      have next : (addr+4).setWidth 32 = addr.setWidth 32 + 4 := BitVec.setWidth_add _ _ (by decide)
      rw [write32_missed second cell low j,write32_missed first cell high j,next]
      unfold GuestStore.left GuestStore.byte
      dsimp only
      rw [carried_pair]
      cases carried (byteAt (k:=4) (val.setWidth 32)) (addr.setWidth 32 + 4) (g + BitVec.ofNat 32 j) with
      | none => rfl
      | some v => rfl
  | mfc spu cmd => exact mfc_left went _

theorem run_hit (went : s.run fuel m = some m') (cell : g ∈ cells) (hit : s.intercepted g) :
    Guarded g m.vm m'.vm := by
  cases s with
  | write32 addr val => exact write32_hit went hit
  | write64 addr val =>
      obtain ⟨mid,first,second⟩ := Option.bind_eq_some_iff.mp went
      have next : (addr+4).setWidth 32 = addr.setWidth 32 + 4 := BitVec.setWidth_add _ _ (by decide)
      have apart : addr.setWidth 32 + 4 ≠ addr.setWidth 32 := by
        intro same
        have zero : (4 : BitVec 32) = 0 := BitVec.add_right_eq_self.mp same
        cases zero
      by_cases here : addr.setWidth 32 = g
      · have kept : m'.vm.be32 g = mid.vm.be32 g := by
          refine be32_congr fun j => ?_
          have past : 4 ≤ (g + BitVec.ofNat 32 j - (g + 4)).toNat := by
            rw [BitVec.toNat_sub,BitVec.toNat_add,BitVec.toNat_add,BitVec.toNat_ofNat]
            show 4 ≤ (2^32 - (g.toNat + 4) % 2^32 + (g.toNat + j.val % 2^32) % 2^32) % 2^32
            omega
          rw [write32_missed second cell (by rw [next,← here]; exact apart) j,next,here,carried_past past]
          rfl
        have guarded := write32_hit first here
        rw [Guarded,kept]
        exact guarded
      · have there : (addr+4).setWidth 32 = g := hit.resolve_left here
        have kept : mid.vm.be32 g = m.vm.be32 g := by
          refine be32_congr fun j => ?_
          have past : 4 ≤ (g + BitVec.ofNat 32 j - addr.setWidth 32).toNat := by
            rw [← there,next,BitVec.toNat_sub,BitVec.toNat_add,BitVec.toNat_add,BitVec.toNat_ofNat]
            show 4 ≤ (2^32 - (addr.setWidth 32).toNat +
              (((addr.setWidth 32).toNat + 4) % 2^32 + j.val % 2^32) % 2^32) % 2^32
            omega
          rw [write32_missed first cell here j,carried_past past]
          rfl
        have guarded := write32_hit second there
        rw [Guarded,kept] at guarded
        exact guarded
  | write8 addr val => exact absurd hit id
  | write16 addr val => exact absurd hit id
  | mfc spu cmd => exact absurd hit id

theorem run_beside (went : s.run fuel m = some m') (cell : g ∈ cells) (missed : ¬ s.intercepted g)
    (beside : ∀ j : Fin 4, s.byte (g + BitVec.ofNat 32 j) = none) : m'.vm.be32 g = m.vm.be32 g := by
  refine be32_congr fun j => ?_
  rw [run_missed went cell missed j,GuestStore.left,beside j]
  rfl
end Store

-- main's writes before the game starts.
def main_setup : List GuestStore :=
  [.write32 0x27BBD4 0x27BBD4,.write32 0x27BC3C 0x27BC3C,.write32 0x27BCA4 0x27BCA4,
    .write16 0x700000 0x2083,.write16 0x700004 2,.write32 0x700010 0x700043,.write32 0x700044 0x700100,
    .write32 0x28B050 2,
    .write32 0x27F81C 0x70A000,.write32 0x70A000 0x70A010,.write32 0x70A018 0x70A020,
    .write32 0x70A020 0x379BC,.write32 0x70A024 0x16A0F8,
    .write32 0x27F814 0x70B000,.write32 0x70B148 0x70B200,.write32 0x70B20C 1,.write8 0x28B090 1,
    .write32 0x162158 0x70E000,.write32 0x70E000 0xD0100000,.write32 0x70E004 0xD0100000,
    .write32 0x70E008 0xD0100000,.write32 0x70E00C 0xD0100000,.write32 0x70E010 0xD01FFFFC,
    .write32 0x70E018 0x200000,.write32 0x70E01C 1]

structure Stored where
  before : Machine
  store : GuestStore
  after : Machine

def store_run (fuel : Nat) : Machine → List GuestStore → Option (List Stored)
  | _,[] => some []
  | m,s::stores => (s.run fuel m).bind fun m' => (store_run fuel m' stores).map (⟨m,s,m'⟩::·)

structure Stored.Kept (t : Stored) : Prop where
  workloads : vm_read32 t.after.vm 0x27F81C ≠ 0
  states : vm_read32 t.after.vm 0x27F814 ≠ 0
  root : vm_read32 t.before.vm 0x279B08 ≠ 0 → vm_read32 t.after.vm 0x279B08 ≠ 0
  ref : vm_read32 t.after.vm 4 = 0

-- A store that comes to a cell past the guards leaves a nonzero byte in a pointer and only
-- zeros in REF.
structure Stored.Harmless (t : Stored) : Prop where
  pointers : ∀ g, g = WORKLOADS ∨ g = STATES ∨ g = ROOT ∧ vm_read32 t.before.vm 0x279B08 ≠ 0 →
    ¬ t.store.intercepted g → ∃ j : Fin 4, t.store.left t.before.vm (g + BitVec.ofNat 32 j) ≠ 0
  zeros : ¬ t.store.intercepted REF → ∀ j : Fin 4, t.store.left t.before.vm (REF + BitVec.ofNat 32 j) = 0

section Run
variable {fuel : Nat} {m m' : Machine} {s : GuestStore} {g : BitVec 32}

theorem missed_zero (went : s.run fuel m = some m') (cell : g ∈ cells) (missed : ¬ s.intercepted g) :
    m'.vm.be32 g = 0 ↔ ∀ j : Fin 4, s.left m.vm (g + BitVec.ofNat 32 j) = 0 := by
  rw [be32_zero]
  exact forall_congr' fun j => by rw [run_missed went cell missed j]

theorem cell_words (vm : GuestMem) : vm_read32 vm 0x27F81C = vm.be32 WORKLOADS ∧
    vm_read32 vm 0x27F814 = vm.be32 STATES ∧ vm_read32 vm 0x279B08 = vm.be32 ROOT ∧ vm_read32 vm 4 = vm.be32 REF :=
  ⟨vm_read32_eq vm _,vm_read32_eq vm _,vm_read32_eq vm _,vm_read32_eq vm _⟩

theorem pointer_missed (went : s.run fuel m = some m') (cell : g ∈ cells) (missed : ¬ s.intercepted g) :
    m'.vm.be32 g ≠ 0 ↔ ∃ j : Fin 4, s.left m.vm (g + BitVec.ofNat 32 j) ≠ 0 := by
  rw [ne_eq,missed_zero went cell missed,not_forall]

theorem kept_iff_harmless (went : s.run fuel m = some m') (ref : vm_read32 m.vm 4 = 0) :
    Stored.Kept ⟨m,s,m'⟩ ↔ Stored.Harmless ⟨m,s,m'⟩ := by
  obtain ⟨_,_,root,low⟩ := cell_words m.vm
  obtain ⟨workloads',states',root',low'⟩ := cell_words m'.vm
  constructor
  · intro kept
    refine ⟨?_,fun missed => (missed_zero went (by simp [cells]) missed).mp (low' ▸ kept.ref)⟩
    rintro g (rfl | rfl | ⟨rfl,live⟩) missed
    · exact (pointer_missed went (by simp [cells]) missed).mp (workloads' ▸ kept.workloads)
    · exact (pointer_missed went (by simp [cells]) missed).mp (states' ▸ kept.states)
    · exact (pointer_missed went (by simp [cells]) missed).mp (root' ▸ kept.root live)
  · intro harmless
    refine ⟨?_,?_,fun live => ?_,?_⟩
    · show vm_read32 m'.vm 0x27F81C ≠ 0
      rw [workloads']
      by_cases hit : s.intercepted WORKLOADS
      · exact (run_hit went (by simp [cells]) hit).1 (.inl rfl)
      · exact (pointer_missed went (by simp [cells]) hit).mpr (harmless.pointers _ (.inl rfl) hit)
    · show vm_read32 m'.vm 0x27F814 ≠ 0
      rw [states']
      by_cases hit : s.intercepted STATES
      · exact (run_hit went (by simp [cells]) hit).1 (.inr rfl)
      · exact (pointer_missed went (by simp [cells]) hit).mpr (harmless.pointers _ (.inr (.inl rfl)) hit)
    · show vm_read32 m'.vm 0x279B08 ≠ 0
      rw [root']
      by_cases hit : s.intercepted ROOT
      · exact (run_hit went (by simp [cells]) hit).2.1 rfl (root ▸ live)
      · exact (pointer_missed went (by simp [cells]) hit).mpr (harmless.pointers _ (.inr (.inr ⟨rfl,live⟩)) hit)
    · show vm_read32 m'.vm 4 = 0
      rw [low']
      by_cases hit : s.intercepted REF
      · exact ((run_hit went (by simp [cells]) hit).2.2 rfl).trans (low ▸ ref)
      · exact (missed_zero went (by simp [cells]) hit).mpr (harmless.zeros hit)

theorem run_kept_iff {stores : List GuestStore} (ran : store_run fuel m stores = some trace)
    (ref : vm_read32 m.vm 4 = 0) : (∀ t ∈ trace, t.Kept) ↔ ∀ t ∈ trace, t.Harmless := by
  induction stores generalizing m trace with
  | nil =>
      cases ran
      exact ⟨fun _ => List.forall_mem_nil _,fun _ => List.forall_mem_nil _⟩
  | cons s stores ih =>
      obtain ⟨m',went,rest⟩ := Option.bind_eq_some_iff.mp ran
      obtain ⟨later,next,rfl⟩ := Option.map_eq_some_iff.mp rest
      have here := kept_iff_harmless went ref
      have onwards (kept : Stored.Kept ⟨m,s,m'⟩) := ih next kept.ref
      rw [List.forall_mem_cons,List.forall_mem_cons]
      constructor
      · rintro ⟨kept,rest⟩
        exact ⟨here.mp kept,(onwards kept).mp rest⟩
      · rintro ⟨harmless,rest⟩
        exact ⟨here.mpr harmless,(onwards (here.mpr harmless)).mpr rest⟩

theorem beside_all {stores : List GuestStore} (ran : stores.foldlM (GuestStore.run fuel) m = some m')
    (cell : g ∈ cells) (beside : ∀ s ∈ stores, ¬ s.intercepted g ∧ ∀ j : Fin 4, s.byte (g + BitVec.ofNat 32 j) = none) :
    m'.vm.be32 g = m.vm.be32 g := by
  induction stores generalizing m with
  | nil =>
      cases ran
      rfl
  | cons s stores ih =>
      obtain ⟨mid,went,rest⟩ := Option.bind_eq_some_iff.mp (List.foldlM_cons.symm.trans ran)
      rw [List.forall_mem_cons] at beside
      exact (ih rest beside.2).trans (run_beside went cell beside.1.1 beside.1.2)

def GuestStore.span : GuestStore → Option (BitVec 32 × Nat)
  | .write8 addr _ => some (addr.setWidth 32,1)
  | .write16 addr _ => some (addr.setWidth 32,2)
  | .write32 addr _ => some (addr.setWidth 32,4)
  | .write64 addr _ => some (addr.setWidth 32,8)
  | .mfc _ _ => none

def GuestStore.apart (s : GuestStore) (g : BitVec 32) : Bool :=
  s.span.any fun (a,size) => size ≤ (g - a).toNat ∧ 4 ≤ (a - g).toNat

theorem apart_beside (apart : s.apart g = true) :
    ¬ s.intercepted g ∧ ∀ j : Fin 4, s.byte (g + BitVec.ofNat 32 j) = none := by
  have moved (a : BitVec 32) (size : Nat) (far : size ≤ (g - a).toNat ∧ 4 ≤ (a - g).toNat) (j : Fin 4) :
      size ≤ (g + BitVec.ofNat 32 j - a).toNat := by
    rw [BitVec.toNat_sub,BitVec.toNat_sub] at far
    rw [BitVec.toNat_sub,BitVec.toNat_add,BitVec.toNat_ofNat]
    omega
  have elsewhere (a : BitVec 32) (positive : 0 < (g - a).toNat) : a ≠ g := by
    rintro rfl
    exact absurd (offset_zero.mp rfl) positive.ne'
  unfold GuestStore.apart GuestStore.span at apart
  cases s with
  | write8 addr val =>
      have far := of_decide_eq_true apart
      exact ⟨id,fun j => carried_past (moved _ 1 far j)⟩
  | write16 addr val =>
      have far := of_decide_eq_true apart
      exact ⟨id,fun j => carried_past (moved _ 2 far j)⟩
  | write32 addr val =>
      have far := of_decide_eq_true apart
      exact ⟨elsewhere _ (by omega),fun j => carried_past (moved _ 4 far j)⟩
  | write64 addr val =>
      have far := of_decide_eq_true apart
      have next : (addr+4).setWidth 32 = addr.setWidth 32 + 4 := BitVec.setWidth_add _ _ (by decide)
      refine ⟨?_,fun j => carried_past (moved _ 8 far j)⟩
      rintro (here | there)
      · exact elsewhere _ (by omega) here
      · rw [← there,next,BitVec.add_comm,BitVec.add_sub_cancel] at far
        exact absurd far.1 (by decide)
  | mfc spu cmd => cases apart

theorem quiet_stores {stores : List GuestStore} (ran : stores.foldlM (GuestStore.run fuel) m = some m')
    (cell : g ∈ cells) (apart : stores.all (·.apart g) = true) : m'.vm.be32 g = m.vm.be32 g :=
  beside_all ran cell fun s member => apart_beside (List.all_eq_true.mp apart s member)

theorem chain_set {addr : BitVec 64} {val : BitVec 32} {after : List GuestStore} (before : List GuestStore)
    (ran : (before ++ .write32 addr val::after).foldlM (GuestStore.run fuel) m = some m')
    (here : addr.setWidth 32 = g) (chain : g = WORKLOADS ∨ g = STATES) (live : val ≠ 0)
    (apart : after.all (·.apart g) = true) : m'.vm.be32 g = val := by
  have cell : g ∈ cells := by
    rcases chain with rfl | rfl
    · simp [cells]
    · simp [cells]
  rw [List.foldlM_append] at ran
  obtain ⟨one,_,rest⟩ := Option.bind_eq_some_iff.mp ran
  obtain ⟨two,went,last⟩ := Option.bind_eq_some_iff.mp (List.foldlM_cons.symm.trans rest)
  rw [quiet_stores last cell apart]
  have same : chain_val g val = val := by
    rw [chain_val,if_neg fun both => live both.2,if_neg fun both => live both.2]
  have pair : g ≠ ROOT ∧ g ≠ REF ∧ g ≠ RSX_PUT := by
    rcases chain with rfl | rfl
    · decide
    · decide
  rcases write32_cases went with ⟨root,_⟩ | ⟨ref,_⟩ | ⟨put,_⟩ | ⟨_,_,stored⟩
  · exact absurd (here.symm.trans root) pair.1
  · exact absurd (here.symm.trans ref) pair.2.1
  · exact absurd (here.symm.trans put) pair.2.2
  · rw [stored,here,be32_put32,same]

theorem setup_apart : (main_setup.drop 9).all (·.apart WORKLOADS) = true ∧
    (main_setup.drop 14).all (·.apart STATES) = true ∧ main_setup.all (·.apart REF) = true := by decide +kernel

theorem setup_cells {loaded : Machine} (ran : main_setup.foldlM (GuestStore.run fuel) loaded = some m)
    (ref : vm_read32 loaded.vm 4 = 0) :
    vm_read32 m.vm 0x27F81C = 0x70A000 ∧ vm_read32 m.vm 0x27F814 = 0x70B000 ∧ vm_read32 m.vm 4 = 0 := by
  obtain ⟨workloads,states,low⟩ := setup_apart
  simp only [vm_read32_eq] at ref ⊢
  refine ⟨?_,?_,?_⟩
  · have split : main_setup = main_setup.take 8 ++ .write32 0x27F81C 0x70A000::main_setup.drop 9 := rfl
    rw [split] at ran
    exact chain_set _ ran rfl (.inl rfl) (by decide) workloads
  · have split : main_setup = main_setup.take 13 ++ .write32 0x27F814 0x70B000::main_setup.drop 14 := rfl
    rw [split] at ran
    exact chain_set _ ran rfl (.inr rfl) (by decide) states
  · exact (quiet_stores ran (by simp [cells]) low).trans ref
end Run

-- After main's writes and any stores the pointers stay nonzero and REF stays 0 exactly when
-- every store that comes past the guards is harmless.
theorem guarded_cells_kept_iff (fuel : Nat) (loaded m : Machine) (stores : List GuestStore) (trace : List Stored)
    (ref : vm_read32 loaded.vm 4 = 0) (setup : main_setup.foldlM (GuestStore.run fuel) loaded = some m)
    (ran : store_run fuel m stores = some trace) :
    (vm_read32 m.vm 0x27F81C ≠ 0 ∧ vm_read32 m.vm 0x27F814 ≠ 0 ∧ vm_read32 m.vm 4 = 0) ∧
      ((∀ t ∈ trace, t.Kept) ↔ ∀ t ∈ trace, t.Harmless) := by
  obtain ⟨workloads,states,low⟩ := setup_cells setup ref
  refine ⟨⟨?_,?_,low⟩,run_kept_iff ran low⟩
  · rw [workloads]
    decide
  · rw [states]
    decide

def zeroed : Machine := ⟨fun _ => 0,rsx_init⟩

def guardedStores : List GuestStore := [.write32 0x27F81C 0,.write64 0x27F814 0x1122334400000000]

theorem guarded_cells_kept_iff_guarded : ∃ m trace, main_setup.foldlM (GuestStore.run 0) zeroed = some m ∧
    store_run 0 m guardedStores = some trace ∧ ((∀ t ∈ trace, t.Kept) ↔ ∀ t ∈ trace, t.Harmless) := by
  have runs : ((main_setup.foldlM (GuestStore.run 0) zeroed).bind (store_run 0 · guardedStores)).isSome = true := by
    decide +kernel
  obtain ⟨trace,went⟩ := Option.isSome_iff_exists.mp runs
  obtain ⟨m,setup,ran⟩ := Option.bind_eq_some_iff.mp went
  exact ⟨m,trace,setup,ran,(guarded_cells_kept_iff 0 zeroed m guardedStores trace rfl setup ran).2⟩

-- The two middle bytes of 0x0070A000 zeroed one at a time.
theorem byte_stores_clear_workloads : ¬ ∀ fuel loaded m stores trace, vm_read32 loaded.vm 4 = 0 →
    main_setup.foldlM (GuestStore.run fuel) loaded = some m → store_run fuel m stores = some trace →
    ∀ t ∈ trace, t.Kept := by
  intro claim
  have runs : (main_setup.foldlM (GuestStore.run 0) zeroed).isSome = true := by decide +kernel
  obtain ⟨m,setup⟩ := Option.isSome_iff_exists.mp runs
  have workloads := (setup_cells setup rfl).1
  rw [vm_read32_eq] at workloads
  let first : GuestStore := .write8 0x27F81D 0
  let second : GuestStore := .write8 0x27F81E 0
  have ran : store_run 0 m [first,second] = some
      [⟨m,first,vm_write8 m 0x27F81D 0⟩,
        ⟨vm_write8 m 0x27F81D 0,second,vm_write8 (vm_write8 m 0x27F81D 0) 0x27F81E 0⟩] := rfl
  have kept := (claim 0 zeroed m _ _ rfl setup ran _ (List.mem_cons_of_mem _ List.mem_cons_self)).workloads
  rw [vm_read32_eq,ne_eq,be32_zero] at kept
  apply kept
  intro j
  have old := byteAt_be32 m.vm WORKLOADS j
  rw [show m.vm.be32 WORKLOADS = 0x70A000 from workloads] at old
  show ((m.vm.poke 0x27F81D 0).poke 0x27F81E 0) (WORKLOADS + BitVec.ofNat 32 j) = 0
  rw [poke_at,poke_at]
  match j with
  | 0 => exact old.symm
  | 1 => rfl
  | 2 => rfl
  | 3 => exact old.symm

end BudokaiRuntime.Guest
