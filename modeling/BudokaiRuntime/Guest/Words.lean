import BudokaiRuntime.Guest.GuardedCells

-- Words and doublewords of guest memory, and the stores that leave them alone.
namespace BudokaiRuntime.Guest
open ByteLanes Rsx PartialLoop

def Clear (a : BitVec 32) (n : Nat) (b : BitVec 32) (k : Nat) : Prop := n ≤ (b - a).toNat ∧ k ≤ (a - b).toNat

instance clear_decidable (a b : BitVec 32) (n k : Nat) : Decidable (Clear a n b k) :=
  inferInstanceAs (Decidable (n ≤ (b - a).toNat ∧ k ≤ (a - b).toNat))

def GuestMem.put64 (vm : GuestMem) (a : BitVec 32) (val : BitVec 64) : GuestMem :=
  (vm.put32 a ((val >>> 32).setWidth 32)).put32 (a+4) (val.setWidth 32)

def GuestMem.be64 (vm : GuestMem) (a : BitVec 32) : BitVec 64 :=
  (vm.be32 a).setWidth 64 <<< 32 ||| (vm.be32 (a+4)).setWidth 64

section Reads
variable {vm one two : GuestMem} {a b : BitVec 32}

theorem four_toNat : (4 : BitVec 32).toNat = 4 := rfl

theorem next_word (addr : BitVec 64) : (addr+4).setWidth 32 = addr.setWidth 32 + 4 :=
  BitVec.setWidth_add addr 4 (by decide)

theorem vm_read64_eq (vm : GuestMem) (addr : BitVec 64) : vm_read64 vm addr = vm.be64 (addr.setWidth 32) := by
  rw [vm_read64,vm_read32_eq,vm_read32_eq,next_word]
  rfl

theorem clear_byte (clear : Clear a n b k) (j : Nat) (inside : j < k) : n ≤ (b + BitVec.ofNat 32 j - a).toNat := by
  obtain ⟨after,before⟩ := clear
  have bound := (a - b).isLt
  rw [BitVec.toNat_sub] at after before bound ⊢
  rw [BitVec.toNat_add,BitVec.toNat_ofNat]
  omega

theorem Clear.symm (clear : Clear a n b k) : Clear b k a n := ⟨clear.2,clear.1⟩

theorem Clear.high (clear : Clear a n b 8) : Clear a n b 4 := ⟨clear.1,Nat.le_trans (by decide) clear.2⟩

theorem Clear.low (clear : Clear a n b 8) : Clear a n (b+4) 4 := by
  obtain ⟨after,before⟩ := clear
  have bound := (a - b).isLt
  constructor
  · rw [BitVec.toNat_sub] at after before bound ⊢
    rw [BitVec.toNat_add,four_toNat]
    omega
  · rw [BitVec.toNat_sub] at after before bound ⊢
    rw [BitVec.toNat_add,four_toNat]
    omega

theorem be64_same (same : ∀ j < 8, one (a + BitVec.ofNat 32 j) = two (a + BitVec.ofNat 32 j)) :
    one.be64 a = two.be64 a := by
  have high : one.be32 a = two.be32 a := be32_congr fun j => same j.val (by omega)
  have low : one.be32 (a+4) = two.be32 (a+4) := be32_congr fun j => by
    have place : a + 4 + BitVec.ofNat 32 j.val = a + BitVec.ofNat 32 (4+j.val) := by
      rw [BitVec.add_assoc,BitVec.ofNat_add]
      rfl
    rw [place]
    exact same _ (by omega)
  rw [GuestMem.be64,GuestMem.be64,high,low]

theorem doubleword_halves (val : BitVec 64) :
    ((val >>> 32).setWidth 32).setWidth 64 <<< 32 ||| (val.setWidth 32).setWidth 64 = val := by
  apply BitVec.eq_of_getLsbD_eq
  intro i bound
  by_cases low : i < 32
  · simp [low,bound]
  · have back : 32+(i-32) = i := by omega
    simp [low,bound,back,show i - 32 < 32 by omega,show i - 32 < 64 by omega]
end Reads

section Writes
variable {vm : GuestMem} {m m' : Machine} {addr : BitVec 64} {a b val : BitVec 32}

theorem put32_beside (past : 4 ≤ (b - a).toNat) : vm.put32 a val b = vm b := by
  rw [put32_at,carried_past past]
  rfl

theorem be32_put32_clear (clear : Clear a 4 b 4) : (vm.put32 a val).be32 b = vm.be32 b :=
  be32_congr fun j => put32_beside (clear_byte clear j.val j.isLt)

theorem put64_beside {val : BitVec 64} (past : 8 ≤ (b - a).toNat) : vm.put64 a val b = vm b := by
  have second : 4 ≤ (b - (a+4)).toNat := by
    rw [BitVec.toNat_sub] at past ⊢
    rw [BitVec.toNat_add,four_toNat]
    omega
  rw [GuestMem.put64,put32_beside second,put32_beside (Nat.le_trans (by decide) past)]

theorem be64_put64_clear {val : BitVec 64} (clear : Clear a 8 b 8) : (vm.put64 a val).be64 b = vm.be64 b :=
  be64_same fun j inside => put64_beside (clear_byte clear j inside)

theorem be64_put64 (val : BitVec 64) : (vm.put64 a val).be64 a = val := by
  have apart : Clear (a+4) 4 a 4 := by
    constructor
    · rw [BitVec.toNat_sub,BitVec.toNat_add,four_toNat]
      omega
    · rw [BitVec.add_comm,BitVec.add_sub_cancel]
      decide
  rw [GuestMem.be64,GuestMem.put64,be32_put32,be32_put32_clear apart,be32_put32]
  exact doubleword_halves val

-- Ordinary memory: none of the cells that vm_write32 looks for.
theorem write32_plain (plain : addr.setWidth 32 ∉ RSX_PUT::cells) :
    vm_write32 fuel m addr val = some {m with vm := m.vm.put32 (addr.setWidth 32) val} := by
  simp only [cells,List.mem_cons,not_or] at plain
  obtain ⟨put,workloads,states,root,ref,_⟩ := plain
  simp only [vm_write32,chain_val_other ⟨workloads,states⟩,root,put,ref,false_and,if_false,Option.map_some]

theorem write64_plain {val : BitVec 64} (high : addr.setWidth 32 ∉ RSX_PUT::cells)
    (low : addr.setWidth 32 + 4 ∉ RSX_PUT::cells) :
    vm_write64 fuel m addr val = some {m with vm := m.vm.put64 (addr.setWidth 32) val} := by
  rw [← next_word] at low
  rw [vm_write64,write32_plain high,Option.bind_some,write32_plain low,next_word]
  rfl

theorem write32_beside (went : vm_write32 fuel m addr val = some m') (past : 4 ≤ (b - addr.setWidth 32).toNat)
    (get : 4 ≤ b.toNat) : m'.vm b = m.vm b := by
  rcases write32_cases went with ⟨_,same⟩ | ⟨_,same⟩ | ⟨put,stored⟩ | ⟨_,_,stored⟩
  · rw [same]
  · rw [same]
  · rw [put] at past
    have zero : b - 0 = b := BitVec.sub_zero b
    rw [stored,put32_beside past,put32_beside (by rwa [zero])]
  · rw [stored,put32_beside past]

theorem process_more (done : rsx_process_fifo n vm rsx put_val = some result) (more : n ≤ k) :
    rsx_process_fifo k vm rsx put_val = some result := by
  unfold rsx_process_fifo at done ⊢
  dsimp only at done ⊢
  split at done
  · rename_i behind
    rw [if_pos behind]
    exact done
  · rename_i ahead
    obtain ⟨s,looped,rfl⟩ := Option.map_eq_some_iff.mp done
    rw [if_neg ahead,loop_more looped more]
    rfl

theorem write32_more (went : vm_write32 n m addr val = some m') (more : n ≤ k) :
    vm_write32 k m addr val = some m' := by
  unfold vm_write32 at went ⊢
  dsimp only at went ⊢
  split at went
  · rename_i root
    rw [if_pos root]
    exact went
  · rename_i root
    obtain ⟨mid,parsed,rfl⟩ := Option.map_eq_some_iff.mp went
    rw [if_neg root]
    refine Option.map_eq_some_iff.mpr ⟨mid,?_,rfl⟩
    split at parsed
    · rename_i put
      obtain ⟨result,processed,rfl⟩ := Option.map_eq_some_iff.mp parsed
      rw [if_pos put]
      exact Option.map_eq_some_iff.mpr ⟨result,process_more processed more,rfl⟩
    · rename_i put
      rw [if_neg put]
      exact parsed

theorem write64_more {val : BitVec 64} (went : vm_write64 n m addr val = some m') (more : n ≤ k) :
    vm_write64 k m addr val = some m' := by
  obtain ⟨mid,high,low⟩ := Option.bind_eq_some_iff.mp went
  exact Option.bind_eq_some_iff.mpr ⟨mid,write32_more high more,write32_more low more⟩
end Writes

end BudokaiRuntime.Guest
