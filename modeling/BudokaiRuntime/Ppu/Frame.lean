import BudokaiRuntime.Ppu.Functions

-- What a hand-lifted function keeps of its caller's registers, statement by statement.
namespace BudokaiRuntime.Ppu
open Guest Programs Rsx

-- Above main memory, a thread stack or the main stack.
def StackArea (sp : BitVec 64) : Prop :=
  (0x10110000 ≤ (low32 sp).toNat ∧ (low32 sp).toNat < 0xCFFF0000) ∨
    (0xD0000000 ≤ (low32 sp).toNat ∧ (low32 sp).toNat ≤ 0xDFFFFE00)

-- What the calling convention asks of a callee entered with stack pointer `sp`, where the
-- caller's frame takes `size` bytes: the header of the frame is the callee's to write.
def Preserves {ω : Type} (env : Env ω) (sp : BitVec 64) (size : Nat) : Prop :=
  ∀ f ctx mem world ctx' mem' world', ctx.gpr 1 = sp → env f (ctx,mem,world) = some (ctx',mem',world') →
    ctx'.gpr 1 = sp ∧ (∀ r, 14 ≤ r → ctx'.gpr r = ctx.gpr r) ∧
      ∀ j, 0x28 ≤ j → j < size → mem'.vm (low32 sp + BitVec.ofNat 32 j) = mem.vm (low32 sp + BitVec.ofNat 32 j)

-- What is known of a state inside the frame: registers with constant values, the callee-saved
-- registers with the offsets of their slots, all the slots of the function, and whether
-- it may store through pointers it has loaded.
structure Facts where
  known : List (Fin 32 × BitVec 64)
  saved : List (Fin 32 × BitVec 32)
  slots : List (BitVec 32)
  wild : Bool
  deriving DecidableEq

def Facts.look (φ : Facts) (r : Fin 32) : Option (BitVec 64) := (φ.known.find? (·.1 = r)).map Prod.snd

def Facts.put (φ : Facts) (rd : Fin 32) (v : Option (BitVec 64)) : Option Facts :=
  if rd ≠ 1 ∧ (rd < 14 ∨ rd ∈ φ.saved.map Prod.fst) then
    some {φ with known := (v.map (rd,·)).toList ++ φ.known.filter (·.1 ≠ rd)}
  else none

-- A store at a constant address has to stay in main memory.
def Facts.store (φ : Facts) (ra : Fin 32) (d : BitVec 64) : Option Facts :=
  match φ.look ra with
  | some k => if (low32 (k+d)).toNat < 0x10010000 then some φ else none
  | none => if φ.wild then some φ else none

def Facts.store_frame (φ : Facts) (rs : Fin 32) (o : BitVec 32) : Option Facts :=
  if o.toNat + 8 ≤ 0xC0 ∧ φ.saved.all (fun p => Clear o 8 p.2 8) then
    if rs < 14 ∨ rs ∈ φ.saved.map Prod.fst then some φ
    else if o ∈ φ.slots then some {φ with saved := (rs,o)::φ.saved} else none
  else none

def Facts.step (φ : Facts) : Insn → Option Facts
  | .li rd imm => φ.put rd (some (sext32 imm))
  | .lis rd imm => φ.put rd (some (sext32 (imm <<< 16)))
  | .addi rd ra imm => φ.put rd ((φ.look ra).map fun k => sext32 (k+imm))
  | .ori rd _ _ | .mr rd _ | .clrldi rd _ | .add rd _ _ | .mflr rd | .lbz rd _ _ | .lwz rd _ _ | .lwarx rd _ _ =>
      φ.put rd none
  | .mtlr _ | .mtctr _ | .cmpwi _ _ _ | .cmpw _ _ _ => some φ
  | .ld rd ra d =>
      if ra = 1 ∧ (rd,low32 d) ∈ φ.saved then
        (φ.put rd none).map fun φ => {φ with saved := φ.saved.filter (·.1 ≠ rd)}
      else φ.put rd none
  | .stb _ ra d | .stw _ ra d => φ.store ra d
  | .std rs ra d => if ra = 1 then φ.store_frame rs (low32 d) else none
  | .stdu _ => none
  | .stwcx _ _ _ => if φ.wild then some φ else none
  | .call _ => some {φ with known := φ.known.filter (14 ≤ ·.1)}

def Facts.check (φ : Facts) (code : List Insn) : Option Facts := code.foldlM Facts.step φ

def Missed (base : BitVec 32) (slots stored : List (BitVec 32)) : Prop :=
  ∀ a ∈ stored, ∀ o ∈ slots, Clear a 4 (base+o) 8

structure Holds {ω : Type} (entry : PpuCtx) (sp : BitVec 64) (φ : Facts) (s : PpuState ω) : Prop where
  pointer : s.gpr 1 = sp
  known : ∀ p ∈ φ.known, s.gpr p.1 = p.2
  missed : φ.wild = false → Missed (low32 sp) φ.slots s.stored
  within : ∀ p ∈ φ.saved, p.2 ∈ φ.slots
  kept : Missed (low32 sp) φ.slots s.stored → ∀ r, 14 ≤ r → r ∉ φ.saved.map Prod.fst → s.gpr r = entry.gpr r
  slots : Missed (low32 sp) φ.slots s.stored → ∀ p ∈ φ.saved, s.mem.vm.be64 (low32 sp + p.2) = entry.gpr p.1

def Room (sp : BitVec 64) : Prop := 0x10100000 ≤ (low32 sp).toNat ∧ (low32 sp).toNat ≤ 0xE0000000

section Statements
variable {ω : Type} {env : Env ω} {fuel : Nat} {entry : PpuCtx} {sp : BitVec 64} {φ φ' : Facts} {s s' : PpuState ω}

theorem cells_low : ∀ c ∈ RSX_PUT::cells, c.toNat < 0x300000 := by
  simp [cells]

theorem offset_toNat (room : Room sp) {o : BitVec 32} (small : o.toNat ≤ 0xC4) :
    (low32 sp + o).toNat = (low32 sp).toNat + o.toNat := by
  obtain ⟨_,high⟩ := room
  rw [BitVec.toNat_add]
  omega

theorem frame_plain (room : Room sp) {o : BitVec 32} (small : o.toNat ≤ 0xC4) : low32 sp + o ∉ RSX_PUT::cells := by
  intro cell
  have low := cells_low _ cell
  rw [offset_toNat room small] at low
  have above := room.1
  omega

theorem store_plain (fuel : Nat) (m : Machine) (d v : BitVec 64) (high : low32 sp + low32 d ∉ RSX_PUT::cells)
    (low : low32 sp + (low32 d + 4) ∉ RSX_PUT::cells) :
    vm_write64 fuel m (sp + d) v = some {m with vm := m.vm.put64 (low32 sp + low32 d) v} := by
  have place : (sp + d).setWidth 32 = low32 sp + low32 d := low32_add sp d
  rw [← place] at high
  rw [← BitVec.add_assoc,← place] at low
  rw [write64_plain high low,place]

theorem store_origin {m left : Machine} (wrote : vm_write64 fuel m (sp + 0) v = some left) :
    vm_write64 fuel m sp v = some left := by
  have place : sp + 0 = sp := BitVec.add_zero sp
  rwa [place] at wrote

theorem room_store (room : Room sp) (fuel : Nat) (m : Machine) (d v : BitVec 64) (small : (low32 d).toNat + 8 ≤ 0xC8) :
    vm_write64 fuel m (sp + d) v = some {m with vm := m.vm.put64 (low32 sp + low32 d) v} := by
  refine store_plain fuel m d v (frame_plain room (by omega)) (frame_plain room ?_)
  rw [BitVec.toNat_add,four_toNat]
  omega

theorem room_open (room : Room sp) (fuel : Nat) (m : Machine) (v : BitVec 64) :
    vm_write64 fuel m sp v = some {m with vm := m.vm.put64 (low32 sp) v} := by
  have place : low32 sp + low32 0 = low32 sp := BitVec.add_zero _
  rw [store_origin (room_store room fuel m 0 v (by decide)),place]

theorem clear_offset (base a b : BitVec 32) : Clear (base+a) n (base+b) k ↔ Clear a n b k := by
  have shift (x y : BitVec 32) : base + x - (base + y) = x - y := by
    rw [BitVec.add_comm base x,BitVec.add_comm base y,BitVec.sub_eq_add_neg,BitVec.neg_add]
    rw [BitVec.sub_eq_add_neg (x:=-y),BitVec.add_assoc,← BitVec.add_assoc base,BitVec.add_comm base,
      BitVec.add_assoc (-y),BitVec.add_right_neg,BitVec.add_zero,← BitVec.sub_eq_add_neg]
  rw [Clear,shift,shift,Clear]

theorem look_known (holds : Holds entry sp φ s) (constant : φ.look r = some k) : s.gpr r = k := by
  obtain ⟨p,found,rfl⟩ := Option.map_eq_some_iff.mp constant
  have value := holds.known p (List.mem_of_find?_eq_some found)
  have register : p.1 = r := of_decide_eq_true (List.find?_some (p:=fun q : Fin 32 × BitVec 64 => decide (q.1 = r)) found)
  rwa [register] at value

theorem holds_set (holds : Holds entry sp φ s) (put : φ.put rd c = some φ') (value : ∀ k, c = some k → v = k) :
    Holds entry sp φ' (s.set rd v) := by
  unfold Facts.put at put
  split at put
  · rename_i free
    cases put
    refine ⟨?_,?_,holds.missed,holds.within,?_,holds.slots⟩
    · rw [gpr_set_other v free.1.symm]
      exact holds.pointer
    · intro p member
      rcases List.mem_append.mp member with new | old
      · obtain ⟨k,constant,rfl⟩ : ∃ k, c = some k ∧ p = (rd,k) := by
          cases c with
          | none => cases new
          | some k => exact ⟨k,rfl,List.mem_singleton.mp new⟩
        rw [gpr_set_same]
        exact value k constant
      · obtain ⟨old,other⟩ := List.mem_filter.mp old
        rw [gpr_set_other v (of_decide_eq_true other)]
        exact holds.known p old
    · intro missed r high unsaved
      have other : r ≠ rd := by
        rintro rfl
        rcases free.2 with low | saved
        · exact absurd high (Fin.not_le.mpr low)
        · exact unsaved saved
      rw [gpr_set_other v other]
      exact holds.kept missed r high unsaved
  · cases put

theorem holds_stored (holds : Holds entry sp φ s) (registers : s'.ctx.gpr = s.ctx.gpr)
    (fewer : ∀ a ∈ s.stored, a ∈ s'.stored)
    (missed : φ.wild = false → Missed (low32 sp) φ.slots s'.stored)
    (memory : Missed (low32 sp) φ.slots s'.stored → ∀ p ∈ φ.saved,
      s'.mem.vm.be64 (low32 sp + p.2) = s.mem.vm.be64 (low32 sp + p.2)) : Holds entry sp φ s' := by
  have same (r : Fin 32) : s'.gpr r = s.gpr r := congrFun registers r
  have before (clear : Missed (low32 sp) φ.slots s'.stored) : Missed (low32 sp) φ.slots s.stored :=
    fun a member => clear a (fewer a member)
  refine ⟨?_,?_,missed,holds.within,?_,?_⟩
  · rw [same]
    exact holds.pointer
  · intro p member
    rw [same]
    exact holds.known p member
  · intro clear r high unsaved
    rw [same]
    exact holds.kept (before clear) r high unsaved
  · intro clear p member
    rw [memory clear p member]
    exact holds.slots (before clear) p member

def SlotsIn (size : Nat) (slots : List (BitVec 32)) : Prop := ∀ o ∈ slots, 0x28 ≤ o.toNat ∧ o.toNat + 8 ≤ size

theorem slot_byte (room : Room sp) (inside : SlotsIn size slots) (bound : size ≤ 0xC0) (member : o ∈ slots)
    (j : Nat) (byte : j < 8) : (low32 sp + o + BitVec.ofNat 32 j).toNat = (low32 sp).toNat + o.toNat + j := by
  have small := (inside o member).2
  rw [BitVec.toNat_add,offset_toNat room (by omega),BitVec.toNat_ofNat]
  have high := room.2
  omega

theorem slot_clear (room : Room sp) (inside : SlotsIn size slots) (bound : size ≤ 0xC0) (member : o ∈ slots)
    (main : a.toNat < 0x10010000) : Clear a 4 (low32 sp + o) 8 := by
  have small := (inside o member).2
  have place := offset_toNat room (o:=o) (by omega)
  obtain ⟨low,high⟩ := room
  constructor
  · rw [BitVec.toNat_sub,place]
    omega
  · rw [BitVec.toNat_sub,place]
    omega

theorem holds_logged (holds : Holds entry sp φ s) (room : Room sp) (inside : SlotsIn size φ.slots)
    (bound : size ≤ 0xC0) (main : φ.wild = false → a.toNat < 0x10010000) (registers : s'.ctx.gpr = s.ctx.gpr)
    (stored : s'.stored = s.stored ++ [a])
    (beside : ∀ b : BitVec 32, 4 ≤ (b - a).toNat → 4 ≤ b.toNat → s'.mem.vm b = s.mem.vm b) :
    Holds entry sp φ s' := by
  refine holds_stored holds registers ?_ ?_ ?_
  · intro b member
    rw [stored]
    exact List.mem_append_left _ member
  · intro tame b member o slot
    rw [stored] at member
    rcases List.mem_append.mp member with old | new
    · exact holds.missed tame b old o slot
    · rw [List.mem_singleton.mp new]
      exact slot_clear room inside bound slot (main tame)
  · intro missed p member
    have slot := holds.within p member
    have clear := missed _ (by rw [stored]; exact List.mem_append_right _ List.mem_cons_self) p.2 slot
    refine be64_same fun j byte => beside _ (clear_byte clear j byte) ?_
    rw [slot_byte room inside bound slot j byte]
    have low := room.1
    omega

theorem holds_unlogged (holds : Holds entry sp φ s) (registers : s'.ctx.gpr = s.ctx.gpr)
    (stored : s'.stored = s.stored)
    (memory : ∀ p ∈ φ.saved, s'.mem.vm.be64 (low32 sp + p.2) = s.mem.vm.be64 (low32 sp + p.2)) :
    Holds entry sp φ s' := by
  refine holds_stored holds registers ?_ ?_ fun _ => memory
  · rw [stored]
    exact fun _ member => member
  · rw [stored]
    exact holds.missed

theorem holds_store (holds : Holds entry sp φ s) (room : Room sp) (inside : SlotsIn size φ.slots)
    (bound : size ≤ 0xC0) (checked : φ.store ra d = some φ') (registers : s'.ctx.gpr = s.ctx.gpr)
    (stored : s'.stored = s.stored ++ [low32 (s.gpr ra + d)])
    (beside : ∀ b : BitVec 32, 4 ≤ (b - low32 (s.gpr ra + d)).toNat → 4 ≤ b.toNat → s'.mem.vm b = s.mem.vm b) :
    Holds entry sp φ' s' := by
  have same : φ' = φ ∧ (φ.wild = false → (low32 (s.gpr ra + d)).toNat < 0x10010000) := by
    unfold Facts.store at checked
    split at checked
    · rename_i k constant
      split at checked
      · rename_i main
        cases checked
        rw [look_known holds constant]
        exact ⟨rfl,fun _ => main⟩
      · cases checked
    · split at checked
      · rename_i wild
        cases checked
        exact ⟨rfl,fun tame => absurd (wild.symm.trans tame) (by decide)⟩
      · cases checked
  obtain ⟨rfl,main⟩ := same
  exact holds_logged holds room inside bound main registers stored beside

theorem holds_call (holds : Holds entry sp φ s) (inside : SlotsIn size φ.slots)
    (callees : Preserves env sp size) (went : env f (s.ctx,s.mem,s.world) = some left) :
    Holds entry sp {φ with known := φ.known.filter (14 ≤ ·.1)} (s.return_from f left) := by
  obtain ⟨ctx,mem,world⟩ := left
  obtain ⟨pointer,registers,memory⟩ := callees f s.ctx s.mem s.world ctx mem world holds.pointer went
  refine ⟨pointer,?_,holds.missed,holds.within,?_,?_⟩
  · intro p member
    obtain ⟨member,high⟩ := List.mem_filter.mp member
    exact (registers p.1 (of_decide_eq_true high)).trans (holds.known p member)
  · intro missed r high unsaved
    exact (registers r high).trans (holds.kept missed r high unsaved)
  · intro missed p member
    obtain ⟨first,last⟩ := inside p.2 (holds.within p member)
    rw [← holds.slots missed p member]
    refine be64_same fun j byte => ?_
    have place : low32 sp + p.2 + BitVec.ofNat 32 j = low32 sp + BitVec.ofNat 32 (p.2.toNat + j) := by
      rw [BitVec.add_assoc,BitVec.ofNat_add,BitVec.ofNat_toNat,BitVec.setWidth_eq]
    rw [place]
    exact memory _ (by omega) (by omega)

theorem holds_std (holds : Holds entry sp φ s) (checked : φ.store_frame rs o = some φ')
    (registers : s'.ctx.gpr = s.ctx.gpr) (stored : s'.stored = s.stored)
    (memory : s'.mem.vm = s.mem.vm.put64 (low32 sp + o) (s.gpr rs)) : Holds entry sp φ' s' := by
  unfold Facts.store_frame at checked
  split at checked
  · rename_i free
    have old : Holds entry sp φ s' := by
      refine holds_unlogged holds registers stored fun p member => ?_
      rw [memory,be64_put64_clear ((clear_offset _ _ _).mpr (of_decide_eq_true (List.all_eq_true.mp free.2 p member)))]
    split at checked
    · cases checked
      exact old
    · rename_i saves
      split at checked
      · rename_i slot
        cases checked
        obtain ⟨high,unsaved⟩ := not_or.mp saves
        refine ⟨old.pointer,old.known,old.missed,?_,?_,?_⟩
        · intro p member
          rcases List.mem_cons.mp member with rfl | member
          · exact slot
          · exact old.within p member
        · intro missed r callee outside
          exact old.kept missed r callee fun member => outside (List.mem_cons_of_mem _ member)
        · intro missed p member
          rcases List.mem_cons.mp member with rfl | member
          · rw [memory,be64_put64]
            exact holds.kept (stored ▸ missed) rs (Fin.not_lt.mp high) unsaved
          · exact old.slots missed p member
      · cases checked
  · cases checked

theorem holds_ld (holds : Holds entry sp φ s) (slot : (rd,low32 d) ∈ φ.saved) (put : φ.put rd none = some φ') :
    Holds entry sp {φ' with saved := φ'.saved.filter (·.1 ≠ rd)} (s.set rd (vm_read64 s.mem.vm (sp+d))) := by
  have set := holds_set holds put (v:=vm_read64 s.mem.vm (sp+d)) (fun _ none => by cases none)
  have same : φ'.saved = φ.saved ∧ φ'.slots = φ.slots := by
    unfold Facts.put at put
    split at put
    · cases put
      exact ⟨rfl,rfl⟩
    · cases put
  refine ⟨set.pointer,set.known,set.missed,?_,?_,?_⟩
  · exact fun p member => set.within p (List.mem_filter.mp member).1
  · intro missed r high unsaved
    by_cases here : r = rd
    · subst here
      have value := holds.slots (same.2 ▸ missed) _ slot
      rw [gpr_set_same,vm_read64_eq,← value]
      exact congrArg s.mem.vm.be64 (low32_add sp d)
    · refine set.kept missed r high fun member => unsaved ?_
      obtain ⟨p,inside,rfl⟩ := List.mem_map.mp member
      exact List.mem_map.mpr ⟨p,List.mem_filter.mpr ⟨inside,decide_eq_true here⟩,rfl⟩
  · exact fun missed p member => set.slots missed p (List.mem_filter.mp member).1

theorem step_slots (checked : φ.step i = some φ') : φ'.slots = φ.slots ∧ φ'.wild = φ.wild := by
  have put {rd c} {ψ : Facts} (done : φ.put rd c = some ψ) : ψ.slots = φ.slots ∧ ψ.wild = φ.wild := by
    unfold Facts.put at done
    split at done
    · cases done
      exact ⟨rfl,rfl⟩
    · cases done
  have store {ra d} {ψ : Facts} (done : φ.store ra d = some ψ) : ψ.slots = φ.slots ∧ ψ.wild = φ.wild := by
    unfold Facts.store at done
    split at done <;> split at done <;> cases done
    · exact ⟨rfl,rfl⟩
    · exact ⟨rfl,rfl⟩
  have frame {rs o} {ψ : Facts} (done : φ.store_frame rs o = some ψ) : ψ.slots = φ.slots ∧ ψ.wild = φ.wild := by
    unfold Facts.store_frame at done
    split at done
    · split at done
      · cases done
        exact ⟨rfl,rfl⟩
      · split at done <;> cases done
        exact ⟨rfl,rfl⟩
    · cases done
  cases i with
  | li | lis | addi | ori | mr | clrldi | add | mflr | lbz | lwz | lwarx => exact put checked
  | mtlr | mtctr | cmpwi | cmpw | call =>
      cases checked
      exact ⟨rfl,rfl⟩
  | ld rd ra d =>
      simp only [Facts.step] at checked
      split at checked
      · obtain ⟨ψ,done,rfl⟩ := Option.map_eq_some_iff.mp checked
        have same := put done
        exact same
      · exact put checked
  | stb | stw => exact store checked
  | std rs ra d =>
      simp only [Facts.step] at checked
      split at checked
      · exact frame checked
      · cases checked
  | stdu => cases checked
  | stwcx =>
      simp only [Facts.step] at checked
      split at checked <;> cases checked
      exact ⟨rfl,rfl⟩

theorem compare_gpr (sh : Nat) (a b : BitVec 32) : (s.compare sh a b).ctx.gpr = s.ctx.gpr := rfl

theorem step_holds (room : Room sp) (inside : SlotsIn size φ.slots) (bound : size ≤ 0xC0)
    (callees : ∀ f, i = .call f → Preserves env sp size) (checked : φ.step i = some φ') (holds : Holds entry sp φ s)
    (ran : i.run s env fuel = some s') : Holds entry sp φ' s' := by
  have unchanged (t : PpuState ω) (registers : t.ctx.gpr = s.ctx.gpr) (stored : t.stored = s.stored)
      (memory : t.mem = s.mem) : Holds entry sp φ t := by
    refine holds_unlogged holds registers stored ?_
    rw [memory]
    exact fun _ _ => rfl
  cases i with
  | li rd imm | lis rd imm =>
      cases ran
      exact holds_set holds checked fun k constant => Option.some.inj constant
  | addi rd ra imm =>
      cases ran
      refine holds_set holds checked fun k constant => ?_
      obtain ⟨base,known,rfl⟩ := Option.map_eq_some_iff.mp constant
      rw [look_known holds known]
  | ori | mr | clrldi | add | mflr | lbz | lwz =>
      cases ran
      exact holds_set holds checked fun _ none => by cases none
  | lwarx rd ra rb =>
      cases ran
      exact holds_set (unchanged _ rfl rfl rfl) checked fun _ none => by cases none
  | mtlr | mtctr =>
      cases ran
      cases checked
      exact unchanged _ rfl rfl rfl
  | cmpwi | cmpw =>
      cases ran
      cases checked
      exact unchanged _ (compare_gpr _ _ _) rfl rfl
  | ld rd ra d =>
      cases ran
      simp only [Facts.step] at checked
      split at checked
      · rename_i slot
        obtain ⟨ψ,put,rfl⟩ := Option.map_eq_some_iff.mp checked
        rw [slot.1,holds.pointer]
        exact holds_ld holds slot.2 put
      · exact holds_set holds checked fun _ none => by cases none
  | stb rs ra d =>
      cases ran
      refine holds_store holds room inside bound checked rfl rfl fun b past _ => ?_
      have other : b ≠ low32 (s.gpr ra + d) := by
        rintro rfl
        rw [BitVec.sub_self] at past
        exact absurd past (by decide)
      exact Function.update_of_ne other _ _
  | stw rs ra d =>
      obtain ⟨mem,wrote,rfl⟩ := Option.map_eq_some_iff.mp ran
      exact holds_store holds room inside bound checked rfl rfl fun b past get => write32_beside wrote past get
  | std rs ra d =>
      obtain ⟨mem,wrote,rfl⟩ := Option.map_eq_some_iff.mp ran
      simp only [Facts.step] at checked
      split at checked
      · rename_i base
        rw [base,holds.pointer] at wrote
        have small : (low32 d).toNat + 8 ≤ 0xC0 := by
          unfold Facts.store_frame at checked
          split at checked
          · rename_i free
            exact free.1
          · cases checked
        rw [room_store room fuel s.mem d _ (by omega)] at wrote
        cases wrote
        exact holds_std holds checked rfl rfl rfl
      · cases checked
  | stdu => cases checked
  | stwcx rs ra rb =>
      simp only [Facts.step] at checked
      split at checked
      · rename_i wild
        cases checked
        obtain ⟨registers,_,_,⟨_,_,stored,memory⟩ | ⟨_,_,stored,wrote⟩⟩ := conditional_left ran
        · exact unchanged s' registers stored memory
        · have astray : φ.wild = false → (low32 (s.gpr ra + s.gpr rb)).toNat < 0x10010000 :=
            fun tame => absurd (wild.symm.trans tame) (by decide)
          exact holds_logged holds room inside bound astray registers stored
            fun b past get => write32_beside wrote past get
      · cases checked
  | call f =>
      obtain ⟨left,went,rfl⟩ := Option.map_eq_some_iff.mp ran
      cases checked
      exact holds_call holds inside (callees f rfl) went
end Statements

end BudokaiRuntime.Ppu
