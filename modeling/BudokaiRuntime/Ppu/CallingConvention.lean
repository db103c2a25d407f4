import BudokaiRuntime.Ppu.Frame

-- The stack pointer and the callee-saved registers over whole hand-lifted functions.
namespace BudokaiRuntime.Ppu
open Guest Programs Rsx

inductive Lifted where
  | func_000393D4 | func_00033A54 | func_000E775C | func_0003937C
  | func_0003B124 | func_00027110 | func_000EFEC0 | func_000EB354

def Lifted.run {ω : Type} (env : Env ω) (fuel : Nat) : Lifted → PpuState ω → Option (PpuState ω)
  | .func_000393D4 => Ppu.func_000393D4 env fuel
  | .func_00033A54 => Ppu.func_00033A54 env fuel
  | .func_000E775C => Ppu.func_000E775C env fuel
  | .func_0003937C => Ppu.func_0003937C env fuel
  | .func_0003B124 => Ppu.func_0003B124 env fuel
  | .func_00027110 => Ppu.func_00027110 env fuel
  | .func_000EFEC0 => Ppu.func_000EFEC0 env fuel
  | .func_000EB354 => Ppu.func_000EB354 env fuel

def Lifted.size : Lifted → Nat
  | .func_000393D4 | .func_000E775C | .func_00027110 => 0x90
  | .func_0003937C | .func_0003B124 | .func_000EFEC0 => 0x80
  | .func_00033A54 | .func_000EB354 => 0x70

def Lifted.saves : Lifted → List (Fin 32 × BitVec 32)
  | .func_000393D4 => [(29,0x78),(30,0x80),(31,0x88)]
  | .func_00027110 => [(30,0x80),(29,0x78),(31,0x88)]
  | .func_000E775C => [(31,0x88),(30,0x80),(28,0x70),(29,0x78)]
  | .func_0003937C | .func_0003B124 => [(31,0x78),(30,0x70)]
  | .func_00033A54 | .func_000EFEC0 | .func_000EB354 => []

def Lifted.slots (f : Lifted) : List (BitVec 32) := f.saves.map Prod.snd

-- These store through pointers that they read from memory.
def Lifted.wild : Lifted → Bool
  | .func_000E775C | .func_0003B124 | .func_00027110 => true
  | _ => false

def Lifted.base (f : Lifted) (ctx : PpuCtx) : BitVec 64 := ctx.gpr 1 - BitVec.ofNat 64 f.size

def Lifted.inside (f : Lifted) (known : List (Fin 32 × BitVec 64)) : Facts := ⟨known,f.saves,f.slots,f.wild⟩

def Restored (entry left : PpuCtx) : Prop := left.gpr 1 = entry.gpr 1 ∧ ∀ r, 14 ≤ r → left.gpr r = entry.gpr r

-- `known` holds after `code` whenever `φ` holds before it, the rest of the facts being `ψ`.
def Facts.leads (φ : Facts) (code : List Insn) (ψ : Facts) : Bool :=
  (φ.check code).any fun φ' => decide (φ'.saved = ψ.saved ∧ φ'.slots = ψ.slots ∧ φ'.wild = ψ.wild ∧
    ψ.known.all (· ∈ φ'.known))

-- At the return: only the stack pointer has changed since the slots were read back.
def Lifted.Leaves {ω : Type} (f : Lifted) (ctx : PpuCtx) (left : PpuState ω) : Prop :=
  ∃ s, Holds ctx (f.base ctx) ⟨[],[],f.slots,f.wild⟩ s ∧
    left = s.set 1 (sext32 (s.gpr 1 + BitVec.ofNat 64 f.size))

section Pieces
variable {ω : Type} {env : Env ω} {fuel : Nat} {entry : PpuCtx} {sp : BitVec 64} {φ φ' ψ : Facts} {code : List Insn}

theorem check_holds (room : Room sp) (inside : SlotsIn size φ.slots) (bound : size ≤ 0xC0)
    (callees : Preserves env sp size) (checked : φ.check code = some φ') :
    Triple (Holds entry sp φ) (straight env fuel code) (Holds entry sp φ') := by
  induction code generalizing φ with
  | nil =>
      cases checked
      exact triple_nil
  | cons i code ih =>
      obtain ⟨ψ,one,rest⟩ := Option.bind_eq_some_iff.mp ((List.foldlM_cons ..).symm.trans checked)
      have slots : SlotsIn size ψ.slots := (step_slots one).1 ▸ inside
      exact triple_cons (fun s t holds ran => step_holds room inside bound (fun _ _ => callees) one holds ran)
        (ih slots rest)

theorem leads_holds (room : Room sp) (inside : SlotsIn size φ.slots) (bound : size ≤ 0xC0)
    (callees : Preserves env sp size) (leads : φ.leads code ψ = true) :
    Triple (Holds entry sp φ) (straight env fuel code) (Holds entry sp ψ) := by
  obtain ⟨φ',checked,fewer⟩ := (Option.any_eq_true _ _).mp leads
  obtain ⟨saved,slots,wild,known⟩ := of_decide_eq_true fewer
  refine triple_mono (check_holds room inside bound callees checked) (fun _ holds => holds) fun s holds => ?_
  exact ⟨holds.pointer,fun p member => holds.known p (of_decide_eq_true (List.all_eq_true.mp known p member)),
    wild ▸ slots ▸ holds.missed,
    saved ▸ slots ▸ holds.within,saved ▸ slots ▸ holds.kept,saved ▸ slots ▸ holds.slots⟩

end Pieces

section Whole
variable {ω : Type} {env : Env ω} {fuel : Nat} {ctx : PpuCtx} {mem : Machine} {world : ω} (f : Lifted)

theorem size_bound : 0x70 ≤ f.size ∧ f.size ≤ 0x90 := by
  cases f <;> decide

theorem size_small : f.size ≤ 0xC0 := by
  have bound := size_bound f
  omega

theorem slots_inside : SlotsIn f.size f.slots := by
  unfold SlotsIn
  cases f <;> simp [Lifted.slots,Lifted.saves,Lifted.size]

theorem frame_room (stack : StackArea (ctx.gpr 1)) : Room (f.base ctx) := by
  have bound := size_bound f
  unfold StackArea at stack
  unfold Room Lifted.base
  simp only [low32,BitVec.toNat_setWidth,BitVec.toNat_sub,BitVec.toNat_ofNat] at stack ⊢
  omega

variable (stack : StackArea (ctx.gpr 1)) (callees : Preserves env (f.base ctx) f.size)
include stack callees

variable (fuel) in
theorem keeps (known : List (Fin 32 × BitVec 64)) (code : List Insn) (later : List (Fin 32 × BitVec 64))
    (leads : (f.inside known).leads code (f.inside later) = true) :
    Triple (Holds ctx (f.base ctx) (f.inside known)) (straight env fuel code)
      (Holds ctx (f.base ctx) (f.inside later)) :=
  leads_holds (frame_room f stack) (slots_inside f) (size_small f) callees leads

omit stack callees in
theorem stdu_holds (frame : f.base ctx = ctx.gpr 1 + d) :
    Triple (· = entered ctx mem world) (Insn.run · env fuel (.stdu d)) (Holds ctx (f.base ctx) ⟨[],[],f.slots,f.wild⟩) := by
  rintro s t rfl ran
  obtain ⟨mem',_,rfl⟩ := Option.map_eq_some_iff.mp ran
  refine ⟨(gpr_set_same _ _).trans frame.symm,nofun,nofun,nofun,?_,nofun⟩
  intro _ r high _
  have other : r ≠ 1 := by
    rintro rfl
    exact absurd high (by decide)
  exact gpr_set_other _ other

theorem opens (known : List (Fin 32 × BitVec 64)) (frame : f.base ctx = ctx.gpr 1 + d)
    (leads : (Facts.mk [] [] f.slots f.wild).leads code (f.inside known) = true) :
    Triple (· = entered ctx mem world) (straight env fuel (.stdu d::code))
      (Holds ctx (f.base ctx) (f.inside known)) :=
  triple_cons (stdu_holds f frame)
    (leads_holds (frame_room f stack) (slots_inside f) (size_small f) callees leads)

theorem closes (code : List Insn) (leads : (f.inside []).leads code ⟨[],[],f.slots,f.wild⟩ = true) :
    Triple (Holds ctx (f.base ctx) (f.inside []))
      (straight env fuel (code ++ [.addi 1 1 (BitVec.ofNat 64 f.size)])) (f.Leaves ctx) := by
  have last : Triple (Holds ctx (f.base ctx) ⟨[],[],f.slots,f.wild⟩)
      (straight env fuel [.addi 1 1 (BitVec.ofNat 64 f.size)]) (f.Leaves ctx) := by
    intro s t holds ran
    cases ran
    exact ⟨s,holds,rfl⟩
  rw [straight_append]
  exact triple_seq (leads_holds (frame_room f stack) (slots_inside f) (size_small f)
    callees leads) last
end Whole

section Functions
variable {ω : Type} {env : Env ω} {fuel : Nat} {ctx : PpuCtx} {mem : Machine} {world : ω}

theorem leaves_000393D4 (stack : StackArea (ctx.gpr 1))
    (callees : Preserves env (Lifted.base .func_000393D4 ctx) 0x90) :
    Triple (· = entered ctx mem world) (func_000393D4 env fuel) (Lifted.Leaves .func_000393D4 ctx) := by
  have cleared (k : BitVec 64) (leads : (Lifted.inside .func_000393D4 [(31,k)]).leads clear_object
      (Lifted.inside .func_000393D4 []) = true) :=
    keeps fuel .func_000393D4 stack callees [(31,k)] clear_object [] leads
  have body := keeps fuel .func_000393D4 stack callees []
    [.clrldi 3 31,.call .func_00039540,.addi 30 30 1,.addi 31 31 0x90,.cmpwi 28 30 0xE] [] (by decide +kernel)
  refine triple_cons (opens .func_000393D4 stack callees [(31,0x289590)] (BitVec.sub_eq_add_neg _ _)
    (by decide +kernel)) ?_
  refine triple_cons (cleared 0x289590 (by decide +kernel)) ?_
  refine triple_cons (keeps _ .func_000393D4 stack callees [] _ [(31,0x289B90)] (by decide +kernel)) ?_
  refine triple_cons (cleared 0x289B90 (by decide +kernel)) ?_
  refine triple_cons (keeps _ .func_000393D4 stack callees [] _ [(31,0x28A190)] (by decide +kernel)) ?_
  refine triple_cons (cleared 0x28A190 (by decide +kernel)) ?_
  refine triple_cons (keeps _ .func_000393D4 stack callees [] _ [] (by decide +kernel)) ?_
  refine triple_cons (triple_do_while body (fun _ holds _ => holds) fun _ holds _ => holds) ?_
  refine triple_cons ?_ triple_nil
  exact closes .func_000393D4 stack callees [.ld 0 1 0xA0,.mtlr 0,.ld 29 1 0x78,.ld 30 1 0x80,.ld 31 1 0x88]
    (by decide +kernel)

theorem leaves_00033A54 (stack : StackArea (ctx.gpr 1))
    (callees : Preserves env (Lifted.base .func_00033A54 ctx) 0x70) :
    Triple (· = entered ctx mem world) (func_00033A54 env fuel) (Lifted.Leaves .func_00033A54 ctx) := by
  have split : func_00033A54 env fuel = straight env fuel ([.stdu (-0x70),.mflr 0,.std 0 1 0x80,.lis 4 0x28,.li 5 0,
      .addi 6 4 (-1872),.lis 3 0x28,.addi 3 3 (-1864),.stb 5 4 (-0x750),.stw 5 6 4,.call .func_00032C08,.lis 3 0x28,
      .addi 3 3 0x396C,.call .func_00032C08] ++ ([.ld 0 1 0x80,.mtlr 0] ++ [.addi 1 1 0x70])) := rfl
  rw [split,straight_append]
  refine triple_seq (opens .func_00033A54 stack callees [] (BitVec.sub_eq_add_neg _ _) (by decide +kernel)) ?_
  exact closes .func_00033A54 stack callees [.ld 0 1 0x80,.mtlr 0] (by decide +kernel)

theorem leaves_0003937C (stack : StackArea (ctx.gpr 1))
    (callees : Preserves env (Lifted.base .func_0003937C ctx) 0x80) :
    Triple (· = entered ctx mem world) (func_0003937C env fuel) (Lifted.Leaves .func_0003937C ctx) := by
  have body := keeps fuel .func_0003937C stack callees []
    [.clrldi 3 31,.call .func_0003959C,.addi 30 30 (-1),.addi 31 31 (-144),.cmpwi 28 30 0] [] (by decide +kernel)
  refine triple_cons (opens .func_0003937C stack callees [] (BitVec.sub_eq_add_neg _ _) (by decide +kernel)) ?_
  refine triple_cons (triple_do_while body (fun _ holds _ => holds) fun _ holds _ => holds) ?_
  refine triple_cons ?_ triple_nil
  exact closes .func_0003937C stack callees [.ld 0 1 0x90,.mtlr 0,.ld 30 1 0x70,.ld 31 1 0x78] (by decide +kernel)

abbrev Keeps (f : Lifted) (ctx : PpuCtx) (p : PpuState ω → Option (PpuState ω)) : Prop :=
  Triple (Holds ctx (f.base ctx) (f.inside [])) p (Holds ctx (f.base ctx) (f.inside []))

theorem keeps_when {f : Lifted} {p : PpuState ω → Option (PpuState ω)} {test : PpuState ω → Bool}
    (kept : Keeps f ctx p) : Keeps f ctx (when_ test p) :=
  triple_when (fun s t holds ran => kept s t holds.1 ran) fun _ holds _ => holds

theorem keeps_loop {f : Lifted} {p : PpuState ω → Option (PpuState ω)} {again : PpuState ω → Bool}
    (kept : Keeps f ctx p) : Keeps f ctx (do_while p again fuel) :=
  triple_do_while kept (fun _ holds _ => holds) fun _ holds _ => holds

theorem node_keeps (stack : StackArea (ctx.gpr 1)) (callees : Preserves env (Lifted.base .func_000E775C ctx) 0x90) :
    Keeps .func_000E775C ctx (node_E77A0 env fuel) := by
  have piece (code : List Insn) (leads : (Lifted.inside .func_000E775C []).leads code
      (Lifted.inside .func_000E775C []) = true) : Keeps .func_000E775C ctx (straight env fuel code) :=
    keeps fuel .func_000E775C stack callees [] code [] leads
  have slot : Keeps .func_000E775C ctx (slot_E77A8 env fuel) := by
    refine triple_cons (piece _ (by decide +kernel)) (triple_cons (keeps_when ?_) ?_)
    · refine triple_cons (piece _ (by decide +kernel)) (triple_cons (keeps_when ?_) triple_nil)
      refine triple_cons (piece _ (by decide +kernel)) (triple_cons (keeps_when ?_) triple_nil)
      exact piece _ (by decide +kernel)
    · exact triple_cons (piece _ (by decide +kernel)) triple_nil
  refine triple_cons (piece _ (by decide +kernel)) (triple_cons (keeps_loop slot) ?_)
  refine triple_cons (piece _ (by decide +kernel)) (triple_cons (keeps_when ?_) triple_nil)
  exact piece _ (by decide +kernel)

theorem leaves_000E775C (stack : StackArea (ctx.gpr 1))
    (callees : Preserves env (Lifted.base .func_000E775C ctx) 0x90) :
    Triple (· = entered ctx mem world) (func_000E775C env fuel) (Lifted.Leaves .func_000E775C ctx) := by
  have piece (code : List Insn) (leads : (Lifted.inside .func_000E775C []).leads code
      (Lifted.inside .func_000E775C []) = true) : Keeps .func_000E775C ctx (straight env fuel code) :=
    keeps fuel .func_000E775C stack callees [] code [] leads
  refine triple_cons (opens .func_000E775C stack callees [] (BitVec.sub_eq_add_neg _ _) (by decide +kernel)) ?_
  refine triple_cons (keeps_when ?_) (triple_cons ?_ triple_nil)
  · refine triple_cons (piece _ (by decide +kernel)) (triple_cons (keeps_when ?_) ?_)
    · exact keeps_loop (node_keeps stack callees)
    · exact triple_cons (piece _ (by decide +kernel)) triple_nil
  · exact closes .func_000E775C stack callees
      [.ld 0 1 0xA0,.ld 28 1 0x70,.ld 29 1 0x78,.mtlr 0,.ld 30 1 0x80,.ld 31 1 0x88] (by decide +kernel)

def release_pieces (ptr dec : Fin 32) : List (List Insn) :=
  [[.cmpwi 28 ptr 0],[.lis 3 0xFFFF,.addi 4 ptr 4,.ori 3 3 0xFFFF,.clrldi 4 4,.clrldi dec 3],
    [.lwarx 3 0 4,.add 0 dec 3,.stwcx 0 0 4],[.cmpwi 28 3 1],virtual_call ptr 0x8,
    [.addi 3 ptr 8,.ld 2 1 0x28,.clrldi 3 3],[.lwarx 4 0 3,.add 0 dec 4,.stwcx 0 0 3],[.cmpwi 28 4 1],
    virtual_call ptr 0xC,[.ld 2 1 0x28]]

theorem release_triple {kept : PpuState ω → Prop} (ptr dec : Fin 32)
    (piece : ∀ code ∈ release_pieces ptr dec, Triple kept (straight env fuel code) kept) :
    Triple kept (release env fuel ptr dec) kept := by
  have test {p : PpuState ω → Option (PpuState ω)} {taken : PpuState ω → Bool} (inner : Triple kept p kept) :
      Triple kept (when_ taken p) kept :=
    triple_when (fun s t holds ran => inner s t holds.1 ran) fun _ holds _ => holds
  have rounds {p : PpuState ω → Option (PpuState ω)} {again : PpuState ω → Bool} (inner : Triple kept p kept) :
      Triple kept (do_while p again fuel) kept :=
    triple_do_while inner (fun _ holds _ => holds) fun _ holds _ => holds
  refine triple_cons (piece _ (by simp [release_pieces])) (triple_cons (test ?_) triple_nil)
  refine triple_cons (piece _ (by simp [release_pieces])) (triple_cons (rounds ?_) ?_)
  · exact piece _ (by simp [release_pieces])
  refine triple_cons (piece _ (by simp [release_pieces])) (triple_cons (test ?_) triple_nil)
  refine triple_cons (piece _ (by simp [release_pieces])) (triple_cons (piece _ (by simp [release_pieces])) ?_)
  refine triple_cons (rounds (piece _ (by simp [release_pieces]))) ?_
  refine triple_cons (piece _ (by simp [release_pieces])) (triple_cons (test ?_) triple_nil)
  exact triple_cons (piece _ (by simp [release_pieces])) (triple_cons (piece _ (by simp [release_pieces])) triple_nil)

theorem release_keeps {f : Lifted} (stack : StackArea (ctx.gpr 1)) (callees : Preserves env (f.base ctx) f.size)
    (ptr dec : Fin 32) (leads : (release_pieces ptr dec).all ((f.inside []).leads · (f.inside [])) = true) :
    Keeps f ctx (release env fuel ptr dec) :=
  release_triple ptr dec fun code member =>
    keeps fuel f stack callees [] code [] (List.all_eq_true.mp leads code member)

theorem leaves_0003B124 (stack : StackArea (ctx.gpr 1))
    (callees : Preserves env (Lifted.base .func_0003B124 ctx) 0x80) :
    Triple (· = entered ctx mem world) (func_0003B124 env fuel) (Lifted.Leaves .func_0003B124 ctx) := by
  refine triple_cons (opens .func_0003B124 stack callees [] (BitVec.sub_eq_add_neg _ _) (by decide +kernel)) ?_
  refine triple_cons (release_keeps stack callees 30 31 (by decide +kernel)) (triple_cons ?_ triple_nil)
  exact closes .func_0003B124 stack callees [.ld 0 1 0x90,.mtlr 0,.ld 30 1 0x70,.ld 31 1 0x78] (by decide +kernel)

theorem leaves_00027110 (stack : StackArea (ctx.gpr 1))
    (callees : Preserves env (Lifted.base .func_00027110 ctx) 0x90) :
    Triple (· = entered ctx mem world) (func_00027110 env fuel) (Lifted.Leaves .func_00027110 ctx) := by
  have load (d : BitVec 64) (leads : (Lifted.inside .func_00027110 []).leads [.lwz 29 31 d]
      (Lifted.inside .func_00027110 []) = true) : Keeps .func_00027110 ctx (straight env fuel [.lwz 29 31 d]) :=
    keeps fuel .func_00027110 stack callees [] [.lwz 29 31 d] [] leads
  have turn : Keeps .func_00027110 ctx (release env fuel 29 30) := release_keeps stack callees 29 30 (by decide +kernel)
  refine triple_cons (opens .func_00027110 stack callees [] (BitVec.sub_eq_add_neg _ _) (by decide +kernel)) ?_
  refine triple_cons turn (triple_cons (load 0x2C (by decide +kernel)) ?_)
  refine triple_cons turn (triple_cons (load 0x24 (by decide +kernel)) ?_)
  refine triple_cons turn (triple_cons (load 0x1C (by decide +kernel)) ?_)
  refine triple_cons turn (triple_cons (load 0x14 (by decide +kernel)) ?_)
  refine triple_cons turn (triple_cons (load 0xC (by decide +kernel)) (triple_cons turn ?_))
  refine triple_cons (keeps _ .func_00027110 stack callees [] _ [] (by decide +kernel)) ?_
  refine triple_cons (release_keeps stack callees 31 30 (by decide +kernel)) (triple_cons ?_ triple_nil)
  exact closes .func_00027110 stack callees [.ld 0 1 0xA0,.mtlr 0,.ld 29 1 0x78,.ld 30 1 0x80,.ld 31 1 0x88]
    (by decide +kernel)

-- The word that func_000EFEC0 reads into gpr[31], after its back chain is stored.
def callback (ctx : PpuCtx) (mem : Machine) : BitVec 32 :=
  (mem.vm.put64 (low32 (Lifted.base .func_000EFEC0 ctx)) (ctx.gpr 1)).be32 (low32 (ctx.gpr 3) + 0xC)

theorem stdu_memory (f : Lifted) (stack : StackArea (ctx.gpr 1)) (frame : f.base ctx = ctx.gpr 1 + d)
    {t : PpuState ω} (ran : Insn.run (entered ctx mem world) env fuel (.stdu d) = some t) :
    t.mem.vm = mem.vm.put64 (low32 (f.base ctx)) (ctx.gpr 1) ∧ t.gpr 1 = f.base ctx ∧
      ∀ r, r ≠ 1 → t.gpr r = ctx.gpr r := by
  obtain ⟨mem',wrote,rfl⟩ := Option.map_eq_some_iff.mp ran
  have room := frame_room f stack
  change vm_write64 fuel mem (ctx.gpr 1 + d) (ctx.gpr 1) = some mem' at wrote
  rw [← frame,room_open room] at wrote
  cases wrote
  exact ⟨rfl,(gpr_set_same _ _).trans frame.symm,fun r other => gpr_set_other _ other⟩

theorem stub_end {s left : PpuState ω} (ran : straight env fuel [.addi 1 1 n,.li 3 0] s = some left) :
    left.gpr 1 = sext32 (s.gpr 1 + n) ∧ ∀ r, 14 ≤ r → left.gpr r = s.gpr r := by
  obtain ⟨_,one,ran⟩ := straight_cons.mp ran
  obtain ⟨_,two,ran⟩ := straight_cons.mp ran
  cases straight_nil.mp ran
  cases one
  cases two
  constructor
  · rw [gpr_set_other _ (by decide),gpr_set_same]
  · intro r high
    have argument : r ≠ 3 := by
      rintro rfl
      exact absurd high (by decide)
    have pointer : r ≠ 1 := by
      rintro rfl
      exact absurd high (by decide)
    rw [gpr_set_other _ argument,gpr_set_other _ pointer]

theorem leaves_000EB354 (stack : StackArea (ctx.gpr 1)) :
    Triple (· = entered ctx mem world) (func_000EB354 env fuel) (fun left =>
      left.gpr 1 = sext32 (ctx.gpr 1) ∧ ∀ r, 14 ≤ r → left.gpr r = ctx.gpr r) := by
  have frame : Lifted.base .func_000EB354 ctx = ctx.gpr 1 + -0x70 := BitVec.sub_eq_add_neg _ _
  rintro s left rfl ran
  obtain ⟨made,opened,rest⟩ := block_cons.mp ran
  obtain ⟨_,tail,rest⟩ := block_cons.mp rest
  cases block_nil.mp rest
  obtain ⟨_,stdu,nothing⟩ := straight_cons.mp opened
  cases straight_nil.mp nothing
  obtain ⟨_,pointer,registers⟩ := stdu_memory .func_000EB354 stack frame stdu
  have back : made.gpr 1 + 0x70 = ctx.gpr 1 := by
    rw [pointer,frame,BitVec.add_assoc]
    exact BitVec.add_zero _
  have ended : left.gpr 1 = sext32 (made.gpr 1 + 0x70) ∧ ∀ r, 14 ≤ r → left.gpr r = made.gpr r := by
    split at tail
    · exact stub_end tail
    · exact stub_end tail
  rw [← back]
  refine ⟨ended.1,fun r high => (ended.2 r high).trans (registers r ?_)⟩
  rintro rfl
  exact absurd high (by decide)

theorem leaves_000EFEC0 (stack : StackArea (ctx.gpr 1)) :
    Triple (· = entered ctx mem world) (func_000EFEC0 env fuel) (fun left =>
      left.gpr 1 = sext32 (ctx.gpr 1) ∧ left.gpr 31 = (callback ctx mem).setWidth 64 ∧
        ∀ r, 14 ≤ r → r ≠ 31 → left.gpr r = ctx.gpr r) := by
  have frame : Lifted.base .func_000EFEC0 ctx = ctx.gpr 1 + -0x80 := BitVec.sub_eq_add_neg _ _
  rintro s left rfl ran
  obtain ⟨made,opened,rest⟩ := block_cons.mp ran
  obtain ⟨read,loaded,rest⟩ := block_cons.mp rest
  obtain ⟨_,tail,rest⟩ := block_cons.mp rest
  cases block_nil.mp rest
  obtain ⟨_,stdu,nothing⟩ := straight_cons.mp opened
  cases straight_nil.mp nothing
  obtain ⟨memory,pointer,registers⟩ := stdu_memory .func_000EFEC0 stack frame stdu
  have word : vm_read32 made.mem.vm ((low32 (made.gpr 3) + 0xC).setWidth 64) = callback ctx mem := by
    rw [vm_read32_eq,memory,registers 3 (by decide)]
    exact congrArg _ (low32_zext _)
  have back : made.gpr 1 + 0x80 = ctx.gpr 1 := by
    rw [pointer,frame,BitVec.add_assoc]
    exact BitVec.add_zero _
  rw [word] at loaded
  cases loaded
  have ended : left.gpr 1 = sext32 (made.gpr 1 + 0x80) ∧
      ∀ r, 14 ≤ r → left.gpr r = (made.set 31 ((callback ctx mem).setWidth 64)).gpr r := by
    split at tail
    · exact stub_end tail
    · obtain ⟨_,moved,tail⟩ := straight_cons.mp tail
      cases moved
      obtain ⟨pointer,registers⟩ := stub_end tail
      refine ⟨pointer,fun r high => (registers r high).trans (gpr_set_other _ ?_)⟩
      rintro rfl
      exact absurd high (by decide)
  rw [← back]
  refine ⟨ended.1,(ended.2 31 (by decide)).trans (gpr_set_same _ _),fun r high other => ?_⟩
  rw [ended.2 r high,gpr_set_other _ other]
  refine registers r ?_
  rintro rfl
  exact absurd high (by decide)

theorem leaves_restored {f : Lifted} {left : PpuState ω} (leaves : f.Leaves ctx left) :
    left.gpr 1 = sext32 (ctx.gpr 1) ∧ (Missed (low32 (f.base ctx)) f.slots left.stored →
      ∀ r, 14 ≤ r → left.gpr r = ctx.gpr r) ∧
      (f.wild = false → Missed (low32 (f.base ctx)) f.slots left.stored) := by
  obtain ⟨s,holds,rfl⟩ := leaves
  refine ⟨?_,?_,holds.missed⟩
  · rw [gpr_set_same,holds.pointer,Lifted.base,BitVec.sub_add_cancel]
  · intro missed r high
    have pointer : r ≠ 1 := by
      rintro rfl
      exact absurd high (by decide)
    rw [gpr_set_other _ pointer]
    exact holds.kept missed r high List.not_mem_nil

theorem run_restored {f : Lifted} (stack : StackArea (ctx.gpr 1)) (callees : Preserves env (f.base ctx) f.size)
    {left : PpuState ω} (ran : f.run env fuel (entered ctx mem world) = some left) :
    left.gpr 1 = sext32 (ctx.gpr 1) ∧ (f = .func_000EFEC0 → left.gpr 31 = (callback ctx mem).setWidth 64) ∧
      ((f.wild = true → Missed (low32 (f.base ctx)) f.slots left.stored) → ∀ r, 14 ≤ r →
        (f = .func_000EFEC0 → r ≠ 31) → left.gpr r = ctx.gpr r) := by
  have regular (other : f ≠ .func_000EFEC0) (leaves : f.Leaves ctx left) : left.gpr 1 = sext32 (ctx.gpr 1) ∧
      (f = .func_000EFEC0 → left.gpr 31 = (callback ctx mem).setWidth 64) ∧
      ((f.wild = true → Missed (low32 (f.base ctx)) f.slots left.stored) → ∀ r, 14 ≤ r →
        (f = .func_000EFEC0 → r ≠ 31) → left.gpr r = ctx.gpr r) := by
    obtain ⟨pointer,registers,tame⟩ := leaves_restored leaves
    refine ⟨pointer,fun stub => absurd stub other,fun missed r high _ => registers ?_ r high⟩
    cases wild : f.wild with
    | true => exact missed wild
    | false => exact tame wild
  cases f with
  | func_000393D4 => exact regular nofun (leaves_000393D4 stack callees _ _ rfl ran)
  | func_00033A54 => exact regular nofun (leaves_00033A54 stack callees _ _ rfl ran)
  | func_000E775C => exact regular nofun (leaves_000E775C stack callees _ _ rfl ran)
  | func_0003937C => exact regular nofun (leaves_0003937C stack callees _ _ rfl ran)
  | func_0003B124 => exact regular nofun (leaves_0003B124 stack callees _ _ rfl ran)
  | func_00027110 => exact regular nofun (leaves_00027110 stack callees _ _ rfl ran)
  | func_000EB354 =>
      obtain ⟨pointer,registers⟩ := leaves_000EB354 stack _ _ rfl ran
      exact ⟨pointer,nofun,fun _ r high _ => registers r high⟩
  | func_000EFEC0 =>
      obtain ⟨pointer,word,registers⟩ := leaves_000EFEC0 stack _ _ rfl ran
      exact ⟨pointer,fun _ => word,fun _ r high other => registers r high (other rfl)⟩
end Functions

-- The epilogues rebuild gpr[1] by sign extension, and func_000EFEC0 overwrites gpr[31]. For the
-- functions that store through loaded pointers, the last part is about runs in which no
-- such store went into a slot.
theorem calling_convention_iff {ω : Type} (f : Lifted) (env : Env ω) (fuel : Nat) (ctx : PpuCtx) (mem : Machine)
    (world : ω) (left : PpuState ω) (stack : StackArea (ctx.gpr 1)) (callees : Preserves env (f.base ctx) f.size)
    (ran : f.run env fuel (entered ctx mem world) = some left) :
    (Restored ctx left.ctx → ctx.gpr 1 = sext32 (ctx.gpr 1) ∧
      (f = .func_000EFEC0 → ctx.gpr 31 = (callback ctx mem).setWidth 64)) ∧
    ((f.wild = true → Missed (low32 (f.base ctx)) f.slots left.stored) →
      (Restored ctx left.ctx ↔ ctx.gpr 1 = sext32 (ctx.gpr 1) ∧
        (f = .func_000EFEC0 → ctx.gpr 31 = (callback ctx mem).setWidth 64))) := by
  obtain ⟨pointer,word,registers⟩ := run_restored stack callees ran
  have needed : Restored ctx left.ctx → ctx.gpr 1 = sext32 (ctx.gpr 1) ∧
      (f = .func_000EFEC0 → ctx.gpr 31 = (callback ctx mem).setWidth 64) := by
    rintro ⟨same,kept⟩
    exact ⟨same.symm.trans pointer,fun stub => (kept 31 (by decide)).symm.trans (word stub)⟩
  refine ⟨needed,fun missed => ⟨needed,?_⟩⟩
  rintro ⟨extended,stub⟩
  refine ⟨pointer.trans extended.symm,fun r high => ?_⟩
  by_cases lost : f = .func_000EFEC0 ∧ r = 31
  · obtain ⟨at_,rfl⟩ := lost
    exact (word at_).trans (stub at_).symm
  · exact registers missed r high fun at_ last => lost ⟨at_,last⟩

def idle : Env Unit := fun _ s => some s

def at_stack (sp : BitVec 64) : PpuCtx := ⟨fun r => if r = 1 then sp else 0,0,0,0,0,0⟩

theorem idle_preserves (sp : BitVec 64) (size : Nat) : Preserves idle sp size := by
  rintro f ctx mem world _ _ _ pointer went
  cases went
  exact ⟨pointer,fun _ _ => rfl,fun _ _ _ => rfl⟩

-- The loop of func_0003937C, for a caller with another value in each register.
def holding : PpuCtx := ⟨fun r => if r = 1 then 0xFFFFFFFFDFFFFE00 else BitVec.ofNat 64 r,0,0,0,0,0⟩

theorem calling_convention_iff_saved : ∃ left,
    (Lifted.func_0003937C).run idle 14 (entered holding zeroed ()) = some left ∧ Restored holding left.ctx := by
  obtain ⟨left,ran⟩ : ∃ left, (Lifted.func_0003937C).run idle 14 (entered holding zeroed ()) = some left :=
    Option.isSome_iff_exists.mp (by decide +kernel)
  have both := calling_convention_iff .func_0003937C idle 14 _ zeroed () left (.inr (by decide)) (idle_preserves _ _) ran
  exact ⟨left,ran,(both.2 nofun).mpr ⟨by decide,nofun⟩⟩

-- The main thread starts with a zero-extended stack pointer.
theorem main_stack_pointer_lost : ¬ ∀ (f : Lifted) (env : Env Unit) (fuel : Nat) (ctx : PpuCtx) (mem : Machine)
    (world : Unit) (left : PpuState Unit), StackArea (ctx.gpr 1) → Preserves env (f.base ctx) f.size →
      f.run env fuel (entered ctx mem world) = some left → Restored ctx left.ctx := by
  intro always
  obtain ⟨left,ran⟩ : ∃ left, (Lifted.func_000EB354).run idle 0 (entered (at_stack 0xDFFFFE00) zeroed ()) = some left :=
    Option.isSome_iff_exists.mp (by decide +kernel)
  have stack : StackArea ((at_stack 0xDFFFFE00).gpr 1) := .inr (by decide)
  obtain ⟨same,_⟩ := always .func_000EB354 idle 0 _ zeroed () left stack (idle_preserves _ _) ran
  have extended := (run_restored stack (idle_preserves _ _) ran).1
  exact absurd (same.symm.trans extended) (by decide)

end BudokaiRuntime.Ppu
