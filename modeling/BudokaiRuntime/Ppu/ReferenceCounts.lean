import BudokaiRuntime.Ppu.Release

-- func_0003B124 and func_00027110 as wholes: a prologue, one release after the other, an epilogue.
namespace BudokaiRuntime.Ppu
open Guest Programs Rsx

def Insn.quiet (size : Nat) : Insn → Bool
  | .stb _ _ _ | .stw _ _ _ | .stwcx _ _ _ | .stdu _ | .call _ => false
  | .std _ ra d => ra = 1 ∧ (low32 d).toNat + 8 ≤ size + 0x18
  | _ => true

section Quiet
variable {ω : Type} {env : Env ω} {fuel : Nat} {s t : PpuState ω} {entry : PpuCtx} {sp : BitVec 64} {size : Nat}

theorem frame_agree {vm : GuestMem} {v : BitVec 64} {o : BitVec 32} (inside : o.toNat + 8 ≤ size + 0x18)
    (bound : size ≤ 0x90) : Agree (InFrame sp size) (vm.put64 (low32 sp + o) v) vm := by
  intro a outside
  refine put64_beside ?_
  unfold InFrame at outside
  rw [BitVec.toNat_sub] at outside ⊢
  rw [BitVec.toNat_add]
  omega

variable (env) in
theorem quiet_step (room : Room sp) (bound : size ≤ 0x90) (pointer : s.gpr 1 = sp) {i : Insn}
    (quiet : i.quiet size = true) : ∃ t, (∀ fuel, i.run s env fuel = some t) ∧
      Agree (InFrame sp size) t.mem.vm s.mem.vm ∧ t.calls = s.calls := by
  cases i with
  | stb | stw | stwcx | stdu | call => cases quiet
  | std rs ra d =>
      obtain ⟨rfl,inside⟩ := of_decide_eq_true quiet
      refine ⟨{s with mem := {s.mem with vm := s.mem.vm.put64 (low32 sp + low32 d) (s.gpr rs)}},fun fuel => ?_,
        frame_agree inside bound,rfl⟩
      refine Option.map_eq_some_iff.mpr ⟨_,?_,rfl⟩
      rw [pointer]
      exact room_store room fuel s.mem d _ (by omega)
  | li | lis | addi | ori | mr | clrldi | add | mflr | mtlr | mtctr | cmpwi | cmpw | lbz | lwz | ld | lwarx =>
      exact ⟨_,fun _ => rfl,fun _ _ => rfl,rfl⟩

variable (env) in
theorem quiet_runs {φ φ' : Facts} {code : List Insn} (room : Room sp) (bound : size ≤ 0x90)
    (slots : SlotsIn size φ.slots) (checked : φ.check code = some φ') (quiet : code.all (Insn.quiet size) = true)
    (holds : Holds entry sp φ s) : ∃ t, (∀ fuel, straight env fuel code s = some t) ∧ Holds entry sp φ' t ∧
      Agree (InFrame sp size) t.mem.vm s.mem.vm ∧ t.calls = s.calls := by
  induction code generalizing φ s with
  | nil =>
      cases checked
      exact ⟨s,fun _ => rfl,holds,fun _ _ => rfl,rfl⟩
  | cons i code ih =>
      obtain ⟨first,rest⟩ := Bool.and_eq_true_iff.mp quiet
      obtain ⟨ψ,one,more⟩ := Option.bind_eq_some_iff.mp ((List.foldlM_cons ..).symm.trans checked)
      obtain ⟨u,ran,agree,calls⟩ := quiet_step env room bound holds.pointer first
      have uholds : Holds entry sp ψ u := step_holds room slots (by omega) (fun f same => by
        subst same
        cases first) one holds (ran 0)
      obtain ⟨t,later,tholds,agree',calls'⟩ := ih ((step_slots one).1 ▸ slots) more rest uholds
      exact ⟨t,fun fuel => straight_cons.mpr ⟨u,ran fuel,later fuel⟩,tholds,agree'.trans agree,calls'.trans calls⟩

theorem check_slots {φ φ' : Facts} {code : List Insn} (checked : φ.check code = some φ') : φ'.slots = φ.slots := by
  induction code generalizing φ with
  | nil =>
      cases checked
      rfl
  | cons i code ih =>
      obtain ⟨ψ,one,more⟩ := Option.bind_eq_some_iff.mp ((List.foldlM_cons ..).symm.trans checked)
      exact (ih more).trans (step_slots one).1

def Insn.spares (r : Fin 32) : Insn → Bool
  | .li rd _ | .lis rd _ | .addi rd _ _ | .ori rd _ _ | .mr rd _ | .clrldi rd _ | .add rd _ _ | .mflr rd
  | .lbz rd _ _ | .lwz rd _ _ | .ld rd _ _ | .lwarx rd _ _ => r ≠ rd
  | .stdu _ => r ≠ 1
  | .call f => f = .ps3_indirect_call ∧ (r = 1 ∨ 29 ≤ r)
  | _ => true

theorem spares_step (returns : Returns env) {i : Insn} (spares : i.spares r = true) (ran : i.run s env fuel = some t) :
    t.gpr r = s.gpr r := by
  cases i with
  | li | lis | addi | ori | mr | clrldi | add | mflr | lbz | lwz | ld | lwarx =>
      cases ran
      exact gpr_set_other _ (of_decide_eq_true spares)
  | mtlr | mtctr | cmpwi | cmpw | stb =>
      cases ran
      rfl
  | stw | std =>
      obtain ⟨mem,_,rfl⟩ := Option.map_eq_some_iff.mp ran
      rfl
  | stdu =>
      obtain ⟨mem,_,rfl⟩ := Option.map_eq_some_iff.mp ran
      exact gpr_set_other _ (of_decide_eq_true spares)
  | stwcx => exact congrFun (conditional_left ran).1 r
  | call f =>
      obtain ⟨rfl,kept⟩ := of_decide_eq_true spares
      obtain ⟨left,went,rfl⟩ := Option.map_eq_some_iff.mp ran
      obtain ⟨left',went',pointer,_,high⟩ := returns s.ctx s.mem s.world
      cases went.symm.trans went'
      rcases kept with rfl | above
      · exact pointer
      · exact high r above

theorem spares_straight (returns : Returns env) {code : List Insn} (spares : code.all (Insn.spares r) = true)
    (v : BitVec 64) : Triple (fun s => s.gpr r = v) (straight env fuel code) (fun s => s.gpr r = v) := by
  induction code with
  | nil => exact triple_nil
  | cons i code ih =>
      obtain ⟨first,rest⟩ := Bool.and_eq_true_iff.mp spares
      exact triple_cons (fun s t value ran => (spares_step returns first ran).trans value) (ih rest)

theorem release_spares (returns : Returns env) {ptr dec : Fin 32}
    (spares : (release_pieces ptr dec).all (fun code => code.all (Insn.spares r)) = true)
    (ran : release env fuel ptr dec s = some t) : t.gpr r = s.gpr r :=
  release_triple ptr dec (fun code member => spares_straight returns (List.all_eq_true.mp spares code member) _)
    s t rfl ran
end Quiet

-- One of the pointers: the statements that load it from `global` into gpr[ptr], and the release.
structure Turn where
  load : List Insn
  ptr : Fin 32
  dec : Fin 32
  global : BitVec 32

def Turn.run {ω : Type} (env : Env ω) (fuel : Nat) (turn : Turn) : PpuState ω → Option (PpuState ω) :=
  block [straight env fuel turn.load,release env fuel turn.ptr turn.dec]

def Turn.Releases {ω : Type} (turn : Turn) (frame : BitVec 32 → Prop) (s t : PpuState ω) : Prop :=
  ∃ made, t.calls = s.calls ++ made ∧ Released frame (s.mem.vm.be32 turn.global) s.mem.vm t.mem.vm made

section Turns
variable {ω : Type} (env : Env ω) (frame : BitVec 32 → Prop)

def ReleasesAll (fuel : Nat) : List Turn → PpuState ω → PpuState ω → Prop
  | [],s,last => last = s
  | turn::rest,s,last => ∃ t, turn.run env fuel s = some t ∧ turn.Releases frame s t ∧ ReleasesAll fuel rest t last

def CountableAll : List Turn → PpuState ω → Prop
  | [],_ => True
  | turn::rest,s => (∀ fuel t, straight env fuel turn.load s = some t → Countable env turn.ptr turn.dec t) ∧
      ∀ fuel t, turn.run env fuel s = some t → CountableAll rest t

def ApartAll : List Turn → PpuState ω → Prop
  | [],_ => True
  | turn::rest,s => (∀ j < 12, ¬ frame (s.mem.vm.be32 turn.global + BitVec.ofNat 32 j)) ∧
      ∀ fuel t, turn.run env fuel s = some t → ApartAll rest t
end Turns

section TurnRuns
variable {ω : Type} {env : Env ω} {s : PpuState ω} {sp : BitVec 64} {size : Nat} {turn : Turn}

def Turn.Loads (turn : Turn) (env : Env ω) (sp : BitVec 64) (size : Nat) (s : PpuState ω) : Prop :=
  ∃ u, (∀ fuel, straight env fuel turn.load s = some u) ∧
    Ready sp size turn.ptr turn.dec (s.mem.vm.be32 turn.global) u ∧ Still s u

theorem turn_grows (turn : Turn) : Grows fun n => turn.run env n :=
  grows_cons (straight_grows _) (grows_cons (release_grows _ _) grows_nil)

theorem turn_iff (returns : Returns env) (loads : turn.Loads env sp size s) :
    (∃ fuel t, turn.run env fuel s = some t ∧ turn.Releases (InFrame sp size) s t) ↔
      ∀ fuel t, straight env fuel turn.load s = some t → Countable env turn.ptr turn.dec t := by
  obtain ⟨u,loaded,ready,still⟩ := loads
  constructor
  · rintro ⟨fuel,t,ran,made,log,released⟩ n v again
    cases (loaded n).symm.trans again
    obtain ⟨_,one,ran⟩ := block_cons.mp ran
    cases (loaded fuel).symm.trans one
    obtain ⟨_,two,ran⟩ := block_cons.mp ran
    cases block_nil.mp ran
    rw [← still.calls] at log
    rw [← still.mem] at released
    exact release_counts returns (still.mem ▸ ready) two log released
  · intro countable
    obtain ⟨fuel,t,made,ran,log,released⟩ := release_goes returns ready (countable 0 u (loaded 0))
    rw [still.calls] at log
    rw [still.mem] at released
    exact ⟨fuel,t,block_cons.mpr ⟨u,loaded fuel,block_cons.mpr ⟨t,ran,block_nil.mpr rfl⟩⟩,made,log,released⟩

theorem releases_more (all : ReleasesAll env frame n turns s last) (more : n ≤ m) :
    ReleasesAll env frame m turns s last := by
  induction turns generalizing s with
  | nil => exact all
  | cons turn rest ih =>
      obtain ⟨t,ran,released,later⟩ := all
      exact ⟨t,turn_grows turn _ _ _ _ more ran,released,ih later⟩

theorem turns_iff (returns : Returns env) (invariant : List Turn → PpuState ω → Prop)
    (loads : ∀ turn rest s, invariant (turn::rest) s → turn.Loads env sp size s)
    (next : ∀ turn rest s fuel t, invariant (turn::rest) s → turn.run env fuel s = some t → invariant rest t)
    (turns : List Turn) (holds : invariant turns s) :
    (∃ fuel last, ReleasesAll env (InFrame sp size) fuel turns s last) ↔ CountableAll env turns s := by
  induction turns generalizing s with
  | nil => exact ⟨fun _ => trivial,fun _ => ⟨0,s,rfl⟩⟩
  | cons turn rest ih =>
      have here := turn_iff returns (loads turn rest s holds)
      constructor
      · rintro ⟨fuel,last,t,ran,released,later⟩
        refine ⟨here.mp ⟨fuel,t,ran,released⟩,fun n t' ran' => ?_⟩
        cases (turn_grows turn _ _ _ _ (Nat.le_max_left fuel n) ran).symm.trans
          (turn_grows turn _ _ _ _ (Nat.le_max_right fuel n) ran')
        exact (ih (next turn rest s fuel t holds ran)).mp ⟨fuel,last,later⟩
      · rintro ⟨first,others⟩
        obtain ⟨fuel,t,ran,released⟩ := here.mpr first
        obtain ⟨more,last,later⟩ := (ih (next turn rest s fuel t holds ran)).mpr (others fuel t ran)
        exact ⟨max fuel more,last,t,turn_grows turn _ _ _ _ (Nat.le_max_left _ _) ran,released,
          releases_more later (Nat.le_max_right _ _)⟩
end TurnRuns

-- What the turns do between a prologue that only makes the frame and an epilogue that changes no memory.
def ReleasesEach {ω : Type} (env : Env ω) (frame : BitVec 32 → Prop) (opening : List Insn) (turns : List Turn) (fuel : Nat)
    (entry left : PpuState ω) : Prop :=
  ∃ s last, straight env fuel opening entry = some s ∧ Agree frame s.mem.vm entry.mem.vm ∧ s.calls = entry.calls ∧
    ReleasesAll env frame fuel turns s last ∧ left.mem.vm = last.mem.vm ∧ left.calls = last.calls

def opening_0003B124 : List Insn :=
  [.stdu (-0x80),.mflr 0,.std 0 1 0x90,.std 30 1 0x70,.lis 3 0x29,.addi 30 3 (-20344),.lwz 30 30 4,.std 31 1 0x78]

def opening_00027110 : List Insn :=
  [.stdu (-0x90),.mflr 0,.std 0 1 0xA0,.std 31 1 0x88,.lis 31 0x28,.std 29 1 0x78,.addi 31 31 (-2060),.lwz 29 31 0x34,
    .std 30 1 0x80]

def turn_00027110 (ptr : Fin 32) (d : BitVec 64) : Turn := ⟨[.lwz ptr 31 d],ptr,30,0x27F7F4 + low32 d⟩

def turns_00027110 : List Turn :=
  ⟨[],29,30,0x27F828⟩::([0x2C,0x24,0x1C,0x14,0xC].map (turn_00027110 29) ++ [turn_00027110 31 4])

def closing_0003B124 : List Insn := [.ld 0 1 0x90,.mtlr 0,.ld 30 1 0x70,.ld 31 1 0x78,.addi 1 1 0x80]

def closing_00027110 : List Insn :=
  [.ld 0 1 0xA0,.mtlr 0,.ld 29 1 0x78,.ld 30 1 0x80,.ld 31 1 0x88,.addi 1 1 0x90]

section Opening
variable {ω : Type} {env : Env ω} {ctx : PpuCtx} {mem : Machine} {world : ω}

variable (mem world) in
theorem opening_runs (f : Lifted) (returns : Returns env) (stack : StackArea (ctx.gpr 1)) (one two : List Insn)
    (ptr base : Fin 32) (k off : BitVec 64) {d : BitVec 64} {φ ψ : Facts} (frame : f.base ctx = ctx.gpr 1 + d)
    (first : (Facts.mk [] [] f.slots f.wild).check one = some φ) (constant : φ.look base = some k)
    (second : φ.check (.lwz ptr base off::two) = some ψ)
    (quiet : (one ++ .lwz ptr base off::two).all (Insn.quiet f.size) = true)
    (spares : two.all (Insn.spares ptr) = true) (below : (low32 (k+off)).toNat + 4 ≤ 0x10000000) :
    ∃ s, (∀ fuel, straight env fuel (.stdu d::(one ++ .lwz ptr base off::two)) (entered ctx mem world) = some s) ∧
      Holds ctx (f.base ctx) ψ s ∧ Agree (InFrame (f.base ctx) f.size) s.mem.vm mem.vm ∧ s.calls = [] ∧
      s.gpr ptr = (mem.vm.be32 (low32 (k+off))).setWidth 64 ∧
      s.mem.vm.be32 (low32 (k+off)) = mem.vm.be32 (low32 (k+off)) := by
  have room := frame_room f stack
  have bound := (size_bound f).2
  obtain ⟨quiet1,quiet2⟩ := Bool.and_eq_true_iff.mp (List.all_append.symm.trans quiet)
  let s0 : PpuState ω := PpuState.set {entered ctx mem world with
    mem := {mem with vm := mem.vm.put64 ((ctx.gpr 1 + d).setWidth 32) (ctx.gpr 1)}} 1 (ctx.gpr 1 + d)
  have made (fuel : Nat) : Insn.run (entered ctx mem world) env fuel (.stdu d) = some s0 :=
    Option.map_eq_some_iff.mpr ⟨_,frame ▸ room_open room fuel mem (ctx.gpr 1),rfl⟩
  have holds0 : Holds ctx (f.base ctx) (Facts.mk [] [] f.slots f.wild) s0 := by
    refine ⟨(gpr_set_same _ _).trans frame.symm,nofun,nofun,nofun,fun _ r above _ => ?_,nofun⟩
    refine gpr_set_other _ ?_
    rintro rfl
    exact absurd above (by decide)
  have agree0 : Agree (InFrame (f.base ctx) f.size) s0.mem.vm mem.vm := by
    intro a outside
    refine put64_beside ?_
    rw [← frame]
    unfold InFrame at outside
    have small := (size_bound f).1
    exact Nat.le_trans (by omega) (Nat.not_lt.mp outside)
  obtain ⟨t,ran1,holds1,agree1,calls1⟩ := quiet_runs env room bound (slots_inside f) first quiet1 holds0
  have slots : SlotsIn f.size φ.slots := by
    rw [check_slots first]
    exact slots_inside f
  obtain ⟨s,ran2,holds2,agree2,calls2⟩ := quiet_runs env room bound slots second quiet2 holds1
  have apart (j : Fin 4) : ¬ InFrame (f.base ctx) f.size (low32 (k+off) + BitVec.ofNat 32 j) := by
    obtain ⟨above,_⟩ := room
    unfold InFrame
    rw [BitVec.toNat_sub,BitVec.toNat_add,BitVec.toNat_ofNat]
    omega
  have agree := agree1.trans agree0
  refine ⟨s,fun fuel => ?_,holds2,agree2.trans agree,calls2.trans calls1,?_,
    be32_congr fun j => (agree2.trans agree) _ (apart j)⟩
  · refine straight_cons.mpr ⟨s0,made fuel,?_⟩
    rw [straight_append]
    exact Option.bind_eq_some_iff.mpr ⟨t,ran1 fuel,ran2 fuel⟩
  · obtain ⟨u,load,rest⟩ := straight_cons.mp (ran2 0)
    cases load
    refine (spares_straight returns spares _ _ _ rfl rest).trans ((gpr_set_same _ _).trans ?_)
    rw [vm_read32_eq,look_known holds1 constant]
    exact congrArg _ (be32_congr fun j => agree _ (apart j))

variable (mem world) in
theorem opened_0003B124 (returns : Returns env) (stack : StackArea (ctx.gpr 1)) : ∃ s,
    (∀ fuel, straight env fuel opening_0003B124 (entered ctx mem world) = some s) ∧
      s.gpr 1 = Lifted.base .func_0003B124 ctx ∧
      Agree (InFrame (Lifted.base .func_0003B124 ctx) 0x80) s.mem.vm mem.vm ∧ s.calls = [] ∧
      s.gpr 30 = (mem.vm.be32 0x28B08C).setWidth 64 ∧ s.mem.vm.be32 0x28B08C = mem.vm.be32 0x28B08C := by
  obtain ⟨s,ran,holds,agree,calls,object,same⟩ := opening_runs mem world .func_0003B124 returns stack
    [.mflr 0,.std 0 1 0x90,.std 30 1 0x70,.lis 3 0x29,.addi 30 3 (-20344)] [.std 31 1 0x78] 30 30 0x28B088 4
    (BitVec.sub_eq_add_neg _ _) rfl (by decide +kernel) rfl
    (by decide) (by decide) (by decide)
  exact ⟨s,ran,holds.pointer,agree,calls,object,same⟩

variable (mem world) in
theorem opened_00027110 (returns : Returns env) (stack : StackArea (ctx.gpr 1)) : ∃ s,
    (∀ fuel, straight env fuel opening_00027110 (entered ctx mem world) = some s) ∧
      s.gpr 1 = Lifted.base .func_00027110 ctx ∧ s.gpr 31 = 0x27F7F4 ∧
      Agree (InFrame (Lifted.base .func_00027110 ctx) 0x90) s.mem.vm mem.vm ∧ s.calls = [] ∧
      s.gpr 29 = (s.mem.vm.be32 0x27F828).setWidth 64 := by
  obtain ⟨s,ran,holds,agree,calls,object,same⟩ := opening_runs mem world .func_00027110 returns stack
    [.mflr 0,.std 0 1 0xA0,.std 31 1 0x88,.lis 31 0x28,.std 29 1 0x78,.addi 31 31 (-2060)] [.std 30 1 0x80] 29 31
    0x27F7F4 0x34 (BitVec.sub_eq_add_neg _ _) rfl
    (by decide +kernel) rfl (by decide) (by decide) (by decide)
  exact ⟨s,ran,holds.pointer,look_known holds (by decide +kernel),agree,calls,object.trans (congrArg _ same.symm)⟩
end Opening

section Whole
variable {ω : Type} {env : Env ω} {ctx : PpuCtx} {mem : Machine} {world : ω} {s t : PpuState ω}

theorem func_00027110_turns (env : Env ω) (fuel : Nat) : func_00027110 env fuel =
    seq (straight env fuel opening_00027110)
      (seq (block (turns_00027110.map (Turn.run env fuel))) (straight env fuel closing_00027110)) := by
  have empty (s : PpuState ω) : straight env fuel [] s = some s := rfl
  have chain (p q : PpuState ω → Option (PpuState ω)) : seq p q = fun s => (p s).bind q := rfl
  funext s
  simp only [func_00027110,turns_00027110,turn_00027110,opening_00027110,closing_00027110,List.map_cons,List.map_nil,
    List.nil_append,List.cons_append,Turn.run,block,chain,Option.bind_assoc,Option.bind_some,empty,
    Option.bind_fun_some]

theorem released_agree {frame : BitVec 32 → Prop} {one two vm' : GuestMem} (agree : Agree frame one two)
    (apart : ∀ j < 12, ¬ frame (p + BitVec.ofNat 32 j)) (released : Released frame p one vm' calls) :
    Released frame p two vm' calls := by
  have count : one.be32 (p+4) = two.be32 (p+4) := be32_congr fun j => agree _ (by
    rw [BitVec.add_assoc]
    exact (BitVec.ofNat_add 4 j.val) ▸ apart (4+j) (by omega))
  have lowered : Agree frame (one.put32 (p+4) (one.be32 (p+4) - 1)) (two.put32 (p+4) (two.be32 (p+4) - 1)) := by
    intro a outside
    rw [put32_at,put32_at,count,agree a outside]
  unfold Released at released ⊢
  split at released
  · rename_i none
    rw [if_pos none]
    exact ⟨released.1,released.2.trans agree⟩
  · rename_i some
    rw [if_neg some,← count]
    rw [← count] at lowered
    split at released
    · rename_i more
      rw [if_pos more]
      exact ⟨released.1,released.2.trans lowered⟩
    · rename_i last
      rw [if_neg last]
      obtain ⟨first,rest,log,enters,before,later⟩ := released
      exact ⟨first,rest,log,enters,before.trans lowered,later⟩

variable (env) in
theorem closed_0003B124 (s : PpuState ω) : ∃ left, (∀ fuel, straight env fuel closing_0003B124 s = some left) ∧
    left.mem = s.mem ∧ left.calls = s.calls := ⟨_,fun _ => rfl,rfl,rfl⟩

variable (env) in
theorem closed_00027110 (s : PpuState ω) : ∃ left, (∀ fuel, straight env fuel closing_00027110 s = some left) ∧
    left.mem = s.mem ∧ left.calls = s.calls := ⟨_,fun _ => rfl,rfl,rfl⟩

theorem releases_run {frame : BitVec 32 → Prop} (all : ReleasesAll env frame fuel turns s t) :
    block (turns.map (Turn.run env fuel)) s = some t := by
  induction turns generalizing s with
  | nil => exact congrArg some all.symm
  | cons turn rest ih =>
      obtain ⟨u,ran,_,later⟩ := all
      exact block_cons.mpr ⟨u,ran,ih later⟩

theorem func_0003B124_iff (returns : Returns env) (stack : StackArea (ctx.gpr 1))
    (apart : ∀ j < 12, ¬ InFrame (Lifted.base .func_0003B124 ctx) 0x80 (mem.vm.be32 0x28B08C + BitVec.ofNat 32 j)) :
    (∃ fuel left, func_0003B124 env fuel (entered ctx mem world) = some left ∧
      Released (InFrame (Lifted.base .func_0003B124 ctx) 0x80) (mem.vm.be32 0x28B08C) mem.vm left.mem.vm left.calls) ↔
    ∀ fuel s, straight env fuel opening_0003B124 (entered ctx mem world) = some s → Countable env 30 31 s := by
  obtain ⟨s,opened,pointer,agree,calls,object,_⟩ := opened_0003B124 mem world returns stack
  have ready : Ready (Lifted.base .func_0003B124 ctx) 0x80 30 31 (mem.vm.be32 0x28B08C) s :=
    ⟨frame_room .func_0003B124 stack,by decide,by decide,pointer,object,apart⟩
  constructor
  · rintro ⟨fuel,left,ran,released⟩ n s' again
    cases (opened n).symm.trans again
    obtain ⟨_,one,ran⟩ := block_cons.mp ran
    cases (opened fuel).symm.trans one
    obtain ⟨t,two,ran⟩ := block_cons.mp ran
    obtain ⟨_,three,ran⟩ := block_cons.mp ran
    cases block_nil.mp ran
    obtain ⟨left,closed,memory,log⟩ := closed_0003B124 env t
    cases (closed fuel).symm.trans three
    rw [memory] at released
    have made : t.calls = s.calls ++ left.calls := by
      rw [calls,List.nil_append,log]
    exact release_counts returns ready two made (released_agree agree.symm apart released)
  · intro countable
    obtain ⟨fuel,t,made,ran,log,released⟩ := release_goes returns ready (countable 0 s (opened 0))
    obtain ⟨left,closed,memory,same⟩ := closed_0003B124 env t
    rw [calls,List.nil_append] at log
    refine ⟨fuel,left,?_,?_⟩
    · exact block_cons.mpr ⟨s,opened fuel,block_cons.mpr ⟨t,ran,block_cons.mpr ⟨left,closed fuel,
        block_nil.mpr rfl⟩⟩⟩
    · rw [memory,same,log]
      exact released_agree agree apart released

-- gpr[31] holds the table until the last turn loads its pointer there.
def Tabled (ctx : PpuCtx) (s : PpuState ω) : Prop := s.gpr 1 = Lifted.base .func_00027110 ctx ∧ s.gpr 31 = 0x27F7F4

def Ahead (ctx : PpuCtx) (turns : List Turn) (s : PpuState ω) : Prop :=
  turns = [] ∨ (Tabled ctx s ∧ (∃ ds : List (BitVec 64), turns = ds.map (turn_00027110 29) ++ [turn_00027110 31 4])) ∨
    (turns = turns_00027110 ∧ Tabled ctx s ∧ s.gpr 29 = (s.mem.vm.be32 0x27F828).setWidth 64)

theorem tabled_load (stack : StackArea (ctx.gpr 1)) (tabled : Tabled ctx s) {ptr : Fin 32} (high : 29 ≤ ptr ∧ ptr ≠ 30)
    (d : BitVec 64) (apart : ∀ j < 12,
      ¬ InFrame (Lifted.base .func_00027110 ctx) 0x90 (s.mem.vm.be32 (turn_00027110 ptr d).global + BitVec.ofNat 32 j)) :
    (turn_00027110 ptr d).Loads env (Lifted.base .func_00027110 ctx) 0x90 s := by
  obtain ⟨pointer,table⟩ := tabled
  have one : (1 : Fin 32) ≠ ptr := by
    rintro rfl
    exact absurd high.1 (by decide)
  refine ⟨_,fun _ => rfl,⟨frame_room .func_00027110 stack,by decide,
    ⟨high.1,(by decide : (29 : Fin 32) ≤ 30),high.2⟩,?_,?_,apart⟩,rfl,rfl,rfl⟩
  · exact (gpr_set_other _ one).trans pointer
  · refine (gpr_set_same _ _).trans (congrArg _ ?_)
    rw [table,vm_read32_eq]
    exact congrArg _ (low32_add _ _)

theorem tabled_next (returns : Returns env) (tabled : Tabled ctx s) (load : List Insn)
    (spares : load.all (fun i => i.spares 1 && i.spares 31) = true)
    (ran : block [straight env fuel load,release env fuel 29 30] s = some t) : Tabled ctx t := by
  have each (r : Fin 32) (first : load.all (Insn.spares r) = true)
      (later : (release_pieces 29 30).all (fun code => code.all (Insn.spares r)) = true) : t.gpr r = s.gpr r := by
    obtain ⟨u,one,ran⟩ := block_cons.mp ran
    obtain ⟨_,two,ran⟩ := block_cons.mp ran
    cases block_nil.mp ran
    exact (release_spares returns later two).trans (spares_straight returns first _ _ _ rfl one)
  have both (i : Insn) (member : i ∈ load) := Bool.and_eq_true_iff.mp (List.all_eq_true.mp spares i member)
  refine ⟨(each 1 ?_ (by decide)).trans tabled.1,(each 31 ?_ (by decide)).trans tabled.2⟩
  · exact List.all_eq_true.mpr fun i member => (both i member).1
  · exact List.all_eq_true.mpr fun i member => (both i member).2

theorem ahead_next (returns : Returns env) (ahead : Ahead ctx (turn::rest) s) (ran : turn.run env fuel s = some t) :
    Ahead ctx rest t := by
  rcases ahead with none | ⟨tabled,ds,all⟩ | ⟨all,tabled,_⟩
  · cases none
  · cases ds with
    | nil =>
        cases all
        exact .inl rfl
    | cons d ds =>
        cases all
        exact .inr (.inl ⟨tabled_next returns tabled [.lwz 29 31 d] rfl ran,ds,rfl⟩)
  · cases all
    exact .inr (.inl ⟨tabled_next returns tabled [] rfl ran,_,rfl⟩)

variable (env) in
theorem ahead_loads (stack : StackArea (ctx.gpr 1)) (ahead : Ahead ctx (turn::rest) s)
    (apart : ∀ j < 12, ¬ InFrame (Lifted.base .func_00027110 ctx) 0x90 (s.mem.vm.be32 turn.global + BitVec.ofNat 32 j)) :
    turn.Loads env (Lifted.base .func_00027110 ctx) 0x90 s := by
  rcases ahead with none | ⟨tabled,ds,all⟩ | ⟨all,tabled,object⟩
  · cases none
  · cases ds with
    | nil =>
        cases all
        exact tabled_load stack tabled (by decide) 4 apart
    | cons d ds =>
        cases all
        exact tabled_load stack tabled (by decide) d apart
  · cases all
    exact ⟨s,fun _ => rfl,⟨frame_room .func_00027110 stack,by decide,by decide,tabled.1,object,apart⟩,rfl,rfl,rfl⟩

theorem func_00027110_iff (returns : Returns env) (stack : StackArea (ctx.gpr 1))
    (apart : ∀ fuel s, straight env fuel opening_00027110 (entered ctx mem world) = some s →
      ApartAll env (InFrame (Lifted.base .func_00027110 ctx) 0x90) turns_00027110 s) :
    (∃ fuel left, func_00027110 env fuel (entered ctx mem world) = some left ∧
      ReleasesEach env (InFrame (Lifted.base .func_00027110 ctx) 0x90) opening_00027110 turns_00027110 fuel
        (entered ctx mem world) left) ↔
    ∀ fuel s, straight env fuel opening_00027110 (entered ctx mem world) = some s →
      CountableAll env turns_00027110 s := by
  obtain ⟨s,opened,pointer,table,agree,calls,object⟩ := opened_00027110 mem world returns stack
  have runs := turns_iff returns (fun turns s => Ahead ctx turns s ∧
      ApartAll env (InFrame (Lifted.base .func_00027110 ctx) 0x90) turns s)
    (fun turn rest s holds => ahead_loads env stack holds.1 holds.2.1)
    (fun turn rest s fuel t holds ran => ⟨ahead_next returns holds.1 ran,holds.2.2 fuel t ran⟩)
    turns_00027110 (s:=s) ⟨.inr (.inr ⟨rfl,⟨pointer,table⟩,object⟩),apart 0 s (opened 0)⟩
  constructor
  · rintro ⟨fuel,left,_,s',last,again,_,_,all,_⟩ n s'' reached
    cases (opened fuel).symm.trans again
    cases (opened n).symm.trans reached
    exact runs.mp ⟨fuel,last,all⟩
  · intro countable
    obtain ⟨fuel,last,all⟩ := runs.mpr (countable 0 s (opened 0))
    obtain ⟨left,closed,memory,same⟩ := closed_00027110 env last
    refine ⟨fuel,left,?_,s,last,opened fuel,agree,calls,all,congrArg _ memory,same⟩
    rw [func_00027110_turns]
    exact Option.bind_eq_some_iff.mpr ⟨s,opened fuel,Option.bind_eq_some_iff.mpr ⟨last,releases_run all,closed fuel⟩⟩
end Whole

section NoObjects
variable {ω : Type} {env : Env ω} {ctx : PpuCtx} {s : PpuState ω}

theorem turns_nothing (returns : Returns env) (stack : StackArea (ctx.gpr 1)) (ahead : Ahead ctx turns s)
    (none : ∀ turn ∈ turns, s.mem.vm.be32 turn.global = 0) (low : ∀ turn ∈ turns, turn.global.toNat < 0x10000000) :
    ApartAll env (InFrame (Lifted.base .func_00027110 ctx) 0x90) turns s ∧ CountableAll env turns s := by
  have room := frame_room .func_00027110 stack
  induction turns generalizing s with
  | nil => exact ⟨trivial,trivial⟩
  | cons turn rest ih =>
      have object := none turn List.mem_cons_self
      have apart (j : Nat) (inside : j < 12) : ¬ InFrame (Lifted.base .func_00027110 ctx) 0x90
          (s.mem.vm.be32 turn.global + BitVec.ofNat 32 j) := by
        rw [object]
        refine frame_registers room (by decide) _ ?_
        rw [BitVec.toNat_add,BitVec.toNat_ofNat]
        simp
        omega
      have loads := ahead_loads env stack ahead apart
      have countable : ∀ fuel t, straight env fuel turn.load s = some t → Countable env turn.ptr turn.dec t := by
        obtain ⟨u,loaded,ready,_⟩ := loads
        intro fuel t again
        cases (loaded fuel).symm.trans again
        refine .inl ?_
        rw [ready.object,low32_zext,object]
      obtain ⟨k,u,ran,made,_,released⟩ := (turn_iff returns loads).mpr countable
      have next : ∀ fuel t, turn.run env fuel s = some t → ApartAll env
          (InFrame (Lifted.base .func_00027110 ctx) 0x90) rest t ∧ CountableAll env rest t := by
        intro fuel t ran'
        cases (turn_grows turn _ _ _ _ (Nat.le_max_left k fuel) ran).symm.trans
          (turn_grows turn _ _ _ _ (Nat.le_max_right k fuel) ran')
        unfold Released at released
        rw [if_pos object] at released
        refine ih (ahead_next returns ahead ran) (fun other member => ?_) fun other member =>
          low other (List.mem_cons_of_mem _ member)
        rw [← none other (List.mem_cons_of_mem _ member)]
        refine be32_congr fun j => released.2 _ ?_
        have small := low other (List.mem_cons_of_mem _ member)
        obtain ⟨above,_⟩ := room
        unfold InFrame
        rw [BitVec.toNat_sub,BitVec.toNat_add,BitVec.toNat_ofNat]
        omega
      exact ⟨⟨apart,fun fuel t ran => (next fuel t ran).1⟩,countable,fun fuel t ran => (next fuel t ran).2⟩
end NoObjects

-- Each function does what the counts ask for exactly where every loop finds its count at 1 and
-- its walk, from the gpr[0] at hand, ends at 0. The objects lie outside the frame.
theorem reference_counts_iff {ω : Type} (env : Env ω) (ctx : PpuCtx) (mem : Machine) (world : ω) (returns : Returns env)
    (stack : StackArea (ctx.gpr 1)) :
    ((∀ j < 12, ¬ InFrame (Lifted.base .func_0003B124 ctx) 0x80 (mem.vm.be32 0x28B08C + BitVec.ofNat 32 j)) →
      ((∃ fuel left, func_0003B124 env fuel (entered ctx mem world) = some left ∧
        Released (InFrame (Lifted.base .func_0003B124 ctx) 0x80) (mem.vm.be32 0x28B08C) mem.vm left.mem.vm left.calls) ↔
      ∀ fuel s, straight env fuel opening_0003B124 (entered ctx mem world) = some s → Countable env 30 31 s)) ∧
    ((∀ fuel s, straight env fuel opening_00027110 (entered ctx mem world) = some s →
        ApartAll env (InFrame (Lifted.base .func_00027110 ctx) 0x90) turns_00027110 s) →
      ((∃ fuel left, func_00027110 env fuel (entered ctx mem world) = some left ∧
        ReleasesEach env (InFrame (Lifted.base .func_00027110 ctx) 0x90) opening_00027110 turns_00027110 fuel
          (entered ctx mem world) left) ↔
      ∀ fuel s, straight env fuel opening_00027110 (entered ctx mem world) = some s →
        CountableAll env turns_00027110 s)) :=
  ⟨func_0003B124_iff returns stack,func_00027110_iff returns stack⟩

-- An object at 0x1000000 that the pointer of func_0003B124 refers to, with `count` references.
def counted (count : BitVec 32) : Machine :=
  {zeroed with vm := ((zeroed.vm.put32 0x28B08C 0x1000000).put32 0x1000004 count).put32 0x1000008 1}

theorem idle_returns : Returns idle := fun _ _ _ => ⟨_,rfl,rfl,rfl,fun _ _ => rfl⟩

theorem counted_object (count : BitVec 32) : (counted count).vm.be32 0x28B08C = 0x1000000 := by
  rw [counted,be32_put32_clear (by decide),be32_put32_clear (by decide),be32_put32]

theorem counted_apart (count : BitVec 32) (j : Nat) (inside : j < 12) : ¬ InFrame
    (Lifted.base .func_0003B124 (at_stack 0xD0010000)) 0x80 ((counted count).vm.be32 0x28B08C + BitVec.ofNat 32 j) := by
  have base : low32 (Lifted.base .func_0003B124 (at_stack 0xD0010000)) = 0xD000FF80 := by decide
  rw [counted_object,InFrame,base,BitVec.toNat_sub,BitVec.toNat_add,BitVec.toNat_ofNat]
  simp
  omega

-- Both counts 1 and LR 0: the release that goes well.
theorem single_reference {s : PpuState Unit}
    (opened : straight idle fuel opening_0003B124 (entered (at_stack 0xD0010000) (counted 1) ()) = some s) :
    Countable idle 30 31 s := by
  have reached : straight idle 0 opening_0003B124 (entered (at_stack 0xD0010000) (counted 1) ()) = some s := by
    have stack : StackArea ((at_stack 0xD0010000).gpr 1) := .inr (by decide)
    obtain ⟨s',ran,_⟩ := opened_0003B124 (counted 1) () idle_returns stack
    cases (ran fuel).symm.trans opened
    exact ran 0
  have start : ((straight idle 0 opening_0003B124 (entered (at_stack 0xD0010000) (counted 1) ())).map fun s =>
      (low32 (s.gpr 30),s.mem.vm.be32 0x1000004,low32 (s.gpr 0))) = some (0x1000000,1,0) := by decide +kernel
  have called : ((straight idle 0 opening_0003B124 (entered (at_stack 0xD0010000) (counted 1) ())).bind
      (up_to_call idle 1 30 31)).map (fun u => (u.mem.vm.be32 0x1000008,low32 (u.gpr 0))) = some (1,0) := by
    decide +kernel
  rw [reached] at start called
  rw [Option.bind_some] at called
  obtain ⟨object,count,result⟩ : low32 (s.gpr 30) = 0x1000000 ∧ s.mem.vm.be32 0x1000004 = 1 ∧ low32 (s.gpr 0) = 0 := by
    simpa using start
  obtain ⟨u,ran,same⟩ := Option.map_eq_some_iff.mp called
  have places : (0x1000000 : BitVec 32) + 4 = 0x1000004 ∧ (0x1000000 : BitVec 32) + 8 = 0x1000008 := by decide
  refine .inr ?_
  rw [object,result,places.1,places.2]
  refine ⟨⟨count,⟨0,rfl⟩,by decide,fun put => absurd put (by decide)⟩,fun n v again => ?_⟩
  cases (up_to_call_grows _ _ _ _ (Nat.le_max_left 1 n) ran).symm.trans
    (up_to_call_grows _ _ _ _ (Nat.le_max_right 1 n) again)
  obtain ⟨second,left⟩ := Prod.mk.inj same
  exact ⟨second,⟨0,left⟩,by decide,fun put => absurd put (by decide)⟩

theorem no_references {s : PpuState Unit}
    (opened : straight idle fuel opening_00027110 (entered (at_stack 0xD0010000) (counted 1) ()) = some s) :
    ApartAll idle (InFrame (Lifted.base .func_00027110 (at_stack 0xD0010000)) 0x90) turns_00027110 s ∧
      CountableAll idle turns_00027110 s := by
  have stack : StackArea ((at_stack 0xD0010000).gpr 1) := .inr (by decide)
  obtain ⟨s',ran,pointer,table,_,_,object⟩ := opened_00027110 (counted 1) () idle_returns stack
  cases (ran fuel).symm.trans opened
  have globals : ((straight idle 0 opening_00027110 (entered (at_stack 0xD0010000) (counted 1) ())).map fun s =>
      turns_00027110.map fun turn => s.mem.vm.be32 turn.global) = some (List.replicate 7 0) := by decide +kernel
  rw [ran 0] at globals
  have all : (turns_00027110.map fun turn => s.mem.vm.be32 turn.global) = List.replicate 7 0 := Option.some.inj globals
  refine turns_nothing idle_returns stack (.inr (.inr ⟨rfl,⟨pointer,table⟩,object⟩)) (fun turn member => ?_) (by decide)
  have read : s.mem.vm.be32 turn.global ∈ turns_00027110.map fun turn => s.mem.vm.be32 turn.global :=
    List.mem_map_of_mem member
  rw [all] at read
  exact List.eq_of_mem_replicate read

theorem reference_counts_iff_single :
    (∃ fuel left, func_0003B124 idle fuel (entered (at_stack 0xD0010000) (counted 1) ()) = some left ∧
      Released (InFrame (Lifted.base .func_0003B124 (at_stack 0xD0010000)) 0x80) ((counted 1).vm.be32 0x28B08C)
        (counted 1).vm left.mem.vm left.calls) ∧
    ∃ fuel left, func_00027110 idle fuel (entered (at_stack 0xD0010000) (counted 1) ()) = some left ∧
      ReleasesEach idle (InFrame (Lifted.base .func_00027110 (at_stack 0xD0010000)) 0x90) opening_00027110
        turns_00027110 fuel (entered (at_stack 0xD0010000) (counted 1) ()) left := by
  have both := reference_counts_iff idle (at_stack 0xD0010000) (counted 1) () idle_returns (.inr (by decide))
  refine ⟨(both.1 (counted_apart 1)).mpr fun _ _ opened => single_reference opened,?_⟩
  exact (both.2 fun _ _ opened => (no_references opened).1).mpr fun _ _ opened => (no_references opened).2

-- With two references the loop never lowers the count and comes to an end.
theorem second_reference_stays : ¬ ∀ (env : Env Unit) (ctx : PpuCtx) (mem : Machine), Returns env →
    StackArea (ctx.gpr 1) →
    (∀ j < 12, ¬ InFrame (Lifted.base .func_0003B124 ctx) 0x80 (mem.vm.be32 0x28B08C + BitVec.ofNat 32 j)) →
    ∃ fuel left, func_0003B124 env fuel (entered ctx mem ()) = some left ∧
      Released (InFrame (Lifted.base .func_0003B124 ctx) 0x80) (mem.vm.be32 0x28B08C) mem.vm left.mem.vm left.calls := by
  intro always
  have stack : StackArea ((at_stack 0xD0010000).gpr 1) := .inr (by decide)
  have does := always idle (at_stack 0xD0010000) (counted 2) idle_returns stack (counted_apart 2)
  obtain ⟨s,opened,_⟩ := opened_0003B124 (counted 2) () idle_returns stack
  have countable := (func_0003B124_iff idle_returns stack (counted_apart 2)).mp does 0 s (opened 0)
  have start : ((straight idle 0 opening_0003B124 (entered (at_stack 0xD0010000) (counted 2) ())).map fun s =>
      (low32 (s.gpr 30),s.mem.vm.be32 0x1000004)) = some (0x1000000,2) := by decide +kernel
  rw [opened 0] at start
  obtain ⟨object,count⟩ : low32 (s.gpr 30) = 0x1000000 ∧ s.mem.vm.be32 0x1000004 = 2 := by
    simpa using start
  rcases countable with none | ⟨counts,_⟩
  · rw [object] at none
    exact absurd none (by decide)
  · rw [object] at counts
    exact absurd (count.symm.trans counts.1) (by decide)
end BudokaiRuntime.Ppu
