import Mathlib.Data.Fintype.Basic
import Mathlib.Data.Fin.VecNotation
import BudokaiRuntime.Foundations.ProgramGraph
import BudokaiRuntime.Ppu.Context

-- The pass that makes the register add and subtract 64 bits wide, over whole programs
-- of the lifted statements.
namespace BudokaiRuntime.Ppu.AddFix
open Guest ProgramGraph

-- The templates the pass knows beside those of Context, operands in the order written:
-- the truncated difference, the two full forms and the general rotate.
inductive Stmt where
  | plain (i : Insn)
  | subf (rd ra rb : Fin 32)
  | add64 (rd ra rb : Fin 32)
  | subf64 (rd ra rb : Fin 32)
  | rldicl (rd ra : Fin 32) (sh mb : Nat)

-- `(ctx->cr >> sh) & mask`
structure Test where
  sh : Nat
  mask : BitVec 32

section Semantics
variable {ω : Type} (env : Env ω) (fuel : Nat)

def Stmt.exec (s : PpuState ω) : Stmt → Option (PpuState ω)
  | .plain i => i.run s env fuel
  | .subf rd ra rb => some (s.set rd ((low32 (s.gpr ra) - low32 (s.gpr rb)).signExtend 64))
  | .add64 rd ra rb => some (s.set rd (s.gpr ra + s.gpr rb))
  | .subf64 rd ra rb => some (s.set rd (s.gpr ra - s.gpr rb))
  | .rldicl rd ra sh mb => some (s.set rd (ppc_rldicl (s.gpr ra) sh mb))

def Test.holds (t : Test) (s : PpuState ω) : Bool := (s.ctx.cr >>> t.sh) &&& t.mask != 0
end Semantics

def Stmt.apply_addfix : Stmt → Stmt
  | .plain (.add rd ra rb) => .add64 rd ra rb
  | .subf rd ra rb => .subf64 rd ra rb
  | i => i

abbrev Program (ℓ : Type) : Type := ℓ → Op Stmt Test ℓ

def apply_addfix (prog : Program ℓ) : Program ℓ := fun l => (prog l).map Stmt.apply_addfix

def lifted {ω : Type} (env : Env ω) (fuel : Nat) (prog : Program ℓ) :
    Nat → Config ℓ (PpuState ω) → Option (Config ℓ (PpuState ω)) :=
  run (fun i s => i.exec env fuel s) Test.holds prog

-- The registers whose upper halves the pass may have changed.
abbrev Taint : Type := Finset (Fin 32)

structure Agree (T : Taint) (c d : PpuCtx) : Prop where
  low : ∀ r, low32 (c.gpr r) = low32 (d.gpr r)
  clean : ∀ r ∉ T, c.gpr r = d.gpr r
  cr : c.cr = d.cr
  lr : c.lr = d.lr
  ctr : c.ctr = d.ctr
  reserve_addr : c.reserve_addr = d.reserve_addr
  reserve_value : c.reserve_value = d.reserve_value

structure Same {ω : Type} (T : Taint) (s t : PpuState ω) : Prop where
  ctx : Agree T s.ctx t.ctx
  mem : s.mem = t.mem
  world : s.world = t.world

-- Which upper halves a callee does not look at, and which it may leave changed.
abbrev Contract : Type := Callee → Taint × Taint

def Keeps {ω : Type} (env : Env ω) (contract : Contract) : Prop :=
  ∀ f c d mem world, Agree (contract f).1 c d →
    Both (fun x y => Agree (contract f).2 x.1 y.1 ∧ x.2 = y.2) (env f (c,mem,world)) (env f (d,mem,world))

def Taint.copy (T : Taint) (rd : Fin 32) (from_ : List (Fin 32)) : Taint :=
  if from_.any (· ∈ T) then insert rd T else T.erase rd

def Taint.unless (T : Taint) (r : Fin 32) (next : Taint) : Option Taint := if r ∈ T then none else some next

-- No statement may use the upper half of such a register: neither as the upper half
-- of a doubleword it stores, nor to bring it down.
def transfer (contract : Contract) (T : Taint) : Stmt → Option Taint
  | .plain (.add rd _ _) | .subf rd _ _ => some (insert rd T)
  | .add64 rd ra rb | .subf64 rd ra rb => some (T.copy rd [ra,rb])
  | .plain (.ori rd ra _) | .plain (.mr rd ra) => some (T.copy rd [ra])
  | .rldicl rd ra sh mb => if sh = 0 ∧ 32 ≤ mb ∧ mb ≤ 63 then some (T.erase rd) else T.unless ra (T.erase rd)
  | .plain (.mtlr ra) => T.unless ra T
  | .plain (.std rs _ _) => T.unless rs T
  | .plain (.stdu _) => T.unless 1 T
  | .plain (.call f) => if T ≤ (contract f).1 then some (contract f).2 else none
  | .plain (.mtctr _) | .plain (.cmpwi _ _ _) | .plain (.cmpw _ _ _) | .plain (.stb _ _ _) | .plain (.stw _ _ _)
  | .plain (.stwcx _ _ _) => some T
  | .plain (.li rd _) | .plain (.lis rd _) | .plain (.addi rd _ _) | .plain (.clrldi rd _) | .plain (.mflr rd)
  | .plain (.lbz rd _ _) | .plain (.lwz rd _ _) | .plain (.ld rd _ _) | .plain (.lwarx rd _ _) => some (T.erase rd)

section Updates
variable {ω : Type} {T U : Taint} {s t : PpuState ω} {v w : BitVec 64}

theorem agree_weaken {c d : PpuCtx} (less : T ≤ U) (agree : Agree T c d) : Agree U c d :=
  {agree with clean := fun r out => agree.clean r fun inside => out (less inside)}

theorem same_low (same : Same T s t) (r : Fin 32) : low32 (s.gpr r) = low32 (t.gpr r) := same.ctx.low r

theorem same_address (same : Same T s t) (r : Fin 32) (d : BitVec 64) :
    low32 (s.gpr r + d) = low32 (t.gpr r + d) := by
  rw [low32_add,low32_add,same_low same]

theorem same_indexed (same : Same T s t) (ra rb : Fin 32) :
    low32 (s.gpr ra + s.gpr rb) = low32 (t.gpr ra + t.gpr rb) := by
  rw [low32_add,low32_add,same_low same,same_low same]

theorem same_set (same : Same T s t) (rd : Fin 32) (low : low32 v = low32 w) (kept : T.erase rd ≤ U)
    (equal : rd ∉ U → v = w) : Same U (s.set rd v) (t.set rd w) where
  mem := same.mem
  world := same.world
  ctx := {same.ctx with
    low := fun r => by
      show low32 ((s.set rd v).gpr r) = low32 ((t.set rd w).gpr r)
      rw [gpr_set,gpr_set]
      split
      · exact low
      · exact same.ctx.low r
    clean := fun r out => by
      show (s.set rd v).gpr r = (t.set rd w).gpr r
      rw [gpr_set,gpr_set]
      split
      · rename_i here
        exact equal (here ▸ out)
      · rename_i other
        exact same.ctx.clean r fun inside => out (kept (Finset.mem_erase.mpr ⟨other,inside⟩))}

theorem same_clean (same : Same T s t) (rd : Fin 32) (equal : v = w) : Same (T.erase rd) (s.set rd v) (t.set rd w) :=
  same_set same rd (congrArg low32 equal) le_rfl fun _ => equal

theorem same_mark (same : Same T s t) (rd : Fin 32) (low : low32 v = low32 w) :
    Same (insert rd T) (s.set rd v) (t.set rd w) :=
  same_set same rd low ((Finset.erase_subset rd T).trans (Finset.subset_insert rd T)) fun out =>
    absurd (Finset.mem_insert_self rd T) out

theorem same_copy (same : Same T s t) (rd : Fin 32) (from_ : List (Fin 32)) (low : low32 v = low32 w)
    (equal : (∀ r ∈ from_, s.gpr r = t.gpr r) → v = w) : Same (T.copy rd from_) (s.set rd v) (t.set rd w) := by
  unfold Taint.copy
  split
  · exact same_mark same rd low
  · rename_i none_in
    refine same_clean same rd (equal fun r from_r => same.ctx.clean r fun inside => none_in ?_)
    exact List.any_eq_true.mpr ⟨r,from_r,decide_eq_true inside⟩

theorem Same.clean_gpr (same : Same T s t) {r : Fin 32} (out : r ∉ T) : s.gpr r = t.gpr r := same.ctx.clean r out

theorem unless_some {r : Fin 32} (passed : T.unless r U = some V) : r ∉ T ∧ U = V := by
  unfold Taint.unless at passed
  split at passed
  · cases passed
  · rename_i out
    exact ⟨out,Option.some.inj passed⟩
end Updates

section Accesses
variable {a b : BitVec 64}

theorem read8_low (vm : GuestMem) (low : low32 a = low32 b) : vm_read8 vm a = vm_read8 vm b := congrArg vm low

theorem read32_low (vm : GuestMem) (low : low32 a = low32 b) : vm_read32 vm a = vm_read32 vm b := by
  have place : a.setWidth 32 = b.setWidth 32 := low
  unfold vm_read32
  rw [place]

theorem upper_low (low : low32 a = low32 b) : low32 (a+4) = low32 (b+4) := by
  rw [low32,low32,next_word,next_word]
  exact congrArg (· + 4) low

theorem read64_low (vm : GuestMem) (low : low32 a = low32 b) : vm_read64 vm a = vm_read64 vm b := by
  unfold vm_read64
  rw [read32_low vm low,read32_low vm (upper_low low)]

theorem write8_low (m : Machine) (low : low32 a = low32 b) (v : BitVec 8) : vm_write8 m a v = vm_write8 m b v := by
  have place : a.setWidth 32 = b.setWidth 32 := low
  unfold vm_write8
  rw [place]

theorem write32_low (fuel : Nat) (m : Machine) (low : low32 a = low32 b) (v : BitVec 32) :
    vm_write32 fuel m a v = vm_write32 fuel m b v := by
  have place : a.setWidth 32 = b.setWidth 32 := low
  unfold vm_write32
  rw [place]

theorem write64_low (fuel : Nat) (m : Machine) (low : low32 a = low32 b) (v : BitVec 64) :
    vm_write64 fuel m a v = vm_write64 fuel m b v := by
  unfold vm_write64
  rw [write32_low fuel m low]
  refine congrArg _ (funext fun m => ?_)
  exact write32_low fuel m (upper_low low) _
end Accesses

theorem mask64_low (first : 0 < mb) (inside : mb ≤ 63) : ppc_mask64 mb 63 = BitVec.allOnes 64 >>> mb := by
  have all : (~~~0 : BitVec 64) = BitVec.allOnes 64 := rfl
  unfold ppc_mask64
  rw [if_pos inside,if_neg (Nat.pos_iff_ne_zero.mp first),if_pos rfl,all]
  exact BitVec.and_allOnes

theorem rldicl_low (low : low32 a = low32 b) (wide : 32 ≤ mb) (inside : mb ≤ 63) :
    ppc_rldicl a 0 mb = ppc_rldicl b 0 mb := by
  unfold ppc_rldicl
  rw [rotl64_zero,rotl64_zero,mask64_low (by omega) inside]
  apply BitVec.eq_of_getLsbD_eq
  intro i bound
  rw [BitVec.getLsbD_and,BitVec.getLsbD_and,BitVec.getLsbD_ushiftRight,BitVec.getLsbD_allOnes]
  by_cases kept : mb+i < 64
  · have bit := congrArg (BitVec.getLsbD · i) low
    have small : i < 32 := by omega
    rw [low32,low32,BitVec.getLsbD_setWidth,BitVec.getLsbD_setWidth,decide_eq_true small] at bit
    exact congrArg (· && _) bit
  · rw [decide_eq_false kept,Bool.and_false,Bool.and_false]

theorem clrldi_low (low : low32 a = low32 b) : ppc_rldicl a 0 32 = ppc_rldicl b 0 32 :=
  rldicl_low low le_rfl (by decide)

theorem sub_low (a b : BitVec 64) : low32 (a-b) = low32 a - low32 b := by
  have back : low32 (a-b) + low32 b = low32 a := by
    rw [← low32_add,BitVec.sub_add_cancel]
  rw [← back,BitVec.add_sub_cancel]

section Statements
variable {ω : Type} {env : Env ω} {contract : Contract} {T U : Taint} {s t : PpuState ω}

theorem same_wrote {out out' : Option Machine} {f g : Machine → PpuState ω} (wrote : out = out')
    (next : ∀ mem, Same T (f mem) (g mem)) : Both (Same T) (out.map f) (out'.map g) := by
  subst wrote
  cases out with
  | none => exact .stops
  | some mem => exact .arrives (next mem)

theorem same_memory (same : Same T s t) (mem : Machine) (one two : List (BitVec 32)) :
    Same T {s with mem,stored := one} {t with mem,stored := two} := ⟨same.ctx,rfl,same.world⟩

theorem same_compare (same : Same T s t) (sh : Nat) (a b : BitVec 32) :
    Same T (s.compare sh a b) (t.compare sh a b) :=
  ⟨{same.ctx with cr := congrArg (cr_set · sh (cr_val a b)) same.ctx.cr},same.mem,same.world⟩

theorem same_conditional (same : Same T s t) (fuel : Nat) (rs ra rb : Fin 32) :
    Both (Same T) (s.store_conditional fuel rs ra rb) (t.store_conditional fuel rs ra rb) := by
  have place := same_indexed same ra rb
  unfold PpuState.store_conditional
  dsimp only
  rw [← same.ctx.reserve_addr,← place]
  split
  · rw [write32_low fuel t.mem place.symm,← same_low same rs,← same.mem,Option.map_map,Option.map_map]
    refine same_wrote rfl fun mem => ⟨{same.ctx with cr := ?_,reserve_addr := rfl},rfl,same.world⟩
    exact congrArg (cr_set · 28 2) same.ctx.cr
  · refine .arrives ⟨{same.ctx with cr := ?_,reserve_addr := rfl},same.mem,same.world⟩
    exact congrArg (cr_set · 28 0) same.ctx.cr

theorem same_call (keeps : Keeps env contract) (same : Same T s t) (f : Callee) (allowed : T ≤ (contract f).1) :
    Both (Same (contract f).2) ((env f (s.ctx,s.mem,s.world)).map (s.return_from f))
      ((env f (t.ctx,t.mem,t.world)).map (t.return_from f)) := by
  rw [← same.mem,← same.world]
  refine both_map (keeps f s.ctx t.ctx s.mem s.world (agree_weaken allowed same.ctx)) ?_
  rintro x y ⟨ctx,rest⟩
  exact ⟨ctx,congrArg Prod.fst rest,congrArg Prod.snd rest⟩

theorem statement_same (keeps : Keeps env contract) (fuel : Nat) (i : Stmt) (goes : transfer contract T i = some U)
    (same : Same T s t) : Both (Same U) (i.exec env fuel s) (i.apply_addfix.exec env fuel t) := by
  cases i with
  | subf rd ra rb =>
      cases goes
      refine .arrives (same_mark same rd ?_)
      rw [low32_sext,sub_low,same_low same,same_low same]
  | add64 rd ra rb =>
      cases goes
      refine .arrives (same_copy same rd _ ?_ fun equal => ?_)
      · exact same_indexed same ra rb
      · rw [equal ra (by simp),equal rb (by simp)]
  | subf64 rd ra rb =>
      cases goes
      refine .arrives (same_copy same rd _ ?_ fun equal => ?_)
      · rw [sub_low,sub_low,same_low same,same_low same]
      · rw [equal ra (by simp),equal rb (by simp)]
  | rldicl rd ra sh mb =>
      rw [transfer] at goes
      split at goes
      · rename_i narrow
        obtain ⟨rfl,wide,inside⟩ := narrow
        cases goes
        exact .arrives (same_clean same rd (rldicl_low (same_low same ra) wide inside))
      · obtain ⟨out,rfl⟩ := unless_some goes
        exact .arrives (same_clean same rd (congrArg (ppc_rldicl · sh mb) (same.ctx.clean ra out)))
  | plain i =>
      cases i with
      | add rd ra rb =>
          cases goes
          refine .arrives (same_mark same rd ?_)
          rw [low32_sext,low32_add,same_low same,same_low same]
      | li rd imm =>
          cases goes
          exact .arrives (same_clean same rd rfl)
      | lis rd imm =>
          cases goes
          exact .arrives (same_clean same rd rfl)
      | addi rd ra imm =>
          cases goes
          exact .arrives (same_clean same rd (congrArg (BitVec.signExtend 64) (same_address same ra imm)))
      | ori rd ra imm =>
          cases goes
          refine .arrives (same_copy same rd _ ?_ fun equal => ?_)
          · rw [low32,low32,BitVec.setWidth_or,BitVec.setWidth_or]
            exact congrArg (· ||| _) (same_low same ra)
          · rw [equal ra (by simp)]
      | mr rd ra =>
          cases goes
          refine .arrives (same_copy same rd _ ?_ fun equal => ?_)
          · rw [BitVec.or_self,BitVec.or_self]
            exact same_low same ra
          · rw [equal ra (by simp)]
      | clrldi rd ra =>
          cases goes
          exact .arrives (same_clean same rd (clrldi_low (same_low same ra)))
      | mflr rd =>
          cases goes
          exact .arrives (same_clean same rd same.ctx.lr)
      | mtlr ra =>
          obtain ⟨out,rfl⟩ := unless_some goes
          exact .arrives ⟨{same.ctx with lr := same.ctx.clean ra out},same.mem,same.world⟩
      | mtctr ra =>
          cases goes
          exact .arrives ⟨{same.ctx with ctr := congrArg (BitVec.setWidth 64) (same_low same ra)},same.mem,same.world⟩
      | cmpwi sh ra imm =>
          cases goes
          rw [Stmt.apply_addfix.eq_def,Stmt.exec,Stmt.exec,Insn.run,Insn.run,same_low same]
          exact .arrives (same_compare same sh _ imm)
      | cmpw sh ra rb =>
          cases goes
          rw [Stmt.apply_addfix.eq_def,Stmt.exec,Stmt.exec,Insn.run,Insn.run,same_low same ra,same_low same rb]
          exact .arrives (same_compare same sh _ _)
      | lbz rd ra d =>
          cases goes
          refine .arrives (same_clean same rd ?_)
          rw [same.mem,read8_low _ (same_address same ra d)]
      | lwz rd ra d =>
          cases goes
          refine .arrives (same_clean same rd ?_)
          rw [same.mem,read32_low _ (same_address same ra d)]
      | ld rd ra d =>
          cases goes
          refine .arrives (same_clean same rd ?_)
          rw [same.mem,read64_low _ (same_address same ra d)]
      | stb rs ra d =>
          cases goes
          have byte : (s.gpr rs).setWidth 8 = (t.gpr rs).setWidth 8 := by
            have low := congrArg (BitVec.setWidth 8) (same_low same rs)
            rwa [low32,low32,BitVec.setWidth_setWidth_of_le _ (by decide),
              BitVec.setWidth_setWidth_of_le _ (by decide)] at low
          refine .arrives ⟨same.ctx,?_,same.world⟩
          show vm_write8 s.mem _ _ = vm_write8 t.mem _ _
          rw [same.mem,byte,write8_low _ (same_address same ra d)]
      | stw rs ra d =>
          cases goes
          refine same_wrote ?_ fun mem => same_memory same mem _ _
          rw [same.mem,same_low same,write32_low fuel _ (same_address same ra d)]
      | std rs ra d =>
          obtain ⟨out,rfl⟩ := unless_some goes
          refine same_wrote ?_ fun mem => same_memory same mem _ _
          rw [same.mem,same.clean_gpr out,write64_low fuel _ (same_address same ra d)]
      | stdu d =>
          obtain ⟨out,rfl⟩ := unless_some goes
          have pointer := same.clean_gpr out
          refine same_wrote ?_ fun mem => ?_
          · rw [same.mem,pointer]
          · rw [pointer]
            exact same_set (same_memory same mem _ _) 1 rfl (Finset.erase_subset 1 _) fun _ => rfl
      | lwarx rd ra rb =>
          cases goes
          have place := same_indexed same ra rb
          have word : vm_read32 s.mem.vm (s.gpr ra + s.gpr rb) = vm_read32 t.mem.vm (t.gpr ra + t.gpr rb) := by
            rw [same.mem,read32_low _ place]
          have reserved : Same T
              {s with ctx := {s.ctx with
                reserve_addr := (low32 (s.gpr ra + s.gpr rb)).setWidth 64
                reserve_value := vm_read32 s.mem.vm (s.gpr ra + s.gpr rb)}}
              {t with ctx := {t.ctx with
                reserve_addr := (low32 (t.gpr ra + t.gpr rb)).setWidth 64
                reserve_value := vm_read32 t.mem.vm (t.gpr ra + t.gpr rb)}} :=
            ⟨{same.ctx with reserve_addr := congrArg (BitVec.setWidth 64) place,reserve_value := word},same.mem,same.world⟩
          exact .arrives (same_clean reserved rd (congrArg (BitVec.setWidth 64) word))
      | stwcx rs ra rb =>
          cases goes
          exact same_conditional same fuel rs ra rb
      | call f =>
          rw [transfer] at goes
          split at goes
          · rename_i allowed
            cases goes
            exact same_call keeps same f allowed
          · cases goes

theorem sound (keeps : Keeps env contract) (fuel : Nat) :
    Sound Same (transfer contract) (fun i s => i.exec env fuel s) (fun i s => i.exec env fuel s) Test.holds
      Stmt.apply_addfix where
  weaken T U s t less same := ⟨agree_weaken less same.ctx,same.mem,same.world⟩
  tests T test s t same := by
    rw [Test.holds,Test.holds,same.ctx.cr]
  statement T U i s t goes same := statement_same keeps fuel i goes same
end Statements

-- The two programs stand at one place, and nothing but upper halves tells them apart;
-- once the function has returned, the upper halves of `kept` do not either.
structure Unnoticed {ω : Type} (kept : Taint) (c d : Config ℓ (PpuState ω)) : Prop where
  at_ : d.at_ = c.at_
  stack : d.stack = c.stack
  mem : d.state.mem = c.state.mem
  world : d.state.world = c.state.world
  cr : d.state.ctx.cr = c.state.ctx.cr
  low : ∀ r, low32 (d.state.gpr r) = low32 (c.state.gpr r)
  returned : c.at_ = none → ∀ r ∈ kept, d.state.gpr r = c.state.gpr r

theorem same_refl {ω : Type} (T : Taint) (s : PpuState ω) : Same T s s :=
  ⟨⟨fun _ => rfl,fun _ _ => rfl,rfl,rfl,rfl,rfl,rfl⟩,rfl,rfl⟩

theorem related_unnoticed {ω : Type} {cert : Certificate ℓ Taint} {T : Taint} {c d : Config ℓ (PpuState ω)}
    (related : Related cert Same T c d) : Unnoticed Tᶜ c d := by
  obtain ⟨U,same⟩ : ∃ U, Same U c.state d.state := by
    cases at_ : c.at_ with
    | none => exact ⟨_,(related.left at_).2⟩
    | some l => exact ⟨_,related.here l at_⟩
  exact {
    at_ := related.place
    stack := related.stack
    mem := same.mem.symm
    world := same.world.symm
    cr := same.ctx.cr.symm
    low := fun r => (same_low same r).symm
    returned := fun gone r kept => ((related.left gone).2.clean_gpr (Finset.mem_compl.mp kept)).symm}

-- A program the analysis accepts is not changed by the pass, step for step.
theorem addfix_keeps_runs {ω : Type} {env : Env ω} {contract : Contract} (keeps : Keeps env contract)
    {cert : Certificate ℓ Taint} {prog : Program ℓ} (checks : cert.Checks (transfer contract) prog) (fuel n : Nat)
    (l : ℓ) (s : PpuState ω) :
    Both (Unnoticed (cert.leaves l)ᶜ) (lifted env fuel prog n ⟨some l,[],s⟩)
      (lifted env fuel (apply_addfix prog) n ⟨some l,[],s⟩) := by
  have run := related_run (sound keeps fuel) checks n (related_enter l (same_refl (cert.here l) s))
  exact both_mono run fun _ _ => related_unnoticed

-- The length of a string at gpr[3], byte by byte, its difference in a function of its own.
def strlen : Program (Fin 10) := ![
  .stmt (.plain (.li 4 0)) 1,
  .stmt (.plain (.add 9 3 4)) 2,
  .stmt (.plain (.lbz 0 9 0)) 3,
  .stmt (.plain (.addi 4 4 1)) 4,
  .stmt (.plain (.cmpwi 0 0 0)) 5,
  .branch ⟨0,2⟩ 6 1,
  .call 8 7,
  .ret,
  .stmt (.subf 3 9 3) 9,
  .ret]

def strlen_cert : Certificate (Fin 10) Taint where
  here := ![∅,{9},{9},{9},{9},{9},{9},{3,9},{9},{3,9}]
  leaves := fun _ => {3,9}

theorem strlen_checks : strlen_cert.Checks (transfer fun _ => (∅,∅)) strlen := by
  unfold Certificate.Checks
  decide

def strlen_entered : PpuState Unit :=
  entered ⟨fun _ => 0x10000,0,0,0,0,0⟩ ⟨fun a => if a = 0x10003 then 0 else 0x41,Rsx.rsx_init⟩ ()

theorem addfix_keeps_strlen :
    Both (Unnoticed {3,9}ᶜ) (lifted (fun _ _ => none) 0 strlen 100 ⟨some 0,[],strlen_entered⟩)
      (lifted (fun _ _ => none) 0 (apply_addfix strlen) 100 ⟨some 0,[],strlen_entered⟩) :=
  addfix_keeps_runs (fun _ _ _ _ _ _ => .stops) strlen_checks 0 100 0 strlen_entered

end BudokaiRuntime.Ppu.AddFix
