import BudokaiRuntime.Ppu.CallingConvention
import BudokaiRuntime.Ppu.Recorded
import BudokaiRuntime.Ppu.Release
import BudokaiRuntime.Ppu.TableSlots

-- The fourteen objects that func_000393D4 constructs and func_0003937C destroys.
namespace BudokaiRuntime.Ppu
open Guest Programs Rsx

def Insn.callee : Insn → Option Callee
  | .call f => some f
  | _ => none

-- The calls looked at, each with the object it is given.
def shown (keep : Callee → Bool) (log : List Event) : List (Callee × BitVec 32) :=
  (log.filter fun e => keep e.callee).map fun e => (e.callee,low32 (e.ctx.gpr 3))

def objectAt (k : Nat) : BitVec 32 := 0x28A840 + BitVec.ofNat 32 (0x90*k)

section Log
variable {ω : Type} {env : Env ω} {fuel : Nat} {s t : PpuState (ω × List Event)} {keep : Callee → Bool}

theorem preserves_recorded (callees : Preserves env sp size) : Preserves (recorded env) sp size := by
  rintro f ctx mem ⟨world,log⟩ ctx' mem' world' pointer ran
  obtain ⟨left,did,same⟩ := Option.map_eq_some_iff.mp ran
  cases same
  exact callees f ctx mem world _ _ _ pointer did

theorem insn_log {i : Insn} (ran : i.run s (recorded env) fuel = some t) :
    t.world.2 = s.world.2 ++ (i.callee.map fun f => (⟨f,s.ctx,s.mem⟩ : Event)).toList := by
  cases i with
  | call f =>
      obtain ⟨left,did,rfl⟩ := Option.map_eq_some_iff.mp ran
      obtain ⟨_,_,rfl⟩ := Option.map_eq_some_iff.mp did
      rfl
  | stw rs ra d | std rs ra d | stdu d =>
      obtain ⟨_,_,rfl⟩ := Option.map_eq_some_iff.mp ran
      exact (List.append_nil _).symm
  | stwcx rs ra rb =>
      rw [(conditional_left ran).2.1]
      exact (List.append_nil _).symm
  | li | lis | addi | ori | mr | clrldi | add | mflr | mtlr | mtctr | cmpwi | cmpw | lbz | lwz | ld | stb | lwarx =>
      cases ran
      exact (List.append_nil _).symm

theorem shown_append (one two : List Event) : shown keep (one ++ two) = shown keep one ++ shown keep two := by
  unfold shown
  rw [List.filter_append,List.map_append]

theorem straight_shown {code : List Insn} (quiet : code.all (fun i => i.callee.all fun f => !keep f) = true)
    (ran : straight (recorded env) fuel code s = some t) : shown keep t.world.2 = shown keep s.world.2 := by
  induction code generalizing s with
  | nil => rw [straight_nil.mp ran]
  | cons i code ih =>
      obtain ⟨u,one,rest⟩ := straight_cons.mp ran
      rw [List.all_cons,Bool.and_eq_true] at quiet
      rw [ih quiet.2 rest,insn_log one,shown_append]
      cases called : i.callee with
      | none => exact List.append_nil _
      | some f =>
          rw [called] at quiet
          have skipped : keep f = false := by simpa using quiet.1
          simp [shown,skipped]
end Log

section Compare
theorem bit_three (x : BitVec 32) : (x &&& 8 != 0) = x.getLsbD 3 := by
  have eight : (8 : BitVec 32) = BitVec.twoPow 32 3 := rfl
  rw [eight,BitVec.and_twoPow]
  cases x.getLsbD 3 <;> rfl

theorem cr_val_less (a b : BitVec 32) : (cr_val a b).getLsbD 3 = a.slt b := by
  unfold cr_val
  by_cases less : a.slt b = true
  · rw [if_pos less,less]
    rfl
  · rw [if_neg less,Bool.eq_false_iff.mpr less]
    split <;> rfl

theorem compare_lt {ω : Type} (s : PpuState ω) (a b : BitVec 32) : (s.compare 28 a b).lt 28 = a.slt b := by
  unfold PpuState.lt PpuState.compare
  dsimp only
  rw [bit_three,cr_set,BitVec.getLsbD_ushiftRight,BitVec.getLsbD_or,BitVec.getLsbD_and,BitVec.getLsbD_not,
    BitVec.getLsbD_shiftLeft,BitVec.getLsbD_shiftLeft,← cr_val_less]
  simp
end Compare

def CalleesReturn {ω : Type} (env : Env ω) (sp : BitVec 64) : Prop :=
  ∀ f ctx mem world, ctx.gpr 1 = sp → ∃ left, env f (ctx,mem,world) = some left

theorem returns_recorded {ω : Type} {env : Env ω} (returns : CalleesReturn env sp) : CalleesReturn (recorded env) sp := by
  rintro f ctx mem ⟨world,log⟩ pointer
  obtain ⟨left,did⟩ := returns f ctx mem world pointer
  exact ⟨_,Option.map_eq_some_iff.mpr ⟨left,did,rfl⟩⟩

section Rounds
variable {ω : Type} {env : Env ω} {fuel : Nat} {s : PpuState (ω × List Event)} {sp : BitVec 64} {size : Nat}

theorem round_shown (callees : Preserves (recorded env) sp size) (returns : CalleesReturn (recorded env) sp) (f : Callee)
    (a b : BitVec 64) (c : BitVec 32) (pointer : s.gpr 1 = sp) : ∃ (t : PpuState (ω × List Event)) (e : Event),
    straight (recorded env) fuel [.clrldi 3 31,.call f,.addi 30 30 a,.addi 31 31 b,.cmpwi 28 30 c] s = some t ∧
      t.world.2 = s.world.2 ++ [e] ∧ e.callee = f ∧ low32 (e.ctx.gpr 3) = low32 (s.gpr 31) ∧ t.gpr 1 = sp ∧
      t.gpr 30 = sext32 (s.gpr 30 + a) ∧ t.gpr 31 = sext32 (s.gpr 31 + b) ∧ t.lt 28 = (low32 (t.gpr 30)).slt c := by
  let given := s.set 3 (ppc_rldicl (s.gpr 31) 0 32)
  have pointer' : given.gpr 1 = sp := (gpr_set_other _ (by decide)).trans pointer
  obtain ⟨left,did⟩ := returns f given.ctx given.mem given.world pointer'
  have called : (Insn.call f).run given (recorded env) fuel = some (given.return_from f left) :=
    Option.map_eq_some_iff.mpr ⟨left,did,rfl⟩
  obtain ⟨same,high,_⟩ := callees _ _ _ _ _ _ _ pointer' did
  have thirty : left.1.gpr 30 = s.gpr 30 := (high 30 (by decide)).trans (gpr_set_other _ (by decide))
  have thirtyOne : left.1.gpr 31 = s.gpr 31 := (high 31 (by decide)).trans (gpr_set_other _ (by decide))
  refine ⟨_,_,straight_cons.mpr ⟨given,rfl,straight_cons.mpr ⟨_,called,straight_cons.mpr ⟨_,rfl,straight_cons.mpr
    ⟨_,rfl,straight_cons.mpr ⟨_,rfl,straight_nil.mpr rfl⟩⟩⟩⟩⟩,insn_log called,rfl,?_,?_,?_,?_,compare_lt _ _ _⟩
  · exact (congrArg low32 (gpr_set_same 3 _)).trans ((congrArg low32 (clrldi_low _)).trans (low32_zext _))
  · rw [gpr_compare,gpr_set_other (q:=1) _ (by decide),gpr_set_other (q:=1) _ (by decide)]
    exact same
  · rw [gpr_compare,gpr_set_other (q:=30) _ (by decide),gpr_set_same]
    exact congrArg (fun v => sext32 (v + a)) thirty
  · rw [gpr_compare,gpr_set_same,gpr_set_other (q:=31) _ (by decide)]
    exact congrArg (fun v => sext32 (v + b)) thirtyOne

def ObjectsLeft (f : Callee) (keep : Callee → Bool) (sp : BitVec 64) (U V : Nat → BitVec 64) (n : Nat)
    (seen : List (Callee × BitVec 32)) (left : List Nat) (s : PpuState (ω × List Event)) : Prop :=
  ∃ k, k + left.length = n ∧ left = List.range' k left.length ∧ s.gpr 1 = sp ∧ s.gpr 30 = U k ∧ s.gpr 31 = V k ∧
    shown keep s.world.2 = seen ++ (List.range k).map fun j => (f,low32 (V j))

theorem loop_shown (fuel : Nat) (callees : Preserves (recorded env) sp size) (returns : CalleesReturn (recorded env) sp) (f : Callee)
    (a b : BitVec 64) (c : BitVec 32) (again : PpuState (ω × List Event) → Bool) (keep : Callee → Bool)
    (kept : keep f = true) (seen : List (Callee × BitVec 32)) (U V : Nat → BitVec 64) (n : Nat) (enough : n ≤ rounds) (some_left : 0 < n)
    (counts : ∀ k < n, U (k+1) = sext32 (U k + a)) (moves : ∀ k < n, V (k+1) = sext32 (V k + b))
    (goes : ∀ k < n, ∀ t : PpuState (ω × List Event), t.lt 28 = (low32 (U (k+1))).slt c → (again t = true ↔ k+1 < n)) :
    Total (fun s => (s.gpr 1 = sp ∧ s.gpr 30 = U 0 ∧ s.gpr 31 = V 0) ∧ shown keep s.world.2 = seen)
      (do_while (straight (recorded env) fuel [.clrldi 3 31,.call f,.addi 30 30 a,.addi 31 31 b,.cmpwi 28 30 c])
        again rounds)
      (fun s => shown keep s.world.2 = seen ++ (List.range n).map fun j => (f,low32 (V j))) := by
  rintro s ⟨⟨pointer,counter,object⟩,before⟩
  have start : ObjectsLeft f keep sp U V n seen (List.range' 0 n) s := by
    refine ⟨0,?_,?_,pointer,counter,object,before.trans (List.append_nil _).symm⟩
    · rw [List.length_range',Nat.zero_add]
    · rw [List.length_range']
  have round (i : Nat) (rest : List Nat) (s : PpuState (ω × List Event))
      (before : ObjectsLeft f keep sp U V n seen (i::rest) s) : ∃ t,
      straight (recorded env) fuel [.clrldi 3 31,.call f,.addi 30 30 a,.addi 31 31 b,.cmpwi 28 30 c] s = some t ∧
        ObjectsLeft f keep sp U V n seen rest t ∧ (again t = true ↔ rest ≠ []) := by
    obtain ⟨k,total,order,pointer,counter,object,log⟩ := before
    rw [List.length_cons] at total order
    rw [List.range'_succ] at order
    obtain ⟨rfl,later⟩ := List.cons.inj order
    obtain ⟨t,e,ran,logged,called,given,pointer',counter',object',less⟩ :=
      round_shown callees returns f a b c pointer
    rw [counter,← counts i (by omega)] at counter'
    rw [object,← moves i (by omega)] at object'
    rw [counter'] at less
    refine ⟨t,ran,⟨i+1,by omega,later,pointer',counter',object',?_⟩,?_⟩
    · have one : shown keep [e] = [(f,low32 (V i))] := by
        unfold shown
        rw [List.filter_cons_of_pos (by rw [called]; exact kept)]
        show [(e.callee,low32 (e.ctx.gpr 3))] = _
        rw [called,given,object]
      rw [logged,shown_append,log,one,List.append_assoc,List.range_succ,List.map_append]
      rfl
    · rw [goes i (by omega) t less,← List.length_pos_iff]
      omega
  have items : List.range' 0 n ≠ [] := by
    rw [← List.length_pos_iff,List.length_range']
    exact some_left
  obtain ⟨t,ran,k,total,_,_,_,_,log⟩ := do_while_items (ObjectsLeft f keep sp U V n seen) round
    (List.range' 0 n) items ((List.length_range' ..).trans_le enough) start
  obtain rfl : k = n := total
  exact ⟨t,ran,log⟩
end Rounds

-- A statement that returns once its callees do: its stores keep off the PUT register.
def Facts.goes (φ : Facts) : Insn → Bool
  | .stw _ ra d => (φ.look ra).any fun k => low32 (k+d) != RSX_PUT
  | .stdu _ | .stwcx _ _ _ => false
  | _ => true

def Facts.through (φ : Facts) : List Insn → Bool
  | [] => true
  | i::code => φ.goes i && (φ.step i).any (·.through code)

section Returning
variable {ω : Type} {env : Env ω} {fuel : Nat} {entry : PpuCtx} {sp : BitVec 64} {φ φ' : Facts} {s : PpuState ω}

theorem write32_returns (fuel : Nat) (m : Machine) (val : BitVec 32) (other : addr.setWidth 32 ≠ RSX_PUT) : ∃ m', vm_write32 fuel m addr val = some m' := by
  unfold vm_write32
  dsimp only
  rw [if_neg other]
  split
  · exact ⟨_,rfl⟩
  · exact ⟨_,rfl⟩

theorem step_goes (room : Room sp) (returns : CalleesReturn env sp) (holds : Holds entry sp φ s) (goes : φ.goes i = true)
    (checked : φ.step i = some φ') : ∃ t, i.run s env fuel = some t := by
  cases i with
  | call f =>
      obtain ⟨left,did⟩ := returns f s.ctx s.mem s.world holds.pointer
      exact ⟨_,Option.map_eq_some_iff.mpr ⟨left,did,rfl⟩⟩
  | stw rs ra d =>
      obtain ⟨k,constant,other⟩ := (Option.any_eq_true _ _).mp goes
      rw [← look_known holds constant] at other
      obtain ⟨m,wrote⟩ := write32_returns fuel s.mem (low32 (s.gpr rs)) (bne_iff_ne.mp other)
      exact ⟨_,Option.map_eq_some_iff.mpr ⟨m,wrote,rfl⟩⟩
  | std rs ra d =>
      simp only [Facts.step] at checked
      split at checked
      · rename_i base
        have small : (low32 d).toNat + 8 ≤ 0xC0 := by
          unfold Facts.store_frame at checked
          split at checked
          · rename_i free
            exact free.1
          · cases checked
        have wrote := room_store room fuel s.mem d (s.gpr rs) (by omega)
        rw [← holds.pointer,← base] at wrote
        exact ⟨_,Option.map_eq_some_iff.mpr ⟨_,wrote,rfl⟩⟩
      · cases checked
  | stdu | stwcx => cases goes
  | li | lis | addi | ori | mr | clrldi | add | mflr | mtlr | mtctr | cmpwi | cmpw | lbz | lwz | ld | stb | lwarx =>
      exact ⟨_,rfl⟩

theorem through_goes (room : Room sp) (inside : SlotsIn size φ.slots) (bound : size ≤ 0xC0)
    (callees : Preserves env sp size) (returns : CalleesReturn env sp) (holds : Holds entry sp φ s)
    (through : φ.through code = true) : ∃ t, straight env fuel code s = some t := by
  induction code generalizing φ s with
  | nil => exact ⟨s,rfl⟩
  | cons i code ih =>
      obtain ⟨goes,later⟩ := Bool.and_eq_true_iff.mp through
      obtain ⟨ψ,checked,rest⟩ := (Option.any_eq_true _ _).mp later
      obtain ⟨u,one⟩ := step_goes room returns holds goes checked
      have slots : SlotsIn size ψ.slots := (step_slots checked).1 ▸ inside
      obtain ⟨t,two⟩ := ih slots (step_holds room inside bound (fun _ _ => callees) checked holds one) rest
      exact ⟨t,straight_cons.mpr ⟨u,one,two⟩⟩
end Returning

section Pieces
variable {ω : Type} {env : Env ω} {fuel : Nat} {keep : Callee → Bool} {ctx : PpuCtx} {mem : Machine} {world : ω}

theorem piece_shown (fuel : Nat) (keep : Callee → Bool) (seen : List (Callee × BitVec 32)) (f : Lifted) (stack : StackArea (ctx.gpr 1)) (callees : Preserves (recorded env) (f.base ctx) f.size)
    (returns : CalleesReturn (recorded env) (f.base ctx)) (known : List (Fin 32 × BitVec 64)) (code : List Insn)
    (later : List (Fin 32 × BitVec 64)) (leads : (f.inside known).leads code (f.inside later) = true)
    (through : (f.inside known).through code = true)
    (quiet : code.all (fun i => i.callee.all fun f => !keep f) = true) :
    Total (fun s => Holds ctx (f.base ctx) (f.inside known) s ∧ shown keep s.world.2 = seen)
      (straight (recorded env) fuel code)
      (fun s => Holds ctx (f.base ctx) (f.inside later) s ∧ shown keep s.world.2 = seen) := by
  refine total_triple (fun s start => ?_) fun s t start ran => ?_
  · exact through_goes (frame_room f stack) (slots_inside f) (size_small f) callees returns start.1 through
  · exact ⟨keeps fuel f stack callees known code later leads s t start.1 ran,(straight_shown quiet ran).trans start.2⟩

theorem opens_shown (keep : Callee → Bool) (f : Lifted) (stack : StackArea (ctx.gpr 1)) (callees : Preserves (recorded env) (f.base ctx) f.size)
    (returns : CalleesReturn (recorded env) (f.base ctx)) (known : List (Fin 32 × BitVec 64))
    (frame : f.base ctx = ctx.gpr 1 + d) (leads : (Facts.mk [] [] f.slots f.wild).leads code (f.inside known) = true)
    (through : (Facts.mk [] [] f.slots f.wild).through code = true)
    (quiet : code.all (fun i => i.callee.all fun f => !keep f) = true) :
    Total (· = entered ctx mem (world,[])) (straight (recorded env) fuel (.stdu d::code))
      (fun s => Holds ctx (f.base ctx) (f.inside known) s ∧ shown keep s.world.2 = []) := by
  refine total_triple (fun s start => ?_) fun s t start ran => ?_
  · have wrote := room_open (frame_room f stack) fuel mem (ctx.gpr 1)
    rw [frame] at wrote
    obtain ⟨u,one⟩ : ∃ u, (Insn.stdu d).run s (recorded env) fuel = some u := by
      rw [start]
      exact ⟨_,Option.map_eq_some_iff.mpr ⟨_,wrote,rfl⟩⟩
    have holds := stdu_holds f frame s u start one
    obtain ⟨t,two⟩ := through_goes (frame_room f stack) (slots_inside f) (size_small f) callees returns holds through
    exact ⟨t,straight_cons.mpr ⟨u,one,two⟩⟩
  · refine ⟨opens f stack callees known frame leads s t start ran,?_⟩
    rw [@straight_shown _ _ _ _ _ _ (.stdu d::code) quiet ran,start]
    rfl

theorem closes_shown {code : List Insn} {seen : List (Callee × BitVec 32)}
    (quiet : code.all (fun i => i.callee.all fun f => !keep f) = true)
    (direct : ∀ s, ∃ t, straight (recorded env) fuel code s = some t) :
    Total (fun s => shown keep s.world.2 = seen) (straight (recorded env) fuel code)
      (fun s => shown keep s.world.2 = seen) :=
  total_triple (fun s _ => direct s) fun _ _ before ran => (straight_shown quiet ran).trans before
end Pieces

section Functions
variable {ω : Type} {env : Env ω} {fuel : Nat} {ctx : PpuCtx} {mem : Machine} {world : ω}

-- The constructor calls are looked at; the table is cleared by other callees first.
theorem constructs (stack : StackArea (ctx.gpr 1)) (callees : Preserves env (Lifted.base .func_000393D4 ctx) 0x90)
    (returns : CalleesReturn env (Lifted.base .func_000393D4 ctx)) (enough : 14 ≤ fuel) :
    Total (· = entered ctx mem (world,[])) (func_000393D4 (recorded env) fuel)
      (fun t => shown (· == .func_00039540) t.world.2 = (List.range 14).map fun k => (.func_00039540,objectAt k)) := by
  have callees := preserves_recorded callees
  have returns := returns_recorded returns
  have cleared (k : BitVec 64) (leads : (Lifted.inside .func_000393D4 [(31,k),(30,0)]).leads clear_object
      (Lifted.inside .func_000393D4 [(30,0)]) = true)
      (through : (Lifted.inside .func_000393D4 [(31,k),(30,0)]).through clear_object = true) :=
    piece_shown fuel (· == .func_00039540) [] .func_000393D4 stack callees returns
      [(31,k),(30,0)] clear_object [(30,0)] leads through (by decide)
  have loop := loop_shown fuel callees returns .func_00039540 1 0x90 0xE (·.lt 28) (· == .func_00039540) rfl []
    (BitVec.ofNat 64) (fun k => BitVec.ofNat 64 (0x28A840 + 0x90*k)) 14 enough (by decide)
    (by decide +kernel) (by decide +kernel) fun k inside t less => by
      have all : ∀ k < 14, (low32 (BitVec.ofNat 64 (k+1))).slt 0xE = decide (k+1 < 14) := by decide +kernel
      rw [less,all k inside,decide_eq_true_iff]
  refine total_cons (opens_shown (· == .func_00039540) .func_000393D4 stack callees returns [(31,0x289590),(30,0)] (BitVec.sub_eq_add_neg _ _)
    (by decide +kernel) (by decide +kernel) (by decide)) ?_
  refine total_cons (cleared 0x289590 (by decide +kernel) (by decide +kernel)) ?_
  refine total_cons (piece_shown fuel _ _ .func_000393D4 stack callees returns [(30,0)] _ [(31,0x289B90),(30,0)]
    (by decide +kernel) (by decide +kernel) (by decide)) ?_
  refine total_cons (cleared 0x289B90 (by decide +kernel) (by decide +kernel)) ?_
  refine total_cons (piece_shown fuel _ _ .func_000393D4 stack callees returns [(30,0)] _ [(31,0x28A190),(30,0)]
    (by decide +kernel) (by decide +kernel) (by decide)) ?_
  refine total_cons (cleared 0x28A190 (by decide +kernel) (by decide +kernel)) ?_
  refine total_cons (piece_shown fuel _ _ .func_000393D4 stack callees returns [(30,0)] _ [(31,0x28A840),(30,0)]
    (by decide +kernel) (by decide +kernel) (by decide)) ?_
  refine total_cons (total_mono loop (fun s held => ?_) fun t log => log.trans ?_)
    (total_cons (closes_shown (by decide) fun _ => ⟨_,rfl⟩) total_nil)
  · exact ⟨⟨held.1.pointer,held.1.known (30,0) (by decide),held.1.known (31,0x28A840) (by decide)⟩,held.2⟩
  · have places : ∀ k < 14, low32 (BitVec.ofNat 64 (0x28A840 + 0x90*k)) = objectAt k := by decide +kernel
    exact List.map_congr_left fun k inside => congrArg _ (places k (List.mem_range.mp inside))

theorem destroys (stack : StackArea (ctx.gpr 1)) (callees : Preserves env (Lifted.base .func_0003937C ctx) 0x80)
    (returns : CalleesReturn env (Lifted.base .func_0003937C ctx)) (enough : 14 ≤ fuel) :
    Total (· = entered ctx mem (world,[])) (func_0003937C (recorded env) fuel)
      (fun t => shown (fun _ => true) t.world.2 = (List.range 14).map fun k => (.func_0003959C,objectAt (13-k))) := by
  have callees := preserves_recorded callees
  have returns := returns_recorded returns
  have loop := loop_shown fuel callees returns .func_0003959C (-1) (-144) 0 (!·.lt 28) (fun _ => true) rfl []
    (fun k => 13 - BitVec.ofNat 64 k) (fun k => BitVec.ofNat 64 (0x28A840 + 0x90*(13-k)) - if k = 14 then 0x90 else 0) 14
    enough (by decide) (by decide +kernel) (by decide +kernel) fun k inside t less => by
      have all : ∀ k < 14, (!(low32 (13 - BitVec.ofNat 64 (k+1))).slt 0) = decide (k+1 < 14) := by decide +kernel
      rw [less,all k inside,decide_eq_true_iff]
  refine total_cons (opens_shown (fun _ => true) .func_0003937C stack callees returns [(31,0x28AF90),(30,0xD)]
    (BitVec.sub_eq_add_neg _ _) (by decide +kernel) (by decide +kernel) (by decide)) ?_
  refine total_cons (total_mono loop (fun s held => ?_) fun t log => log.trans ?_)
    (total_cons (closes_shown (by decide) fun _ => ⟨_,rfl⟩) total_nil)
  · exact ⟨⟨held.1.pointer,held.1.known (30,0xD) (by decide),held.1.known (31,0x28AF90) (by decide)⟩,held.2⟩
  · have places : ∀ k < 14, low32 (BitVec.ofNat 64 (0x28A840 + 0x90*(13-k)) - if k = 14 then 0x90 else 0) =
        objectAt (13-k) := by decide +kernel
    exact List.map_congr_left fun k inside => congrArg _ (places k (List.mem_range.mp inside))

-- What the one has constructed the other destroys, last object first, and nothing else is done.
theorem objects_unwound {ctx' : PpuCtx} {mem' : Machine} {world' : ω} (stack : StackArea (ctx.gpr 1))
    (stack' : StackArea (ctx'.gpr 1)) (callees : Preserves env (Lifted.base .func_000393D4 ctx) 0x90)
    (callees' : Preserves env (Lifted.base .func_0003937C ctx') 0x80)
    (returns : CalleesReturn env (Lifted.base .func_000393D4 ctx))
    (returns' : CalleesReturn env (Lifted.base .func_0003937C ctx')) (enough : 14 ≤ fuel) : ∃ s t,
    func_000393D4 (recorded env) fuel (entered ctx mem (world,[])) = some s ∧
      func_0003937C (recorded env) fuel (entered ctx' mem' (world',[])) = some t ∧
      shown (· == .func_00039540) s.world.2 = (List.range 14).map (fun k => (.func_00039540,objectAt k)) ∧
      shown (fun _ => true) t.world.2 =
        ((shown (· == .func_00039540) s.world.2).map fun call => (.func_0003959C,call.2)).reverse := by
  obtain ⟨s,made,constructed⟩ :=
    constructs stack callees returns enough (entered ctx mem (world,[])) rfl
  obtain ⟨t,ended,destroyed⟩ :=
    destroys stack' callees' returns' enough (entered ctx' mem' (world',[])) rfl
  refine ⟨s,t,made,ended,constructed,?_⟩
  rw [constructed,destroyed]
  decide +kernel

def returning : Env Unit := fun _ s => some s

def in_main_stack : PpuCtx := ⟨fun _ => 0xD0010000,0,0,0,0,0⟩

theorem objects_unwound_returning : ∃ s t,
    func_000393D4 (recorded returning) 14 (entered in_main_stack zeroed ((),[])) = some s ∧
      func_0003937C (recorded returning) 14 (entered in_main_stack zeroed ((),[])) = some t ∧
      shown (· == .func_00039540) s.world.2 = (List.range 14).map (fun k => (.func_00039540,objectAt k)) ∧
      shown (fun _ => true) t.world.2 =
        ((shown (· == .func_00039540) s.world.2).map fun call => (.func_0003959C,call.2)).reverse := by
  have preserves (sp : BitVec 64) (size : Nat) : Preserves returning sp size := by
    rintro f ctx mem world _ _ _ pointer ran
    cases ran
    exact ⟨pointer,fun _ _ => rfl,fun _ _ _ => rfl⟩
  have stack : StackArea (in_main_stack.gpr 1) := by
    unfold StackArea
    decide
  exact objects_unwound stack stack (preserves _ _) (preserves _ _) (fun _ _ _ _ _ => ⟨_,rfl⟩)
    (fun _ _ _ _ _ => ⟨_,rfl⟩) le_rfl
end Functions

end BudokaiRuntime.Ppu
