import BudokaiRuntime.Ppu.Functions

-- A log of every call a hand-lifted function makes, kept beside the world of its callees.
namespace BudokaiRuntime.Ppu
open Guest Programs

structure Event where
  callee : Callee
  ctx : PpuCtx
  mem : Machine

def recorded {ω : Type} (env : Env ω) : Env (ω × List Event) := fun f (ctx,mem,world,log) =>
  (env f (ctx,mem,world)).map fun (ctx',mem',world') => (ctx',mem',world',log ++ [⟨f,ctx,mem⟩])

def PpuState.erase {ω : Type} (s : PpuState (ω × List Event)) : PpuState ω := ⟨s.ctx,s.mem,s.world.1,s.calls,s.stored⟩

-- The log changes nothing: without it the same statements do the same.
section Erasure
variable {ω : Type} (env : Env ω) (fuel : Nat)

theorem insn_erase (i : Insn) : Projects PpuState.erase (fun s => i.run s (recorded env) fuel) fun s => i.run s env fuel := by
  intro s
  cases i with
  | stw rs ra d =>
      show (vm_write32 fuel s.mem _ _).map _ = ((vm_write32 fuel s.mem _ _).map _).map _
      rw [Option.map_map]
      rfl
  | std rs ra d =>
      show (vm_write64 fuel s.mem _ _).map _ = ((vm_write64 fuel s.mem _ _).map _).map _
      rw [Option.map_map]
      rfl
  | stdu d =>
      show (vm_write64 fuel s.mem _ _).map _ = ((vm_write64 fuel s.mem _ _).map _).map _
      rw [Option.map_map]
      rfl
  | stwcx rs ra rb =>
      simp only [Insn.run,PpuState.store_conditional]
      by_cases reserved : s.ctx.reserve_addr = (low32 (s.gpr ra + s.gpr rb)).setWidth 64
      · have reserved' : s.erase.ctx.reserve_addr = (low32 (s.erase.gpr ra + s.erase.gpr rb)).setWidth 64 := reserved
        rw [if_pos reserved,if_pos reserved',Option.map_map,Option.map_map,Option.map_map]
        rfl
      · have reserved' : ¬ s.erase.ctx.reserve_addr = (low32 (s.erase.gpr ra + s.erase.gpr rb)).setWidth 64 := reserved
        rw [if_neg reserved,if_neg reserved']
        rfl
  | call f =>
      show (env f (s.ctx,s.mem,s.world.1)).map _ = ((recorded env f (s.ctx,s.mem,s.world)).map _).map _
      unfold recorded
      rw [Option.map_map,Option.map_map]
      rfl
  | li | lis | addi | ori | mr | clrldi | add | mflr | mtlr | mtctr | cmpwi | cmpw | lbz | lwz | ld | stb | lwarx => rfl

theorem straight_erase (code : List Insn) :
    Projects PpuState.erase (straight (recorded env) fuel code) (straight env fuel code) := by
  induction code with
  | nil => exact projects_nil
  | cons i code ih => exact projects_cons (insn_erase env fuel i) ih

theorem slot_erase : Projects PpuState.erase (slot_E77A8 (recorded env) fuel) (slot_E77A8 env fuel) := by
  have straight := straight_erase env fuel
  refine projects_cons (straight _) (projects_cons (projects_when (fun _ => rfl) ?_) (projects_cons (straight _) projects_nil))
  refine projects_cons (straight _) (projects_cons (projects_when (fun _ => rfl) ?_) projects_nil)
  exact projects_cons (straight _) (projects_cons (projects_when (fun _ => rfl) (straight _)) projects_nil)

theorem node_erase : Projects PpuState.erase (node_E77A0 (recorded env) fuel) (node_E77A0 env fuel) := by
  have straight := straight_erase env fuel
  refine projects_cons (straight _) (projects_cons (projects_do_while (fun _ => rfl) (slot_erase env fuel)) ?_)
  exact projects_cons (straight _) (projects_cons (projects_when (fun _ => rfl) (straight _)) projects_nil)

theorem func_000E775C_erase :
    Projects PpuState.erase (func_000E775C (recorded env) fuel) (func_000E775C env fuel) := by
  have straight := straight_erase env fuel
  refine projects_cons (straight _) (projects_cons (projects_when (fun _ => rfl) ?_) (projects_cons (straight _) projects_nil))
  refine projects_cons (straight _) (projects_cons (projects_when (fun _ => rfl) ?_) (projects_cons (straight _) projects_nil))
  exact projects_do_while (fun _ => rfl) (node_erase env fuel)
end Erasure

end BudokaiRuntime.Ppu
