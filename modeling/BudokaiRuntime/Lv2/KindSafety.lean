import BudokaiRuntime.Lv2.Effects

-- The destroy calls against objects of other kinds.
namespace BudokaiRuntime.Lv2

def destroys : Lv2Call → Option (BitVec 32 × Lv2Kind)
  | .sys_semaphore_destroy id => some (id,.sem)
  | .sys_mutex_destroy id => some (id,.mutex)
  | .sys_cond_destroy id => some (id,.cond)
  | .sys_event_queue_destroy id => some (id,.evq)
  | .sys_event_port_destroy id => some (id,.evport)
  | _ => none

def NamesOther (pool : Pool) (id : BitVec 32) (kind : Lv2Kind) : Prop :=
  ∃ s, poolSlot id = some s ∧ pool s ≠ .free ∧ (pool s).kind ≠ kind

def Transition.KindSafe (t : Transition) : Prop :=
  ∀ tid c id kind, t.action = .call tid c → destroys c = some (id,kind) → NamesOther t.before.pool id kind →
    t.outcome.kernel.pool = t.before.pool

-- The calls that free whatever the ID names get none of another kind.
def Transition.FreesOwn (t : Transition) : Prop :=
  ∀ tid c id kind, t.action = .call tid c → destroys c = some (id,kind) → freesAny c = some id →
    ¬ NamesOther t.before.pool id kind

def Transition.FreedByKind (t : Transition) : Prop :=
  ∀ s, t.before.pool s ≠ .free → (t.outcome.kernel.pool s).kind ≠ (t.before.pool s).kind →
    ∃ tid c id, t.action = .call tid c ∧ destroys c = some (id,(t.before.pool s).kind) ∧
      poolSlot id = some s ∧ t.outcome.kernel.pool s = .free

section Step
variable {k : Kernel} {c : Lv2Call} {id : BitVec 32} {t : Transition}

theorem destroys_cases (destroy : destroys c = some (id,kind)) :
    freesAny c = some id ∨ freesKind c = some (id,kind) := by
  cases c with
  | sys_semaphore_destroy _ => cases destroy; exact .inr rfl
  | sys_mutex_destroy _ => cases destroy; exact .inr rfl
  | sys_cond_destroy _ => cases destroy; exact .inl rfl
  | sys_event_queue_destroy _ => cases destroy; exact .inl rfl
  | sys_event_port_destroy _ => cases destroy; exact .inl rfl
  | _ => cases destroy

theorem freesAny_destroys (frees : freesAny c = some id) : ∃ kind, destroys c = some (id,kind) := by
  cases c with
  | sys_cond_destroy _ => cases frees; exact ⟨_,rfl⟩
  | sys_event_queue_destroy _ => cases frees; exact ⟨_,rfl⟩
  | sys_event_port_destroy _ => cases frees; exact ⟨_,rfl⟩
  | _ => cases frees

theorem freesKind_destroys (frees : freesKind c = some (id,kind)) : destroys c = some (id,kind) := by
  cases c with
  | sys_semaphore_destroy _ => cases frees; rfl
  | sys_mutex_destroy _ => cases frees; rfl
  | _ => cases frees

theorem free_any_pool (frees : freesAny c = some id) (step : lv2_step k (.call tid c) = some o) :
    o.kernel.pool = pool_free k.pool id := by
  have went := (call_step step).2
  unfold lv2_syscall at went
  cases c with
  | sys_cond_destroy _ => cases frees; cases went; rfl
  | sys_event_queue_destroy _ => cases frees; cases went; rfl
  | sys_event_port_destroy _ => cases frees; cases went; rfl
  | _ => cases frees

theorem free_kind_pool (frees : freesKind c = some (id,kind)) (step : lv2_step k (.call tid c) = some o)
    (missed : pool_get k.pool id kind = none) : o.kernel.pool = k.pool := by
  have went := (call_step step).2
  have same : (free_kind k id kind).kernel.pool = k.pool := by
    rw [free_kind,missed]
    rfl
  unfold lv2_syscall at went
  cases c with
  | sys_semaphore_destroy _ => cases frees; cases went; exact same
  | sys_mutex_destroy _ => cases frees; cases went; exact same
  | _ => cases frees

theorem NamesOther.missed (other : NamesOther k.pool id kind) : pool_get k.pool id kind = none := by
  obtain ⟨s,place,_,different⟩ := other
  rw [pool_get,place]
  exact if_neg different

theorem NamesOther.changed (other : NamesOther k.pool id kind) : pool_free k.pool id ≠ k.pool := by
  obtain ⟨s,place,live,_⟩ := other
  intro same
  have here := congrFun same s
  rw [pool_free,place] at here
  exact live (here.symm.trans (Function.update_self _ _ _))

theorem kind_safe_iff (step : lv2_step t.before t.action = some t.outcome) : t.KindSafe ↔ t.FreesOwn := by
  constructor
  · intro safe tid c id kind action destroy frees other
    rw [action] at step
    exact other.changed ((free_any_pool frees step).symm.trans (safe tid c id kind action destroy other))
  · intro own tid c id kind action destroy other
    rcases destroys_cases destroy with any | checked
    · exact absurd other (own tid c id kind action destroy any)
    · rw [action] at step
      exact free_kind_pool checked step other.missed

theorem update_gone {pool : Pool} (holds : pool s = old)
    (gone : (Function.update pool s object p).kind ≠ (pool p).kind) : p = s ∧ object.kind ≠ old.kind := by
  by_cases here : p = s
  · rw [here,Function.update_self,holds] at gone
    exact ⟨here,gone⟩
  · exact absurd (congrArg _ (Function.update_of_ne here _ _)) gone

theorem effect_freed (effect : StepEffect k a next log)
    (own : ∀ tid c id kind, a = .call tid c → destroys c = some (id,kind) → freesAny c = some id →
      ¬ NamesOther k.pool id kind) (live : k.pool p ≠ .free) (gone : (next.pool p).kind ≠ (k.pool p).kind) :
    ∃ tid c id, a = .call tid c ∧ destroys c = some (id,(k.pool p).kind) ∧ poolSlot id = some p ∧
      next.pool p = .free := by
  cases effect with
  | idle => exact absurd rfl gone
  | alloc _ found => exact absurd ((update_gone (pool_scan_free found) gone).1 ▸ pool_scan_free found) live
  | freeAny frees place =>
      rename_i c s tid id
      obtain ⟨rfl,_⟩ := update_gone rfl gone
      obtain ⟨kind,destroy⟩ := freesAny_destroys frees
      have same : (k.pool p).kind = kind := by
        by_contra different
        exact own tid c id kind rfl destroy frees ⟨p,place,live,different⟩
      exact ⟨tid,c,id,rfl,same ▸ destroy,place,Function.update_self _ _ _⟩
  | freeKind frees place same =>
      rename_i c kind s tid id
      obtain ⟨rfl,_⟩ := update_gone rfl gone
      exact ⟨tid,c,id,rfl,same ▸ freesKind_destroys frees,place,Function.update_self _ _ _⟩
  | adjust holds same _ => exact absurd same (update_gone holds gone).2
  | connect port => exact absurd rfl (update_gone (pool_get_some.mp port).2.1 gone).2
  | sleep _ mutex => exact absurd rfl (update_gone (pool_get_some.mp mutex).2.1 gone).2
  | wake _ _ holds _ => exact absurd rfl (update_gone holds gone).2
  | take holds _ => exact absurd rfl (update_gone holds gone).2
  | got _ _ holds => exact absurd rfl (update_gone holds gone).2
  | put _ queue _ => exact absurd rfl (update_gone (pool_get_some.mp queue).2.1 gone).2

theorem freed_by_kind (step : lv2_step t.before t.action = some t.outcome) (own : t.FreesOwn) : t.FreedByKind :=
  fun _ live gone => effect_freed (step_effect step) own live gone
end Step

-- In any run, a destroy call leaves an object of another kind alone exactly when it is not
-- one that skips the check on such an ID; if no step does that, objects only ever go
-- through the destroy call of their kind.
theorem destroy_kind_safe_iff (actions : List Lv2Action) (final : Kernel) (outcomes : List Outcome)
    (run : lv2_run lv2_pool_init actions = some (final,outcomes)) :
    (∀ t ∈ transitions lv2_pool_init actions outcomes, t.KindSafe ↔ t.FreesOwn) ∧
      ((∀ t ∈ transitions lv2_pool_init actions outcomes, t.FreesOwn) →
        ∀ t ∈ transitions lv2_pool_init actions outcomes, t.KindSafe ∧ t.FreedByKind) := by
  have steps := transitions_step run
  refine ⟨fun t member => kind_safe_iff (steps t member),fun own t member => ⟨?_,?_⟩⟩
  · exact (kind_safe_iff (steps t member)).mpr (own t member)
  · exact freed_by_kind (steps t member) (own t member)

def destroyTwo : List Lv2Action :=
  [.call 1 (.sys_semaphore_create 0 1 1),.call 1 (.sys_mutex_create 0),.call 2 (.sys_semaphore_destroy 1),
    .call 2 (.sys_semaphore_destroy 2)]

theorem destroy_kind_safe_iff_two : ∃ final outcomes, lv2_run lv2_pool_init destroyTwo = some (final,outcomes) ∧
    ∀ t ∈ transitions lv2_pool_init destroyTwo outcomes, t.KindSafe ↔ t.FreesOwn := by
  have runs : (lv2_run lv2_pool_init destroyTwo).isSome = true := by decide +kernel
  obtain ⟨⟨final,outcomes⟩,run⟩ := Option.isSome_iff_exists.mp runs
  exact ⟨final,outcomes,run,(destroy_kind_safe_iff destroyTwo final outcomes run).1⟩

theorem cond_destroy_frees_semaphore : ¬ ∀ actions final outcomes,
    lv2_run lv2_pool_init actions = some (final,outcomes) →
    ∀ t ∈ transitions lv2_pool_init actions outcomes, t.KindSafe := by
  intro claim
  let semaphore : Lv2Obj := .sem (CreateSemaphoreA 1 1)
  have made : (lv2_step lv2_pool_init (.call 1 (.sys_semaphore_create 0 1 1))).isSome = true := rfl
  obtain ⟨o,made⟩ := Option.isSome_iff_exists.mp made
  have kernel : o.kernel = lv2_pool_init.allocated 1 semaphore := by
    rw [created_step rfl made,pool_scan_first rfl]
    rfl
  have holds : o.kernel.pool 1 = semaphore := by
    rw [kernel]
    rfl
  have idle : o.kernel.inflight = [] := by
    rw [kernel]
    rfl
  have destroyed : lv2_step o.kernel (.call 1 (.sys_cond_destroy 1)) = some (free_any o.kernel 1) := by
    rw [lv2_step,idle]
    rfl
  have run : lv2_run lv2_pool_init [.call 1 (.sys_semaphore_create 0 1 1),.call 1 (.sys_cond_destroy 1)] =
      some ((free_any o.kernel 1).kernel,[o,free_any o.kernel 1]) := by
    rw [lv2_run,made,Option.bind_some,lv2_run,destroyed]
    rfl
  have safe := claim _ _ _ run ⟨o.kernel,.call 1 (.sys_cond_destroy 1),free_any o.kernel 1⟩
    (List.mem_cons_of_mem _ List.mem_cons_self)
  have other : NamesOther o.kernel.pool 1 .cond := by
    refine ⟨1,rfl,?_,?_⟩
    · rw [holds]
      exact Lv2Obj.noConfusion
    · rw [holds]
      exact Lv2Kind.noConfusion
  exact other.changed (safe 1 _ 1 .cond rfl rfl other)

end BudokaiRuntime.Lv2
