import BudokaiRuntime.Lv2.Effects

-- The value of one semaphore against the results that its creator and its users were given.
namespace BudokaiRuntime.Lv2

inductive SemCall where
  | post (cnt : BitVec 32)
  | wait (tus : BitVec 64)
  | trywait
deriving DecidableEq

def SemCall.call (id : BitVec 32) : SemCall → Lv2Call
  | .post cnt => .sys_semaphore_post id cnt
  | .wait tus => .sys_semaphore_wait id tus
  | .trywait => .sys_semaphore_trywait id

-- What a result of 0 tells the guest: the count was added, one unit was taken.
def SemCall.change (r3 : Option (BitVec 64)) : SemCall → Int
  | .post cnt => if r3 = some CELL_OK then cnt.toNat else 0
  | .wait _ => if r3 = some CELL_OK then -1 else 0
  | .trywait => if r3 = some CELL_OK then -1 else 0

def semaphoreMax (mx : BitVec 32) : Int := if mx.toInt > 0 then mx.toInt else 0x7FFFFFFF

def Counts (k : Kernel) (s : Slot) (max expected : Int) : Prop :=
  ∃ sem, k.pool s = .sem (some sem) ∧ sem.max = max ∧ sem.count = expected ∧ 0 ≤ expected ∧ expected ≤ max

def CountsOver (s : Slot) (max : Int) : Kernel → Int → List (Tid × SemCall) → Prop
  | k,expected,[] => Counts k s max expected
  | k,expected,(tid,c)::calls => Counts k s max expected ∧ ∀ o,
      lv2_step k (.call tid (c.call (slotId s))) = some o →
        CountsOver s max o.kernel (expected + c.change o.r3) calls

-- A post has room for its count; a post of 0 finds the semaphore full.
def PostFits (sem : Semaphore) : SemCall → Prop
  | .post cnt => cnt = 0 ∧ sem.count = sem.max ∨ cnt ≠ 0 ∧ sem.count + cnt.toNat ≤ sem.max
  | .wait _ => True
  | .trywait => True

def PostsFit (s : Slot) : Kernel → List (Tid × SemCall) → Prop
  | _,[] => True
  | k,(tid,c)::calls => ∀ o, lv2_step k (.call tid (c.call (slotId s))) = some o →
      (∀ sem, k.pool s = .sem (some sem) → PostFits sem c) ∧ PostsFit s o.kernel calls

section Step
variable {k : Kernel} {s : Slot} {sem : Semaphore} {o : Outcome} {tid : Tid}

theorem semaphore_found (live : s ≠ 0) (holds : k.pool s = .sem handle) :
    pool_get k.pool (slotId s) .sem = some (s,.sem handle) :=
  pool_get_some.mpr ⟨poolSlot_slotId live,holds,rfl⟩

theorem post_result (live : s ≠ 0) (holds : k.pool s = .sem (some sem)) (cnt : BitVec 32) :
    sys_semaphore_post k (slotId s) cnt =
      returns (k.set s (.sem (some (ReleaseSemaphore sem (if cnt ≠ 0 then cnt.toInt else 1))))) CELL_OK := by
  rw [sys_semaphore_post,semaphore_found live holds]

theorem release_fits (count max : Int) (cnt : BitVec 32) (low : 0 ≤ count) (high : count ≤ max)
    (bound : max ≤ 0x7FFFFFFF) :
    (ReleaseSemaphore ⟨count,max⟩ (if cnt ≠ 0 then cnt.toInt else 1)).count = count + cnt.toNat ∧
      count + cnt.toNat ≤ max ↔ PostFits ⟨count,max⟩ (.post cnt) := by
  have small := cnt.isLt
  have signed := BitVec.toInt_eq_toNat_cond cnt
  simp only [ReleaseSemaphore,PostFits]
  by_cases zero : cnt = 0
  · have none_ : cnt.toNat = 0 := congrArg BitVec.toNat zero
    rw [if_neg (not_not_intro zero),none_,and_iff_right zero,or_iff_left fun room => room.1 zero]
    split
    · dsimp only
      omega
    · dsimp only
      omega
  · have positive : 0 < cnt.toNat := Nat.pos_of_ne_zero fun same => zero (BitVec.eq_of_toNat_eq same)
    rw [if_pos zero]
    simp only [zero,false_and,ne_eq,not_false_eq_true,true_and,false_or]
    split
    · dsimp only
      split at signed <;> omega
    · dsimp only
      split at signed <;> omega

theorem take_result {ms : BitVec 32} {result : WaitResult → BitVec 64} (live : s ≠ 0)
    (holds : k.pool s = .sem (some sem)) (took : semaphore_take k (slotId s) ms result = some o) :
    0 < sem.count ∧ o = returns (k.set s (.sem (some {sem with count := sem.count-1}))) (result .object_0) ∨
      o = returns (k.set s (.sem (some sem))) (result .timeout) := by
  rw [semaphore_take,semaphore_found live holds] at took
  obtain ⟨⟨r,handle⟩,waited,rfl⟩ := Option.map_eq_some_iff.mp took
  simp only [WaitForSingleObject] at waited
  split at waited
  · rename_i available
    cases waited
    exact .inl ⟨available,rfl⟩
  · split at waited
    · cases waited
    · cases waited
      exact .inr rfl

theorem release_max (h : Semaphore) (n : Int) : (ReleaseSemaphore h n).max = h.max := by
  unfold ReleaseSemaphore
  split <;> rfl

theorem take_changes {ms : BitVec 32} {result : WaitResult → BitVec 64} (live : s ≠ 0)
    (holds : k.pool s = .sem (some sem)) (done : result .object_0 = CELL_OK) (missed : result .timeout ≠ CELL_OK)
    (low : 0 ≤ sem.count) (high : sem.count ≤ sem.max) (took : semaphore_take k (slotId s) ms result = some o) :
    ∃ after, o.kernel.pool s = .sem (some after) ∧ after.max = sem.max ∧
      0 ≤ sem.count + (if o.r3 = some CELL_OK then -1 else 0) ∧
      after.count = sem.count + (if o.r3 = some CELL_OK then -1 else 0) ∧
      sem.count + (if o.r3 = some CELL_OK then -1 else 0) ≤ sem.max := by
  rcases take_result live holds took with ⟨available,rfl⟩ | rfl
  · refine ⟨_,Function.update_self _ _ _,rfl,?_⟩
    rw [if_pos (show (returns _ (result .object_0)).r3 = some CELL_OK from congrArg some done)]
    dsimp only
    omega
  · refine ⟨_,Function.update_self _ _ _,rfl,?_⟩
    rw [if_neg (show ¬ (returns _ (result .timeout)).r3 = some CELL_OK from
      fun same => missed (Option.some.inj same))]
    omega

theorem sem_step (live : s ≠ 0) (holds : k.pool s = .sem (some sem)) (c : SemCall)
    (step : lv2_step k (.call tid (c.call (slotId s))) = some o) (bound : sem.max ≤ 0x7FFFFFFF)
    (low : 0 ≤ sem.count) (high : sem.count ≤ sem.max) :
    ∃ after, o.kernel.pool s = .sem (some after) ∧ after.max = sem.max ∧ 0 ≤ sem.count + c.change o.r3 ∧
      (after.count = sem.count + c.change o.r3 ∧ sem.count + c.change o.r3 ≤ sem.max ↔ PostFits sem c) := by
  obtain ⟨_,ran⟩ := call_step step
  cases c with
  | post cnt =>
      cases Option.some.inj ran
      rw [post_result live holds cnt]
      refine ⟨_,Function.update_self _ _ _,release_max _ _,?_,?_⟩
      · simp only [SemCall.change,returns,if_true]
        omega
      · simp only [SemCall.change,returns,if_true]
        exact release_fits sem.count sem.max cnt low high bound
  | wait tus =>
      have took : semaphore_take k (slotId s) (wait_ms tus)
        (fun r => if r = .timeout then TIMED_OUT else CELL_OK) = some o := ran
      obtain ⟨after,left,same,positive,counted,below⟩ := take_changes live holds rfl (by decide) low high took
      exact ⟨after,left,same,positive,iff_of_true ⟨counted,below⟩ trivial⟩
  | trywait =>
      have took : semaphore_take k (slotId s) 0
        (fun r => if r = .object_0 then CELL_OK else TIMED_OUT) = some o := ran
      obtain ⟨after,left,same,positive,counted,below⟩ := take_changes live holds rfl (by decide) low high took
      exact ⟨after,left,same,positive,iff_of_true ⟨counted,below⟩ trivial⟩

theorem counts_step (live : s ≠ 0) {max expected : Int} (bound : max ≤ 0x7FFFFFFF)
    (counts : Counts k s max expected) (c : SemCall)
    (step : lv2_step k (.call tid (c.call (slotId s))) = some o) :
    Counts o.kernel s max (expected + c.change o.r3) ↔
      ∀ sem, k.pool s = .sem (some sem) → PostFits sem c := by
  obtain ⟨sem,holds,rfl,rfl,low,high⟩ := counts
  obtain ⟨after,left,same,positive,fits⟩ := sem_step live holds c step bound low high
  constructor
  · intro ⟨other,holds_other,_,counted,_,below⟩ found holds_found
    obtain rfl : other = after := by
      have equal := holds_other.symm.trans left
      cases equal
      rfl
    obtain rfl : found = sem := by
      have equal := holds_found.symm.trans holds
      cases equal
      rfl
    exact fits.mp ⟨counted,below⟩
  · intro all
    obtain ⟨counted,below⟩ := fits.mpr (all sem holds)
    exact ⟨after,left,same,counted,positive,below⟩

end Step

theorem counts_over_iff (s : Slot) (live : s ≠ 0) (max : Int) (bound : max ≤ 0x7FFFFFFF) (k : Kernel) (expected : Int)
    (counts : Counts k s max expected) (calls : List (Tid × SemCall)) :
    CountsOver s max k expected calls ↔ PostsFit s k calls := by
  induction calls generalizing k expected with
  | nil => exact iff_of_true counts trivial
  | cons call calls ih =>
      obtain ⟨tid,c⟩ := call
      rw [CountsOver,PostsFit,and_iff_right counts]
      refine forall₂_congr fun o step => ?_
      have one := counts_step live bound counts c step
      constructor
      · intro rest
        have still : Counts o.kernel s max (expected + c.change o.r3) := by
          cases calls with
          | nil => exact rest
          | cons _ _ => exact rest.1
        exact ⟨one.mp still,(ih _ _ still).mp rest⟩
      · intro ⟨fits,rest⟩
        exact (ih _ _ (one.mpr fits)).mpr rest

section Law
variable (k : Kernel) (out ini mx : BitVec 32)

theorem semaphoreMax_range : 0 < semaphoreMax mx ∧ semaphoreMax mx ≤ 0x7FFFFFFF := by
  have signed := BitVec.toInt_lt (x:=mx)
  unfold semaphoreMax
  split <;> omega

theorem create_reports (object : Lv2Obj) (found : pool_scan k.pool k.cursor = some s) :
    (create k out .sem object).r3 = some CELL_OK := by
  unfold create pool_alloc
  rw [found]
  rfl

theorem created_semaphore (found : pool_scan k.pool k.cursor = some s) :
    (sys_semaphore_create k out ini mx).kernel.pool s = .sem (CreateSemaphoreA ini.toInt (semaphoreMax mx)) := by
  rw [sys_semaphore_create,create_kernel,found]
  exact allocated_self k s _

theorem usable_iff (found : pool_scan k.pool k.cursor = some s) :
    Counts (sys_semaphore_create k out ini mx).kernel s (semaphoreMax mx) ini.toInt ↔
      0 ≤ ini.toInt ∧ ini.toInt ≤ semaphoreMax mx := by
  have object := created_semaphore k out ini mx found
  have positive := (semaphoreMax_range mx).1
  rw [Counts,object]
  unfold CreateSemaphoreA
  constructor
  · rintro ⟨_,_,_,_,low,high⟩
    exact ⟨low,high⟩
  · intro ⟨low,high⟩
    rw [if_pos ⟨low,high,positive⟩]
    exact ⟨_,rfl,rfl,rfl,low,high⟩

-- From a create that returned 0 on, through every state of the calls on its ID.
def CountingLaw (calls : List (Tid × SemCall)) : Prop :=
  (sys_semaphore_create k out ini mx).r3 = some CELL_OK → ∀ s, pool_scan k.pool k.cursor = some s →
    CountsOver s (semaphoreMax mx) (sys_semaphore_create k out ini mx).kernel ini.toInt calls

theorem semaphore_counts_iff (calls : List (Tid × SemCall)) : CountingLaw k out ini mx calls ↔
    ∀ s, pool_scan k.pool k.cursor = some s → (0 ≤ ini.toInt ∧ ini.toInt ≤ semaphoreMax mx) ∧
      PostsFit s (sys_semaphore_create k out ini mx).kernel calls := by
  have bound := (semaphoreMax_range mx).2
  constructor
  · intro law s found
    have counted := law (create_reports k out _ found) s found
    have usable : Counts (sys_semaphore_create k out ini mx).kernel s (semaphoreMax mx) ini.toInt := by
      cases calls with
      | nil => exact counted
      | cons _ _ => exact counted.1
    exact ⟨(usable_iff k out ini mx found).mp usable,
      (counts_over_iff s (pool_scan_ne_zero found) _ bound _ _ usable calls).mp counted⟩
  · intro holds _ s found
    obtain ⟨range,fits⟩ := holds s found
    have usable := (usable_iff k out ini mx found).mpr range
    exact (counts_over_iff s (pool_scan_ne_zero found) _ bound _ _ usable calls).mpr fits

end Law

-- Initial value 2, maximum 1: CreateSemaphore fails and the call reports 0.
theorem create_reports_no_semaphore : ¬ ∀ k out ini mx calls, CountingLaw k out ini mx calls := by
  intro law
  have found : pool_scan lv2_pool_init.pool lv2_pool_init.cursor = some (scanSlot 1 0) := pool_scan_first rfl
  have usable : Counts _ (scanSlot 1 0) _ _ := law lv2_pool_init 0 2 1 [] (create_reports _ _ _ found) _ found
  have range := ((usable_iff lv2_pool_init 0 2 1 found).mp usable).2
  exact absurd range (by decide)

end BudokaiRuntime.Lv2
