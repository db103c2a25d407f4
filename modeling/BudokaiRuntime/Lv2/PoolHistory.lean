import BudokaiRuntime.Lv2.Syscalls

-- pool_alloc and pool_free by themselves, in any sequence, and the allocations that are
-- live after it.
namespace BudokaiRuntime.Lv2

-- The kinds that objects are allocated with. LV2_FREE tags an entry that holds none, and
-- no caller allocates it.
abbrev ObjectKind : Type := {kind : Lv2Kind // kind ≠ .free}

inductive PoolCall where
  | alloc (kind : ObjectKind)
  | free (id : BitVec 32)
deriving DecidableEq

-- What a call did: the ID that pool_alloc returned (0 when it found none), the ID that
-- pool_free was given.
inductive PoolEvent where
  | allocated (kind : ObjectKind) (id : BitVec 32)
  | freed (id : BitVec 32)
deriving DecidableEq

def pool_alloc_id (k : Kernel) (kind : Lv2Kind) : BitVec 32 × Kernel :=
  match pool_alloc k kind with
  | none => (0,k)
  | some (s,k) => (slotId s,k)

def pool_call (k : Kernel) : PoolCall → PoolEvent × Kernel
  | .alloc kind => (.allocated kind (pool_alloc_id k kind).1,(pool_alloc_id k kind).2)
  | .free id => (.freed id,{k with pool := pool_free k.pool id})

def pool_calls (k : Kernel) : List PoolCall → List PoolEvent × Kernel
  | [] => ([],k)
  | c::calls => ((pool_call k c).1::(pool_calls (pool_call k c).2 calls).1,(pool_calls (pool_call k c).2 calls).2)

-- The kind of the latest allocation of each ID that is not yet freed.
abbrev Holders : Type := BitVec 32 → Option Lv2Kind

def Holders.event (held : Holders) : PoolEvent → Holders
  | .allocated kind id => if id = 0 then held else Function.update held id (some kind)
  | .freed id => Function.update held id none

def held (log : List PoolEvent) : Holders := log.foldl Holders.event fun _ => none

def Lv2Obj.holder (object : Lv2Obj) : Option Lv2Kind := if object.kind = .free then none else some object.kind

structure PoolHolds (k : Kernel) (holds : Holders) : Prop where
  low : 1 ≤ k.cursor.toNat
  high : k.cursor.toNat ≤ 511
  zero : k.pool 0 = .free
  inside : ∀ s, s ≠ 0 → holds (slotId s) = (k.pool s).holder
  outside : ∀ id, poolSlot id = none → holds id = none

theorem zeroed_kind (kind : Lv2Kind) : (Lv2Obj.zeroed kind).kind = kind := by
  cases kind with
  | _ => rfl

section Step
variable {k : Kernel} {holds : Holders} {s : Slot} {id : BitVec 32}

theorem holder_none {object : Lv2Obj} : object.holder = none ↔ object.kind = .free := by
  unfold Lv2Obj.holder
  split
  · rename_i free
    exact ⟨fun _ => free,fun _ => rfl⟩
  · rename_i live
    exact ⟨nofun,fun free => absurd free live⟩

theorem PoolHolds.init : PoolHolds lv2_pool_init fun _ => none where
  low := Nat.le_refl 1
  high := by decide
  zero := rfl
  inside := fun _ _ => rfl
  outside := fun _ _ => rfl

theorem PoolHolds.write (now : PoolHolds k holds) (live : s ≠ 0) (object : Lv2Obj) {cursor : BitVec 32}
    (low : 1 ≤ cursor.toNat) (high : cursor.toNat ≤ 511) :
    PoolHolds {k with pool := Function.update k.pool s object, cursor := cursor}
      (Function.update holds (slotId s) object.holder) where
  low := low
  high := high
  zero := (Function.update_of_ne live.symm _ _).trans now.zero
  inside := by
    intro t other
    dsimp only
    by_cases same : t = s
    · rw [same,Function.update_self,Function.update_self]
    · rw [Function.update_of_ne same,Function.update_of_ne fun ids => same (slotId_inj ids)]
      exact now.inside t other
  outside := by
    intro id none
    have different : id ≠ slotId s := by
      rintro rfl
      exact nomatch none.symm.trans (poolSlot_slotId live)
    rw [Function.update_of_ne different]
    exact now.outside id none

theorem alloc_cases (k : Kernel) (kind : ObjectKind) :
    (pool_scan k.pool k.cursor = none ∧ pool_alloc_id k kind = (0,k)) ∨ ∃ s, pool_scan k.pool k.cursor = some s ∧
      pool_alloc_id k kind = (slotId s,{k with
        pool := Function.update k.pool s (.zeroed kind)
        cursor := slotId s % BitVec.ofNat 32 (MAX_LV2_OBJ-1) + 1}) := by
  unfold pool_alloc_id pool_alloc
  cases pool_scan k.pool k.cursor with
  | none => exact .inl ⟨rfl,rfl⟩
  | some s => exact .inr ⟨s,rfl,rfl⟩

theorem PoolHolds.alloc (now : PoolHolds k holds) (kind : ObjectKind) :
    PoolHolds (pool_call k (.alloc kind)).2 (holds.event (pool_call k (.alloc kind)).1) := by
  unfold pool_call Holders.event
  dsimp only
  rcases alloc_cases k kind with ⟨_,fails⟩ | ⟨s,found,takes⟩
  · rw [fails,if_pos rfl]
    exact now
  · have live := pool_scan_ne_zero found
    have holder : (Lv2Obj.zeroed kind).holder = some kind.val := by
      rw [Lv2Obj.holder,zeroed_kind,if_neg kind.property]
    have next := cursor_next s
    have wrapped := Nat.mod_lt s.val (show 511 > 0 by decide)
    rw [takes,if_neg fun zero => live (slotId_zero.mp zero),← holder]
    exact now.write live _ (by omega) (by omega)

theorem PoolHolds.free (now : PoolHolds k holds) (id : BitVec 32) :
    PoolHolds (pool_call k (.free id)).2 (holds.event (pool_call k (.free id)).1) := by
  unfold pool_call Holders.event pool_free
  dsimp only
  cases place : poolSlot id with
  | none =>
      have unheld : Function.update holds id none = holds := by
        rw [← now.outside id place,Function.update_eq_self]
      rw [unheld]
      exact now
  | some s =>
      obtain ⟨live,rfl⟩ := poolSlot_some.mp place
      exact now.write live .free now.low now.high

theorem PoolHolds.call (now : PoolHolds k holds) (c : PoolCall) :
    PoolHolds (pool_call k c).2 (holds.event (pool_call k c).1) := by
  cases c with
  | alloc kind => exact now.alloc kind
  | free id => exact now.free id

theorem PoolHolds.calls (now : PoolHolds k holds) (calls : List PoolCall) :
    PoolHolds (pool_calls k calls).2 ((pool_calls k calls).1.foldl Holders.event holds) := by
  induction calls generalizing k holds with
  | nil => exact now
  | cons c calls ih => exact ih (now.call c)

theorem pool_holds (calls : List PoolCall) :
    PoolHolds (pool_calls lv2_pool_init calls).2 (held (pool_calls lv2_pool_init calls).1) :=
  PoolHolds.init.calls calls

theorem PoolHolds.full (now : PoolHolds k holds) :
    pool_scan k.pool k.cursor = none ↔
      ∀ id : BitVec 32, 1 ≤ id.toNat → id.toNat ≤ 511 → holds id ≠ none := by
  rw [pool_scan_none now.low now.high]
  constructor
  · intro full id low high
    cases place : poolSlot id with
    | none => exact absurd ⟨low,high⟩ (poolSlot_none.mp place)
    | some s =>
        obtain ⟨live,rfl⟩ := poolSlot_some.mp place
        rw [now.inside s live]
        exact fun free => full s live (holder_none.mp free)
  · intro full s live free
    have bound := slot_lt s
    have positive : 0 < s.val := Nat.pos_of_ne_zero fun zero => live (Fin.ext zero)
    refine full (slotId s) ?_ ?_ ?_
    · rw [slotId_toNat]
      exact positive
    · rw [slotId_toNat]
      omega
    · rw [now.inside s live]
      exact holder_none.mpr free

-- pool_alloc fails exactly when every usable ID is held; otherwise the ID was not.
theorem PoolHolds.result (now : PoolHolds k holds) (kind : ObjectKind) :
    ((pool_alloc_id k kind).1 = 0 ↔ ∀ id : BitVec 32, 1 ≤ id.toNat → id.toNat ≤ 511 → holds id ≠ none) ∧
      ((pool_alloc_id k kind).1 ≠ 0 → 1 ≤ (pool_alloc_id k kind).1.toNat ∧ (pool_alloc_id k kind).1.toNat ≤ 511 ∧
        holds (pool_alloc_id k kind).1 = none ∧
        ∃ s, poolSlot (pool_alloc_id k kind).1 = some s ∧ k.pool s = .free) := by
  rw [← now.full]
  rcases alloc_cases k kind with ⟨full,fails⟩ | ⟨s,found,takes⟩
  · rw [fails]
    exact ⟨⟨fun _ => full,fun _ => rfl⟩,fun nonzero => absurd rfl nonzero⟩
  · have live := pool_scan_ne_zero found
    have bound := slot_lt s
    have positive : 0 < s.val := Nat.pos_of_ne_zero fun zero => live (Fin.ext zero)
    have free := pool_scan_free found
    rw [takes,found]
    refine ⟨⟨fun zero => absurd (slotId_zero.mp zero) live,nofun⟩,fun _ => ?_⟩
    refine ⟨?_,?_,?_,s,poolSlot_slotId live,free⟩
    · rw [slotId_toNat]
      exact positive
    · rw [slotId_toNat]
      omega
    · rw [now.inside s live,holder_none,free]
      rfl

theorem PoolHolds.lookup (now : PoolHolds k holds) (id : BitVec 32) (kind : ObjectKind) :
    (pool_get k.pool id kind).isSome = true ↔ holds id = some kind.val := by
  unfold pool_get
  cases place : poolSlot id with
  | none =>
      rw [now.outside id place]
      exact ⟨nofun,nofun⟩
  | some s =>
      obtain ⟨live,rfl⟩ := poolSlot_some.mp place
      rw [now.inside s live,Lv2Obj.holder]
      dsimp only
      by_cases same : (k.pool s).kind = kind.val
      · rw [if_pos same,same,if_neg kind.property]
        exact ⟨fun _ => rfl,fun _ => rfl⟩
      · rw [if_neg same]
        refine ⟨nofun,fun holder => ?_⟩
        split at holder
        · cases holder
        · exact absurd (Option.some.inj holder) same
end Step

theorem held_kept (mid : List PoolEvent) {holds : Holders} {id : BitVec 32} (live : holds id ≠ none)
    (kept : .freed id ∉ mid) : mid.foldl Holders.event holds id ≠ none := by
  induction mid generalizing holds with
  | nil => exact live
  | cons e mid ih =>
      rw [List.mem_cons,not_or] at kept
      refine ih ?_ kept.2
      cases e with
      | allocated kind other =>
          unfold Holders.event
          dsimp only
          split
          · exact live
          · by_cases same : id = other
            · rw [same,Function.update_self]
              exact Option.some_ne_none _
            · rw [Function.update_of_ne same]
              exact live
      | freed other =>
          have different : id ≠ other := fun same => kept.1 (congrArg _ same)
          rw [Holders.event,Function.update_of_ne different]
          exact live

theorem pool_calls_split {k : Kernel} {calls : List PoolCall} {first rest : List PoolEvent} {e : PoolEvent}
    (log : (pool_calls k calls).1 = first ++ e::rest) : ∃ done c,
      (pool_calls k done).1 = first ∧ (pool_call (pool_calls k done).2 c).1 = e := by
  induction calls generalizing k first with
  | nil => exact absurd log.symm (by simp [pool_calls])
  | cons c calls ih =>
      cases first with
      | nil => exact ⟨[],c,rfl,(List.cons.inj log).1⟩
      | cons head first =>
          obtain ⟨here,later⟩ := List.cons.inj log
          obtain ⟨done,c',before,now⟩ := ih later
          exact ⟨c::done,c',by rw [pool_calls,before,here],now⟩

theorem allocated_once {calls : List PoolCall} {before mid after : List PoolEvent} {id : BitVec 32}
    (log : (pool_calls lv2_pool_init calls).1 =
      before ++ .allocated kind id::(mid ++ .allocated kind' id::after)) (found : id ≠ 0) : .freed id ∈ mid := by
  by_contra kept
  have split : before ++ .allocated kind id::(mid ++ .allocated kind' id::after) =
      (before ++ .allocated kind id::mid) ++ .allocated kind' id::after := by simp
  obtain ⟨done,c,first,again⟩ := pool_calls_split (log.trans split)
  have live : held (before ++ .allocated kind id::mid) id ≠ none := by
    rw [held,List.foldl_append,List.foldl_cons]
    refine held_kept mid ?_ kept
    rw [Holders.event,if_neg found,Function.update_self]
    exact Option.some_ne_none _
  cases c with
  | free other => cases again
  | alloc third =>
      obtain ⟨rfl,same⟩ := PoolEvent.allocated.inj again
      rw [← first,← same] at live
      exact live (((pool_holds done).result third).2 (by rwa [same])).2.2.1

-- After any sequence of allocations and frees: where the cursor stands, when pool_alloc
-- fails and what it returns, that no ID is held twice, and what pool_get finds.
theorem pool_tracks_allocations (calls : List PoolCall) :
    let log := (pool_calls lv2_pool_init calls).1
    let k := (pool_calls lv2_pool_init calls).2
    (1 ≤ k.cursor.toNat ∧ k.cursor.toNat ≤ MAX_LV2_OBJ-1) ∧ k.pool 0 = .free ∧
    (∀ kind : ObjectKind,
      ((pool_alloc_id k kind).1 = 0 ↔
        ∀ id : BitVec 32, 1 ≤ id.toNat → id.toNat ≤ MAX_LV2_OBJ-1 → held log id ≠ none) ∧
      ((pool_alloc_id k kind).1 ≠ 0 →
        1 ≤ (pool_alloc_id k kind).1.toNat ∧ (pool_alloc_id k kind).1.toNat ≤ MAX_LV2_OBJ-1 ∧
        held log (pool_alloc_id k kind).1 = none ∧
        ∃ s, poolSlot (pool_alloc_id k kind).1 = some s ∧ k.pool s = .free)) ∧
    (∀ before mid after kind kind' id, log = before ++ .allocated kind id::(mid ++ .allocated kind' id::after) →
      id ≠ 0 → .freed id ∈ mid) ∧
    ∀ id (kind : ObjectKind), (pool_get k.pool id kind).isSome = true ↔ held log id = some kind.val := by
  intro log k
  have now : PoolHolds k (held log) := pool_holds calls
  refine ⟨⟨now.low,now.high⟩,now.zero,?_,?_,now.lookup⟩
  · intro kind
    exact now.result kind
  · intro before mid after kind kind' id split found
    exact allocated_once split found

end BudokaiRuntime.Lv2
