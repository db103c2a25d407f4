import BudokaiRuntime.Foundations.RingBuffer
import BudokaiRuntime.Guest.Memory

-- The LV2 kernel objects and the pool that holds them.
namespace BudokaiRuntime.Lv2

abbrev MAX_LV2_OBJ : Nat := 512
abbrev EVQ_CAP : Nat := 128
abbrev INFINITE : BitVec 32 := 0xFFFFFFFF

abbrev Tid : Type := Nat
abbrev Slot : Type := Fin MAX_LV2_OBJ

-- Win32 semaphores. ReleaseSemaphore leaves the count alone when it fails.
structure Semaphore where
  count : Int
  max : Int
deriving DecidableEq

def CreateSemaphoreA (initial max : Int) : Option Semaphore :=
  if 0 ≤ initial ∧ initial ≤ max ∧ 0 < max then some ⟨initial,max⟩ else none

def ReleaseSemaphore (h : Semaphore) (n : Int) : Semaphore :=
  if 0 < n ∧ h.count+n ≤ h.max then {h with count := h.count+n} else h

inductive WaitResult where
  | object_0
  | timeout
  | failed
deriving DecidableEq

-- A wait on a handle: `none` while it blocks. A null handle fails.
def WaitForSingleObject (h : Option Semaphore) (ms : BitVec 32) : Option (WaitResult × Option Semaphore) :=
  match h with
  | none => some (.failed,none)
  | some s =>
      if 0 < s.count then some (.object_0,some {s with count := s.count-1})
      else if ms = INFINITE then none
      else some (.timeout,some s)

-- Win32 critical sections. Leaving one that is not owned is undefined; it is left alone here.
structure CriticalSection where
  owner : Option Tid
  depth : Nat
deriving DecidableEq

def InitializeCriticalSection : CriticalSection := ⟨none,0⟩

def EnterCriticalSection (cs : CriticalSection) (tid : Tid) : Option CriticalSection :=
  match cs.owner with
  | none => some ⟨some tid,1⟩
  | some owner => if owner = tid then some {cs with depth := cs.depth+1} else none

-- Leaving a section that the thread does not own is undefined in Win32. Here it changes
-- nothing; results about locks ask that it does not happen.
def LeaveCriticalSection (cs : CriticalSection) (tid : Tid) : CriticalSection :=
  if cs.owner = some tid then
    if cs.depth ≤ 1 then InitializeCriticalSection else {cs with depth := cs.depth-1}
  else cs

structure Lv2Event where
  source : BitVec 64
  data1 : BitVec 64
  data2 : BitVec 64
  data3 : BitVec 64
deriving DecidableEq

-- head and tail are indices into buf: every update reduces them modulo EVQ_CAP.
structure Lv2Evq where
  avail : Semaphore
  buf : Fin EVQ_CAP → Lv2Event
  head : Fin EVQ_CAP
  tail : Fin EVQ_CAP
  cnt : Int

-- calloc, then CreateSemaphoreA(NULL, 0, EVQ_CAP * 4, NULL)
def evq_create : Lv2Evq where
  avail := ⟨0,EVQ_CAP*4⟩
  buf := fun _ => ⟨0,0,0,0⟩
  head := 0
  tail := 0
  cnt := 0

def Lv2Evq.append (q : Lv2Evq) (ev : Lv2Event) : Lv2Evq :=
  {q with
    buf := Function.update q.buf q.tail ev
    tail := q.tail + 1
    cnt := q.cnt + 1
    avail := ReleaseSemaphore q.avail 1}

def Lv2Evq.remove (q : Lv2Evq) : Lv2Event × Lv2Evq :=
  (q.buf q.head,{q with head := q.head + 1,cnt := q.cnt - 1})

inductive Lv2Kind where
  | free
  | sem
  | mutex
  | cond
  | evq
  | evport
deriving DecidableEq

-- The tagged union. Of a free object only the tag is ever looked at.
inductive Lv2Obj where
  | free
  | sem (handle : Option Semaphore)
  | mutex (cs : CriticalSection)
  | cond (mutex_id : BitVec 32)
  | evq (evq : Option Lv2Evq)
  | evport (queue_id : BitVec 32) (name : BitVec 64)

def Lv2Obj.kind : Lv2Obj → Lv2Kind
  | .free => .free
  | .sem _ => .sem
  | .mutex _ => .mutex
  | .cond _ => .cond
  | .evq _ => .evq
  | .evport _ _ => .evport

theorem kind_free {object : Lv2Obj} : object.kind = .free ↔ object = .free := by
  cases object with
  | free => exact ⟨fun _ => rfl,fun _ => rfl⟩
  | _ => exact ⟨nofun,nofun⟩

-- memset(&g_pool[id], 0, sizeof(Lv2Obj)); kind
def Lv2Obj.zeroed : Lv2Kind → Lv2Obj
  | .free => .free
  | .sem => .sem none
  | .mutex => .mutex InitializeCriticalSection
  | .cond => .cond 0
  | .evq => .evq none
  | .evport => .evport 0 0

abbrev Pool : Type := Slot → Lv2Obj

-- The array index an ID names, for the IDs the pool hands out.
def poolSlot (id : BitVec 32) : Option Slot :=
  if bound : id = 0 ∨ id ≥ BitVec.ofNat 32 MAX_LV2_OBJ then none
  else some ⟨id.toNat,by
    rw [not_or] at bound
    exact BitVec.not_le.mp bound.2⟩

def slotId (s : Slot) : BitVec 32 := BitVec.ofNat 32 s.val

def scanId (cursor : BitVec 32) (i : Nat) : BitVec 32 :=
  (cursor - 1 + BitVec.ofNat 32 i) % BitVec.ofNat 32 (MAX_LV2_OBJ-1) + 1

theorem scanId_toNat (cursor : BitVec 32) (i : Nat) :
    (scanId cursor i).toNat = (cursor - 1 + BitVec.ofNat 32 i).toNat % 511 + 1 := by
  have one : (1 : BitVec 32).toNat = 1 := rfl
  have size : (BitVec.ofNat 32 (MAX_LV2_OBJ-1)).toNat = 511 := rfl
  rw [scanId,BitVec.toNat_add,BitVec.toNat_umod,one,size,Nat.mod_eq_of_lt (by omega)]

def scanSlot (cursor : BitVec 32) (i : Nat) : Slot :=
  ⟨(scanId cursor i).toNat,by
    rw [scanId_toNat]
    show _ + 1 < 512
    omega⟩

section Ids
variable {id cursor : BitVec 32} {s : Slot}

theorem slot_lt (s : Slot) : s.val < 512 := s.isLt

theorem slotId_toNat (s : Slot) : (slotId s).toNat = s.val := by
  have bound := slot_lt s
  rw [slotId,BitVec.toNat_ofNat]
  omega

theorem slotId_inj (same : slotId s = slotId t) : s = t := by
  apply Fin.ext
  rw [← slotId_toNat s,← slotId_toNat t,same]

theorem slotId_zero : slotId s = 0 ↔ s = 0 :=
  ⟨fun zero => slotId_inj (zero.trans rfl),fun zero => zero ▸ rfl⟩

theorem poolSlot_some : poolSlot id = some s ↔ s ≠ 0 ∧ id = slotId s := by
  have size : (BitVec.ofNat 32 MAX_LV2_OBJ).toNat = 512 := rfl
  unfold poolSlot
  split
  · rename_i outside
    refine ⟨nofun,?_⟩
    rintro ⟨live,rfl⟩
    rcases outside with zero | past
    · exact absurd (slotId_zero.mp zero) live
    · have bound := BitVec.le_def.mp past
      rw [size,slotId_toNat] at bound
      exact absurd (slot_lt s) (Nat.not_lt.mpr bound)
  · rename_i inside
    rw [not_or] at inside
    constructor
    · intro place
      cases place
      refine ⟨fun zero => inside.1 ?_,?_⟩
      · have value : id.toNat = 0 := congrArg Fin.val zero
        exact BitVec.eq_of_toNat_eq value
      · apply BitVec.eq_of_toNat_eq
        rw [slotId_toNat]
    · rintro ⟨_,rfl⟩
      exact congrArg some (Fin.ext (slotId_toNat s))

theorem poolSlot_slotId (live : s ≠ 0) : poolSlot (slotId s) = some s := poolSlot_some.mpr ⟨live,rfl⟩

theorem poolSlot_none : poolSlot id = none ↔ ¬ (1 ≤ id.toNat ∧ id.toNat ≤ 511) := by
  have size : (BitVec.ofNat 32 MAX_LV2_OBJ).toNat = 512 := rfl
  have zero : id = 0 ↔ id.toNat = 0 := ⟨fun h => h ▸ rfl,fun h => BitVec.eq_of_toNat_eq h⟩
  unfold poolSlot
  split
  · rename_i outside
    rw [zero,ge_iff_le,BitVec.le_def,size] at outside
    exact ⟨fun _ => by omega,fun _ => rfl⟩
  · rename_i inside
    rw [zero,ge_iff_le,BitVec.le_def,size] at inside
    exact ⟨nofun,fun outside => absurd (by omega) outside⟩

theorem scanSlot_val (low : 1 ≤ cursor.toNat) (high : cursor.toNat ≤ 511) (bound : i < 512) :
    (scanSlot cursor i).val = (cursor.toNat - 1 + i) % 511 + 1 := by
  have place : (cursor - 1 + BitVec.ofNat 32 i).toNat = cursor.toNat - 1 + i := by
    have one : (1 : BitVec 32).toNat = 1 := rfl
    rw [BitVec.toNat_add,BitVec.toNat_sub,BitVec.toNat_ofNat,one]
    omega
  exact (scanId_toNat cursor i).trans (by rw [place])

theorem scanSlot_ne_zero (cursor : BitVec 32) (i : Nat) : scanSlot cursor i ≠ 0 := by
  intro zero
  have value : (scanId cursor i).toNat = 0 := congrArg Fin.val zero
  rw [scanId_toNat] at value
  exact Nat.succ_ne_zero _ value

theorem scanSlot_covers (low : 1 ≤ cursor.toNat) (high : cursor.toNat ≤ 511) (live : s ≠ 0) :
    ∃ i < 511, scanSlot cursor i = s := by
  have positive : 0 < s.val := Nat.pos_of_ne_zero fun zero => live (Fin.ext zero)
  have bound := slot_lt s
  refine ⟨(s.val + 511 - cursor.toNat) % 511,Nat.mod_lt _ (by omega),Fin.ext ?_⟩
  rw [scanSlot_val low high (by omega)]
  omega

theorem cursor_next (s : Slot) : (slotId s % BitVec.ofNat 32 (MAX_LV2_OBJ-1) + 1).toNat = s.val % 511 + 1 := by
  have one : (1 : BitVec 32).toNat = 1 := rfl
  have size : (BitVec.ofNat 32 (MAX_LV2_OBJ-1)).toNat = 511 := rfl
  rw [BitVec.toNat_add,BitVec.toNat_umod,slotId_toNat,one,size]
  omega
end Ids

def pool_scan (pool : Pool) (cursor : BitVec 32) : Option Slot :=
  ((List.range (MAX_LV2_OBJ-1)).find? fun i => (pool (scanSlot cursor i)).kind = .free).map (scanSlot cursor)

def pool_get (pool : Pool) (id : BitVec 32) (kind : Lv2Kind) : Option (Slot × Lv2Obj) :=
  match poolSlot id with
  | none => none
  | some s => if (pool s).kind = kind then some (s,pool s) else none

def pool_free (pool : Pool) (id : BitVec 32) : Pool :=
  match poolSlot id with
  | none => pool
  | some s => Function.update pool s .free

section Lookup
variable {pool : Pool} {id : BitVec 32} {kind : Lv2Kind} {s : Slot} {o : Lv2Obj}

theorem pool_get_some : pool_get pool id kind = some (s,o) ↔ poolSlot id = some s ∧ pool s = o ∧ o.kind = kind := by
  unfold pool_get
  cases poolSlot id with
  | none => simp
  | some t =>
      constructor
      · intro found
        dsimp only at found
        split at found
        · rename_i same
          cases found
          exact ⟨rfl,rfl,same⟩
        · cases found
      · rintro ⟨place,rfl,rfl⟩
        cases place
        exact if_pos rfl

theorem pool_scan_free (found : pool_scan pool cursor = some s) : pool s = .free := by
  obtain ⟨i,hit,rfl⟩ := Option.map_eq_some_iff.mp found
  have free := List.find?_some hit
  cases object : pool (scanSlot cursor i) with
  | free => rfl
  | _ => simp [object,Lv2Obj.kind] at free

theorem pool_scan_none (low : 1 ≤ cursor.toNat) (high : cursor.toNat ≤ 511) :
    pool_scan pool cursor = none ↔ ∀ s, s ≠ 0 → (pool s).kind ≠ .free := by
  rw [pool_scan,Option.map_eq_none_iff,List.find?_eq_none]
  constructor
  · intro full s live
    obtain ⟨i,bound,rfl⟩ := scanSlot_covers low high live
    simpa using full i (List.mem_range.mpr bound)
  · intro full i _
    simpa using full (scanSlot cursor i) (scanSlot_ne_zero cursor i)

theorem pool_scan_ne_zero (found : pool_scan pool cursor = some s) : s ≠ 0 := by
  obtain ⟨i,_,rfl⟩ := Option.map_eq_some_iff.mp found
  exact scanSlot_ne_zero cursor i

theorem pool_scan_first (free : pool (scanSlot cursor 0) = .free) :
    pool_scan pool cursor = some (scanSlot cursor 0) := by
  have range : List.range (MAX_LV2_OBJ-1) = 0 :: (List.range 510).map Nat.succ := List.range_succ_eq_map
  have here : decide ((pool (scanSlot cursor 0)).kind = Lv2Kind.free) = true := by
    rw [free]
    rfl
  unfold pool_scan
  rw [range,List.find?_cons,here]
  rfl
end Lookup

end BudokaiRuntime.Lv2
