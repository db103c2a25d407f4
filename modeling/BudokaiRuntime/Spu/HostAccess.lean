import BudokaiRuntime.Spu.Addressing
import BudokaiRuntime.Spu.Conformance

-- What the host reads and writes in ls[] on behalf of an SPU: the memcpy calls of
-- mfc_execute and the descriptor of the EDGE service, over whole runs.
namespace BudokaiRuntime.Spu
open ByteLanes Guest

def mfcCommand (ctx : SpuCtx) : Option (BitVec 32) :=
  let insn := fetch (prepared ctx)
  if spu_decode insn = .chan .wrch ∧ F_CH insn = CH_MFC_Cmd then
    some (GW ((prepared ctx).gpr (F_RT insn)) 0)
  else none

-- Stop 0x3FFF before the geometry code: a task descriptor goes to LS[r4] and the
-- geometry processor is entered. The handler also fills guest memory, here `vm`.
def edgeServiceDue (ctx : SpuCtx) : Bool :=
  !ctx.running && ctx.stop_code == 0x3FFF && ctx.pc < 0x3100

def edgeDescriptor : Fin 16 → BitVec 8 := fun k =>
  if k.val < 4 then 0
  else if k.val < 8 then byteAt (k:=4) 0x70C000 ⟨k.val%4,by omega⟩
  else if k.val < 12 then byteAt (k:=4) 0xD0100000 ⟨k.val%4,by omega⟩
  else 0

def edge_service (vm : Option GuestMem) (ctx : SpuCtx) : Option SpuCtx :=
  let desc_ls := GW (ctx.gpr 4) 0
  let gpr := Function.update ctx.gpr 3 (spu_reg_set_w (ctx.gpr 3) 0 desc_ls)
  let gpr := Function.update gpr 87 (spu_reg_set_w (gpr 87) 0 desc_ls)
  if desc_ls.toNat+16 ≤ SPU_LS_SIZE then
    some {ctx with
      ls := ctx.ls.splice desc_ls.toNat edgeDescriptor
      gpr := gpr
      pc := 0x3108
      running := true
      vm_base := vm}
  else none

-- `setup` is everything else the host does to a context: loading a program, entry
-- registers, restarts, mailbox and signal deposits, guest memory moving on.
inductive HostEvent where
  | insn
  | service (vm : Option GuestMem)
  | setup (gpr : Gpr) (ls : LocalStore) (pc : BitVec 32) (running : Bool) (inbound_mbox : BitVec 32)
      (inbound_mbox_count : Int) (signal : Fin 2 → BitVec 32) (signal_count : Fin 2 → Int)
      (vm : Option GuestMem)

def HostEvent.apply (fpu : HostFpu) (ctx : SpuCtx) : HostEvent → Option SpuCtx
  | .insn => if ctx.running then spu_step fpu ctx else some ctx
  | .service vm => if edgeServiceDue ctx then edge_service vm ctx else some ctx
  | .setup gpr ls pc running inbound_mbox inbound_mbox_count signal signal_count vm =>
      some {ctx with gpr,ls,pc,running,inbound_mbox,inbound_mbox_count,signal,signal_count,vm_base := vm}

-- The ls[] indices the host touches: of the command's memcpy calls, of the descriptor.
def HostEvent.touched (ctx : SpuCtx) : HostEvent → List Nat
  | .insn =>
      if ctx.running then ((mfcCommand ctx).elim [] (mfc_copies ctx)).flatMap DmaCopy.lsIndices else []
  | .service _ =>
      if edgeServiceDue ctx then (List.range 16).map fun k => (GW (ctx.gpr 4) 0 + BitVec.ofNat 32 k).toNat
      else []
  | .setup .. => []

def touchedOver (fpu : HostFpu) : SpuCtx → List HostEvent → List Nat
  | _,[] => []
  | ctx,e::events => e.touched ctx ++ ((e.apply fpu ctx).elim [] fun next => touchedOver fpu next events)

-- One of the four copy branches takes the command.
def windowAccepted (ctx : SpuCtx) : Bool :=
  lsWindow (mfc_ea32 ctx) (mfc_sz ctx) && mfc_ea32 ctx - 0xFE000000 + mfc_sz ctx ≤ BitVec.ofNat 32 SPU_LS_SIZE

def guestAccepted (ctx : SpuCtx) (region : BitVec 32 → BitVec 32 → Bool) : Bool :=
  !lsWindow (mfc_ea32 ctx) (mfc_sz ctx) && region (mfc_ea32 ctx) (mfc_sz ctx)

def transferAccepted (ctx : SpuCtx) (cmd : BitVec 32) : Bool :=
  ctx.vm_base.isSome && match (cmd &&& 0xFF).toNat with
  | MFC_GET | MFC_GETB | MFC_GETF => windowAccepted ctx || guestAccepted ctx mainRam
  | MFC_PUT | MFC_PUTB | MFC_PUTF => windowAccepted ctx || guestAccepted ctx mainRam || guestAccepted ctx rsxIo
  | _ => false

def lsaFits (ctx : SpuCtx) : Prop := (mfc_lsa ctx).toNat + (mfc_sz ctx).toNat ≤ SPU_LS_SIZE

def TransferFits (ctx : SpuCtx) : Prop :=
  ∀ cmd, mfcCommand ctx = some cmd → transferAccepted ctx cmd = true → lsaFits ctx

def HostEvent.Fits (ctx : SpuCtx) : HostEvent → Prop
  | .insn => ctx.running = true → TransferFits ctx
  | .service _ => edgeServiceDue ctx = true → (GW (ctx.gpr 4) 0).toNat ≤ 0x3FFF0
  | .setup .. => True

def FitsOver (fpu : HostFpu) : SpuCtx → List HostEvent → Prop
  | _,[] => True
  | ctx,e::events => e.Fits ctx ∧ ∀ next, e.apply fpu ctx = some next → FitsOver fpu next events

section Transfers
variable (ctx : SpuCtx) (cmd : BitVec 32)

theorem mfc_lsa_lt : (mfc_lsa ctx).toNat < SPU_LS_SIZE := by
  have masked : (mfc_lsa ctx).toNat = ctx.mfc_lsa.toNat % SPU_LS_SIZE := and_ls_mask_toNat ctx.mfc_lsa
  rw [masked]
  exact Nat.mod_lt _ (by decide)

theorem mfc_sz_le : (mfc_sz ctx).toNat ≤ 16384 := by
  unfold mfc_sz
  split
  · decide
  · rename_i small
    exact Nat.not_lt.mp small

theorem range_inside (base size : Nat) (start : base ≤ SPU_LS_SIZE) :
    (∀ i ∈ List.range' base size, i < SPU_LS_SIZE) ↔ base+size ≤ SPU_LS_SIZE := by
  constructor
  · intro inside
    by_cases empty : size = 0
    · omega
    · have last := inside (base+size-1) (by rw [List.mem_range'_1]; omega)
      omega
  · intro fits i member
    rw [List.mem_range'_1] at member
    omega

-- The window check bounds the local-store side that the EA names, wrap-around included.
theorem window_inside (ea sz : BitVec 32) (small : sz.toNat ≤ 16384) (window : lsWindow ea sz = true)
    (checked : ea - 0xFE000000 + sz ≤ BitVec.ofNat 32 SPU_LS_SIZE) :
    (ea - 0xFE000000).toNat + sz.toNat ≤ SPU_LS_SIZE := by
  have low : 0xFE000000 ≤ ea.toNat := by
    simp only [lsWindow,Bool.and_eq_true,decide_eq_true_eq] at window
    exact window.1
  have offset : (ea - 0xFE000000).toNat = ea.toNat - 0xFE000000 := by
    rw [BitVec.toNat_sub_of_le (by exact low)]
    rfl
  have bound : (ea - 0xFE000000 + sz).toNat ≤ SPU_LS_SIZE := checked
  have top := ea.isLt
  rw [BitVec.toNat_add,offset,Nat.mod_eq_of_lt (by omega)] at bound
  rw [offset]
  exact bound

def DmaCopy.Fits : DmaCopy → Prop
  | .lsFromLs dst src size => dst.toNat+size.toNat ≤ SPU_LS_SIZE ∧ src.toNat+size.toNat ≤ SPU_LS_SIZE
  | .lsFromVm lsa _ size => lsa.toNat+size.toNat ≤ SPU_LS_SIZE
  | .vmFromLs _ lsa size => lsa.toNat+size.toNat ≤ SPU_LS_SIZE

theorem DmaCopy.Fits.indices {copy : DmaCopy} (fits : copy.Fits) (i : Nat) (touched : i ∈ copy.lsIndices) :
    i < SPU_LS_SIZE := by
  cases copy with
  | lsFromLs dst src size =>
      rcases List.mem_append.mp touched with left | right
      · exact (range_inside _ _ (by have := fits.1; omega)).mpr fits.1 i left
      · exact (range_inside _ _ (by have := fits.2; omega)).mpr fits.2 i right
  | lsFromVm lsa ea size => exact (range_inside _ _ (Nat.le_of_add_right_le fits)).mpr fits i touched
  | vmFromLs ea lsa size => exact (range_inside _ _ (Nat.le_of_add_right_le fits)).mpr fits i touched

theorem DmaCopy.Fits.runs {copy : DmaCopy} (fits : copy.Fits) (mapped : ctx.vm_base.isSome = true) :
    ∃ after, copy.run ctx = some after ∧ after.vm_base.isSome = true := by
  obtain ⟨vm,present⟩ := Option.isSome_iff_exists.mp mapped
  cases copy with
  | lsFromLs dst src size => exact ⟨_,dif_pos fits,mapped⟩
  | lsFromVm lsa ea size =>
      have inside : lsa.toNat+size.toNat ≤ SPU_LS_SIZE := fits
      simp only [DmaCopy.run,if_pos inside,present,Option.map_some]
      exact ⟨_,rfl,rfl⟩
  | vmFromLs ea lsa size =>
      have inside : lsa.toNat+size.toNat ≤ SPU_LS_SIZE := fits
      simp only [DmaCopy.run,dif_pos inside,present,Option.map_some]
      exact ⟨_,rfl,rfl⟩

-- Every memcpy of a command covers the LSA range and fits exactly when that range
-- does: the other side of a window copy has been checked.
def CoversLsa (ctx : SpuCtx) (copy : DmaCopy) : Prop :=
  (copy.Fits ↔ lsaFits ctx) ∧ ∀ i ∈ List.range' (mfc_lsa ctx).toNat (mfc_sz ctx).toNat, i ∈ copy.lsIndices

theorem get_covers (copy : DmaCopy) (made : copy ∈ mfc_get ctx) : CoversLsa ctx copy := by
  unfold mfc_get at made
  dsimp only at made
  split at made
  · rename_i window
    split at made
    · rename_i checked
      cases List.mem_singleton.mp made
      have far := window_inside _ _ (mfc_sz_le ctx) window checked
      exact ⟨and_iff_left far,fun i member => List.mem_append_left _ member⟩
    · cases made
  · split at made
    · cases List.mem_singleton.mp made
      exact ⟨Iff.rfl,fun i member => member⟩
    · cases made

theorem put_covers (copy : DmaCopy) (made : copy ∈ mfc_put ctx) : CoversLsa ctx copy := by
  unfold mfc_put at made
  dsimp only at made
  split at made
  · rename_i window
    split at made
    · rename_i checked
      cases List.mem_singleton.mp made
      have far := window_inside _ _ (mfc_sz_le ctx) window checked
      exact ⟨and_iff_right far,fun i member => List.mem_append_right _ member⟩
    · cases made
  · rcases List.mem_append.mp made with ram | rsx
    · split at ram
      · cases List.mem_singleton.mp ram
        exact ⟨Iff.rfl,fun i member => member⟩
      · cases ram
    · split at rsx
      · cases List.mem_singleton.mp rsx
        exact ⟨Iff.rfl,fun i member => member⟩
      · cases rsx

theorem copy_covers (copy : DmaCopy) (made : copy ∈ mfc_copies ctx cmd) : CoversLsa ctx copy := by
  unfold mfc_copies at made
  split at made
  · cases made
  split at made
  · exact get_covers ctx copy made
  · exact get_covers ctx copy made
  · exact get_covers ctx copy made
  · exact put_covers ctx copy made
  · exact put_covers ctx copy made
  · exact put_covers ctx copy made
  · cases made

theorem get_made : mfc_get ctx ≠ [] ↔ (windowAccepted ctx || guestAccepted ctx mainRam) = true := by
  unfold mfc_get windowAccepted guestAccepted
  dsimp only
  cases lsWindow (mfc_ea32 ctx) (mfc_sz ctx) <;> simp

theorem put_made : mfc_put ctx ≠ [] ↔
    (windowAccepted ctx || guestAccepted ctx mainRam || guestAccepted ctx rsxIo) = true := by
  unfold mfc_put windowAccepted guestAccepted
  dsimp only
  cases lsWindow (mfc_ea32 ctx) (mfc_sz ctx)
  · cases mainRam (mfc_ea32 ctx) (mfc_sz ctx) <;> simp
  · simp

theorem copies_made : mfc_copies ctx cmd ≠ [] ↔ transferAccepted ctx cmd = true := by
  unfold mfc_copies transferAccepted
  cases ctx.vm_base with
  | none => simp
  | some vm =>
      simp only [Option.isNone_some,Bool.false_eq_true,if_false,Option.isSome_some,Bool.true_and]
      generalize (cmd &&& 0xFF).toNat = code
      split
      · exact get_made ctx
      · exact get_made ctx
      · exact get_made ctx
      · exact put_made ctx
      · exact put_made ctx
      · exact put_made ctx
      · simp

theorem command_inside :
    (∀ i ∈ (mfc_copies ctx cmd).flatMap DmaCopy.lsIndices, i < SPU_LS_SIZE) ↔
      (transferAccepted ctx cmd = true → lsaFits ctx) := by
  rw [← copies_made ctx cmd]
  constructor
  · intro inside made
    obtain ⟨copy,member⟩ := List.exists_mem_of_ne_nil _ made
    have covered := (copy_covers ctx cmd copy member).2
    exact (range_inside _ _ (Nat.le_of_lt (mfc_lsa_lt ctx))).mp fun i index =>
      inside i (List.mem_flatMap.mpr ⟨copy,member,covered i index⟩)
  · intro fits i touched
    obtain ⟨copy,member,index⟩ := List.mem_flatMap.mp touched
    exact ((copy_covers ctx cmd copy member).1.mpr (fits (List.ne_nil_of_mem member))).indices i index

theorem copies_run (copies : List DmaCopy) (fits : ∀ copy ∈ copies, copy.Fits)
    (mapped : copies ≠ [] → ctx.vm_base.isSome = true) :
    ∃ after, copies.foldlM DmaCopy.run ctx = some after := by
  induction copies generalizing ctx with
  | nil => exact ⟨ctx,rfl⟩
  | cons copy rest ih =>
      obtain ⟨next,ran,still⟩ := (fits copy (by simp)).runs ctx (mapped (by simp))
      obtain ⟨after,done⟩ := ih next (fun c member => fits c (List.mem_cons_of_mem _ member)) fun _ => still
      exact ⟨after,by rw [List.foldlM_cons,ran]; exact done⟩

theorem copy_ran_fits {copy : DmaCopy} (ran : copy.run ctx = some after) : copy.Fits := by
  cases copy with
  | lsFromLs dst src size =>
      simp only [DmaCopy.run] at ran
      split at ran
      · rename_i inside
        exact inside
      · cases ran
  | lsFromVm lsa ea size =>
      simp only [DmaCopy.run] at ran
      split at ran
      · rename_i inside
        exact inside
      · cases ran
  | vmFromLs ea lsa size =>
      simp only [DmaCopy.run] at ran
      split at ran
      · rename_i inside
        exact inside
      · cases ran

theorem mfc_execute_fits (ran : mfc_execute ctx cmd = some after) (accepted : transferAccepted ctx cmd = true) :
    lsaFits ctx := by
  obtain ⟨copy,rest,made⟩ := List.exists_cons_of_ne_nil ((copies_made ctx cmd).mpr accepted)
  rw [mfc_execute,made,List.foldlM_cons] at ran
  obtain ⟨_,one,_⟩ := Option.bind_eq_some_iff.mp ran
  exact (copy_covers ctx cmd copy (made ▸ List.mem_cons_self)).1.mp (copy_ran_fits ctx one)

theorem mfc_execute_defined (fits : transferAccepted ctx cmd = true → lsaFits ctx) :
    ∃ after, mfc_execute ctx cmd = some after := by
  refine copies_run ctx _ (fun copy member => ?_) fun made => ?_
  · exact (copy_covers ctx cmd copy member).1.mpr (fits ((copies_made ctx cmd).mp (List.ne_nil_of_mem member)))
  · have accepted := (copies_made ctx cmd).mp made
    simp only [transferAccepted,Bool.and_eq_true] at accepted
    exact accepted.1
end Transfers

section Runs
variable (fpu : HostFpu)

theorem prepared_transfer (ctx : SpuCtx) (cmd : BitVec 32) :
    (transferAccepted (advance (prepared ctx)) cmd = true → lsaFits (advance (prepared ctx))) ↔
      (transferAccepted ctx cmd = true → lsaFits ctx) := by
  unfold prepared
  split <;> exact Iff.rfl

theorem wrch_defined (ctx : SpuCtx) (ch : Nat) (val : BitVec 32)
    (command : ch = CH_MFC_Cmd → ∃ after, mfc_execute ctx val = some after) :
    ∃ after, wrch ctx ch val = some after := by
  by_cases cmd : ch = CH_MFC_Cmd
  · obtain ⟨after,done⟩ := command cmd
    exact ⟨after,by rw [cmd]; exact done⟩
  · unfold wrch
    split <;> first | exact ⟨_,rfl⟩ | exact absurd rfl cmd

theorem spu_step_defined (ctx : SpuCtx) (fits : TransferFits ctx) : ∃ after, spu_step fpu ctx = some after := by
  rw [spu_step_prepared]
  unfold TransferFits mfcCommand at fits
  generalize fetch (prepared ctx) = insn at fits ⊢
  dsimp only at fits
  cases decoded : spu_decode insn with
  | rrr op => exact ⟨_,rfl⟩
  | ri18 op => exact ⟨_,rfl⟩
  | ri16 op => exact ⟨_,rfl⟩
  | ri10 op => exact ⟨_,rfl⟩
  | rr op => exact ⟨_,rfl⟩
  | unknown => exact ⟨_,rfl⟩
  | chan op =>
      cases op with
      | rdch => exact ⟨_,rfl⟩
      | rchcnt => exact ⟨_,rfl⟩
      | wrch =>
          refine wrch_defined _ _ _ fun channel => mfc_execute_defined _ _ ?_
          rw [prepared_transfer]
          exact fits _ (if_pos ⟨decoded,channel⟩)

theorem spu_step_defined_iff (ctx : SpuCtx) : (∃ after, spu_step fpu ctx = some after) ↔ TransferFits ctx := by
  refine ⟨?_,spu_step_defined fpu ctx⟩
  rintro ⟨after,ran⟩ cmd command accepted
  rw [spu_step_prepared] at ran
  unfold mfcCommand at command
  dsimp only at command
  split at command
  · rename_i chosen
    rw [chosen.1] at ran
    simp only [spu_exec,chosen.2,wrch] at ran
    have same : GW ((prepared ctx).gpr (F_RT (fetch (prepared ctx)))) 0 = cmd := Option.some.inj command
    exact (prepared_transfer ctx cmd).mp (mfc_execute_fits _ cmd (same ▸ ran)) accepted
  · cases command

theorem descriptor_inside (ctx : SpuCtx) :
    (∀ i ∈ (List.range 16).map fun k => (GW (ctx.gpr 4) 0 + BitVec.ofNat 32 k).toNat, i < SPU_LS_SIZE) ↔
      (GW (ctx.gpr 4) 0).toNat ≤ 0x3FFF0 := by
  generalize GW (ctx.gpr 4) 0 = base
  have size := ls_size
  have place : ∀ k, k < 16 → (base + BitVec.ofNat 32 k).toNat = (base.toNat+k) % 2^32 := by
    intro k small
    rw [BitVec.toNat_add,BitVec.toNat_ofNat,Nat.mod_eq_of_lt (by omega : k < 2^32)]
  constructor
  · intro inside
    have first := inside _ (List.mem_map_of_mem (List.mem_range.mpr (by decide : 0 < 16)))
    have last := inside _ (List.mem_map_of_mem (List.mem_range.mpr (by decide : 15 < 16)))
    rw [place 0 (by decide)] at first
    rw [place 15 (by decide)] at last
    have bound := base.isLt
    omega
  · intro low i member
    obtain ⟨k,small,rfl⟩ := List.mem_map.mp member
    rw [place k (List.mem_range.mp small)]
    have bound := List.mem_range.mp small
    omega

theorem event_inside (ctx : SpuCtx) (e : HostEvent) : (∀ i ∈ e.touched ctx, i < SPU_LS_SIZE) ↔ e.Fits ctx := by
  cases e with
  | insn =>
      unfold HostEvent.touched HostEvent.Fits TransferFits
      by_cases running : ctx.running = true
      · rw [if_pos running]
        cases command : mfcCommand ctx with
        | none => simp
        | some cmd =>
            refine (command_inside ctx cmd).trans ?_
            constructor
            · intro fits _ other same
              cases same
              exact fits
            · intro fits
              exact fits running cmd rfl
      · simp [running]
  | service vm =>
      unfold HostEvent.touched HostEvent.Fits
      by_cases due : edgeServiceDue ctx = true
      · rw [if_pos due,descriptor_inside]
        exact ⟨fun low _ => low,fun low => low due⟩
      · simp [due]
  | setup => simp [HostEvent.touched,HostEvent.Fits]

theorem event_defined (ctx : SpuCtx) (e : HostEvent) (fits : e.Fits ctx) :
    ∃ next, e.apply fpu ctx = some next := by
  cases e with
  | insn =>
      by_cases running : ctx.running = true
      · obtain ⟨after,done⟩ := spu_step_defined fpu ctx (fits running)
        exact ⟨after,(if_pos running).trans done⟩
      · exact ⟨ctx,if_neg running⟩
  | service vm =>
      by_cases due : edgeServiceDue ctx = true
      · have inside : (GW (ctx.gpr 4) 0).toNat+16 ≤ SPU_LS_SIZE := by
          have low := fits due
          have size := ls_size
          omega
        exact ⟨_,(if_pos due).trans (if_pos inside)⟩
      · exact ⟨ctx,if_neg due⟩
  | setup => exact ⟨_,rfl⟩

theorem event_defined_iff (ctx : SpuCtx) (e : HostEvent) : (∃ next, e.apply fpu ctx = some next) ↔ e.Fits ctx := by
  refine ⟨?_,event_defined fpu ctx e⟩
  rintro ⟨next,ran⟩
  cases e with
  | insn =>
      intro running
      exact (spu_step_defined_iff fpu ctx).mp ⟨next,(if_pos running).symm.trans ran⟩
  | service vm =>
      intro due
      have served := (if_pos due).symm.trans ran
      simp only [edge_service] at served
      split at served
      · rename_i inside
        have size := ls_size
        omega
      · cases served
  | setup => trivial

def runEvents (fpu : HostFpu) (ctx : SpuCtx) (events : List HostEvent) : Option SpuCtx :=
  events.foldlM (HostEvent.apply fpu) ctx

theorem run_inside (ctx : SpuCtx) (events : List HostEvent) :
    (∀ i ∈ touchedOver fpu ctx events, i < SPU_LS_SIZE) ↔ FitsOver fpu ctx events := by
  induction events generalizing ctx with
  | nil => simp [touchedOver,FitsOver]
  | cons e events ih =>
      have split : (∀ i ∈ touchedOver fpu ctx (e::events), i < SPU_LS_SIZE) ↔
          (∀ i ∈ e.touched ctx, i < SPU_LS_SIZE) ∧
          ∀ i ∈ (e.apply fpu ctx).elim [] (fun next => touchedOver fpu next events), i < SPU_LS_SIZE := by
        simp only [touchedOver,List.mem_append,or_imp,forall_and]
      rw [split,event_inside,FitsOver]
      refine and_congr Iff.rfl ?_
      cases e.apply fpu ctx with
      | none => simp
      | some next =>
          refine (ih next).trans ⟨?_,fun fits => fits next rfl⟩
          intro fits other same
          cases same
          exact fits

theorem run_defined (ctx : SpuCtx) (events : List HostEvent) (fits : FitsOver fpu ctx events) :
    ∃ final, runEvents fpu ctx events = some final := by
  induction events generalizing ctx with
  | nil => exact ⟨ctx,rfl⟩
  | cons e events ih =>
      obtain ⟨next,ran⟩ := event_defined fpu ctx e fits.1
      obtain ⟨final,done⟩ := ih next (fits.2 next ran)
      exact ⟨final,by rw [runEvents,List.foldlM_cons,ran]; exact done⟩
end Runs

-- Every index touched over a run is inside ls[], and the run leaves the fields behind
-- it alone, exactly when each event met on the way fits.
theorem host_access_inside_iff (fpu : HostFpu) (ctx : SpuCtx) (events : List HostEvent) :
    ((∀ i ∈ touchedOver fpu ctx events, i < SPU_LS_SIZE) ∧ ∃ final, runEvents fpu ctx events = some final) ↔
    FitsOver fpu ctx events := by
  constructor
  · rintro ⟨inside,_⟩
    exact (run_inside fpu ctx events).mp inside
  · intro fits
    exact ⟨(run_inside fpu ctx events).mpr fits,run_defined fpu ctx events fits⟩

-- wrch LSA,$2; wrch EAL,$3; wrch Size,$4; wrch Cmd,$5: a GET of 32 bytes to LS 0x3FFF0.
def overrunSetup : HostEvent :=
  .setup (fun r => .ofWords fun _ =>
      if r = 2 then 0x3FFF0 else if r = 3 then 0x10000 else if r = 4 then 0x20 else if r = 5 then 0x40 else 0)
    (loadImage [0x21A00802,0x21A00903,0x21A00984,0x21A00A85]) 0 true 0 0 (fun _ => 0) (fun _ => 0)
    (some fun _ => 0)

def overrun : List HostEvent := [overrunSetup,.insn,.insn,.insn,.insn]

theorem get_overruns_local_store :
    ¬ ∀ (fpu : HostFpu) (id : Int) (vm : Option GuestMem) (events : List HostEvent),
      ∀ i ∈ touchedOver fpu (spu_ctx_init id vm) events, i < SPU_LS_SIZE := by
  intro inside
  have written : SPU_LS_SIZE ∈ touchedOver hostFpu (spu_ctx_init 0 none) overrun := by decide +kernel
  exact Nat.lt_irrefl _ (inside hostFpu 0 none overrun SPU_LS_SIZE written)

end BudokaiRuntime.Spu
