import BudokaiRuntime.Spu.ByteOrder
import BudokaiRuntime.Spu.HostAccess

-- A PUT of one range and a GET of the same bytes into another.
namespace BudokaiRuntime.Spu
open Guest

def staged (ctx : SpuCtx) (lsa size : BitVec 32) : SpuCtx := {ctx with mfc_lsa := lsa, mfc_size := size}

-- The EA registers stay as they are between the two commands.
def put_get (ctx : SpuCtx) (a b n put get : BitVec 32) : Option SpuCtx :=
  (mfc_execute (staged ctx a n) put).bind fun mid => mfc_execute (staged mid b n) get

def commits (ctx : SpuCtx) (cmd : BitVec 32) : Prop :=
  ∃ ea lsa size, DmaCopy.vmFromLs ea lsa size ∈ mfc_copies ctx cmd

structure Ranges (a b n : BitVec 32) : Prop where
  small : n.toNat ≤ 16384
  source : a.toNat+n.toNat ≤ SPU_LS_SIZE
  target : b.toNat+n.toNat ≤ SPU_LS_SIZE
  separate : a.toNat+n.toNat ≤ b.toNat ∨ b.toNat+n.toNat ≤ a.toNat

def RoundTrips (ctx : SpuCtx) (put get : BitVec 32) {a b n : BitVec 32} (ranges : Ranges a b n) : Prop :=
  ∃ after, put_get ctx a b n put get = some after ∧
    after.ls.window b.toNat n.toNat ranges.target = ctx.ls.window a.toNat n.toNat ranges.source ∧
    ∀ i : Fin SPU_LS_SIZE, ¬ (b.toNat ≤ i.val ∧ i.val < b.toNat+n.toNat) → after.ls i = ctx.ls i

section Windows

theorem window_congr (ls : LocalStore) {p q size : Nat} (same : size = 0 ∨ p = q)
    (one : p+size ≤ SPU_LS_SIZE) (two : q+size ≤ SPU_LS_SIZE) : ls.window p size one = ls.window q size two := by
  rcases same with rfl | rfl
  · exact funext fun k => k.elim0
  · rfl

theorem splice_congr (ls : LocalStore) {p q size : Nat} (same : size = 0 ∨ p = q) (bytes : Fin size → BitVec 8) :
    ls.splice p bytes = ls.splice q bytes := by
  rcases same with rfl | rfl
  · funext i
    simp only [LocalStore.splice]
    rw [dif_neg (show ¬ (p ≤ i.val ∧ i.val < p+0) by omega),dif_neg (show ¬ (q ≤ i.val ∧ i.val < q+0) by omega)]
  · rfl

theorem window_splice (ls : LocalStore) (base size : Nat) (bytes : Fin size → BitVec 8)
    (inside : base+size ≤ SPU_LS_SIZE) : (ls.splice base bytes).window base size inside = bytes := by
  funext k
  have within : base ≤ base+k.val ∧ base+k.val < base+size := by omega
  simp only [LocalStore.window,LocalStore.splice]
  rw [dif_pos within]
  exact congrArg bytes (Fin.ext (by simp))

theorem ls_splice_outside (ls : LocalStore) (base size : Nat) (bytes : Fin size → BitVec 8) (i : Fin SPU_LS_SIZE)
    (outside : ¬ (base ≤ i.val ∧ i.val < base+size)) : ls.splice base bytes i = ls i := dif_neg outside

theorem guest_window_splice (vm : GuestMem) (ea : BitVec 32) (size : Nat) (bytes : Fin size → BitVec 8)
    (room : ea.toNat+size ≤ 2^32) : (vm.splice ea bytes).window ea size = bytes := by
  funext k
  have place : (ea + BitVec.ofNat 32 k.val).toNat = ea.toNat+k.val := by
    rw [BitVec.toNat_add,BitVec.toNat_ofNat]
    omega
  have within : ea.toNat ≤ (ea + BitVec.ofNat 32 k.val).toNat ∧
      (ea + BitVec.ofNat 32 k.val).toNat < ea.toNat+size := by omega
  simp only [GuestMem.window,GuestMem.splice]
  rw [dif_pos within]
  exact congrArg bytes (Fin.ext (show (ea + BitVec.ofNat 32 k.val).toNat - ea.toNat = k.val by omega))

end Windows

section Commands
variable (ctx : SpuCtx)

theorem put_makes {cmd : BitVec 32} (put : IsPut cmd) (mapped : ctx.vm_base.isNone = false) :
    mfc_copies ctx cmd = mfc_put ctx := by
  simp only [mfc_copies,mapped,Bool.false_eq_true,if_false]
  rcases put with code | code | code
  all_goals
    rw [code]
    rfl

theorem get_makes {cmd : BitVec 32} (get : IsGet cmd) (mapped : ctx.vm_base.isNone = false) :
    mfc_copies ctx cmd = mfc_get ctx := by
  simp only [mfc_copies,mapped,Bool.false_eq_true,if_false]
  rcases get with code | code | code
  all_goals
    rw [code]
    rfl

theorem staged_size {n : BitVec 32} (small : n.toNat ≤ 16384) (lsa : BitVec 32) : mfc_sz (staged ctx lsa n) = n := by
  rw [mfc_sz,if_neg]
  · rfl
  · rw [gt_iff_lt,BitVec.lt_def]
    exact Nat.not_lt.mpr small

theorem staged_lsa {lsa n : BitVec 32} (inside : lsa.toNat+n.toNat ≤ SPU_LS_SIZE) :
    n.toNat = 0 ∨ (mfc_lsa (staged ctx lsa n)).toNat = lsa.toNat := by
  have masked : (mfc_lsa (staged ctx lsa n)).toNat = lsa.toNat % SPU_LS_SIZE := and_ls_mask_toNat lsa
  by_cases empty : n.toNat = 0
  · exact .inl empty
  · exact .inr (masked.trans (Nat.mod_eq_of_lt (by omega)))

theorem staged_lsa_fits {lsa n : BitVec 32} (inside : lsa.toNat+n.toNat ≤ SPU_LS_SIZE) :
    (mfc_lsa (staged ctx lsa n)).toNat+n.toNat ≤ SPU_LS_SIZE := by
  have below := mfc_lsa_lt (staged ctx lsa n)
  rcases staged_lsa ctx inside with empty | same
  · omega
  · omega

theorem lsWindow_iff (ea sz : BitVec 32) : lsWindow ea sz = true ↔
    0xFE000000 ≤ ea.toNat ∧ (ea.toNat+sz.toNat)%2^32 ≤ 0xFF000000 := by
  simp only [lsWindow,Bool.and_eq_true,decide_eq_true_eq,ge_iff_le,BitVec.le_def,BitVec.toNat_add]
  rfl

theorem mainRam_iff (ea sz : BitVec 32) : mainRam ea sz = true ↔
    0x10000 ≤ ea.toNat ∧ (ea.toNat+sz.toNat)%2^32 < 0x40000000 := by
  simp only [mainRam,Bool.and_eq_true,decide_eq_true_eq,ge_iff_le,BitVec.le_def,BitVec.lt_def,BitVec.toNat_add]
  rfl

theorem rsxIo_iff (ea sz : BitVec 32) : rsxIo ea sz = true ↔
    0xD0100000 ≤ ea.toNat ∧ (ea.toNat+sz.toNat)%2^32 ≤ 0xD0200000 := by
  simp only [rsxIo,Bool.and_eq_true,decide_eq_true_eq,ge_iff_le,BitVec.le_def,BitVec.toNat_add]
  rfl

-- Outside the window the two regions of a PUT exclude each other, and neither wraps.
theorem regions_apart (ea sz : BitVec 32) (small : sz.toNat ≤ 16384) (window : ¬ lsWindow ea sz = true)
    (ram : mainRam ea sz = true) : ¬ rsxIo ea sz = true ∧ ea.toNat+sz.toNat ≤ 2^32 := by
  rw [lsWindow_iff] at window
  rw [mainRam_iff] at ram
  rw [rsxIo_iff]
  have bound := ea.isLt
  omega

theorem put_outside_window {lsa ea size : BitVec 32}
    (made : DmaCopy.vmFromLs ea lsa size ∈ mfc_put ctx) : ¬ lsWindow (mfc_ea32 ctx) (mfc_sz ctx) = true ∧
      mfc_put ctx = [.vmFromLs (mfc_ea32 ctx) (mfc_lsa ctx) (mfc_sz ctx)] := by
  by_cases window : lsWindow (mfc_ea32 ctx) (mfc_sz ctx) = true
  · unfold mfc_put at made
    simp only [window,if_true] at made
    split at made
    · exact DmaCopy.noConfusion (List.mem_singleton.mp made)
    · cases made
  · refine ⟨window,?_⟩
    unfold mfc_put at made ⊢
    simp only [window,Bool.false_eq_true,if_false] at made ⊢
    by_cases ram : mainRam (mfc_ea32 ctx) (mfc_sz ctx) = true
    · have apart := (regions_apart _ _ (mfc_sz_le ctx) window ram).1
      simp only [ram,apart,if_true,Bool.false_eq_true,if_false,List.append_nil]
    · by_cases rsx : rsxIo (mfc_ea32 ctx) (mfc_sz ctx) = true
      · simp only [ram,rsx,if_true,Bool.false_eq_true,if_false,List.nil_append]
      · simp [ram,rsx] at made

theorem get_outside_window (window : ¬ lsWindow (mfc_ea32 ctx) (mfc_sz ctx) = true) : mfc_get ctx =
    if mainRam (mfc_ea32 ctx) (mfc_sz ctx) then [.lsFromVm (mfc_lsa ctx) (mfc_ea32 ctx) (mfc_sz ctx)] else [] := by
  unfold mfc_get
  simp only [window,Bool.false_eq_true,if_false]

end Commands

section RoundTrip
variable (ctx : SpuCtx) (a b n put get : BitVec 32) (ranges : Ranges a b n) (isput : IsPut put) (isget : IsGet get)
  (accepted : commits (staged ctx a n) put)
include isput accepted

theorem put_executes : ∃ vm, ctx.vm_base = some vm ∧ ¬ lsWindow (mfc_ea32 ctx) n = true ∧
    mfc_execute (staged ctx a n) put = some {staged ctx a n with vm_base := some (vm.splice (mfc_ea32 ctx)
      (ctx.ls.window a.toNat n.toNat ranges.source))} := by
  obtain ⟨ea,lsa,size,made⟩ := accepted
  obtain ⟨vm,present⟩ : ∃ vm, ctx.vm_base = some vm := by
    cases mapping : ctx.vm_base with
    | some vm => exact ⟨vm,rfl⟩
    | none =>
        rw [mfc_copies,show (staged ctx a n).vm_base = none from mapping] at made
        cases made
  have mapped : (staged ctx a n).vm_base.isNone = false := congrArg Option.isNone present
  rw [put_makes _ isput mapped] at made
  obtain ⟨window,copies⟩ := put_outside_window _ made
  have size := staged_size ctx ranges.small a
  rw [size] at window copies
  refine ⟨vm,present,window,?_⟩
  have fits := staged_lsa_fits ctx ranges.source
  have bytes := window_congr ctx.ls (staged_lsa ctx ranges.source) fits ranges.source
  have run : DmaCopy.run (staged ctx a n) (.vmFromLs (mfc_ea32 ctx) (mfc_lsa (staged ctx a n)) n) =
      some {staged ctx a n with vm_base := some (vm.splice (mfc_ea32 ctx)
        (ctx.ls.window a.toNat n.toNat ranges.source))} := by
    rw [DmaCopy.run,dif_pos fits,show (staged ctx a n).vm_base = some vm from present,← bytes]
    rfl
  rw [mfc_execute,put_makes _ isput mapped,copies]
  exact (List.foldlM_cons ..).trans (by rw [show mfc_ea32 (staged ctx a n) = mfc_ea32 ctx from rfl,run]; rfl)

include isget

theorem put_get_runs : ∃ after, put_get ctx a b n put get = some after ∧ after.ls =
    if mainRam (mfc_ea32 ctx) n then ctx.ls.splice b.toNat (ctx.ls.window a.toNat n.toNat ranges.source)
    else ctx.ls := by
  obtain ⟨vm,present,window,executed⟩ := put_executes ctx a b n put ranges isput accepted
  let bytes := ctx.ls.window a.toNat n.toNat ranges.source
  let mid : SpuCtx := {staged ctx a n with vm_base := some (vm.splice (mfc_ea32 ctx) bytes)}
  have fits := staged_lsa_fits mid ranges.target
  have size := staged_size mid ranges.small b
  have copies := get_outside_window (staged mid b n) (by rw [size]; exact window)
  rw [size,show mfc_ea32 (staged mid b n) = mfc_ea32 ctx from rfl] at copies
  rw [put_get,executed,Option.bind_some]
  change ∃ after, mfc_execute (staged mid b n) get = some after ∧ _
  rw [mfc_execute,get_makes _ isget rfl,copies]
  by_cases ram : mainRam (mfc_ea32 ctx) n = true
  · have room := (regions_apart _ _ ranges.small window ram).2
    have same := splice_congr ctx.ls (staged_lsa mid ranges.target) bytes
    have run : DmaCopy.run (staged mid b n) (.lsFromVm (mfc_lsa (staged mid b n)) (mfc_ea32 ctx) n) =
        some {staged mid b n with ls := ctx.ls.splice b.toNat bytes} := by
      rw [DmaCopy.run,if_pos fits,← same,← guest_window_splice vm (mfc_ea32 ctx) n.toNat bytes room]
      rfl
    rw [if_pos ram,if_pos ram]
    exact ⟨_,(List.foldlM_cons ..).trans (by rw [run]; rfl),rfl⟩
  · rw [if_neg ram,if_neg ram]
    exact ⟨_,rfl,rfl⟩

theorem put_get_round_trip_iff : RoundTrips ctx put get ranges ↔ mainRam (mfc_ea32 ctx) n = true ∨
    ctx.ls.window b.toNat n.toNat ranges.target = ctx.ls.window a.toNat n.toNat ranges.source := by
  obtain ⟨after,run,ls⟩ := put_get_runs ctx a b n put get ranges isput isget accepted
  constructor
  · intro ⟨other,ran,target,_⟩
    obtain rfl := Option.some.inj (run.symm.trans ran)
    by_cases ram : mainRam (mfc_ea32 ctx) n = true
    · exact .inl ram
    · rw [ls,if_neg ram] at target
      exact .inr target
  · intro held
    refine ⟨after,run,?_⟩
    by_cases ram : mainRam (mfc_ea32 ctx) n = true
    · rw [ls,if_pos ram]
      exact ⟨window_splice ctx.ls _ _ _ ranges.target,fun i outside => ls_splice_outside ctx.ls _ _ _ i outside⟩
    · rw [ls,if_neg ram]
      exact ⟨held.resolve_left ram,fun i _ => rfl⟩

end RoundTrip

def marked (eal : BitVec 32) : SpuCtx :=
  {spu_ctx_init 0 (some fun _ => 0) with ls := fun i => if i.val = 0 then 1 else 0, mfc_eal := eal}

theorem sixteen_apart : Ranges 0 16 16 where
  small := by decide
  source := by decide
  target := by decide
  separate := .inl (by decide)

theorem put_get_round_trip_iff_main_ram : RoundTrips (marked 0x10000) 0x20 0x40 sixteen_apart ↔
    mainRam (mfc_ea32 (marked 0x10000)) 16 = true ∨
      (marked 0x10000).ls.window 16 16 sixteen_apart.target = (marked 0x10000).ls.window 0 16 sixteen_apart.source :=
  put_get_round_trip_iff (marked 0x10000) 0 16 16 0x20 0x40 sixteen_apart (.inl rfl) (.inl rfl)
    ⟨0x10000,0,16,.head _⟩

-- The RSX IO region takes the PUT and refuses the GET.
theorem rsx_io_not_read_back : ¬ ∀ (ctx : SpuCtx) (a b n put get : BitVec 32) (ranges : Ranges a b n), IsPut put →
    IsGet get → commits (staged ctx a n) put → RoundTrips ctx put get ranges := by
  intro law
  have accepted : commits (staged (marked 0xD0100000) 0 16) 0x20 := ⟨0xD0100000,0,16,.head _⟩
  obtain ⟨after,run,ls⟩ := put_get_runs (marked 0xD0100000) 0 16 16 0x20 0x40 sixteen_apart (.inl rfl) (.inl rfl)
    accepted
  obtain ⟨other,ran,target,_⟩ := law (marked 0xD0100000) 0 16 16 0x20 0x40 sixteen_apart (.inl rfl) (.inl rfl) accepted
  obtain rfl := Option.some.inj (run.symm.trans ran)
  rw [ls,if_neg (by decide)] at target
  have first : (0 : BitVec 8) = 1 := congrFun target ⟨0,by decide⟩
  exact absurd first (by decide)

end BudokaiRuntime.Spu
