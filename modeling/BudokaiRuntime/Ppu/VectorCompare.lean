import BudokaiRuntime.Guest.Access
import BudokaiRuntime.Ppu.VectorLoads

-- The code emitted for vcmpeqfp., vcmpgefp. and vcmpgtfp., on a little-endian host.
namespace BudokaiRuntime.Ppu
open ByteLanes CountedLoop Guest

def isNan (x : BitVec 32) : Bool := 0x7F800000 < (x &&& 0x7FFFFFFF).toNat

-- Magnitudes are ordered as numbers, and both zeros are 0.
def rank (x : BitVec 32) : Int :=
  let magnitude := (x &&& 0x7FFFFFFF).toNat
  if x.msb then -magnitude else magnitude

def float_eq (x y : BitVec 32) : Bool := !isNan x && !isNan y && rank x == rank y
def float_ge (x y : BitVec 32) : Bool := !isNan x && !isNan y && decide (rank y ≤ rank x)
def float_gt (x y : BitVec 32) : Bool := !isNan x && !isNan y && decide (rank y < rank x)

-- The three bodies differ in the comparison of `_a[_i]` with `_b[_i]`.
structure VectorCompare where
  VD : Fin 32
  VA : Fin 32
  VB : Fin 32
  holds : BitVec 32 → BitVec 32 → Bool

def repl_vcmpeqfp_rc (VD VA VB : Fin 32) : VectorCompare := ⟨VD,VA,VB,float_eq⟩
def repl_vcmpgefp_rc (VD VA VB : Fin 32) : VectorCompare := ⟨VD,VA,VB,float_ge⟩
def repl_vcmpgtfp_rc (VD VA VB : Fin 32) : VectorCompare := ⟨VD,VA,VB,float_gt⟩

theorem lane_inside (i j : Fin 4) : 4*i.val+j.val < 16 := by omega

def laneByte (i j : Fin 4) : Fin 16 := ⟨4*i.val+j.val,lane_inside i j⟩

-- Element `i` of a float* or uint32_t* on the register.
def PpuVr.w (r : PpuVr) (i : Fin 4) : BitVec 32 := ofBytesLe (k:=4) fun j => r (laneByte i j)

def PpuVr.set_w (r : PpuVr) (i : Fin 4) (v : BitVec 32) : PpuVr := fun k =>
  if k.val/4 = i then v.extractLsb' (8*(k%4)) 8 else r k

def guest_word (r : PpuVr) (i : Fin 4) : BitVec 32 :=
  (r (laneByte i 0)).setWidth 32 <<< 24 ||| (r (laneByte i 1)).setWidth 32 <<< 16 |||
    (r (laneByte i 2)).setWidth 32 <<< 8 ||| (r (laneByte i 3)).setWidth 32

-- `<test> ? ~0u : 0`
def lane_mask (b : Bool) : BitVec 32 := if b then ~~~0 else 0

-- The loop's variables. `compared` is no part of the program: the patterns compared so far.
structure CompareState where
  vr : Fin 32 → PpuVr
  at_ : Bool
  nt : Bool
  compared : List (BitVec 32 × BitVec 32)

def VectorCompare.body (code : VectorCompare) (s : CompareState) (i : Fin 4) : CompareState :=
  let a := (s.vr code.VA).w i
  let b := (s.vr code.VB).w i
  let d := (s.vr code.VD).set_w i (lane_mask (code.holds a b))
  let s := {s with vr := Function.update s.vr code.VD d,compared := s.compared ++ [(a,b)]}
  if d.w i = 0 then {s with at_ := false} else {s with nt := false}

def VectorCompare.loop (code : VectorCompare) (ctx : VmxCtx) : CompareState :=
  Fin.foldl 4 code.body ⟨ctx.vr,true,true,[]⟩

def VectorCompare.run (code : VectorCompare) (ctx : VmxCtx) : VmxCtx :=
  let s := code.loop ctx
  {ctx with
    vr := s.vr
    cr := (ctx.cr &&& ~~~0xF0#32) ||| (if s.at_ then 0x80 else 0) ||| (if s.nt then 0x20 else 0)}

section Elements
variable (r : PpuVr) (i j k : Fin 4) (v : BitVec 32)

theorem laneByte_lane : (laneByte i j).val/4 = i := by
  simp only [laneByte]
  omega

theorem laneByte_place : (laneByte i j).val%4 = j := by
  simp only [laneByte]
  omega

theorem w_set_w : (r.set_w i v).w j = if j = i then v else r.w j := by
  by_cases here : j = i
  · subst here
    rw [if_pos rfl]
    apply bytes_ext (k:=4)
    intro b
    have turned : 4-(b.val+1) = 4-1-b.val := by omega
    rw [PpuVr.w,ofBytesLe,byteAt_ofBytes,PpuVr.set_w,if_pos (laneByte_lane _ _),laneByte_place,byteAt,Fin.val_rev,turned]
  · have other : j.val ≠ i.val := fun same => here (Fin.ext same)
    rw [if_neg here]
    refine congrArg (ofBytesLe (k:=4)) (funext fun b => ?_)
    rw [PpuVr.set_w,laneByte_lane,if_neg other]

theorem lane_mask_zero (b : Bool) : lane_mask b = 0 ↔ b = false := by
  cases b <;> decide

theorem guest_word_eq : guest_word r i = ofBytes (k:=4) fun j => r (laneByte i j) :=
  shifted_bytes fun j => r (laneByte i j)

-- The registers' convention: sixteen bytes as a load leaves them.
theorem guest_word_window (vm : GuestMem) (p : BitVec 32) (i : Fin 4) :
    guest_word (vm.window p 16) i = vm.be32 (p + BitVec.ofNat 32 (4*i)) := by
  rw [guest_word_eq,GuestMem.be32]
  refine congrArg (ofBytes (k:=4)) (funext fun j => ?_)
  rw [GuestMem.window,GuestMem.window,BitVec.add_assoc,← BitVec.ofNat_add]
  rfl

-- What the compare sees in a lane is the guest's word when the bytes read the same from
-- both ends.
theorem sees_guest_word_iff : r.w i = guest_word r i ↔
    r (laneByte i 0) = r (laneByte i 3) ∧ r (laneByte i 1) = r (laneByte i 2) := by
  rw [guest_word_eq]
  refine (readings_agree_iff _).trans ⟨fun same => ⟨(same 0).symm,(same 1).symm⟩,?_⟩
  rintro ⟨outer,inner⟩ j
  match j with
  | 0 => exact outer.symm
  | 1 => exact inner.symm
  | 2 => exact inner
  | 3 => exact outer
end Elements

section Loop
variable (code : VectorCompare) (ctx : VmxCtx)

def VectorCompare.pair (i : Fin 4) : BitVec 32 × BitVec 32 := ((ctx.vr code.VA).w i,(ctx.vr code.VB).w i)

def VectorCompare.verdict (i : Fin 4) : Bool := code.holds (code.pair ctx i).1 (code.pair ctx i).2

structure VectorCompare.Done (k : Nat) (s : CompareState) : Prop where
  others : ∀ r, r ≠ code.VD → s.vr r = ctx.vr r
  lanes : ∀ i : Fin 4, (s.vr code.VD).w i = if i.val < k then lane_mask (code.verdict ctx i) else (ctx.vr code.VD).w i
  at_ : s.at_ = true ↔ ∀ i : Fin 4, i.val < k → code.verdict ctx i = true
  nt : s.nt = true ↔ ∀ i : Fin 4, i.val < k → code.verdict ctx i = false
  length : s.compared.length = k
  compared : ∀ i : Fin 4, i.val < k → s.compared[i.val]? = some (code.pair ctx i)

section Body
variable (s : CompareState) (i : Fin 4)

def VectorCompare.outcome : Bool := code.holds ((s.vr code.VA).w i) ((s.vr code.VB).w i)

theorem body_vr : (code.body s i).vr =
    Function.update s.vr code.VD ((s.vr code.VD).set_w i (lane_mask (code.outcome s i))) := by
  unfold VectorCompare.body
  dsimp only
  split <;> rfl

theorem body_compared :
    (code.body s i).compared = s.compared ++ [((s.vr code.VA).w i,(s.vr code.VB).w i)] := by
  unfold VectorCompare.body
  dsimp only
  split <;> rfl

-- `_d[_i]` is read back.
theorem body_flags : (code.body s i).at_ = (s.at_ && code.outcome s i) ∧
    (code.body s i).nt = (s.nt && !code.outcome s i) := by
  have back := w_set_w (s.vr code.VD) i i (lane_mask (code.outcome s i))
  rw [if_pos rfl] at back
  unfold VectorCompare.body
  dsimp only
  split
  · rename_i zero
    have no := (lane_mask_zero _).mp (back.symm.trans zero)
    rw [no,Bool.and_false,Bool.not_false,Bool.and_true]
    exact ⟨rfl,rfl⟩
  · rename_i other
    have yes : code.outcome s i = true := by
      rw [← Bool.not_eq_false]
      exact fun no => other (back.trans ((lane_mask_zero _).mpr no))
    rw [yes,Bool.and_true,Bool.not_true,Bool.and_false]
    exact ⟨rfl,rfl⟩
end Body

variable {code ctx} {s : CompareState}

theorem operand_kept (done : code.Done ctx k s) (r : Fin 32) (i : Fin 4) (ahead : k ≤ i.val) :
    (s.vr r).w i = (ctx.vr r).w i := by
  by_cases destination : r = code.VD
  · subst destination
    rw [done.lanes i,if_neg (by omega)]
  · rw [done.others r destination]

theorem below_succ (P : Fin 4 → Prop) (i : Fin 4) : (∀ j : Fin 4, j.val < i.val+1 → P j) ↔ (∀ j : Fin 4, j.val < i.val → P j) ∧ P i := by
  refine ⟨fun all => ⟨fun j before => all j (by omega),all i (by omega)⟩,?_⟩
  rintro ⟨before,own⟩ j inside
  by_cases here : j = i
  · exact here ▸ own
  · have other : j.val ≠ i.val := fun same => here (Fin.ext same)
    exact before j (by omega)

theorem body_done (i : Fin 4) (done : code.Done ctx i.val s) : code.Done ctx (i.val+1) (code.body s i) := by
  have a := operand_kept done code.VA i (Nat.le_refl _)
  have b := operand_kept done code.VB i (Nat.le_refl _)
  have outcome : code.outcome s i = code.verdict ctx i := by
    rw [VectorCompare.outcome,a,b]
    rfl
  obtain ⟨all,none⟩ := body_flags code s i
  rw [outcome] at all none
  constructor
  · intro r other
    rw [body_vr,Function.update_of_ne other,done.others r other]
  · intro j
    rw [body_vr,Function.update_self,w_set_w,outcome]
    by_cases here : j = i
    · subst here
      rw [if_pos rfl,if_pos (by omega)]
    · have other : j.val ≠ i.val := fun same => here (Fin.ext same)
      rw [if_neg here,done.lanes j]
      by_cases before : j.val < i.val
      · rw [if_pos before,if_pos (by omega)]
      · rw [if_neg before,if_neg (by omega)]
  · rw [all,Bool.and_eq_true,done.at_,below_succ]
  · rw [none,Bool.and_eq_true,done.nt,below_succ,Bool.not_eq_true']
  · rw [body_compared,List.length_append,done.length,List.length_singleton]
  · rw [below_succ,body_compared,a,b]
    constructor
    · intro j before
      rw [List.getElem?_append_left (by rw [done.length]; exact before)]
      exact done.compared j before
    · rw [List.getElem?_append_right (by rw [done.length]),done.length,Nat.sub_self]
      rfl
end Loop

theorem cr6_bit (cr : BitVec 32) (all none : Bool) (b : Nat) (inside : b < 32) :
    ((cr &&& ~~~0xF0#32) ||| (if all then 0x80 else 0) ||| (if none then 0x20 else 0)).getLsbD b =
      if 4 ≤ b ∧ b < 8 then decide (b = 7) && all || decide (b = 5) && none else cr.getLsbD b := by
  have field : (0xF0#32).getLsbD b = decide (4 ≤ b ∧ b < 8) :=
    (show ∀ b < 32, (0xF0#32).getLsbD b = decide (4 ≤ b ∧ b < 8) by decide) b inside
  have first : (if all then 0x80 else 0 : BitVec 32).getLsbD b = (decide (b = 7) && all) := by
    cases all
    · rw [Bool.and_false]
      exact BitVec.getLsbD_zero
    · exact (show ∀ b < 32, (0x80#32).getLsbD b = (decide (b = 7) && true) by decide) b inside
  have third : (if none then 0x20 else 0 : BitVec 32).getLsbD b = (decide (b = 5) && none) := by
    cases none
    · rw [Bool.and_false]
      exact BitVec.getLsbD_zero
    · exact (show ∀ b < 32, (0x20#32).getLsbD b = (decide (b = 5) && true) by decide) b inside
  rw [BitVec.getLsbD_or,BitVec.getLsbD_or,BitVec.getLsbD_and,BitVec.getLsbD_not,field,first,third]
  by_cases cr6 : 4 ≤ b ∧ b < 8
  · simp [cr6]
  · have seven : b ≠ 7 := by omega
    have five : b ≠ 5 := by omega
    simp [cr6,seven,five,inside]

section Compare
variable (code : VectorCompare) (ctx : VmxCtx)

theorem loop_done : code.Done ctx 4 (code.loop ctx) := by
  refine foldl_invariant (code.Done ctx) 4 code.body ?_ fun i s done => body_done i done
  exact ⟨fun _ _ => rfl,fun i => by rw [if_neg (Nat.not_lt_zero _)],by simp,by simp,rfl,fun i before => absurd before (by omega)⟩

def VectorCompare.result (i : Fin 4) : BitVec 32 := ((code.run ctx).vr code.VD).w i

theorem result_eq (i : Fin 4) : code.result ctx i = lane_mask (code.verdict ctx i) :=
  ((loop_done code ctx).lanes i).trans (if_pos i.isLt)

structure VectorCompare.SeesGuest : Prop where
  lanes : (code.loop ctx).compared = List.ofFn fun i => (guest_word (ctx.vr code.VA) i,guest_word (ctx.vr code.VB) i)
  all_true : (code.run ctx).cr.getLsbD 7 = true ↔ ∀ i, code.result ctx i = ~~~0
  none_true : (code.run ctx).cr.getLsbD 5 = true ↔ ∀ i, code.result ctx i ≠ ~~~0
  others : ∀ b, b < 4 ∨ 8 ≤ b → (code.run ctx).cr.getLsbD b = ctx.cr.getLsbD b

def PpuVr.Mirrored (r : PpuVr) : Prop :=
  ∀ i, r (laneByte i 0) = r (laneByte i 3) ∧ r (laneByte i 1) = r (laneByte i 2)

theorem compared_eq : (code.loop ctx).compared = List.ofFn (code.pair ctx) := by
  have done := loop_done code ctx
  refine List.ext_getElem (by rw [done.length,List.length_ofFn]) fun n inside _ => ?_
  have small : n < 4 := done.length ▸ inside
  have lane := done.compared ⟨n,small⟩ small
  rw [List.getElem?_eq_getElem inside] at lane
  rw [Option.some.inj lane,List.getElem_ofFn]

theorem run_bit (b : Nat) (inside : b < 32) : (code.run ctx).cr.getLsbD b =
    if 4 ≤ b ∧ b < 8 then decide (b = 7) && (code.loop ctx).at_ || decide (b = 5) && (code.loop ctx).nt
    else ctx.cr.getLsbD b := cr6_bit _ _ _ b inside

theorem run_all_true : (code.run ctx).cr.getLsbD 7 = (code.loop ctx).at_ :=
  (run_bit code ctx 7 (by decide)).trans (Bool.or_false _)

theorem run_none_true : (code.run ctx).cr.getLsbD 5 = (code.loop ctx).nt := run_bit code ctx 5 (by decide)

theorem mask_true (b : Bool) : lane_mask b = ~~~0 ↔ b = true := by
  cases b <;> decide

theorem lanes_seen_iff : ((code.loop ctx).compared =
      List.ofFn fun i => (guest_word (ctx.vr code.VA) i,guest_word (ctx.vr code.VB) i)) ↔
    (ctx.vr code.VA).Mirrored ∧ (ctx.vr code.VB).Mirrored := by
  rw [compared_eq,List.ofFn_inj,funext_iff]
  refine (forall_congr' fun i => ?_).trans forall_and
  exact Prod.mk_inj.trans (and_congr (sees_guest_word_iff _ i) (sees_guest_word_iff _ i))

-- CR6 is right whatever was compared; its second and fourth bits are cleared.
theorem compare_sees_guest_iff :
    (code.SeesGuest ctx ↔ (ctx.vr code.VA).Mirrored ∧ (ctx.vr code.VB).Mirrored) ∧
      (code.run ctx).cr.getLsbD 6 = false ∧ (code.run ctx).cr.getLsbD 4 = false := by
  have done := loop_done code ctx
  refine ⟨⟨fun sees => (lanes_seen_iff code ctx).mp sees.lanes,fun mirrored => ?_⟩,?_,?_⟩
  · refine ⟨(lanes_seen_iff code ctx).mpr mirrored,?_,?_,?_⟩
    · rw [run_all_true]
      simp only [result_eq,mask_true]
      exact done.at_.trans ⟨fun all i => all i i.isLt,fun all i _ => all i⟩
    · rw [run_none_true]
      simp only [result_eq,ne_eq,mask_true,Bool.not_eq_true]
      exact done.nt.trans ⟨fun all i => all i i.isLt,fun all i _ => all i⟩
    · intro b outside
      by_cases inside : b < 32
      · rw [run_bit code ctx b inside,if_neg (by omega)]
      · rw [BitVec.getLsbD_of_ge _ _ (by omega),BitVec.getLsbD_of_ge _ _ (by omega)]
  · rw [run_bit code ctx 6 (by decide)]
    rfl
  · rw [run_bit code ctx 4 (by decide)]
    rfl
end Compare

def one_and_two : VmxCtx := ⟨⟨fun _ => 0,0,0,0,0,0⟩,fun r k =>
  if r = 0 then (if k.val%4 = 0 then 0x3F else if k.val%4 = 1 then 0x80 else 0)
  else if k.val%4 = 0 then 0x40 else 0⟩

theorem compare_sees_swapped_words :
    ¬ ∀ (VD VA VB : Fin 32) (ctx : VmxCtx), (repl_vcmpeqfp_rc VD VA VB).SeesGuest ctx ∧
      (repl_vcmpgefp_rc VD VA VB).SeesGuest ctx ∧ (repl_vcmpgtfp_rc VD VA VB).SeesGuest ctx := by
  intro sees
  have mirrored := (lanes_seen_iff _ _).mp (sees 2 0 1 one_and_two).2.2.lanes
  have outer := (mirrored.1 0).1
  exact absurd outer (by decide)

-- Seen from the other end, 1.0 is greater than 2.0.
example : float_gt (guest_word (one_and_two.vr 0) 0) (guest_word (one_and_two.vr 1) 0) = false ∧
    float_gt ((one_and_two.vr 0).w 0) ((one_and_two.vr 1).w 0) = true := by decide +kernel

end BudokaiRuntime.Ppu
