import Mathlib.Logic.Function.Iterate
import BudokaiRuntime.Ppu.Functions

-- The lwarx/stwcx. loops of the reference counts. gpr[0] is the result of each round and
-- takes part in the address of the next.
namespace BudokaiRuntime.Ppu
open ByteLanes Guest Programs Rsx

-- What a round makes of gpr[0]: the word at the address it addresses, less one.
def walk (vm : GuestMem) (base x : BitVec 32) : BitVec 32 := vm.be32 (x+base) - 1

def Plain (mem : Machine) (a : BitVec 32) : Prop :=
  a ∉ cells ∧ (a = RSX_PUT → mem.vm.be32 0 = 0 ∧ ∃ fuel result, rsx_process_fifo fuel mem.vm mem.rsx 0 = some result)

-- A loop on the count at `cell`, entered with `x` in gpr[0]: the count is 1 and the walk ends at 0.
def Counts (mem : Machine) (cell x : BitVec 32) : Prop :=
  mem.vm.be32 cell = 1 ∧ (∃ n, (walk mem.vm cell)^[n] x = 0) ∧ Plain mem cell

section Cell
variable {mem mem' : Machine} {vm : GuestMem} {base x : BitVec 32} {frame : BitVec 32 → Prop}

theorem write32_address {a b : BitVec 64} (same : low32 a = low32 b) (val : BitVec 32) :
    vm_write32 fuel mem a val = vm_write32 fuel mem b val := by
  unfold low32 at same
  unfold vm_write32
  rw [same]

theorem walk_fixed (fixed : walk vm base x = x) : vm.be32 (x+base) = x+1 := by
  rw [← fixed,walk,BitVec.sub_add_cancel,← walk,fixed]

theorem walk_zero : walk vm base 0 = 0 ↔ vm.be32 base = 1 := by
  have here : (0 : BitVec 32) + base = base := BitVec.zero_add base
  rw [walk,here]
  constructor
  · intro zero
    rw [← BitVec.sub_add_cancel (vm.be32 base) 1,zero]
    rfl
  · intro one
    rw [one]
    rfl

theorem last_byte (w : BitVec 32) : byteAt (k:=4) (w-1) 3 ≠ byteAt (k:=4) w 3 := by
  rw [word_byte,word_byte]
  intro same
  have values := congrArg BitVec.toNat same
  simp only [BitVec.toNat_setWidth,BitVec.toNat_ushiftRight,BitVec.toNat_sub] at values
  simp at values
  omega

theorem put32_last (vm : GuestMem) (a val : BitVec 32) : vm.put32 a val (a+3) = byteAt (k:=4) val 3 := by
  have offset : (a + 3 - a).toNat = (3 : Fin 4) := by
    rw [BitVec.add_comm,BitVec.add_sub_cancel]
    rfl
  rw [put32_at,carried_at 3 offset]
  rfl

theorem be32_last (vm : GuestMem) (a : BitVec 32) : byteAt (k:=4) (vm.be32 a) 3 = vm (a+3) := byteAt_be32 vm a 3

-- A store of the last round that is not at the count leaves the last byte of the count,
-- unless it is the one that PUT mirrors to GET.
theorem astray_last (fixed : walk vm base x = x) (astray : x ≠ 0) : vm.put32 (x+base) x (base+3) = vm (base+3) := by
  rw [put32_at]
  by_cases past : 4 ≤ (base + 3 - (x+base)).toNat
  · rw [carried_past past]
    rfl
  · obtain ⟨j,offset⟩ : ∃ j : Fin 4, (base + 3 - (x+base)).toNat = j := ⟨⟨_,Nat.not_le.mp past⟩,rfl⟩
    have place : x = 3 - BitVec.ofNat 32 j := by
      have distance : base + 3 - (x+base) = BitVec.ofNat 32 j := by
        rw [← offset,BitVec.ofNat_toNat,BitVec.setWidth_eq]
      rw [← distance]
      grind
    have address : x + base + BitVec.ofNat 32 j = base + 3 := by
      rw [place]
      grind
    rw [carried_at j offset,← address,← byteAt_be32 vm (x+base) j,walk_fixed fixed]
    match j with
    | 0 | 1 | 2 =>
        rw [place]
        decide
    | 3 => exact absurd (by rw [place]; rfl) astray

theorem write32_put {addr : BitVec 64} (put : addr.setWidth 32 = RSX_PUT) (val : BitVec 32) :
    vm_write32 fuel mem addr val = (rsx_process_fifo fuel mem.vm mem.rsx val).map fun result =>
      ⟨(mem.vm.put32 0 val).put32 RSX_PUT val,result.2⟩ := by
  have chain : chain_val RSX_PUT val = val := chain_val_other (by decide)
  have root : ¬ (RSX_PUT = ROOT ∧ val = 0) := fun both => absurd both.1 (by decide)
  have ref : ¬ RSX_PUT = REF := by decide
  unfold vm_write32 write_put
  simp only [put,chain,root,ref,if_false,if_true,Option.map_map]
  rfl

theorem zero_at (vm : GuestMem) (a val : BitVec 32) (j : Fin 4) :
    vm.put32 a val (a + BitVec.ofNat 32 j) = byteAt (k:=4) val j := by
  rw [← byteAt_be32 (vm.put32 a val) a j,be32_put32]

theorem get_byte (j : Fin 4) : (0 + BitVec.ofNat 32 j : BitVec 32).toNat < 0x14 ∧
    4 ≤ (0 + BitVec.ofNat 32 j - RSX_PUT).toNat ∧ byteAt (k:=4) 0 j = 0 := by
  match j with
  | 0 | 1 | 2 | 3 => decide

-- The store of the last round has lowered the count at `base`, and outside `frame` nothing else,
-- only if it went to the count and stored a 0.
theorem lowered_cell (wrote : vm_write32 fuel mem ((x+base).setWidth 64) x = some mem')
    (fixed : walk mem.vm base x = x) (cell : ∀ j : Fin 4, ¬ frame (base + BitVec.ofNat 32 j))
    (registers : ∀ a : BitVec 32, a.toNat < 0x14 → ¬ frame a)
    (agree : ∀ a, ¬ frame a → mem'.vm a = mem.vm.put32 base (mem.vm.be32 base - 1) a) : x = 0 ∧ Plain mem base := by
  have lowered : mem'.vm (base+3) ≠ mem.vm (base+3) := by
    rw [agree (base+3) (cell 3),put32_last,← be32_last mem.vm base]
    exact last_byte _
  have address : BitVec.setWidth 32 ((x+base).setWidth 64) = x+base := low32_zext (x+base)
  have cases := write32_cases wrote
  rw [address] at cases
  have zero : x = 0 := by
    by_contra astray
    rcases cases with ⟨_,same⟩ | ⟨_,same⟩ | ⟨put,stored⟩ | ⟨_,_,stored⟩
    · exact lowered (congrFun same _)
    · exact lowered (congrFun same _)
    · -- The last byte of the word at PUT has changed too, so that the two words overlap.
      have changed : mem'.vm (RSX_PUT+3) ≠ mem.vm (RSX_PUT+3) := by
        rw [stored,put32_last,← be32_last mem.vm RSX_PUT,← put,walk_fixed fixed]
        intro same
        exact last_byte (x+1) (by rwa [BitVec.add_sub_cancel])
      have overlap : (RSX_PUT + 3 - base).toNat < 4 := by
        by_contra past
        rw [agree _ (registers _ (by decide)),put32_beside (Nat.not_lt.mp past)] at changed
        exact changed rfl
      obtain ⟨j,offset⟩ : ∃ j : Fin 4, (RSX_PUT + 3 - base).toNat = j := ⟨⟨_,overlap⟩,rfl⟩
      have place : base = RSX_PUT + 3 - BitVec.ofNat 32 j := by
        rw [← offset,BitVec.ofNat_toNat,BitVec.setWidth_eq]
        grind
      have beside (far : 4 ≤ (base + 3 - RSX_PUT).toNat ∧ 4 ≤ (base + 3 - 0).toNat) : False := by
        rw [stored,put32_beside far.1,put32_beside far.2] at lowered
        exact lowered rfl
      match j with
      | 0 | 1 | 2 => exact beside (by rw [place]; decide)
      | 3 =>
          have same : base = RSX_PUT := place.trans (by decide)
          rw [same] at put
          exact astray (by grind)
    · rw [chain_val,if_neg fun both => astray both.2,if_neg fun both => astray both.2] at stored
      exact lowered ((congrFun stored _).trans (astray_last fixed astray))
  subst zero
  have one := walk_zero.mp fixed
  have here : (0 : BitVec 32) + base = base := BitVec.zero_add base
  rw [here] at wrote cases address
  have cleared : mem'.vm.be32 base = 0 := by
    have same : mem'.vm.be32 base = (mem.vm.put32 base (mem.vm.be32 base - 1)).be32 base :=
      be32_congr fun j => agree _ (cell j)
    rw [same,be32_put32,one]
    rfl
  have live : mem.vm.be32 base ≠ 0 := by
    rw [one]
    decide
  obtain ⟨chains,root,ref⟩ := write32_hit wrote address
  refine ⟨rfl,?_,?_⟩
  · intro member
    simp only [cells,List.mem_cons,List.not_mem_nil,or_false] at member
    rcases member with at_ | at_ | at_ | at_
    · exact chains (.inl at_) cleared
    · exact chains (.inr at_) cleared
    · exact root at_ live cleared
    · exact live ((ref at_).symm.trans cleared)
  · intro put
    rw [write32_put (address.trans put)] at wrote
    obtain ⟨result,processed,rfl⟩ := Option.map_eq_some_iff.mp wrote
    refine ⟨?_,fuel,result,processed⟩
    -- GET has been written over with the same 0.
    rw [be32_zero]
    intro j
    obtain ⟨low,apart,zero⟩ := get_byte j
    have same := agree _ (registers _ low)
    dsimp only at same
    rw [put,put32_beside apart,put32_beside apart,zero_at,zero] at same
    exact same.symm

theorem counts_of_lowered {cell start : BitVec 32} (walked : (walk mem.vm cell)^[n] start = x)
    (fixed : walk mem.vm cell x = x) (wrote : vm_write32 fuel mem ((x+cell).setWidth 64) x = some mem')
    (outside : ∀ j : Fin 4, ¬ frame (cell + BitVec.ofNat 32 j)) (registers : ∀ a : BitVec 32, a.toNat < 0x14 → ¬ frame a)
    (agree : ∀ a, ¬ frame a → mem'.vm a = mem.vm.put32 cell (mem.vm.be32 cell - 1) a) :
    x = 0 ∧ Counts mem cell start := by
  obtain ⟨rfl,plain⟩ := lowered_cell wrote fixed outside registers agree
  exact ⟨rfl,walk_zero.mp fixed,⟨n,walked⟩,plain⟩

theorem plain_store (plain : Plain mem base) : ∃ fuel mem', vm_write32 fuel mem (base.setWidth 64) 0 = some mem' ∧
    mem'.vm = mem.vm.put32 base 0 := by
  have address : BitVec.setWidth 32 (base.setWidth 64) = base := low32_zext base
  by_cases put : base = RSX_PUT
  · obtain ⟨get,fuel,result,processed⟩ := plain.2 put
    subst put
    have same : mem.vm.put32 0 0 = mem.vm := by
      funext a
      rw [put32_at]
      by_cases past : 4 ≤ (a - 0).toNat
      · rw [carried_past past]
        rfl
      · obtain ⟨j,offset⟩ : ∃ j : Fin 4, (a - 0).toNat = j := ⟨⟨_,Nat.not_le.mp past⟩,rfl⟩
        have place : a = 0 + BitVec.ofNat 32 j := (offset_eq j (by omega)).mpr offset
        rw [carried_at j offset,place,(be32_zero mem.vm 0).mp get j]
        match j with
        | 0 | 1 | 2 | 3 => rfl
    refine ⟨fuel,⟨(mem.vm.put32 0 0).put32 RSX_PUT 0,result.2⟩,?_,?_⟩
    · rw [write32_put address,processed]
      rfl
    · rw [same]
  · refine ⟨0,_,write32_plain ?_,?_⟩
    · rw [address]
      exact fun member => (List.mem_cons.mp member).elim put plain.1
    · rw [address]
end Cell

section Loop
variable {ω : Type} {env : Env ω} {word base dec : Fin 32} {s t : PpuState ω}

structure Loop (word base dec : Fin 32) (s : PpuState ω) : Prop where
  word_result : word ≠ 0
  base_result : base ≠ 0
  base_word : base ≠ word
  dec_result : dec ≠ 0
  dec_word : dec ≠ word
  minus : low32 (s.gpr dec) = -1

structure Beside (word : Fin 32) (s t : PpuState ω) : Prop where
  gpr : ∀ r, r ≠ 0 → r ≠ word → t.gpr r = s.gpr r
  world : t.world = s.world
  calls : t.calls = s.calls

def loaded (word base dec : Fin 32) (s : PpuState ω) : PpuState ω :=
  let ea := s.gpr 0 + s.gpr base
  let read := vm_read32 s.mem.vm ea
  let one := {s with ctx := {s.ctx with reserve_addr := (low32 ea).setWidth 64,reserve_value := read}}.set word
    (read.setWidth 64)
  one.set 0 ((low32 (one.gpr dec) + low32 (one.gpr word)).signExtend 64)

theorem loaded_gpr (loop : Loop word base dec s) : low32 ((loaded word base dec s).gpr 0) =
      walk s.mem.vm (low32 (s.gpr base)) (low32 (s.gpr 0)) ∧
    (loaded word base dec s).gpr word = (s.mem.vm.be32 (low32 (s.gpr 0) + low32 (s.gpr base))).setWidth 64 ∧
    ∀ r, r ≠ 0 → r ≠ word → (loaded word base dec s).gpr r = s.gpr r := by
  have read : vm_read32 s.mem.vm (s.gpr 0 + s.gpr base) = s.mem.vm.be32 (low32 (s.gpr 0) + low32 (s.gpr base)) := by
    rw [vm_read32_eq]
    exact congrArg _ (low32_add _ _)
  refine ⟨?_,?_,?_⟩
  · unfold loaded
    dsimp only
    rw [gpr_set_same,low32_sext,gpr_set_same,gpr_set_other _ loop.dec_word,low32_zext,read]
    exact (congrArg (· + _) loop.minus).trans (by rw [walk]; grind)
  · unfold loaded
    dsimp only
    rw [gpr_set_other _ loop.word_result,gpr_set_same,read]
  · intro r result other
    unfold loaded
    dsimp only
    rw [gpr_set_other _ result,gpr_set_other _ other]
    rfl

theorem round_conditional : straight env fuel [.lwarx word 0 base,.add 0 dec word,.stwcx 0 0 base] s = some t ↔
    (loaded word base dec s).store_conditional fuel 0 0 base = some t := by
  rw [straight_cons]
  constructor
  · rintro ⟨_,first,ran⟩
    cases first
    obtain ⟨_,second,ran⟩ := straight_cons.mp ran
    cases second
    obtain ⟨_,third,ran⟩ := straight_cons.mp ran
    cases straight_nil.mp ran
    exact third
  · intro third
    exact ⟨_,rfl,straight_cons.mpr ⟨_,rfl,straight_cons.mpr ⟨_,third,straight_nil.mpr rfl⟩⟩⟩

-- The store succeeds when the address did not change, which is when gpr[0] did not.
theorem reserved_again (loop : Loop word base dec s) : (loaded word base dec s).ctx.reserve_addr =
      (low32 ((loaded word base dec s).gpr 0 + (loaded word base dec s).gpr base)).setWidth 64 ↔
    walk s.mem.vm (low32 (s.gpr base)) (low32 (s.gpr 0)) = low32 (s.gpr 0) := by
  obtain ⟨result,_,others⟩ := loaded_gpr loop
  rw [low32_add,others base loop.base_result loop.base_word,result]
  show (low32 (s.gpr 0 + s.gpr base)).setWidth 64 = _ ↔ _
  rw [low32_add]
  constructor
  · intro same
    have low := congrArg low32 same
    rw [low32_zext,low32_zext] at low
    grind
  · intro fixed
    rw [fixed]

theorem round_left (loop : Loop word base dec s)
    (ran : straight env fuel [.lwarx word 0 base,.add 0 dec word,.stwcx 0 0 base] s = some t) :
    Beside word s t ∧ low32 (t.gpr 0) = walk s.mem.vm (low32 (s.gpr base)) (low32 (s.gpr 0)) ∧
      t.gpr word = (s.mem.vm.be32 (low32 (s.gpr 0) + low32 (s.gpr base))).setWidth 64 ∧
      ((walk s.mem.vm (low32 (s.gpr base)) (low32 (s.gpr 0)) = low32 (s.gpr 0) ∧ t.eq 28 = true ∧
        vm_write32 fuel s.mem ((low32 (s.gpr 0) + low32 (s.gpr base)).setWidth 64) (low32 (s.gpr 0)) = some t.mem) ∨
      (walk s.mem.vm (low32 (s.gpr base)) (low32 (s.gpr 0)) ≠ low32 (s.gpr 0) ∧ t.eq 28 = false ∧
        t.mem = s.mem)) := by
  have again := reserved_again loop
  obtain ⟨result,word_read,others⟩ := loaded_gpr loop
  obtain ⟨registers,world,calls,outcome⟩ := conditional_left (round_conditional.mp ran)
  have gpr (r : Fin 32) : t.gpr r = (loaded word base dec s).gpr r := congrFun registers r
  refine ⟨⟨fun r zero other => (gpr r).trans (others r zero other),world,calls⟩,?_,?_,?_⟩
  · rw [gpr,result]
  · rw [gpr,word_read]
  · rcases outcome with ⟨moved,flag,_,kept⟩ | ⟨same,flag,_,wrote⟩
    · exact .inr ⟨fun fixed => moved (again.mpr fixed),flag,kept⟩
    · have fixed := again.mp same
      refine .inl ⟨fixed,flag,?_⟩
      rw [result,fixed] at wrote
      rw [← wrote]
      refine write32_address ?_ _
      rw [low32_zext,low32_add,result,fixed,others base loop.base_result loop.base_word]

variable (env) in
theorem round_returns (fuel : Nat) (loop : Loop word base dec s)
    (stores : walk s.mem.vm (low32 (s.gpr base)) (low32 (s.gpr 0)) = low32 (s.gpr 0) → ∃ mem,
      vm_write32 fuel s.mem ((low32 (s.gpr 0) + low32 (s.gpr base)).setWidth 64) (low32 (s.gpr 0)) = some mem) :
    ∃ t, straight env fuel [.lwarx word 0 base,.add 0 dec word,.stwcx 0 0 base] s = some t := by
  obtain ⟨result,_,others⟩ := loaded_gpr loop
  obtain ⟨t,stored⟩ := conditional_returns fuel (loaded word base dec s) 0 0 base fun same => by
    have fixed := (reserved_again loop).mp same
    obtain ⟨mem,wrote⟩ := stores fixed
    refine ⟨mem,wrote ▸ ?_⟩
    rw [result,fixed]
    refine write32_address ?_ _
    rw [low32_zext,low32_add,result,fixed,others base loop.base_result loop.base_word]
  exact ⟨t,round_conditional.mpr stored⟩

theorem Loop.next (loop : Loop word base dec s) (beside : Beside word s t) : Loop word base dec t :=
  ⟨loop.word_result,loop.base_result,loop.base_word,loop.dec_result,loop.dec_word,
    (congrArg low32 (beside.gpr dec loop.dec_result loop.dec_word)).trans loop.minus⟩

theorem Beside.trans (one : Beside word s u) (two : Beside word u t) : Beside word s t :=
  ⟨fun r zero other => (two.gpr r zero other).trans (one.gpr r zero other),two.world.trans one.world,
    two.calls.trans one.calls⟩

-- The loop is left at a fixed point of the walk, which is stored where it was read.
theorem loop_left (loop : Loop word base dec s) (ran : decrement_loop env fuel word base dec s = some t) :
    Beside word s t ∧ ∃ n x, (walk s.mem.vm (low32 (s.gpr base)))^[n] (low32 (s.gpr 0)) = x ∧
      walk s.mem.vm (low32 (s.gpr base)) x = x ∧ low32 (t.gpr 0) = x ∧ t.gpr word = (x+1).setWidth 64 ∧
      vm_write32 fuel s.mem ((x + low32 (s.gpr base)).setWidth 64) x = some t.mem := by
  have loops := do_while_loops ran
  clear ran
  induction loops with
  | @last s t one no =>
      obtain ⟨beside,result,read,⟨fixed,_,wrote⟩ | ⟨_,flag,_⟩⟩ := round_left loop one
      · rw [walk_fixed fixed] at read
        exact ⟨beside,0,_,rfl,fixed,result.trans fixed,read,wrote⟩
      · rw [flag] at no
        cases no
  | @round s u t one yes _ ih =>
      obtain ⟨beside,result,_,⟨_,flag,_⟩ | ⟨_,_,kept⟩⟩ := round_left loop one
      · rw [flag] at yes
        cases yes
      · obtain ⟨later,n,x,walked,fixed,left⟩ := ih (loop.next beside)
        rw [beside.gpr base loop.base_result loop.base_word,kept] at walked fixed left
        rw [result] at walked
        exact ⟨beside.trans later,n+1,x,walked,fixed,left⟩

variable (env) in
theorem loop_returns (loop : Loop word base dec s) (walked : (walk s.mem.vm (low32 (s.gpr base)))^[n] (low32 (s.gpr 0)) = x)
    (fixed : walk s.mem.vm (low32 (s.gpr base)) x = x)
    (wrote : vm_write32 fuel s.mem ((x + low32 (s.gpr base)).setWidth 64) x = some mem) :
    ∃ fuel t, decrement_loop env fuel word base dec s = some t := by
  have loops : ∃ t, Loops (straight env fuel [.lwarx word 0 base,.add 0 dec word,.stwcx 0 0 base]) (!·.eq 28) s t := by
    induction n generalizing s with
    | zero =>
        have here : low32 (s.gpr 0) = x := walked
        obtain ⟨t,one⟩ := round_returns env fuel loop fun _ => ⟨mem,here ▸ wrote⟩
        obtain ⟨_,_,_,⟨_,flag,_⟩ | ⟨moved,_⟩⟩ := round_left loop one
        · exact ⟨t,.last one (by rw [flag]; rfl)⟩
        · rw [here] at moved
          exact absurd fixed moved
    | succ n ih =>
        obtain ⟨u,one⟩ := round_returns env fuel loop fun stays => by
          have here : low32 (s.gpr 0) = x := by
            rw [Function.iterate_fixed stays] at walked
            exact walked
          exact ⟨mem,here ▸ wrote⟩
        obtain ⟨beside,result,_,⟨_,flag,_⟩ | ⟨_,flag,kept⟩⟩ := round_left loop one
        · exact ⟨u,.last one (by rw [flag]; rfl)⟩
        · have same := beside.gpr base loop.base_result loop.base_word
          obtain ⟨t,rest⟩ := ih (loop.next beside) (by rw [kept,same,result]; exact walked) (by rwa [kept,same])
            (by rwa [kept,same])
          exact ⟨t,.round one (by rw [flag]; rfl) rest⟩
  obtain ⟨t,loops⟩ := loops
  obtain ⟨k,ran⟩ := loops_do_while loops
  exact ⟨max fuel k,t,do_while_more (fun s t one => straight_more one (Nat.le_max_left _ _)) (Nat.le_max_right _ _) ran⟩
end Loop
end BudokaiRuntime.Ppu
