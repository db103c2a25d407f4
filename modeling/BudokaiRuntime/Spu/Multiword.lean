import BudokaiRuntime.Foundations.CarryChain
import BudokaiRuntime.Spu.Results

-- Multiword sums and differences, one word of each lane a step.
namespace BudokaiRuntime.Spu
open CarryChain

-- One sum and one carry instruction for each pair (RA,RB), least significant first; the
-- carry register is the old destination of both.
inductive Chain (fpu : HostFpu) (sumOp carryOp : Rr) :
    SpuReg → List (SpuReg × SpuReg) → List SpuReg → SpuReg → Prop where
  | nil : Chain fpu sumOp carryOp c [] [] c
  | cons : Leaves fpu (.rr sumOp) a b c s → Leaves fpu (.rr carryOp) a b c d →
      Chain fpu sumOp carryOp d rest sums last → Chain fpu sumOp carryOp c ((a,b) :: rest) (s :: sums) last

-- The number whose words are lane i of the registers.
def digit (i : Fin 4) (r : SpuReg) : Nat := (r.word i).toNat
def laneValue (i : Fin 4) (regs : List SpuReg) : Nat := Nat.ofDigits (2^32) (regs.map (digit i))

theorem Leaves.unique (one : Leaves fpu op a b t r) (two : Leaves fpu op a b t s) : r = s := by
  obtain ⟨ctx,operands⟩ := one.occurs
  exact Option.some.inj ((one.leaves ctx operands).symm.trans (two.leaves ctx operands))

section Stages
variable (fpu : HostFpu) (a b t : SpuReg)

theorem leaves_a : Leaves fpu (.rr .a) a b t (.ofWords fun i => a.word i + b.word i) := by
  refine leaves_rr .a 0x18008083 (by decide) nofun ?_
  rintro insn s rfl rfl rfl
  rfl

theorem leaves_sf : Leaves fpu (.rr .sf) a b t (.ofWords fun i => b.word i - a.word i) := by
  refine leaves_rr .sf 0x08008083 (by decide) nofun ?_
  rintro insn s rfl rfl rfl
  rfl

theorem leaves_cg :
    Leaves fpu (.rr .cg) a b t (.ofWords fun i => Isa.carry ((a.word i).toNat + (b.word i).toNat)) := by
  refine leaves_rr .cg 0x18408083 (by decide) nofun ?_
  rintro insn s rfl rfl rfl
  rfl

theorem leaves_bg :
    Leaves fpu (.rr .bg) a b t (.ofWords fun i => if (a.word i).toNat ≤ (b.word i).toNat then 1 else 0) := by
  refine leaves_rr .bg 0x08408083 (by decide) nofun ?_
  rintro insn s rfl rfl rfl
  rfl

theorem leaves_addx :
    Leaves fpu (.rr .addx) a b t (.ofWords fun i => a.word i + b.word i + (t.word i &&& 1)) := by
  refine leaves_rr .addx 0x68008083 (by decide) nofun ?_
  rintro insn s rfl rfl rfl
  rfl

theorem leaves_sfx :
    Leaves fpu (.rr .sfx) a b t (.ofWords fun i => b.word i + ~~~a.word i + (t.word i &&& 1)) := by
  refine leaves_rr .sfx 0x68208083 (by decide) nofun ?_
  rintro insn s rfl rfl rfl
  rfl

theorem leaves_cgx : Leaves fpu (.rr .cgx) a b t
    (.ofWords fun i => Isa.carry ((a.word i).toNat + (b.word i).toNat + (t.word i).toNat % 2)) := by
  refine leaves_rr .cgx 0x68408083 (by decide) nofun ?_
  rintro insn s rfl rfl rfl
  rfl

-- The inverted borrow as a carry: RB plus the complement of RA plus the flag.
theorem leaves_bgx : Leaves fpu (.rr .bgx) a b t
    (.ofWords fun i => Isa.carry ((b.word i).toNat + (~~~a.word i).toNat + (t.word i).toNat % 2)) := by
  refine leaves_rr .bgx 0x68608083 (by decide) nofun ?_
  rintro insn s rfl rfl rfl
  simp only [bgx_eq]
  rfl
end Stages

section Digits
variable (x y c : BitVec 32)

theorem digit_step (n : Nat) (small : n < 2^33) : n % 2^32 + 2^32*(Isa.carry n).toNat = n := by
  unfold Isa.carry
  split
  · have one : (1 : BitVec 32).toNat = 1 := rfl
    omega
  · have zero : (0 : BitVec 32).toNat = 0 := rfl
    omega

theorem carry_flag (n : Nat) : (Isa.carry n).toNat ≤ 1 := by
  unfold Isa.carry
  split <;> decide

theorem sum_digit (flag : c.toNat ≤ 1) :
    (x + y + (c &&& 1)).toNat + 2^32*(Isa.carry (x.toNat + y.toNat + c.toNat % 2)).toNat =
      x.toNat + y.toNat + c.toNat := by
  have bit : c.toNat % 2 = c.toNat := by omega
  have sum : (x + y + (c &&& 1)).toNat = (x.toNat + y.toNat + c.toNat) % 2^32 := by
    rw [BitVec.toNat_add,BitVec.toNat_add,low_bit,bit]
    omega
  rw [sum,bit]
  exact digit_step _ (by omega)
end Digits

section Sums
variable {fpu : HostFpu}

theorem chain_exists (sumOp carryOp : Rr) (sums : ∀ a b t, ∃ s, Leaves fpu (.rr sumOp) a b t s)
    (carries : ∀ a b t, ∃ d, Leaves fpu (.rr carryOp) a b t d) (words : List (SpuReg × SpuReg)) (c : SpuReg) :
    ∃ regs last, Chain fpu sumOp carryOp c words regs last := by
  induction words generalizing c with
  | nil => exact ⟨[],c,.nil⟩
  | cons pair words ih =>
      obtain ⟨s,sum⟩ := sums pair.1 pair.2 c
      obtain ⟨d,carry⟩ := carries pair.1 pair.2 c
      obtain ⟨regs,last,rest⟩ := ih d
      exact ⟨s :: regs,last,.cons sum carry rest⟩

theorem add_chain (chain : Chain fpu .addx .cgx c words sums last) (i : Fin 4) (flag : digit i c ≤ 1) :
    Carried (2^32) (digit i c) (words.map fun p => (digit i p.1,digit i p.2)) (sums.map (digit i)) (digit i last) := by
  induction chain with
  | nil => exact .nil
  | @cons a b c s d rest sums last sum carry _ ih =>
      cases sum.unique (leaves_addx fpu a b c)
      cases carry.unique (leaves_cgx fpu a b c)
      refine .cons ?_ (ih ?_)
      · simp only [digit,word_ofWords]
        exact sum_digit (a.word i) (b.word i) (c.word i) flag
      · simp only [digit,word_ofWords]
        exact carry_flag _

theorem sub_chain (chain : Chain fpu .sfx .bgx c words sums last) (i : Fin 4) (flag : digit i c ≤ 1) :
    Carried (2^32) (digit i c) ((words.map fun p => (digit i p.1,digit i p.2)).map fun p => (p.2,2^32-1-p.1))
      (sums.map (digit i)) (digit i last) := by
  induction chain with
  | nil => exact .nil
  | @cons a b c s d rest sums last sum carry _ ih =>
      cases sum.unique (leaves_sfx fpu a b c)
      cases carry.unique (leaves_bgx fpu a b c)
      refine .cons ?_ (ih ?_)
      · simp only [digit,word_ofWords]
        have step := sum_digit (b.word i) (~~~a.word i) (c.word i) flag
        rwa [BitVec.toNat_not] at step ⊢
      · simp only [digit,word_ofWords]
        exact carry_flag _

theorem digits_small (i : Fin 4) (regs : List SpuReg) : ∀ s ∈ regs.map (digit i), s < 2^32 := by
  intro s present
  obtain ⟨r,_,rfl⟩ := List.mem_map.mp present
  exact (r.word i).isLt

theorem pairs_small (i : Fin 4) (words : List (SpuReg × SpuReg)) :
    ∀ p ∈ words.map (fun p => (digit i p.1,digit i p.2)), p.1 < 2^32 ∧ p.2 < 2^32 := by
  intro q present
  obtain ⟨p,_,rfl⟩ := List.mem_map.mp present
  exact ⟨(p.1.word i).isLt,(p.2.word i).isLt⟩

theorem add_chain_value (chain : Chain fpu .addx .cgx c words sums last) (i : Fin 4) (clear : c.word i = 0) :
    laneValue i sums + digit i last*2^(32*words.length) =
      laneValue i (words.map Prod.fst) + laneValue i (words.map Prod.snd) := by
  have start : digit i c = 0 := congrArg BitVec.toNat clear
  have whole := (add_chain chain i (by omega)).value
  rw [start,← Nat.pow_mul,List.length_map] at whole
  simpa only [laneValue,List.map_map,Function.comp_def,Nat.add_zero] using whole

theorem sub_chain_value (chain : Chain fpu .sfx .bgx c words sums last) (i : Fin 4) (set : c.word i = 1) :
    (laneValue i sums : Int) =
        (laneValue i (words.map Prod.snd) - laneValue i (words.map Prod.fst)) % (2^(32*words.length) : Nat) ∧
      last.word i = if laneValue i (words.map Prod.fst) ≤ laneValue i (words.map Prod.snd) then 1 else 0 := by
  have start : digit i c = 1 := congrArg BitVec.toNat set
  have carried := sub_chain chain i (by omega)
  rw [start] at carried
  obtain ⟨difference,flag⟩ := Carried.difference (by decide) _ (pairs_small i words) carried (digits_small i sums)
  rw [← Nat.pow_mul,List.length_map] at difference
  simp only [laneValue,List.map_map,Function.comp_def] at difference flag ⊢
  refine ⟨difference,?_⟩
  apply BitVec.eq_of_toNat_eq
  rw [digit] at flag
  rw [flag]
  split <;> rfl
end Sums

section First
variable (fpu : HostFpu) (a b t z : SpuReg)

-- On the first word the plain instructions do what the extended ones do with the flag they start from.
theorem first_sum : ∃ s s' d d',
    Leaves fpu (.rr .a) a b t s ∧ Leaves fpu (.rr .addx) a b z s' ∧
    Leaves fpu (.rr .cg) a b t d ∧ Leaves fpu (.rr .cgx) a b z d' ∧
    ∀ i, z.word i = 0 → s.word i = s'.word i ∧ d.word i = d'.word i := by
  refine ⟨_,_,_,_,leaves_a fpu a b t,leaves_addx fpu a b z,leaves_cg fpu a b t,leaves_cgx fpu a b z,?_⟩
  intro i clear
  simp [clear]

theorem first_difference : ∃ s s' d d',
    Leaves fpu (.rr .sf) a b t s ∧ Leaves fpu (.rr .sfx) a b z s' ∧
    Leaves fpu (.rr .bg) a b t d ∧ Leaves fpu (.rr .bgx) a b z d' ∧
    ∀ i, z.word i = 1 → s.word i = s'.word i ∧ d.word i = d'.word i := by
  refine ⟨_,_,_,_,leaves_sf fpu a b t,leaves_sfx fpu a b z,leaves_bg fpu a b t,leaves_bgx fpu a b z,?_⟩
  intro i set
  simp only [word_ofWords,set]
  have one : (1 : BitVec 32).toNat % 2 = 1 := rfl
  have low : (1 : BitVec 32).getLsbD 0 = true := rfl
  constructor
  · have negated : -a.word i = ~~~a.word i + 1 := BitVec.neg_eq_not_add _
    rw [BitVec.sub_eq_add_neg,negated,← BitVec.add_assoc]
    rfl
  · rw [bgx_eq,if_pos low]
end First

theorem multiword_arithmetic (fpu : HostFpu) (words : List (SpuReg × SpuReg)) (c : SpuReg) :
    ((∃ sums last, Chain fpu .addx .cgx c words sums last) ∧
      ∀ sums last, Chain fpu .addx .cgx c words sums last → ∀ i, c.word i = 0 →
        laneValue i sums + digit i last*2^(32*words.length) =
          laneValue i (words.map Prod.fst) + laneValue i (words.map Prod.snd)) ∧
    ((∃ sums last, Chain fpu .sfx .bgx c words sums last) ∧
      ∀ sums last, Chain fpu .sfx .bgx c words sums last → ∀ i, c.word i = 1 →
        (laneValue i sums : Int) =
            (laneValue i (words.map Prod.snd) - laneValue i (words.map Prod.fst)) % (2^(32*words.length) : Nat) ∧
          last.word i = if laneValue i (words.map Prod.fst) ≤ laneValue i (words.map Prod.snd) then 1 else 0) ∧
    ∀ a b t, (∃ s s' d d',
        Leaves fpu (.rr .a) a b t s ∧ Leaves fpu (.rr .addx) a b c s' ∧
        Leaves fpu (.rr .cg) a b t d ∧ Leaves fpu (.rr .cgx) a b c d' ∧
        ∀ i, c.word i = 0 → s.word i = s'.word i ∧ d.word i = d'.word i) ∧
      ∃ s s' d d',
        Leaves fpu (.rr .sf) a b t s ∧ Leaves fpu (.rr .sfx) a b c s' ∧
        Leaves fpu (.rr .bg) a b t d ∧ Leaves fpu (.rr .bgx) a b c d' ∧
        ∀ i, c.word i = 1 → s.word i = s'.word i ∧ d.word i = d'.word i := by
  refine ⟨⟨?_,fun sums last => add_chain_value⟩,⟨?_,fun sums last => sub_chain_value⟩,?_⟩
  · exact chain_exists .addx .cgx (fun a b t => ⟨_,leaves_addx fpu a b t⟩) (fun a b t => ⟨_,leaves_cgx fpu a b t⟩)
      words c
  · exact chain_exists .sfx .bgx (fun a b t => ⟨_,leaves_sfx fpu a b t⟩) (fun a b t => ⟨_,leaves_bgx fpu a b t⟩)
      words c
  · exact fun a b t => ⟨first_sum fpu a b t c,first_difference fpu a b t c⟩

def onesReg : SpuReg := .ofWords fun _ => 0xFFFFFFFF
def oneReg : SpuReg := .ofWords fun _ => 1

theorem multiword_arithmetic_ones :
    (∃ sums last, Chain hostFpu .addx .cgx .zero [(oneReg,onesReg),(.zero,onesReg)] sums last ∧
      laneValue 0 sums + digit 0 last*2^(32*2) = laneValue 0 [oneReg,.zero] + laneValue 0 [onesReg,onesReg]) ∧
    ∃ sums last, Chain hostFpu .sfx .bgx oneReg [(oneReg,onesReg),(.zero,onesReg)] sums last ∧
      (laneValue 0 sums : Int) =
          (laneValue 0 [onesReg,onesReg] - laneValue 0 [oneReg,.zero]) % (2^(32*2) : Nat) ∧
        last.word 0 = if laneValue 0 [oneReg,.zero] ≤ laneValue 0 [onesReg,onesReg] then 1 else 0 := by
  have sums := (multiword_arithmetic hostFpu [(oneReg,onesReg),(.zero,onesReg)] .zero).1
  have differences := (multiword_arithmetic hostFpu [(oneReg,onesReg),(.zero,onesReg)] oneReg).2.1
  obtain ⟨⟨s,c,added⟩,sum⟩ := sums
  obtain ⟨⟨d,f,subtracted⟩,difference⟩ := differences
  exact ⟨⟨s,c,added,sum s c added 0 (word_zero 0)⟩,d,f,subtracted,difference d f subtracted 0 (word_ofWords _ 0)⟩

end BudokaiRuntime.Spu
