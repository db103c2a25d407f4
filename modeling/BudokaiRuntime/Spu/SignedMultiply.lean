import BudokaiRuntime.Foundations.SignedArithmetic
import BudokaiRuntime.Spu.Results

-- The seven multiplies that compute in int32_t, with the value of every operation.
namespace BudokaiRuntime.Spu
open SignedArithmetic

inductive Multiply where
  | mpya | mpyi | mpy | mpyh | mpys | mpyhh | mpyhha
  deriving DecidableEq

def Multiply.op : Multiply → SpuOp
  | .mpya => .rrr .mpya
  | .mpyi => .ri10 .mpyi
  | .mpy => .rr .mpy
  | .mpyh => .rr .mpyh
  | .mpys => .rr .mpys
  | .mpyhh => .rr .mpyhh
  | .mpyhha => .rr .mpyhha

-- (int32_t)(int16_t)(v & 0xFFFF) and (int32_t)(int16_t)(v >> 16)
def low16 (v : BitVec 32) : Signed 32 := .of (s16 (v &&& 0xFFFF))
def high16 (v : BitVec 32) : Signed 32 := .of (s16 (v >>> 16))

-- One word lane of RA, RB and the register in the low field, which is RC for mpya and RT
-- for the others, and the value of F_I10.
structure MulLane where
  a : BitVec 32
  b : BitVec 32
  c : BitVec 32
  v : BitVec 32

def mulLane (ctx : SpuCtx) (i : Fin 4) : MulLane :=
  let insn := fetch (prepared ctx)
  let R := (prepared ctx).gpr
  ⟨GW (R (F_RA insn)) i,GW (R (F_RB insn)) i,GW (R (F_RT insn)) i,F_I10 insn⟩

def Multiply.signed (m : Multiply) (l : MulLane) : Signed 32 :=
  match m with
  | .mpya => ((low16 l.a).mul (low16 l.b)).add (.of l.c)
  | .mpyi => (low16 l.a).mul (.of l.v)
  | .mpy => (low16 l.a).mul (low16 l.b)
  | .mpyh => ((high16 l.a).mul (low16 l.b)).shl 16
  | .mpys => ((low16 l.a).mul (low16 l.b)).shr 16
  | .mpyhh | .mpyhha => (high16 l.a).mul (high16 l.b)

-- mpyhha accumulates after the conversion.
def Multiply.stored (m : Multiply) (l : MulLane) : Option (BitVec 32) :=
  (m.signed l).word.map fun p =>
    match m with
    | .mpyhha => l.c + p
    | _ => p

-- The room the operations need: the accumulator of mpya stays in what the product leaves
-- of the range, and the product of mpyh has 16 bits.
def Multiply.Room (m : Multiply) (l : MulLane) : Prop :=
  match m with
  | .mpya =>
      let p := (Isa.right l.a).toInt * (Isa.right l.b).toInt
      if 0 ≤ p then l.c.toInt ≤ 2147483647 - p else -2147483648 - p ≤ l.c.toInt
  | .mpyh =>
      let p := (Isa.left l.a).toInt * (Isa.right l.b).toInt
      p ≤ 32767 ∧ -32768 ≤ p
  | _ => True

def Multiply.isa (m : Multiply) (l : MulLane) : BitVec 32 :=
  match m with
  | .mpya => Isa.product (Isa.right l.a) (Isa.right l.b) + l.c
  | .mpyi => Isa.product (Isa.right l.a) (l.v.setWidth 16)
  | .mpy => Isa.product (Isa.right l.a) (Isa.right l.b)
  | .mpyh => Isa.product (Isa.left l.a) (Isa.right l.b) <<< 16
  | .mpys => (Isa.left (Isa.product (Isa.right l.a) (Isa.right l.b))).signExtend 32
  | .mpyhh => Isa.product (Isa.left l.a) (Isa.left l.b)
  | .mpyhha => l.c + Isa.product (Isa.left l.a) (Isa.left l.b)

-- In lane i every result of type int32_t is exact and fits, and the word stored is the
-- one that the step and the architecture leave.
structure Multiply.Sound (m : Multiply) (fpu : HostFpu) (ctx : SpuCtx) (i : Fin 4) : Prop where
  exact : (m.signed (mulLane ctx i)).Exact
  step : ∃ next, spu_step fpu ctx = some next ∧
    m.stored (mulLane ctx i) = some ((next.gpr (destination (fetch (prepared ctx)))).word i)
  isa : ∀ event srr0, ∃ after, Isa.exec m.op (fetch (prepared ctx)) event srr0 (arch (prepared ctx)) = some after ∧
    m.stored (mulLane ctx i) = some ((after.gpr (destination (fetch (prepared ctx)))).word i)

structure Factor (x : Signed 32) (h : BitVec 16) : Prop where
  exact : x.Exact
  value : x.exact = h.toInt

section Factors
variable (x y : BitVec 16) (v : BitVec 32)

theorem low16_factor : Factor (low16 v) (Isa.right v) := by
  refine ⟨exact_of _,?_⟩
  show (s16 (v &&& 0xFFFF)).toInt = _
  rw [s16_right,BitVec.toInt_signExtend_of_le (by decide)]

theorem high16_factor : Factor (high16 v) (Isa.left v) := by
  refine ⟨exact_of _,?_⟩
  show (s16 (v >>> 16)).toInt = _
  rw [s16_left,BitVec.toInt_signExtend_of_le (by decide)]

theorem immediate_factor (i : BitVec 10) : Factor (.of (i.signExtend 32)) (i.signExtend 16) := by
  refine ⟨exact_of _,?_⟩
  show (i.signExtend 32).toInt = _
  rw [BitVec.toInt_signExtend_of_le (by decide),BitVec.toInt_signExtend_of_le (by decide)]

theorem half_bound : x.toInt.natAbs ≤ 32768 := by
  have low := BitVec.le_toInt x
  have high := BitVec.toInt_lt (x:=x)
  omega

theorem product_fits : Fits 32 (x.toInt * y.toInt) := by
  have size : (x.toInt * y.toInt).natAbs ≤ 32768*32768 := by
    rw [Int.natAbs_mul]
    exact Nat.mul_le_mul (half_bound x) (half_bound y)
  constructor <;> omega
end Factors

section Products
variable {x y : Signed 32} {g h : BitVec 16}

theorem product_value (left : Factor x g) (right : Factor y h) : (x.mul y).exact = g.toInt * h.toInt :=
  congrArg₂ (· * ·) left.value right.value

-- The largest product of two halfwords is 2^30.
theorem product_exact (left : Factor x g) (right : Factor y h) : (x.mul y).Exact := by
  refine (exact_binary x y (· * ·)).mpr ⟨⟨left.exact,right.exact⟩,?_⟩
  show Fits 32 (x.exact * y.exact)
  rw [left.value,right.value]
  exact product_fits g h

theorem product_word (left : Factor x g) (right : Factor y h) : (x.mul y).word = some (Isa.product g h) := by
  rw [((x.mul y).sound (product_exact left right)).2,product_value left right]
  rfl
end Products

section Exact
variable (m : Multiply) (l : MulLane) (ten : BitVec 10)

theorem accumulator_fits (p : Int) (c : BitVec 32) :
    Fits 32 (p+c.toInt) ↔ if 0 ≤ p then c.toInt ≤ 2147483647 - p else -2147483648 - p ≤ c.toInt := by
  have low : -2147483648 ≤ c.toInt := BitVec.le_toInt c
  have high : c.toInt < 2147483648 := BitVec.toInt_lt
  unfold Fits
  split <;> omega

theorem exact_iff_room (short : l.v = ten.signExtend 32) : (m.signed l).Exact ↔ m.Room l := by
  have low_a := low16_factor l.a
  have low_b := low16_factor l.b
  have high_a := high16_factor l.a
  cases m with
  | mpya =>
      refine (exact_binary _ _ (· + ·)).trans ((and_iff_right ⟨product_exact low_a low_b,exact_of _⟩).trans ?_)
      rw [product_value low_a low_b]
      exact accumulator_fits _ l.c
  | mpyh =>
      refine (exact_shl _ 16).trans ((and_iff_right (product_exact high_a low_b)).trans ?_)
      rw [product_value high_a low_b]
      unfold Fits Multiply.Room
      dsimp only
      omega
  | mpyi =>
      have immediate : Factor (.of l.v) (ten.signExtend 16) := short ▸ immediate_factor ten
      exact iff_of_true (product_exact low_a immediate) trivial
  | mpy => exact iff_of_true (product_exact low_a low_b) trivial
  | mpys => exact iff_of_true ((exact_shr _ 16).mpr (product_exact low_a low_b)) trivial
  | mpyhh | mpyhha => exact iff_of_true (product_exact high_a (high16_factor l.b)) trivial

-- Only the sum of mpya can be left without a result.
theorem stored_isa (short : l.v = ten.signExtend 32) (room : m = .mpya → m.Room l) : m.stored l = some (m.isa l) := by
  have low_a := low16_factor l.a
  have low_b := low16_factor l.b
  have high_a := high16_factor l.a
  have high_b := high16_factor l.b
  unfold Multiply.stored
  cases m with
  | mpya =>
      have sum := ((exact_iff_room .mpya l ten short).mpr (room rfl))
      rw [((Multiply.signed .mpya l).sound sum).2]
      have value : (Multiply.signed .mpya l).exact = (Isa.right l.a).toInt * (Isa.right l.b).toInt + l.c.toInt :=
        congrArg (· + l.c.toInt) (product_value low_a low_b)
      rw [value,BitVec.ofInt_add,BitVec.ofInt_toInt]
      rfl
  | mpyh =>
      have word : (Multiply.signed .mpyh l).word = some (Isa.product (Isa.left l.a) (Isa.right l.b) <<< 16) :=
        congrArg (Option.map fun v : BitVec 32 => v <<< 16) (product_word high_a low_b)
      rw [word]
      rfl
  | mpys =>
      have word : (Multiply.signed .mpys l).word =
          some ((Isa.product (Isa.right l.a) (Isa.right l.b)).sshiftRight 16) :=
        congrArg (Option.map fun v : BitVec 32 => v.sshiftRight 16) (product_word low_a low_b)
      rw [word,mpys_eq]
      rfl
  | mpyi =>
      have immediate : Factor (.of l.v) (ten.signExtend 16) := short ▸ immediate_factor ten
      have word : (Multiply.signed .mpyi l).word = _ := product_word low_a immediate
      rw [word,← imm16,← short]
      rfl
  | mpy =>
      have word : (Multiply.signed .mpy l).word = _ := product_word low_a low_b
      rw [word]
      rfl
  | mpyhh =>
      have word : (Multiply.signed .mpyhh l).word = _ := product_word high_a high_b
      rw [word]
      rfl
  | mpyhha =>
      have word : (Multiply.signed .mpyhha l).word = _ := product_word high_a high_b
      rw [word]
      rfl

theorem sum_undefined (full : ¬ Multiply.mpya.Room l) : Multiply.mpya.stored l = none := by
  have product := product_word (low16_factor l.a) (low16_factor l.b)
  have value : (Isa.product (Isa.right l.a) (Isa.right l.b)).toInt = (Isa.right l.a).toInt * (Isa.right l.b).toInt :=
    fits_toInt (product_fits _ _)
  have unfit := mt (accumulator_fits _ l.c).mp full
  have word : (Multiply.signed .mpya l).word = none := by
    show (((low16 l.a).mul (low16 l.b)).word.bind fun p => (some l.c).bind fun c => checked 32 (p.toInt + c.toInt)) = none
    rw [product,Option.bind_some,Option.bind_some,value]
    exact if_neg unfit
  rw [Multiply.stored,word]
  rfl

-- The shift of mpyh may wrap, but it has a result.
theorem stored_undefined_iff (short : l.v = ten.signExtend 32) : m.stored l = none ↔ m = .mpya ∧ ¬ m.Room l := by
  constructor
  · intro undefined
    by_contra other
    rw [stored_isa m l ten short fun sum => not_not.mp fun full => other ⟨sum,full⟩] at undefined
    cases undefined
  · rintro ⟨rfl,full⟩
    exact sum_undefined l full
end Exact

section Steps
variable (m : Multiply) (fpu : HostFpu) (ctx : SpuCtx) (i : Fin 4)

theorem mulLane_eq : mulLane ctx i =
    let insn := fetch (prepared ctx)
    let s := arch (prepared ctx)
    ⟨(s.gpr (Isa.RA insn)).word i,(s.gpr (Isa.RB insn)).word i,(s.gpr (Isa.RT insn)).word i,
      (Isa.I10 insn).signExtend 32⟩ := by
  simp only [mulLane,GW,get_w_word,F_RA_eq,F_RB_eq,F_RT_eq,F_I10_eq]
  rfl

theorem result_lane (s : Isa.Arch) (f : Fin 4 → BitVec 32) (same : d = rt) :
    ((s.result rt (.ofWords f)).gpr d).word i = f i := by
  subst same
  show (Function.update s.gpr d (SpuReg.ofWords f) d).word i = f i
  rw [Function.update_self,word_ofWords]

theorem isa_lane (decoded : spu_decode (fetch (prepared ctx)) = m.op) (event : Bool) (srr0 : BitVec 32) :
    ∃ after, Isa.exec m.op (fetch (prepared ctx)) event srr0 (arch (prepared ctx)) = some after ∧
      (after.gpr (destination (fetch (prepared ctx)))).word i = m.isa (mulLane ctx i) := by
  have third (other : ∀ op, m.op ≠ .rrr op) : destination (fetch (prepared ctx)) = Isa.RT (fetch (prepared ctx)) := by
    have known : spu_decode (fetch (prepared ctx)) ≠ .unknown := by
      rw [decoded]
      cases m <;> nofun
    rw [destination_low _ known (by rw [decoded]; exact other),F_RT_eq]
  rw [mulLane_eq]
  cases m with
  | mpya => exact ⟨_,rfl,result_lane i _ _ ((destination_rrr _ decoded).trans (F_RC_eq _))⟩
  | mpyi =>
      refine ⟨_,rfl,(result_lane i _ _ (third nofun)).trans ?_⟩
      dsimp only [Multiply.isa]
      rw [imm16]
  | mpy | mpyh | mpys | mpyhh | mpyhha => exact ⟨_,rfl,result_lane i _ _ (third nofun)⟩

theorem step_lane (decoded : spu_decode (fetch (prepared ctx)) = m.op) :
    ∃ next, spu_step fpu ctx = some next ∧
      (next.gpr (destination (fetch (prepared ctx)))).word i = m.isa (mulLane ctx i) := by
  obtain ⟨after,isa,word⟩ := isa_lane m ctx i decoded false 0
  have returns : m.op ≠ .rr .iret := by cases m <;> nofun
  obtain ⟨next,ran,same⟩ := spu_exec_isa fpu (prepared ctx) m.op _ 0 returns isa
  have pc : (prepared ctx).pc = ctx.pc := by
    unfold prepared
    split <;> rfl
  refine ⟨next,?_,?_⟩
  · rw [spu_step_prepared,decoded,← pc]
    exact ran
  · rw [← word,← same]
    rfl

theorem signed_multiply_iff (decoded : spu_decode (fetch (prepared ctx)) = m.op) :
    m.Sound fpu ctx i ↔ m.Room (mulLane ctx i) := by
  have exact := exact_iff_room m (mulLane ctx i) _ (F_I10_eq (fetch (prepared ctx)))
  refine ⟨fun sound => exact.mp sound.exact,fun room => ⟨exact.mpr room,?_,?_⟩⟩
  · obtain ⟨next,ran,word⟩ := step_lane m fpu ctx i decoded
    rw [stored_isa m _ _ (F_I10_eq (fetch (prepared ctx))) fun _ => room,← word]
    exact ⟨next,ran,rfl⟩
  · intro event srr0
    obtain ⟨after,ran,word⟩ := isa_lane m ctx i decoded event srr0
    rw [stored_isa m _ _ (F_I10_eq (fetch (prepared ctx))) fun _ => room,← word]
    exact ⟨after,ran,rfl⟩
end Steps

theorem operands_lane (operands : Operands ctx op a b t) (i : Fin 4) :
    mulLane ctx i = ⟨a.word i,b.word i,t.word i,F_I10 (fetch (prepared ctx))⟩ := by
  simp only [mulLane,operands.ra,operands.rb,operands.rt,GW,get_w_word]

-- mpyh of 0x00B50000 and 0x000000B5: the product 32761 just fits in 16 bits.
theorem signed_multiply_iff_half :
    let ctx := wordImage 0x78A08083 (.ofWords fun _ => 0x00B50000) (.ofWords fun _ => 0x000000B5) .zero
    Multiply.mpyh.Sound hostFpu ctx 0 ↔ Multiply.mpyh.Room (mulLane ctx 0) :=
  signed_multiply_iff .mpyh hostFpu _ 0 (operands_wordImage _ _ _ _ (by decide)).decoded

theorem mpya_overflows :
    ¬ ∀ (m : Multiply) (fpu : HostFpu) (ctx : SpuCtx) (i : Fin 4), spu_decode (fetch (prepared ctx)) = m.op →
      m.Sound fpu ctx i := by
  intro sound
  let one : SpuReg := .ofWords fun _ => 1
  let largest : SpuReg := .ofWords fun _ => 0x7FFFFFFF
  have operands : Operands (wordImage 0xC0008083 one one largest) (.rrr .mpya) one one largest :=
    operands_wordImage _ _ _ _ (by decide)
  have kept := (sound .mpya hostFpu _ 0 operands.decoded).exact
  rw [exact_iff_room .mpya _ _ (F_I10_eq _),operands_lane operands,word_ofWords,word_ofWords] at kept
  dsimp only [Multiply.Room] at kept
  exact absurd kept (by decide)

end BudokaiRuntime.Spu
