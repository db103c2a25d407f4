import BudokaiRuntime.Spu.Decode
import BudokaiRuntime.Spu.Context

-- The instruction set as its architecture defines it, independently of the
-- interpreter: registers as vectors of words, halfwords, bytes or one quadword,
-- counts and carries as numbers, products as integers.
namespace BudokaiRuntime.Spu.Isa
open ByteLanes

structure Arch where
  gpr : Gpr
  pc : BitVec 32
  ls : LocalStore

-- Bits are numbered from the most significant one.
def bits (v : BitVec 32) (first last : Nat) : BitVec (last-first+1) := v.extractLsb' (31-last) (last-first+1)

def RT (insn : BitVec 32) : Fin 128 := (bits insn 25 31).toFin
def RA (insn : BitVec 32) : Fin 128 := (bits insn 18 24).toFin
def RB (insn : BitVec 32) : Fin 128 := (bits insn 11 17).toFin
-- RRR format: the destination is bits 4 to 10 and RC stands where RT does.
def RT4 (insn : BitVec 32) : Fin 128 := (bits insn 4 10).toFin
def RC (insn : BitVec 32) : Fin 128 := (bits insn 25 31).toFin

def I7 (insn : BitVec 32) : BitVec 7 := bits insn 11 17
def I10 (insn : BitVec 32) : BitVec 10 := bits insn 8 17
def I16 (insn : BitVec 32) : BitVec 16 := bits insn 9 24
def I18 (insn : BitVec 32) : BitVec 18 := bits insn 7 24

-- Opcode of each instruction of the integer, load/store, branch and hint classes;
-- its width is that of the format.
def rrr_opcode : Rrr → Option Nat
  | .selb => some 0x8
  | .shufb => some 0xB
  | .mpya => some 0xC
  | .fnms | .fma | .fms => none

def ri18_opcode : Ri18 → Option Nat
  | .ila => some 0x21
  | .hbra => some 0x08
  | .hbrr => some 0x09

def ri16_opcode : Ri16 → Option Nat
  | .brz => some 0x040 | .brnz => some 0x042 | .brhz => some 0x044 | .brhnz => some 0x046
  | .bra => some 0x060 | .brasl => some 0x062 | .br => some 0x064 | .brsl => some 0x066
  | .stqa => some 0x041 | .stqr => some 0x047 | .lqa => some 0x061 | .lqr => some 0x067
  | .il => some 0x081 | .ilhu => some 0x082 | .ilh => some 0x083 | .iohl => some 0x0C1
  | .fsmbi => some 0x065

def ri10_opcode : Ri10 → Option Nat
  | .stqd => some 0x24 | .lqd => some 0x34
  | .ai => some 0x1C | .ahi => some 0x1D | .sfi => some 0x0C | .sfhi => some 0x0D
  | .ori => some 0x04 | .orhi => some 0x05 | .orbi => some 0x06
  | .andi => some 0x14 | .andhi => some 0x15 | .andbi => some 0x16
  | .xori => some 0x44 | .xorhi => some 0x45 | .xorbi => some 0x46
  | .cgti => some 0x4C | .cgthi => some 0x4D | .cgtbi => some 0x4E
  | .clgti => some 0x5C | .clgthi => some 0x5D | .clgtbi => some 0x5E
  | .ceqi => some 0x7C | .ceqhi => some 0x7D | .ceqbi => some 0x7E
  | .mpyi => some 0x74 | .mpyui => some 0x75
  | .hgti | .hlgti | .heqi => none

def rr_opcode : Rr → Option Nat
  | .a => some 0x0C0 | .ah => some 0x0C8 | .sf => some 0x040 | .sfh => some 0x048
  | .cg => some 0x0C2 | .bg => some 0x042
  | .addx => some 0x340 | .sfx => some 0x341 | .cgx => some 0x342 | .bgx => some 0x343
  | .absdb => some 0x053 | .avgb => some 0x0D3 | .sumb => some 0x253
  | .and => some 0x0C1 | .or => some 0x041 | .xor => some 0x241 | .nand => some 0x0C9
  | .nor => some 0x049 | .andc => some 0x2C1 | .orc => some 0x2C9 | .eqv => some 0x249
  | .orx => some 0x1F0
  | .ceq => some 0x3C0 | .ceqh => some 0x3C8 | .ceqb => some 0x3D0
  | .cgt => some 0x240 | .cgth => some 0x248 | .cgtb => some 0x250
  | .clgt => some 0x2C0 | .clgth => some 0x2C8 | .clgtb => some 0x2D0
  | .mpy => some 0x3C4 | .mpyu => some 0x3CC | .mpyh => some 0x3C5 | .mpys => some 0x3C7
  | .mpyhh => some 0x3C6 | .mpyhhu => some 0x3CE | .mpyhha => some 0x346 | .mpyhhau => some 0x34E
  | .rot => some 0x058 | .rotm => some 0x059 | .rotma => some 0x05A | .shl => some 0x05B
  | .roth => some 0x05C | .rothm => some 0x05D | .rotmah => some 0x05E | .shlh => some 0x05F
  | .roti => some 0x078 | .rotmi => some 0x079 | .rotmai => some 0x07A | .shli => some 0x07B
  | .rothi => some 0x07C | .rothmi => some 0x07D | .rotmahi => some 0x07E | .shlhi => some 0x07F
  | .rotqbi => some 0x1D8 | .rotqmbi => some 0x1D9 | .shlqbi => some 0x1DB
  | .rotqby => some 0x1DC | .rotqmby => some 0x1DD | .shlqby => some 0x1DF
  | .rotqbybi => some 0x1CC | .rotqmbybi => some 0x1CD | .shlqbybi => some 0x1CF
  | .rotqbii => some 0x1F8 | .rotqmbii => some 0x1F9 | .shlqbii => some 0x1FB
  | .rotqbyi => some 0x1FC | .rotqmbyi => some 0x1FD | .shlqbyi => some 0x1FF
  | .clz => some 0x2A5 | .cntb => some 0x2B4
  | .xsbh => some 0x2B6 | .xshw => some 0x2AE | .xswd => some 0x2A6
  | .gb => some 0x1B0 | .gbh => some 0x1B1 | .gbb => some 0x1B2
  | .fsm => some 0x1B4 | .fsmh => some 0x1B5 | .fsmb => some 0x1B6
  | .lqx => some 0x1C4 | .stqx => some 0x144
  | .bi => some 0x1A8 | .bisl => some 0x1A9 | .iret => some 0x1AA | .bisled => some 0x1AB
  | .biz => some 0x128 | .binz => some 0x129 | .bihz => some 0x12A | .bihnz => some 0x12B
  | .hbr => some 0x1AC
  | _ => none

def Encodes (insn : BitVec 32) : SpuOp → Prop
  | .rrr op => rrr_opcode op = some (bits insn 0 3).toNat
  | .ri18 op => ri18_opcode op = some (bits insn 0 6).toNat
  | .ri16 op => ri16_opcode op = some (bits insn 0 8).toNat
  | .ri10 op => ri10_opcode op = some (bits insn 0 7).toNat
  | .rr op => rr_opcode op = some (bits insn 0 10).toNat
  | .chan _ | .unknown => False

instance (insn : BitVec 32) (op : SpuOp) : Decidable (Encodes insn op) :=
  match op with
  | .rrr op => inferInstanceAs (Decidable (rrr_opcode op = _))
  | .ri18 op => inferInstanceAs (Decidable (ri18_opcode op = _))
  | .ri16 op => inferInstanceAs (Decidable (ri16_opcode op = _))
  | .ri10 op => inferInstanceAs (Decidable (ri10_opcode op = _))
  | .rr op => inferInstanceAs (Decidable (rr_opcode op = _))
  | .chan _ => inferInstanceAs (Decidable False)
  | .unknown => inferInstanceAs (Decidable False)

-- Addresses are taken modulo the local store; quadwords are aligned.
def LSLR : BitVec 32 := 0x3FFFF

def quadPlace (ea : BitVec 32) (k : Fin 16) : Fin SPU_LS_SIZE :=
  ⟨ea.toNat % SPU_LS_SIZE / 16 * 16 + k,by
    have inside : ea.toNat % SPU_LS_SIZE < 16384 * 16 := Nat.mod_lt _ (by decide)
    have slot : ea.toNat % SPU_LS_SIZE / 16 < 16384 := Nat.div_lt_of_lt_mul (by omega)
    have size : SPU_LS_SIZE = 16384 * 16 := by decide
    omega⟩

def load (ls : LocalStore) (ea : BitVec 32) : SpuReg := ⟨fun k => ls (quadPlace ea k)⟩

def store (ls : LocalStore) (ea : BitVec 32) (r : SpuReg) : LocalStore := fun i =>
  if i.val/16 = ea.toNat % SPU_LS_SIZE / 16 then r.u8 ⟨i.val%16,by omega⟩ else ls i

def Arch.next (s : Arch) : Arch := {s with pc := (s.pc+4) &&& LSLR}
def Arch.result (s : Arch) (rt : Fin 128) (r : SpuReg) : Arch :=
  {s.next with gpr := Function.update s.gpr rt r}

def Arch.stores (s : Arch) (ea : BitVec 32) (rt : Fin 128) : Arch :=
  {s.next with ls := store s.ls ea (s.gpr rt)}

def Arch.jump (s : Arch) (target : BitVec 32) : Arch := {s with pc := target}

def preferred (v : BitVec 32) : SpuReg := .ofWords fun i => if i = 0 then v else 0

def allIf (w : Nat) (b : Bool) : BitVec w := if b then BitVec.allOnes w else 0

def left (v : BitVec 32) : BitVec 16 := bits v 0 15
def right (v : BitVec 32) : BitVec 16 := bits v 16 31
def product (x y : BitVec 16) : BitVec 32 := BitVec.ofInt 32 (x.toInt * y.toInt)
def productU (x y : BitVec 16) : BitVec 32 := BitVec.ofNat 32 (x.toNat * y.toNat)

def carry (n : Nat) : BitVec 32 := if 2^32 ≤ n then 1 else 0

def shuffle (a b : SpuReg) (c : BitVec 8) : BitVec 8 :=
  match c.getMsbD 0,c.getMsbD 1,c.getMsbD 2 with
  | true,false,_ => 0x00
  | true,true,false => 0xFF
  | true,true,true => 0x80
  | false,_,_ => byteAt (k:=32) (a.quad ++ b.quad) ⟨c.toNat % 32,by omega⟩

def gather (n : Nat) (bit : Fin n → Bool) : BitVec 32 := ofBits fun b =>
  if inside : b.val < n then bit ⟨n-1-b.val,by omega⟩ else false

def halfWord (h : Fin 8) : Fin 4 := ⟨h.val/2,by omega⟩

def byteSum (r : SpuReg) (i : Fin 4) : BitVec 16 :=
  BitVec.ofNat 16 ((r.u8 (wordByte i 0)).toNat + (r.u8 (wordByte i 1)).toNat +
    (r.u8 (wordByte i 2)).toNat + (r.u8 (wordByte i 3)).toNat)

def rrr (op : Rrr) (insn : BitVec 32) (s : Arch) : Option Arch :=
  let a := s.gpr (RA insn)
  let b := s.gpr (RB insn)
  let c := s.gpr (RC insn)
  match op with
  | .selb => some (s.result (RT4 insn) (.ofQuad (c.quad &&& b.quad ||| ~~~c.quad &&& a.quad)))
  | .shufb => some (s.result (RT4 insn) ⟨fun i => shuffle a b (c.u8 i)⟩)
  | .mpya => some (s.result (RT4 insn) (.ofWords fun i =>
      product (right (a.word i)) (right (b.word i)) + c.word i))
  | .fnms | .fma | .fms => none

def ri18 (op : Ri18) (insn : BitVec 32) (s : Arch) : Option Arch :=
  match op with
  | .ila => some (s.result (RT insn) (.ofWords fun _ => (I18 insn).setWidth 32))
  | .hbra | .hbrr => some s.next

def ri16 (op : Ri16) (insn : BitVec 32) (s : Arch) : Option Arch :=
  let t := s.gpr (RT insn)
  let absolute := (I16 insn ++ 0#2).signExtend 32
  let relative := s.pc + absolute
  let branchIf := fun (taken : Bool) => some (if taken then s.jump (relative &&& LSLR) else s.next)
  match op with
  | .brz => branchIf (t.word 0 == 0)
  | .brnz => branchIf (t.word 0 != 0)
  | .brhz => branchIf (right (t.word 0) == 0)
  | .brhnz => branchIf (right (t.word 0) != 0)
  | .bra => some (s.jump (absolute &&& LSLR))
  | .brasl => some ((s.result (RT insn) (preferred s.next.pc)).jump (absolute &&& LSLR))
  | .br => some (s.jump (relative &&& LSLR))
  | .brsl => some ((s.result (RT insn) (preferred s.next.pc)).jump (relative &&& LSLR))
  | .stqa => some (s.stores absolute (RT insn))
  | .stqr => some (s.stores relative (RT insn))
  | .lqa => some (s.result (RT insn) (load s.ls absolute))
  | .lqr => some (s.result (RT insn) (load s.ls relative))
  | .fsmbi => some (s.result (RT insn) ⟨fun k => allIf 8 ((I16 insn).getMsbD k)⟩)
  | .il => some (s.result (RT insn) (.ofWords fun _ => (I16 insn).signExtend 32))
  | .ilhu => some (s.result (RT insn) (.ofWords fun _ => I16 insn ++ 0#16))
  | .ilh => some (s.result (RT insn) (.ofHalves fun _ => I16 insn))
  | .iohl => some (s.result (RT insn) (.ofWords fun i => t.word i ||| (I16 insn).setWidth 32))

def ri10 (op : Ri10) (insn : BitVec 32) (s : Arch) : Option Arch :=
  let a := s.gpr (RA insn)
  let i32 := (I10 insn).signExtend 32
  let i16 := (I10 insn).signExtend 16
  let i8 := (I10 insn).setWidth 8
  let words := fun f => some (s.result (RT insn) (.ofWords fun i => f (a.word i)))
  let halves := fun f => some (s.result (RT insn) (.ofHalves fun i => f (a.half i)))
  let bytes := fun f => some (s.result (RT insn) ⟨fun i => f (a.u8 i)⟩)
  let ea := a.word 0 + (I10 insn ++ 0#4).signExtend 32
  match op with
  | .stqd => some (s.stores ea (RT insn))
  | .lqd => some (s.result (RT insn) (load s.ls ea))
  | .ai => words fun v => v + i32
  | .ahi => halves fun v => v + i16
  | .sfi => words fun v => i32 - v
  | .sfhi => halves fun v => i16 - v
  | .ori => words fun v => v ||| i32
  | .orhi => halves fun v => v ||| i16
  | .orbi => bytes fun v => v ||| i8
  | .andi => words fun v => v &&& i32
  | .andhi => halves fun v => v &&& i16
  | .andbi => bytes fun v => v &&& i8
  | .xori => words fun v => v ^^^ i32
  | .xorhi => halves fun v => v ^^^ i16
  | .xorbi => bytes fun v => v ^^^ i8
  | .cgti => words fun v => allIf 32 (i32.toInt < v.toInt)
  | .cgthi => halves fun v => allIf 16 (i16.toInt < v.toInt)
  | .cgtbi => bytes fun v => allIf 8 (i8.toInt < v.toInt)
  | .clgti => words fun v => allIf 32 (i32.toNat < v.toNat)
  | .clgthi => halves fun v => allIf 16 (i16.toNat < v.toNat)
  | .clgtbi => bytes fun v => allIf 8 (i8.toNat < v.toNat)
  | .ceqi => words fun v => allIf 32 (v = i32)
  | .ceqhi => halves fun v => allIf 16 (v = i16)
  | .ceqbi => bytes fun v => allIf 8 (v = i8)
  | .mpyi => words fun v => product (right v) i16
  | .mpyui => words fun v => productU (right v) i16
  | .hgti | .hlgti | .heqi => none

-- Element shift counts: the rotate-and-mask forms shift right by the negated count.
def rot (v : BitVec w) (n : BitVec m) : BitVec w := v.rotateLeft (n.toNat % w)
def rotm (v : BitVec w) (n : BitVec m) : BitVec w := v >>> ((-n).toNat % (2*w))
def rotma (v : BitVec w) (n : BitVec m) : BitVec w := v.sshiftRight ((-n).toNat % (2*w))
def shl (v : BitVec w) (n : BitVec m) : BitVec w := v <<< (n.toNat % (2*w))

def rr (op : Rr) (insn : BitVec 32) (event : Bool) (srr0 : BitVec 32) (s : Arch) : Option Arch :=
  let a := s.gpr (RA insn)
  let b := s.gpr (RB insn)
  let t := s.gpr (RT insn)
  let put := fun r => some (s.result (RT insn) r)
  let words := fun f => put (.ofWords fun i => f (a.word i) (b.word i))
  let halves := fun f => put (.ofHalves fun i => f (a.half i) (b.half i))
  let bytes := fun f => put ⟨fun i => f (a.u8 i) (b.u8 i)⟩
  let quad := fun f => put (.ofQuad (f a.quad b.quad))
  let count := (b.word 0).toNat
  let imm := (I7 insn).signExtend 32
  let target := a.word 0 &&& LSLR &&& 0xFFFFFFFC
  let branchIf := fun (taken : Bool) => some (if taken then s.jump target else s.next)
  match op with
  | .lqx => put (load s.ls (a.word 0 + b.word 0))
  | .stqx => some (s.stores (a.word 0 + b.word 0) (RT insn))
  | .a => words fun x y => x + y
  | .ah => halves fun x y => x + y
  | .sf => words fun x y => y - x
  | .sfh => halves fun x y => y - x
  | .cg => words fun x y => carry (x.toNat + y.toNat)
  | .bg => words fun x y => if x.toNat ≤ y.toNat then 1 else 0
  | .addx => put (.ofWords fun i => a.word i + b.word i + (t.word i &&& 1))
  | .sfx => put (.ofWords fun i => b.word i + ~~~a.word i + (t.word i &&& 1))
  | .cgx => put (.ofWords fun i => carry ((a.word i).toNat + (b.word i).toNat + (t.word i).toNat % 2))
  | .bgx => put (.ofWords fun i =>
      if (t.word i).getLsbD 0 then if (a.word i).toNat ≤ (b.word i).toNat then 1 else 0
      else if (a.word i).toNat < (b.word i).toNat then 1 else 0)
  | .absdb => bytes fun x y => if x.toNat < y.toNat then y - x else x - y
  | .avgb => bytes fun x y => BitVec.ofNat 8 ((x.toNat + y.toNat + 1)/2)
  | .sumb => put (.ofHalves fun h => byteSum (if h.val % 2 = 0 then b else a) (halfWord h))
  | .and => quad fun x y => x &&& y
  | .or => quad fun x y => x ||| y
  | .xor => quad fun x y => x ^^^ y
  | .nand => quad fun x y => ~~~(x &&& y)
  | .nor => quad fun x y => ~~~(x ||| y)
  | .andc => quad fun x y => x &&& ~~~y
  | .orc => quad fun x y => x ||| ~~~y
  | .eqv => quad fun x y => ~~~(x ^^^ y)
  | .orx => put (preferred (a.word 0 ||| a.word 1 ||| a.word 2 ||| a.word 3))
  | .ceq => words fun x y => allIf 32 (x = y)
  | .ceqh => halves fun x y => allIf 16 (x = y)
  | .ceqb => bytes fun x y => allIf 8 (x = y)
  | .cgt => words fun x y => allIf 32 (y.toInt < x.toInt)
  | .cgth => halves fun x y => allIf 16 (y.toInt < x.toInt)
  | .cgtb => bytes fun x y => allIf 8 (y.toInt < x.toInt)
  | .clgt => words fun x y => allIf 32 (y.toNat < x.toNat)
  | .clgth => halves fun x y => allIf 16 (y.toNat < x.toNat)
  | .clgtb => bytes fun x y => allIf 8 (y.toNat < x.toNat)
  | .mpy => words fun x y => product (right x) (right y)
  | .mpyu => words fun x y => productU (right x) (right y)
  | .mpyh => words fun x y => product (left x) (right y) <<< 16
  | .mpys => words fun x y => (left (product (right x) (right y))).signExtend 32
  | .mpyhh => words fun x y => product (left x) (left y)
  | .mpyhhu => words fun x y => productU (left x) (left y)
  | .mpyhha => put (.ofWords fun i => t.word i + product (left (a.word i)) (left (b.word i)))
  | .mpyhhau => put (.ofWords fun i => t.word i + productU (left (a.word i)) (left (b.word i)))
  | .rot => words rot
  | .rotm => words rotm
  | .rotma => words rotma
  | .shl => words shl
  | .roth => halves rot
  | .rothm => halves rotm
  | .rotmah => halves rotma
  | .shlh => halves shl
  | .roti => words fun x _ => rot x imm
  | .rotmi => words fun x _ => rotm x imm
  | .rotmai => words fun x _ => rotma x imm
  | .shli => words fun x _ => shl x imm
  | .rothi => halves fun x _ => rot x imm
  | .rothmi => halves fun x _ => rotm x imm
  | .rotmahi => halves fun x _ => rotma x imm
  | .shlhi => halves fun x _ => shl x imm
  | .rotqbi => quad fun x _ => x.rotateLeft (count % 8)
  | .rotqmbi => quad fun x _ => x >>> ((-b.word 0).toNat % 8)
  | .shlqbi => quad fun x _ => x <<< (count % 8)
  | .rotqby => quad fun x _ => x.rotateLeft (8*(count % 16))
  | .rotqmby => quad fun x _ => x >>> (8*((-b.word 0).toNat % 32))
  | .shlqby => quad fun x _ => x <<< (8*(count % 32))
  | .rotqbybi => quad fun x _ => x.rotateLeft (8*(count/8 % 16))
  | .rotqmbybi => quad fun x _ => x >>> (8*((32 - count/8 % 32) % 32))
  | .shlqbybi => quad fun x _ => x <<< (8*(count/8 % 32))
  | .rotqbii => quad fun x _ => x.rotateLeft (imm.toNat % 8)
  | .rotqmbii => quad fun x _ => x >>> ((-imm).toNat % 8)
  | .shlqbii => quad fun x _ => x <<< (imm.toNat % 8)
  | .rotqbyi => quad fun x _ => x.rotateLeft (8*(imm.toNat % 16))
  | .rotqmbyi => quad fun x _ => x >>> (8*((-imm).toNat % 32))
  | .shlqbyi => quad fun x _ => x <<< (8*(imm.toNat % 32))
  | .clz => words fun x _ => x.clz
  | .cntb => bytes fun x _ => x.cpop
  | .xsbh => put (.ofHalves fun i => ((a.half i).setWidth 8).signExtend 16)
  | .xshw => words fun x _ => (right x).signExtend 32
  | .xswd => put (.ofQuad ((a.word 1).signExtend 64 ++ (a.word 3).signExtend 64))
  | .gb => put (preferred (gather 4 fun i => (a.word i).getLsbD 0))
  | .gbh => put (preferred (gather 8 fun i => (a.half i).getLsbD 0))
  | .gbb => put (preferred (gather 16 fun i => (a.u8 i).getLsbD 0))
  | .fsm => put (.ofWords fun i => allIf 32 ((a.word 0).getMsbD (28+i)))
  | .fsmh => put (.ofHalves fun i => allIf 16 ((a.word 0).getMsbD (24+i)))
  | .fsmb => put ⟨fun i => allIf 8 ((a.word 0).getMsbD (16+i))⟩
  | .bi => some (s.jump target)
  | .bisl => some ((s.result (RT insn) (preferred s.next.pc)).jump target)
  | .bisled =>
      let linked := s.result (RT insn) (preferred s.next.pc)
      some (if event then linked.jump target else linked)
  | .iret => some (s.jump srr0)
  | .biz => branchIf (t.word 0 == 0)
  | .binz => branchIf (t.word 0 != 0)
  | .bihz => branchIf (right (t.word 0) == 0)
  | .bihnz => branchIf (right (t.word 0) != 0)
  | .hbr => some s.next
  | _ => none

-- `event`: an external event is pending. `srr0`: the interrupt return address.
def exec (op : SpuOp) (insn : BitVec 32) (event : Bool) (srr0 : BitVec 32) (s : Arch) : Option Arch :=
  match op with
  | .rrr op => rrr op insn s
  | .ri18 op => ri18 op insn s
  | .ri16 op => ri16 op insn s
  | .ri10 op => ri10 op insn s
  | .rr op => rr op insn event srr0 s
  | .chan _ | .unknown => none

end BudokaiRuntime.Spu.Isa
