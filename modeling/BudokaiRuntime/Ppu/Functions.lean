import BudokaiRuntime.Ppu.Context

-- The hand-lifted functions that make their own stack frame.
namespace BudokaiRuntime.Ppu
open Guest Programs

section Bodies
variable {ω : Type} (env : Env ω) (fuel : Nat)

-- One object initialised from gpr[31], in three copies in the source.
def clear_object : List Insn :=
  [.stb 30 31 0x5D0,.stb 30 31 0x5D1,.stb 30 31 0x5D6,.stb 30 31 0x5D2,.stb 30 31 0x5D3,.stb 30 31 0x5D4,
    .stb 30 31 0x5D5,.stb 29 31 0x5D7,.stb 30 31 0x5D8,.stb 30 31 0x5F8,.std 2 1 0x28,.call .func_000F109C,
    .ld 2 1 0x28]

def func_000393D4 : PpuState ω → Option (PpuState ω) := block [
  straight env fuel [.stdu (-0x90),.mflr 0,.std 0 1 0xA0,.lis 3 0x29,.std 31 1 0x88,.li 4 0,.addi 31 3 (-27248),
    .li 5 0x5B0,.std 30 1 0x80,.std 29 1 0x78,.addi 3 31 0x18,.call .func_000D5654,.li 30 0,.li 29 1,.li 3 1,
    .stw 30 31 0x5C8,.stw 30 31 0x5CC],
  straight env fuel clear_object,
  straight env fuel [.lis 3 0x29,.li 4 0,.addi 31 3 (-25712),.li 5 0x5B0,.addi 3 31 0x18,.call .func_000D5654,
    .stw 30 31 0x5C8,.li 3 1,.stw 30 31 0x5CC],
  straight env fuel clear_object,
  straight env fuel [.lis 3 0x29,.li 4 0,.addi 31 3 (-24176),.li 5 0x5B0,.addi 3 31 0x18,.call .func_000D5654,
    .stw 30 31 0x5C8,.li 3 1,.stw 30 31 0x5CC],
  straight env fuel clear_object,
  straight env fuel [.lis 31 0x29,.addi 31 31 (-22464)],
  do_while (straight env fuel [.clrldi 3 31,.call .func_00039540,.addi 30 30 1,.addi 31 31 0x90,.cmpwi 28 30 0xE])
    (·.lt 28) fuel,
  straight env fuel [.ld 0 1 0xA0,.mtlr 0,.ld 29 1 0x78,.ld 30 1 0x80,.ld 31 1 0x88,.addi 1 1 0x90]]

def func_00033A54 : PpuState ω → Option (PpuState ω) :=
  straight env fuel [.stdu (-0x70),.mflr 0,.std 0 1 0x80,.lis 4 0x28,.li 5 0,.addi 6 4 (-1872),.lis 3 0x28,
    .addi 3 3 (-1864),.stb 5 4 (-0x750),.stw 5 6 4,.call .func_00032C08,.lis 3 0x28,.addi 3 3 0x396C,
    .call .func_00032C08,.ld 0 1 0x80,.mtlr 0,.addi 1 1 0x70]

-- One slot of the table at gpr[31]: called unless its flag, its function or its argument is 0.
def slot_E77A8 : PpuState ω → Option (PpuState ω) := block [
  straight env fuel [.clrldi 9 31,.addi 31 31 8,.lbz 0 9 0,.cmpwi 0 0 0],
  when_ (!·.eq 0) (block [
    straight env fuel [.lwz 0 9 4,.clrldi 3 30,.cmpwi 0 0 0],
    when_ (!·.eq 0) (block [
      straight env fuel [.clrldi 9 0,.lwz 0 3 0,.cmpwi 0 0 0,.clrldi 3 0],
      when_ (!·.eq 0) (straight env fuel [.lwz 0 9 0,.std 2 1 0x28,.mtctr 0,.lwz 2 9 4,.call .ps3_indirect_call,
        .ld 2 1 0x28])])]),
  straight env fuel [.addi 0 29 0x50,.addi 30 30 4,.cmpw 0 31 0]]

def node_E77A0 : PpuState ω → Option (PpuState ω) := block [
  straight env fuel [.addi 30 28 0x10,.addi 31 29 0x30],
  do_while (slot_E77A8 env fuel) (!·.eq 0) fuel,
  straight env fuel [.clrldi 9 28,.mr 3 9,.lwz 31 9 0,.call .func_000D90FC,.cmpwi 0 31 0],
  when_ (!·.eq 0) (straight env fuel [.mr 28 31])]

def func_000E775C : PpuState ω → Option (PpuState ω) := block [
  straight env fuel [.stdu (-0x90),.mflr 0,.std 29 1 0x78,.lwz 29 2 (-0x5B50),.li 4 0,.std 28 1 0x70,.addi 3 29 0x18,
    .std 30 1 0x80,.std 31 1 0x88,.std 0 1 0xA0,.call .func_000F1E7C,.ld 2 1 0x28,.cmpwi 0 3 0],
  when_ (·.eq 0) (block [
    straight env fuel [.lwz 28 29 0x78,.cmpwi 0 28 0],
    when_ (!·.eq 0) (do_while (node_E77A0 env fuel) (!·.eq 0) fuel),
    straight env fuel [.li 0 0,.addi 3 29 0x18,.stw 0 29 0x78,.call .func_000F1E9C,.ld 2 1 0x28]]),
  straight env fuel [.ld 0 1 0xA0,.ld 28 1 0x70,.ld 29 1 0x78,.mtlr 0,.ld 30 1 0x80,.ld 31 1 0x88,.addi 1 1 0x90]]

def func_0003937C : PpuState ω → Option (PpuState ω) := block [
  straight env fuel [.stdu (-0x80),.mflr 0,.std 0 1 0x90,.std 30 1 0x70,.lis 3 0x29,.std 31 1 0x78,.li 30 0xD,
    .addi 31 3 (-22464),.addi 31 31 0x750],
  do_while (straight env fuel [.clrldi 3 31,.call .func_0003959C,.addi 30 30 (-1),.addi 31 31 (-144),.cmpwi 28 30 0])
    (!·.lt 28) fuel,
  straight env fuel [.ld 0 1 0x90,.mtlr 0,.ld 30 1 0x70,.ld 31 1 0x78,.addi 1 1 0x80]]

-- The lwarx/stwcx. loop that lowers the word at gpr[base], its result read into gpr[word].
def decrement_loop (word base dec : Fin 32) : PpuState ω → Option (PpuState ω) :=
  do_while (straight env fuel [.lwarx word 0 base,.add 0 dec word,.stwcx 0 0 base]) (!·.eq 28) fuel

-- Both calls of the object at gpr[ptr]: entry `d` of its vtable.
def virtual_call (ptr : Fin 32) (d : BitVec 64) : List Insn :=
  [.lwz 4 ptr 0,.ori 3 ptr 0,.std 2 1 0x28,.lwz 4 4 d,.lwz 5 4 0,.lwz 2 4 4,.mtctr 5,.call .ps3_indirect_call]

-- The object at gpr[ptr] loses one reference; written out once for each pointer in the source.
def release (ptr dec : Fin 32) : PpuState ω → Option (PpuState ω) := block [
  straight env fuel [.cmpwi 28 ptr 0],
  when_ (!·.eq 28) (block [
    straight env fuel [.lis 3 0xFFFF,.addi 4 ptr 4,.ori 3 3 0xFFFF,.clrldi 4 4,.clrldi dec 3],
    decrement_loop env fuel 3 4 dec,
    straight env fuel [.cmpwi 28 3 1],
    when_ (·.eq 28) (block [
      straight env fuel (virtual_call ptr 0x8),
      straight env fuel [.addi 3 ptr 8,.ld 2 1 0x28,.clrldi 3 3],
      decrement_loop env fuel 4 3 dec,
      straight env fuel [.cmpwi 28 4 1],
      when_ (·.eq 28) (block [straight env fuel (virtual_call ptr 0xC),straight env fuel [.ld 2 1 0x28]])])])]

def func_0003B124 : PpuState ω → Option (PpuState ω) := block [
  straight env fuel [.stdu (-0x80),.mflr 0,.std 0 1 0x90,.std 30 1 0x70,.lis 3 0x29,.addi 30 3 (-20344),.lwz 30 30 4,
    .std 31 1 0x78],
  release env fuel 30 31,
  straight env fuel [.ld 0 1 0x90,.mtlr 0,.ld 30 1 0x70,.ld 31 1 0x78,.addi 1 1 0x80]]

def func_00027110 : PpuState ω → Option (PpuState ω) := block [
  straight env fuel [.stdu (-0x90),.mflr 0,.std 0 1 0xA0,.std 31 1 0x88,.lis 31 0x28,.std 29 1 0x78,
    .addi 31 31 (-2060),.lwz 29 31 0x34,.std 30 1 0x80],
  release env fuel 29 30,
  straight env fuel [.lwz 29 31 0x2C],
  release env fuel 29 30,
  straight env fuel [.lwz 29 31 0x24],
  release env fuel 29 30,
  straight env fuel [.lwz 29 31 0x1C],
  release env fuel 29 30,
  straight env fuel [.lwz 29 31 0x14],
  release env fuel 29 30,
  straight env fuel [.lwz 29 31 0xC],
  release env fuel 29 30,
  straight env fuel [.lwz 31 31 4],
  release env fuel 31 30,
  straight env fuel [.ld 0 1 0xA0,.mtlr 0,.ld 29 1 0x78,.ld 30 1 0x80,.ld 31 1 0x88,.addi 1 1 0x90]]

-- gpr[31] is overwritten here and saved nowhere.
def func_000EFEC0 : PpuState ω → Option (PpuState ω) := block [
  straight env fuel [.stdu (-0x80)],
  fun s => some (s.set 31 ((vm_read32 s.mem.vm ((low32 (s.gpr 3) + 0xC).setWidth 64)).setWidth 64)),
  fun s => if low32 (s.gpr 31) = 0 then straight env fuel [.addi 1 1 0x80,.li 3 0] s
    else straight env fuel [.mr 3 31,.addi 1 1 0x80,.li 3 0] s]

def func_000EB354 : PpuState ω → Option (PpuState ω) := block [
  straight env fuel [.stdu (-0x70)],
  fun s => if low32 (s.gpr 3) = 0 then straight env fuel [.addi 1 1 0x70,.li 3 0] s
    else straight env fuel [.addi 1 1 0x70,.li 3 0] s]
end Bodies

end BudokaiRuntime.Ppu
