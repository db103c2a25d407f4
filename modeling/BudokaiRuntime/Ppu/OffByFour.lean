import Mathlib.Algebra.Order.Ring.Nat
import BudokaiRuntime.Foundations.ConditionalLines

-- _fix_offby4.py: stubs of functions whose stdu the lifter dropped become wrappers that make
-- the frame and call the body, four bytes on, behind a flag.
namespace BudokaiRuntime.Ppu.OffByFour
open ConditionalLines

-- struct.unpack_from of one big-endian field: `none` is the exception behind the file's end.
def unpack_from (data : List (BitVec 8)) (size off : Nat) : Option Nat :=
  if off + size ≤ data.length then some (((data.drop off).take size).foldl (fun v b => 256*v + b.toNat) 0) else none

structure Seg where
  po : Nat
  pv : Nat
  pf : Nat

def load_segs (data : List (BitVec 8)) : Option (List Seg) := do
  let e_phoff ← unpack_from data 8 0x20
  let e_phnum ← unpack_from data 2 0x38
  let e_phentsize ← unpack_from data 2 0x36
  (List.range e_phnum).foldlM (fun segs i => do
    let ph := e_phoff + i*e_phentsize
    if (← unpack_from data 4 ph) = 1 then
      return segs ++ [⟨← unpack_from data 8 (ph+0x08),← unpack_from data 8 (ph+0x10),← unpack_from data 8 (ph+0x20)⟩]
    else return segs) []

structure Eboot where
  data : List (BitVec 8)
  segs : List Seg

def Eboot.read (data : List (BitVec 8)) : Option Eboot := (load_segs data).map (⟨data,·⟩)

-- `some none`: no segment holds the address.
def Eboot.insn (elf : Eboot) (va : Nat) : Option (Option (BitVec 32)) :=
  match elf.segs.find? fun s => s.pv ≤ va && va < s.pv + s.pf with
  | none => some none
  | some s => (unpack_from elf.data 4 (s.po + (va - s.pv))).map fun w => some (BitVec.ofNat 32 w)

def displacement (d : BitVec 32) : Int := if d &&& 0x8000 ≠ 0 then d.toNat - 0x10000 else d.toNat

def frame_size (w : BitVec 32) : Option Int :=
  if (w >>> 21) &&& 0x1F ≠ 1 ∨ (w >>> 16) &&& 0x1F ≠ 1 then none
  else if w >>> 26 = 37 then some (-displacement (w &&& 0xFFFF))
  else if w >>> 26 = 62 ∧ w &&& 3 = 1 then some (-displacement (w &&& 0xFFFC))
  else none

def MFLR : BitVec 32 := 0x7C0802A6
def DENY : List Nat := [0x1241C]

def hexDigit (c : Char) : Bool :=
  ('0' ≤ c && c ≤ '9') || ('A' ≤ c && c ≤ 'F') || ('a' ≤ c && c ≤ 'f')

def hexValue (c : Char) : Nat :=
  if c ≤ '9' then c.toNat - 48 else if c ≤ 'F' then c.toNat - 55 else c.toNat - 87

-- `int(digits, 16)`
def int16 (digits : Line) : Nat := digits.foldl (fun v c => 16*v + hexValue c) 0

def upper (n : Nat) : Char := if n < 10 then Char.ofNat (48+n) else Char.ofNat (55+n)

def digitsOf : Nat → Nat → Line
  | 0,_ => []
  | fuel+1,n => if n < 16 then [upper n] else digitsOf fuel (n/16) ++ [upper (n%16)]

def hex (width n : Nat) : Line := (digitsOf (n+1) n).leftpad width '0'

def hexInt (n : Int) : Line := if n < 0 then '-'::hex 1 n.natAbs else hex 1 n.natAbs

-- A match of stub_re.
structure Stub where
  indent : Line
  static : Bool
  digits : Line
deriving DecidableEq

def Stub.pfx (st : Stub) : Line := if st.static then "static ".toList else []
def Stub.addr (st : Stub) : Nat := int16 st.digits

def stub_tail : Line := "(ppu_context* ctx) \x7b ctx->gpr[3] = 0; \x7d".toList

def stub_name (line : Line) : Bool × Line :=
  match line.dropPrefix? "static ".toList with
  | some rest => (true,rest)
  | none => (false,line)

def stub_re (line : Line) : Option Stub :=
  let named := stub_name (line.dropWhile blank)
  (named.2.dropPrefix? "void func_000".toList).bind fun rest =>
    let digits := rest.takeWhile hexDigit
    if digits.length = 5 ∨ digits.length = 6 then
      ((rest.dropWhile hexDigit).dropPrefix? stub_tail).bind fun trail =>
        if trail.all blank then some ⟨line.takeWhile blank,named.1,digits⟩ else none
    else none

def mention (text : Line) : Option Nat :=
  (text.dropPrefix? "func_000".toList).bind fun rest =>
    let digits := rest.takeWhile hexDigit
    if (digits.length = 5 ∨ digits.length = 6) ∧ "(ppu_context".toList.isPrefixOf (rest.dropWhile hexDigit) then
      some (int16 digits)
    else none

def defined (text : List Line) : List Nat := text.flatMap fun line => line.tails.filterMap mention

-- `none`: an exception; `some none`: the stub stays.
def wraps (elf : Eboot) (defined : List Nat) (a : Nat) : Option (Option Int) :=
  if a+4 ∉ defined ∨ a ∈ DENY then some none
  else (elf.insn a).bind fun w => w.bind fun w =>
    match frame_size w with
    | none => some none
    | some sz => (elf.insn (a+4)).map fun next => if next = some MFLR then some sz else none

section Wrapper
variable (st : Stub) (sz : Int)

def head_line : Line :=
  st.indent ++ (st.pfx ++ ("void func_000".toList ++ (hex 5 st.addr ++ "(ppu_context* ctx) \x7b".toList)))

def frame_line : Line :=
  st.indent ++ ("    vm_write64(ctx->gpr[1] - 0x".toList ++ (hexInt sz ++ (", ctx->gpr[1]); ctx->gpr[1] -= 0x".toList ++
    (hexInt sz ++ ("; func_000".toList ++ (hex 5 (st.addr+4) ++ "(ctx);".toList))))))

def drain_line : Line := st.indent ++
  "    while (g_trampoline_fn) \x7b void(*_tf)(void*)=g_trampoline_fn; g_trampoline_fn=nullptr; _tf((void*)ctx); \x7d".toList

def zero_line : Line := st.indent ++ "    ctx->gpr[3] = 0;".toList
def end_line : Line := st.indent ++ "\x7d".toList

def wrapper : List Line :=
  [head_line st,st.indent ++ "#ifdef GAMEWORLD_REAL_INIT".toList,frame_line st sz,drain_line st,
    st.indent ++ "#else".toList,zero_line st,st.indent ++ "#endif".toList,end_line st]
end Wrapper

def repl (elf : Eboot) (defined : List Nat) (line : Line) : Option (List Line) :=
  match stub_re line with
  | none => some [line]
  | some st => (wraps elf defined st.addr).map fun
      | none => [line]
      | some sz => wrapper st sz

def fix_offby4 (data : List (BitVec 8)) (text : List Line) : Option (List Line) := do
  let elf ← Eboot.read data
  return (← text.mapM (repl elf (defined text))).flatten

-- stwu r1,d(r1) and stdu r1,d(r1), as the architecture encodes them.
inductive Prologue where
  | stwu (d : Int)
  | stdu (d : Int)

def Prologue.d : Prologue → Int
  | .stwu d | .stdu d => d

def Prologue.Fits : Prologue → Prop
  | .stwu d => -0x8000 ≤ d ∧ d < 0x8000
  | .stdu d => -0x8000 ≤ d ∧ d < 0x8000 ∧ d % 4 = 0

def Prologue.word : Prologue → BitVec 32
  | .stwu d => BitVec.ofNat 32 (37*2^26 + 1*2^21 + 1*2^16 + (d % 0x10000).toNat)
  | .stdu d => BitVec.ofNat 32 (62*2^26 + 1*2^21 + 1*2^16 + (d % 0x10000).toNat + 1)

section Decoding
variable (w : BitVec 32)

theorem field_toNat (sh k : Nat) (small : k < 32) :
    ((w >>> sh) &&& BitVec.ofNat 32 (2^k-1)).toNat = w.toNat / 2^sh % 2^k := by
  have bound : 2^k < 2^32 := Nat.pow_lt_pow_right (by decide) small
  rw [BitVec.toNat_and,BitVec.toNat_ushiftRight,BitVec.toNat_ofNat,Nat.mod_eq_of_lt (by omega),
    Nat.and_two_pow_sub_one_eq_mod,Nat.shiftRight_eq_div_pow]

theorem field_one (sh k : Nat) (small : k < 32) :
    (w >>> sh) &&& BitVec.ofNat 32 (2^k-1) = 1 ↔ w.toNat / 2^sh % 2^k = 1 := by
  rw [← field_toNat w sh k small]
  exact ⟨fun same => same ▸ rfl,fun same => BitVec.eq_of_toNat_eq same⟩

theorem opcode_iff (op : Nat) (small : op < 64) : w >>> 26 = BitVec.ofNat 32 op ↔ w.toNat / 2^26 = op := by
  rw [← BitVec.toNat_inj,BitVec.toNat_ushiftRight,BitVec.toNat_ofNat,Nat.shiftRight_eq_div_pow,
    Nat.mod_eq_of_lt (show op < 2^32 by omega)]

theorem aligned_toNat : (w &&& 0xFFFC).toNat = w.toNat / 4 % 2^14 * 4 := by
  have mask : (0xFFFC : Nat) = (2^14-1) * 2^2 := rfl
  rw [BitVec.toNat_and,show (0xFFFC : BitVec 32).toNat = 0xFFFC from rfl]
  refine Nat.eq_of_testBit_eq fun i => ?_
  rw [show w.toNat / 4 % 2^14 * 4 = w.toNat / 2^2 % 2^14 * 2^2 from rfl,mask,Nat.testBit_and,Nat.testBit_mul_two_pow,
    Nat.testBit_mul_two_pow,Nat.testBit_two_pow_sub_one,Nat.testBit_mod_two_pow,Nat.testBit_div_two_pow]
  by_cases high : 2 ≤ i
  · rw [show i-2+2 = i by omega,Bool.and_comm (Nat.testBit _ _),Bool.and_assoc]
  · simp [high]

theorem displacement_eq (d : BitVec 32) (small : d.toNat < 0x10000) :
    displacement d = if d.toNat < 0x8000 then (d.toNat : Int) else d.toNat - 0x10000 := by
  have sign : d &&& 0x8000 ≠ 0 ↔ ¬ d.toNat < 0x8000 := by
    have mask : (0x8000 : BitVec 32) = BitVec.twoPow 32 15 := rfl
    have bit : d.getLsbD 15 = decide (¬ d.toNat < 0x8000) := by
      rw [BitVec.getLsbD,Nat.testBit_eq_decide_div_mod_eq,decide_eq_decide]
      omega
    rw [mask,BitVec.and_twoPow,bit]
    by_cases low : d.toNat < 0x8000
    · simp [low]
    · rw [if_pos (decide_eq_true low)]
      exact iff_of_true (by decide) low
  unfold displacement
  by_cases low : d.toNat < 0x8000
  · rw [if_neg (fun set => sign.mp set low),if_pos low]
  · rw [if_pos (sign.mpr low),if_neg low]

theorem stwu_displacement : displacement (w &&& 0xFFFF) =
    if w.toNat % 0x10000 < 0x8000 then ((w.toNat % 0x10000 : Nat) : Int) else (w.toNat % 0x10000 : Nat) - 0x10000 := by
  have low : (w &&& 0xFFFF).toNat = w.toNat % 0x10000 := by
    have field := field_toNat w 0 16 (by decide)
    rw [BitVec.ushiftRight_zero,Nat.pow_zero,Nat.div_one] at field
    exact field
  rw [displacement_eq _ (low ▸ Nat.mod_lt _ (by decide)),low]

theorem stdu_displacement : displacement (w &&& 0xFFFC) =
    if w.toNat / 4 % 2^14 * 4 < 0x8000 then ((w.toNat / 4 % 2^14 * 4 : Nat) : Int)
    else (w.toNat / 4 % 2^14 * 4 : Nat) - 0x10000 := by
  have low := aligned_toNat w
  rw [displacement_eq _ (by rw [low]; omega),low]

theorem frame_size_fields : frame_size w =
    if ¬ w.toNat / 2^21 % 2^5 = 1 ∨ ¬ w.toNat / 2^16 % 2^5 = 1 then none
    else if w.toNat / 2^26 = 37 then some (-displacement (w &&& 0xFFFF))
    else if w.toNat / 2^26 = 62 ∧ w.toNat % 2^2 = 1 then some (-displacement (w &&& 0xFFFC))
    else none := by
  have rs : (w >>> 21) &&& 0x1F = 1 ↔ w.toNat / 2^21 % 2^5 = 1 := field_one w 21 5 (by decide)
  have ra : (w >>> 16) &&& 0x1F = 1 ↔ w.toNat / 2^16 % 2^5 = 1 := field_one w 16 5 (by decide)
  have xo : w &&& 3 = 1 ↔ w.toNat % 2^2 = 1 := by
    have field := field_one w 0 2 (by decide)
    rwa [BitVec.ushiftRight_zero,Nat.pow_zero,Nat.div_one] at field
  have stwu : w >>> 26 = 37 ↔ w.toNat / 2^26 = 37 := opcode_iff w 37 (by decide)
  have stdu : w >>> 26 = 62 ↔ w.toNat / 2^26 = 62 := opcode_iff w 62 (by decide)
  simp only [frame_size,Ne,rs,ra,xo,stwu,stdu]

theorem frame_size_reads {sz : Int} (size : frame_size w = some sz) :
    ∃ p : Prologue, p.Fits ∧ w = p.word ∧ sz = -p.d := by
  have bound := w.isLt
  have short := stwu_displacement w
  have long := stdu_displacement w
  rw [frame_size_fields] at size
  split at size
  · cases size
  · split at size
    · cases size
      refine ⟨.stwu (displacement (w &&& 0xFFFF)),?_,BitVec.eq_of_toNat_eq ?_,rfl⟩
      · rw [Prologue.Fits,short]
        split <;> omega
      · rw [Prologue.word,BitVec.toNat_ofNat,short]
        split <;> omega
    · split at size
      · cases size
        refine ⟨.stdu (displacement (w &&& 0xFFFC)),?_,BitVec.eq_of_toNat_eq ?_,rfl⟩
        · rw [Prologue.Fits,long]
          split <;> omega
        · rw [Prologue.word,BitVec.toNat_ofNat,long]
          split <;> omega
      · cases size

theorem frame_size_word (p : Prologue) (fits : p.Fits) : frame_size p.word = some (-p.d) := by
  have short := stwu_displacement p.word
  have long := stdu_displacement p.word
  rw [frame_size_fields]
  cases p with
  | stwu d =>
      have value : (Prologue.stwu d).word.toNat = _ := BitVec.toNat_ofNat ..
      obtain ⟨low,high⟩ := fits
      rw [if_neg (by omega),if_pos (by omega),short]
      refine congrArg (fun d => some (-d)) ?_
      show _ = d
      split <;> omega
  | stdu d =>
      have value : (Prologue.stdu d).word.toNat = _ := BitVec.toNat_ofNat ..
      obtain ⟨low,high,aligned⟩ := fits
      rw [if_neg (by omega),if_neg (by omega),if_pos (by omega),long]
      refine congrArg (fun d => some (-d)) ?_
      show _ = d
      split <;> omega

-- The script reads frames off exactly these two instructions.
theorem frame_size_iff (sz : Int) : frame_size w = some sz ↔ ∃ p : Prologue, p.Fits ∧ w = p.word ∧ sz = -p.d := by
  constructor
  · exact frame_size_reads w
  · rintro ⟨p,fits,rfl,rfl⟩
    exact frame_size_word p fits
end Decoding

section Matching
variable {line : Line} {st : Stub}

theorem drop_some {lit rest : Line} : line.dropPrefix? lit = some rest ↔ line = lit ++ rest := by
  rw [List.dropPrefix?_eq_some_iff]
  constructor
  · rintro ⟨same,split_,equal⟩
    rw [split_,eq_of_beq equal]
  · exact fun split_ => ⟨lit,split_,BEq.rfl⟩

theorem stub_name_eq (line : Line) : line = (if (stub_name line).1 then "static ".toList else []) ++ (stub_name line).2 := by
  unfold stub_name
  split
  · rename_i rest found
    exact drop_some.mp found
  · rfl

theorem stub_re_some (found : stub_re line = some st) : ∃ trail,
    line = st.indent ++ (st.pfx ++ ("void func_000".toList ++ (st.digits ++ (stub_tail ++ trail)))) ∧
      st.indent.all blank = true ∧ trail.all blank = true ∧ st.digits.all hexDigit = true := by
  obtain ⟨rest,start,found⟩ := Option.bind_eq_some_iff.mp found
  dsimp only at found
  split at found
  · obtain ⟨trail,tail,found⟩ := Option.bind_eq_some_iff.mp found
    split at found
    · rename_i space
      cases found
      refine ⟨trail,?_,List.all_takeWhile,space,List.all_takeWhile⟩
      have indented := List.takeWhile_append_dropWhile (p:=blank) (l:=line)
      have digits := List.takeWhile_append_dropWhile (p:=hexDigit) (l:=rest)
      rw [drop_some.mp tail] at digits
      have named := stub_name_eq (line.dropWhile blank)
      rw [drop_some.mp start,← digits] at named
      exact indented.symm.trans (congrArg (line.takeWhile blank ++ ·) named)
    · cases found
  · cases found

theorem stub_plain (found : stub_re line = some st) : kind line = .plain := by
  obtain ⟨trail,rfl,space,_⟩ := stub_re_some found
  rw [kind_indent space,Stub.pfx]
  cases st.static <;> rfl

theorem stub_indent (found : stub_re line = some st) : st.indent.all blank = true := by
  obtain ⟨_,_,space,_⟩ := stub_re_some found
  exact space
end Matching

def FLAG : Cond := .isDefined "GAMEWORLD_REAL_INIT".toList

def decided (st : Stub) (sz : Int) (on : Bool) : List Line :=
  head_line st::((if on then [frame_line st sz,drain_line st] else [zero_line st]) ++ [end_line st])

section Wrappers
variable {σ : Type} {macros : Macros σ} {st : Stub} {s : State σ}

theorem wrapper_run (space : st.indent.all blank = true) (sz : Int) :
    run macros (wrapper st sz) s = some (s.emit (decided st sz (macros.test s.env FLAG))) := by
  have head : kind (head_line st) = .plain := by
    rw [head_line,kind_indent space,Stub.pfx]
    cases st.static <;> rfl
  have last : kind (end_line st) = .plain := by
    rw [end_line,kind_indent space]
    rfl
  have opens : kind (st.indent ++ "#ifdef GAMEWORLD_REAL_INIT".toList) = .opens FLAG := by
    rw [kind_indent space]
    rfl
  have otherwise : kind (st.indent ++ "#else".toList) = .otherwise := by
    rw [kind_indent space]
    rfl
  have closes : kind (st.indent ++ "#endif".toList) = .closes := by
    rw [kind_indent space]
    rfl
  have framed : ∀ line ∈ [frame_line st sz,drain_line st], kind line = .plain := by
    intro line member
    rcases List.mem_pair.mp member with rfl | rfl
    · rw [frame_line,kind_indent space]
      rfl
    · rw [drain_line,kind_indent space]
      rfl
  have zeroed : ∀ line ∈ [zero_line st], kind line = .plain := by
    intro line member
    rw [List.mem_singleton.mp member,zero_line,kind_indent space]
    rfl
  have shape : wrapper st sz = head_line st::(((st.indent ++ "#ifdef GAMEWORLD_REAL_INIT".toList)::
      ([frame_line st sz,drain_line st] ++ (st.indent ++ "#else".toList)::([zero_line st] ++
        [st.indent ++ "#endif".toList]))) ++ [end_line st]) := rfl
  rw [shape,run_cons,plain_step head,Option.bind_some,run_append,conditional_run opens otherwise closes framed zeroed,
    Option.bind_some,run_cons,plain_step last,Option.bind_some,emit_env,emit_append,emit_append]
  rfl
end Wrappers

section Pass
variable {elf : Eboot} {known : List Nat} {line : Line}

def conversion (elf : Eboot) (known : List Nat) (line : Line) : Option (Stub × Int) :=
  (stub_re line).bind fun st => ((wraps elf known st.addr).bind id).map (st,·)

theorem wraps_iff (a : Nat) (sz : Int) : wraps elf known a = some (some sz) ↔
    a+4 ∈ known ∧ a ∉ DENY ∧ elf.insn (a+4) = some (some MFLR) ∧
      ∃ w, elf.insn a = some (some w) ∧ frame_size w = some sz := by
  unfold wraps
  constructor
  · intro wrapped
    split at wrapped
    · cases wrapped
    · rename_i allowed
      rw [not_or,not_not] at allowed
      obtain ⟨_,here,later⟩ := Option.bind_eq_some_iff.mp wrapped
      obtain ⟨w,rfl,sized⟩ := Option.bind_eq_some_iff.mp later
      split at sized
      · cases sized
      · rename_i size found
        obtain ⟨next,after,same⟩ := Option.map_eq_some_iff.mp sized
        split at same
        · rename_i mflr
          cases same
          exact ⟨allowed.1,allowed.2,mflr ▸ after,w,here,found⟩
        · cases same
  · rintro ⟨lifted,allowed,after,w,here,found⟩
    rw [if_neg (not_or.mpr ⟨not_not.mpr lifted,allowed⟩),here,Option.bind_some,Option.bind_some,found,after]
    rfl

-- Exactly the stubs whose function starts, in the executable, with a stwu or stdu of r1 and
-- an mflr, with the second of the two lifted; the frame is the instruction's.
theorem conversion_iff (st : Stub) (sz : Int) : conversion elf known line = some (st,sz) ↔
    stub_re line = some st ∧ st.addr+4 ∈ known ∧ st.addr ∉ DENY ∧ elf.insn (st.addr+4) = some (some MFLR) ∧
      ∃ p : Prologue, p.Fits ∧ elf.insn st.addr = some (some p.word) ∧ sz = -p.d := by
  have sized : (∃ w, elf.insn st.addr = some (some w) ∧ frame_size w = some sz) ↔
      ∃ p : Prologue, p.Fits ∧ elf.insn st.addr = some (some p.word) ∧ sz = -p.d := by
    constructor
    · rintro ⟨w,here,size⟩
      obtain ⟨p,fits,rfl,same⟩ := (frame_size_iff w sz).mp size
      exact ⟨p,fits,here,same⟩
    · rintro ⟨p,fits,here,same⟩
      exact ⟨_,here,(frame_size_iff _ sz).mpr ⟨p,fits,rfl,same⟩⟩
  rw [← sized,← wraps_iff]
  unfold conversion
  constructor
  · intro converts
    obtain ⟨st',found,later⟩ := Option.bind_eq_some_iff.mp converts
    obtain ⟨size,joined,same⟩ := Option.map_eq_some_iff.mp later
    cases same
    obtain ⟨wrapped,decision,rfl⟩ := Option.bind_eq_some_iff.mp joined
    exact ⟨found,decision⟩
  · rintro ⟨found,decision⟩
    rw [found,Option.bind_some,decision]
    rfl

theorem conversion_stub {st : Stub} {sz : Int} (converts : conversion elf known line = some (st,sz)) :
    stub_re line = some st := by
  obtain ⟨st',found,later⟩ := Option.bind_eq_some_iff.mp converts
  obtain ⟨_,_,same⟩ := Option.map_eq_some_iff.mp later
  cases same
  exact found

def converted (elf : Eboot) (known : List Nat) (line : Line) : List Line :=
  match conversion elf known line with
  | some (st,sz) => wrapper st sz
  | none => [line]

def recompiled (elf : Eboot) (known : List Nat) (on : Bool) (line : Line) : List Line :=
  match conversion elf known line with
  | some (st,sz) => decided st sz on
  | none => [line]

theorem repl_converted (done : repl elf known line = some new) : new = converted elf known line := by
  unfold repl at done
  unfold converted conversion
  cases found : stub_re line with
  | none =>
      rw [found] at done
      exact (Option.some.inj done).symm
  | some st =>
      rw [found] at done
      obtain ⟨wrapped,decision,same⟩ := Option.map_eq_some_iff.mp done
      rw [Option.bind_some,decision]
      cases wrapped with
      | none => exact same.symm
      | some sz => exact same.symm

theorem mapM_converted {text : List Line} {blocks : List (List Line)}
    (done : text.mapM (repl elf known) = some blocks) : blocks.flatten = text.flatMap (converted elf known) := by
  induction text generalizing blocks with
  | nil =>
      cases done
      rfl
  | cons line text ih =>
      rw [List.mapM_cons] at done
      obtain ⟨new,one,later⟩ := Option.bind_eq_some_iff.mp done
      obtain ⟨rest,two,same⟩ := Option.bind_eq_some_iff.mp later
      cases same
      rw [List.flatten_cons,List.flatMap_cons,ih two,repl_converted one]

theorem converted_run {σ : Type} {macros : Macros σ} {on : Bool} (decides : ∀ env, macros.test env FLAG = on) (s : State σ) :
    run macros (converted elf known line) (s.map (recompiled elf known on)) =
      (step macros s line).map (State.map (recompiled elf known on)) := by
  cases converts : conversion elf known line with
  | none =>
      have kept : converted elf known line = [line] := by rw [converted,converts]
      rw [kept]
      refine keeps_line (fun _ => ?_) s
      rw [recompiled,converts]
  | some found =>
      obtain ⟨st,sz⟩ := found
      have stub := conversion_stub converts
      have new : converted elf known line = wrapper st sz := by rw [converted,converts]
      have left : recompiled elf known on line = decided st sz on := by rw [recompiled,converts]
      rw [new,wrapper_run (stub_indent stub),decides,plain_step (stub_plain stub),Option.map_some,map_emit,
        List.flatMap_singleton,left]
end Pass

section Spelling
variable {line : Line} {st : Stub}

theorem words_nil : words [] = [] := rfl

def nameWord (digits : Line) : Line := "func_000".toList ++ (digits ++ "(ppu_context*".toList)

def openWords (pfx digits : Line) : List (List Char) := words pfx ++ (words "void".toList ++ words (nameWord digits))

theorem header_split (v f p d rest : Line) :
    (v ++ ' '::f) ++ (d ++ ((p ++ [' ']) ++ rest)) = v ++ ' '::((f ++ (d ++ p)) ++ ' '::rest) := by
  simp

theorem header_words (st : Stub) (digits rest : Line) :
    words (st.pfx ++ ("void func_000".toList ++ (digits ++ ("(ppu_context* ".toList ++ rest)))) =
      openWords st.pfx digits ++ words rest := by
  have named : words ("void func_000".toList ++ (digits ++ ("(ppu_context* ".toList ++ rest))) =
      words "void".toList ++ (words (nameWord digits) ++ words rest) := by
    have apart : "void func_000".toList ++ (digits ++ ("(ppu_context* ".toList ++ rest)) =
        "void".toList ++ ' '::(nameWord digits ++ ' '::rest) := by
      have void : "void func_000".toList = "void".toList ++ ' '::"func_000".toList := by decide
      have context : "(ppu_context* ".toList = "(ppu_context*".toList ++ [' '] := by decide
      rw [void,context]
      exact header_split _ _ _ _ _
    rw [apart,words_append rfl,words_append rfl]
  unfold openWords Stub.pfx
  cases st.static
  · have none_ : words (if false = true then "static ".toList else []) = [] := rfl
    rw [none_,if_neg Bool.false_ne_true,List.nil_append,named,List.nil_append,List.append_assoc]
  · have one : "static ".toList = "static".toList ++ [' '] := rfl
    rw [if_pos rfl,one,List.append_assoc,List.singleton_append,words_append rfl,words_append rfl,named]
    simp only [words_nil,List.append_nil,List.append_assoc]

theorem hexDigit_solid (c : Char) (digit : hexDigit c = true) : blank c = false := by
  unfold blank
  by_contra space
  rw [Bool.not_eq_false,Bool.or_eq_true,beq_iff_eq,beq_iff_eq] at space
  rcases space with rfl | rfl <;> exact absurd digit (by decide)

theorem upper_digit : ∀ n < 16, hexDigit (upper n) = true := by decide

theorem digitsOf_hex (fuel n : Nat) : (digitsOf fuel n).all hexDigit = true := by
  induction fuel generalizing n with
  | zero => rfl
  | succ fuel ih =>
      rw [digitsOf]
      split
      · rename_i small
        simp [upper_digit n small]
      · rw [List.all_append,ih]
        simp [upper_digit (n%16) (Nat.mod_lt _ (by decide))]

theorem hex_all (width n : Nat) : (hex width n).all hexDigit = true := by
  unfold hex
  rw [List.leftpad,List.all_append,digitsOf_hex,Bool.and_true,List.all_eq_true]
  intro c member
  rw [List.eq_of_mem_replicate member]
  rfl

theorem nameWord_words {digits : Line} (digit : digits.all hexDigit = true) :
    words (nameWord digits) = [nameWord digits] := by
  have before : "func_000".toList.all (!blank ·) = true := by decide
  have after : "(ppu_context*".toList.all (!blank ·) = true := by decide
  have solid : digits.all (!blank ·) = true := by
    rw [List.all_eq_true] at digit ⊢
    intro c member
    rw [hexDigit_solid c (digit c member)]
    rfl
  have start : "func_000".toList ≠ [] := by decide
  unfold nameWord
  refine words_one ?_ (List.append_ne_nil_of_left_ne_nil start _)
  rw [List.all_append,List.all_append,solid,before,after]
  rfl

theorem stub_words (found : stub_re line = some st) :
    words line = openWords st.pfx st.digits ++ words "ctx) \x7b ctx->gpr[3] = 0; \x7d".toList := by
  obtain ⟨trail,same,space,space',_⟩ := stub_re_some found
  have tail : stub_tail ++ trail = "(ppu_context* ".toList ++ ("ctx) \x7b ctx->gpr[3] = 0; \x7d".toList ++ trail) := rfl
  rw [same,words_indent space,tail,header_words,words_trail space']

theorem decided_words (space : st.indent.all blank = true) (sz : Int) :
    (decided st sz false).flatMap words =
      openWords st.pfx (hex 5 st.addr) ++ words "ctx) \x7b ctx->gpr[3] = 0; \x7d".toList := by
  have opening : words (head_line st) = openWords st.pfx (hex 5 st.addr) ++ words "ctx) \x7b".toList := by
    rw [head_line,words_indent space]
    exact header_words st _ _
  have shape : (decided st sz false).flatMap words = words (head_line st) ++ (words (zero_line st) ++ (words (end_line st) ++ [])) := rfl
  have literal : words "ctx) \x7b ctx->gpr[3] = 0; \x7d".toList =
      words "ctx) \x7b".toList ++ (words "    ctx->gpr[3] = 0;".toList ++ (words "\x7d".toList ++ [])) := by decide
  rw [shape,opening,zero_line,words_indent space,end_line,words_indent space,literal,List.append_assoc]

-- With the flag off a converted line keeps its words exactly when its address is spelled as
-- the script spells addresses.
theorem spelled_iff (found : stub_re line = some st) (sz : Int) :
    ((decided st sz false).flatMap words).length = (words line).length ∧
      ((decided st sz false).flatMap words = words line ↔ hex 5 st.addr = st.digits) := by
  obtain ⟨_,_,_,_,digit⟩ := stub_re_some found
  rw [decided_words (stub_indent found),stub_words found,openWords,openWords,nameWord_words digit,
    nameWord_words (hex_all 5 st.addr)]
  refine ⟨by simp only [List.length_append,List.length_singleton],?_⟩
  rw [List.append_cancel_right_eq,List.append_cancel_left_eq,List.append_cancel_left_eq,List.singleton_inj]
  unfold nameWord
  rw [List.append_cancel_left_eq,List.append_cancel_right_eq]
end Spelling

-- The converted stubs, and what is compiled once the pass is made: with the flag on the wrapper, with
-- it off the words of before, as long as addresses are spelled as the script spells them.
-- `decides`: the flag is set for the whole build, and no directive of the text changes it.
theorem fix_offby4_compiled {data : List (BitVec 8)} {text fixed : List Line} (done : fix_offby4 data text = some fixed)
    {σ : Type} (macros : Macros σ) (env : σ) : ∃ elf, Eboot.read data = some elf ∧
    (∀ line st sz, conversion elf (defined text) line = some (st,sz) ↔
      stub_re line = some st ∧ st.addr+4 ∈ defined text ∧ st.addr ∉ DENY ∧
        elf.insn (st.addr+4) = some (some MFLR) ∧
        ∃ p : Prologue, p.Fits ∧ elf.insn st.addr = some (some p.word) ∧ sz = -p.d) ∧
    (∀ on, (∀ e, macros.test e FLAG = on) → compile macros env fixed =
      (compile macros env text).map (·.flatMap (recompiled elf (defined text) on))) ∧
    ∀ lines : List Line, (lines.flatMap (recompiled elf (defined text) false)).flatMap words = lines.flatMap words ↔
      ∀ line ∈ lines, ∀ st sz, conversion elf (defined text) line = some (st,sz) → hex 5 st.addr = st.digits := by
  obtain ⟨elf,read,later⟩ := Option.bind_eq_some_iff.mp done
  obtain ⟨blocks,mapped,same⟩ := Option.bind_eq_some_iff.mp later
  cases same
  refine ⟨elf,read,fun line st sz => conversion_iff st sz,?_,?_⟩
  · intro on decides
    rw [mapM_converted mapped]
    exact compile_replaced env fun line _ s => converted_run decides s
  · intro lines
    have each (line : Line) : ((recompiled elf (defined text) false line).flatMap words).length = (words line).length ∧
        ((recompiled elf (defined text) false line).flatMap words = words line ↔
          ∀ st sz, conversion elf (defined text) line = some (st,sz) → hex 5 st.addr = st.digits) := by
      unfold recompiled
      cases converts : conversion elf (defined text) line with
      | none =>
          rw [List.flatMap_singleton]
          exact ⟨rfl,iff_of_true rfl nofun⟩
      | some found =>
          obtain ⟨st,sz⟩ := found
          obtain ⟨level,same⟩ := spelled_iff (conversion_stub converts) sz
          refine ⟨level,same.trans ⟨?_,fun all => all st sz rfl⟩⟩
          rintro right _ _ ⟨⟩
          exact right
    rw [List.flatMap_assoc,flatMap_eq_iff fun line _ => (each line).1]
    exact forall₂_congr fun line _ => (each line).2

-- An executable of one segment at 0x20000: stdu r1,-0x70(r1) and mflr r0, the first of them
-- a stub in the text.
def dropped_data : List (BitVec 8) :=
  List.replicate 0x27 0 ++ [0x40] ++ List.replicate 0x0E 0 ++ [0,0x38,0,1] ++ List.replicate 6 0 ++
    [0,0,0,1,0,0,0,5, 0,0,0,0,0,0,0,0x78, 0,0,0,0,0,2,0,0, 0,0,0,0,0,0,0,0, 0,0,0,0,0,0,0,8] ++ List.replicate 0x10 0 ++
    [0xF8,0x21,0xFF,0x91,0x7C,0x08,0x02,0xA6]

def dropped_line : Line := "static void func_00020000(ppu_context* ctx) \x7b ctx->gpr[3] = 0; \x7d".toList

def dropped_text : List Line := [dropped_line,"void func_00020004(ppu_context* ctx) \x7b".toList,"\x7d".toList]

def dropped_stub : Stub := ⟨[],true,"20000".toList⟩

def dropped_fixed : List Line := wrapper dropped_stub 0x70 ++ dropped_text.tail

def flagless : Macros Unit := ⟨fun _ _ => false,fun env _ => env⟩

theorem fix_offby4_compiled_stub : fix_offby4 dropped_data dropped_text = some dropped_fixed ∧
    ∃ elf, Eboot.read dropped_data = some elf ∧
      compile flagless () dropped_fixed =
        (compile flagless () dropped_text).map (·.flatMap (recompiled elf (defined dropped_text) false)) ∧
      (dropped_text.flatMap (recompiled elf (defined dropped_text) false)).flatMap words = dropped_text.flatMap words := by
  have done : fix_offby4 dropped_data dropped_text = some dropped_fixed := by decide +kernel
  obtain ⟨elf,read,_,compiled,spelled⟩ := fix_offby4_compiled done flagless ()
  refine ⟨done,elf,read,compiled false fun _ => rfl,(spelled dropped_text).mpr ?_⟩
  have each : (Eboot.read dropped_data).all (fun elf => dropped_text.all fun line =>
      (conversion elf (defined dropped_text) line).all fun found => hex 5 found.1.addr == found.1.digits) = true := by
    decide +kernel
  rw [read] at each
  intro line member st sz converts
  have here := List.all_eq_true.mp each line member
  rw [converts] at here
  exact eq_of_beq here

end BudokaiRuntime.Ppu.OffByFour
