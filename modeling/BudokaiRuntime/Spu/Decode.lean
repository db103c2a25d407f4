import BudokaiRuntime.Guest.Memory

namespace BudokaiRuntime.Spu

-- The case labels of spu_step, one type per decoding stage.
inductive Rrr where
  | selb | shufb | mpya | fnms | fma | fms
deriving DecidableEq

inductive Ri18 where
  | ila | hbra | hbrr
deriving DecidableEq

inductive Ri16 where
  | brz | brnz | brhz | brhnz | stqa | stqr | lqa | lqr | bra | brasl | br | brsl
  | fsmbi | il | ilhu | ilh | iohl
deriving DecidableEq

inductive Ri10 where
  | lqd | stqd | ai | sfi | ahi | sfhi | andi | andhi | andbi | ori | orhi | orbi
  | xori | xorhi | xorbi | ceqi | ceqhi | ceqbi | cgti | cgthi | cgtbi
  | clgti | clgthi | clgtbi | mpyi | mpyui | hgti | hlgti | heqi
deriving DecidableEq

inductive Chan where
  | rdch | wrch | rchcnt
deriving DecidableEq

inductive Rr where
  | stop | stopd | lnop | nop | sync | dsync | mfspr | mtspr | hbr
  | lqx | stqx
  | cbd | chd | cwd | cdd | cbx | chx | cwx | cdx
  | a | sf | ah | sfh | cg | bg | addx | sfx | cgx | bgx | absdb | avgb | sumb
  | clz | cntb | xsbh | xshw | xswd | gb | gbh | gbb | fsm | fsmh | fsmb
  | and | or | xor | nand | nor | andc | orc | eqv | orx
  | rot | rotm | rotma | shl | roth | rothm | rotmah | shlh
  | roti | rotmi | rotmai | shli | rothi | rothmi | rotmahi | shlhi
  | rotqbi | rotqmbi | shlqbi | rotqby | rotqmby | shlqby | rotqbybi | rotqmbybi | shlqbybi
  | rotqbii | rotqmbii | shlqbii | rotqbyi | rotqmbyi | shlqbyi
  | ceq | ceqh | ceqb | cgt | cgth | cgtb | clgt | clgth | clgtb | hgt | hlgt | heq
  | mpy | mpyu | mpyh | mpys | mpyhh | mpyhhu | mpyhha | mpyhhau
  | bi | bisl | iret | bisled | biz | binz | bihz | bihnz
  | fa | fs | fm | fceq | fcmeq | fcgt | fcmgt | fi | frest | frsqest | fscrrd | fscrwr
  | dfa | dfs | dfm | dfma | dfms | dfnms | dfnma | dfceq | dfcmeq | dfcgt | dfcmgt | dftsv
  | fesd | frds | cflts | cfltu | csflt | cuflt
deriving DecidableEq

inductive SpuOp where
  | rrr (op : Rrr)
  | ri18 (op : Ri18)
  | ri16 (op : Ri16)
  | ri10 (op : Ri10)
  | chan (op : Chan)
  | rr (op : Rr)
  | unknown
deriving DecidableEq

def F_OP4 (i : BitVec 32) : BitVec 32 := i >>> 28 &&& 0xF
def F_OP7 (i : BitVec 32) : BitVec 32 := i >>> 25 &&& 0x7F
def F_OP8 (i : BitVec 32) : BitVec 32 := i >>> 24 &&& 0xFF
def F_OP9 (i : BitVec 32) : BitVec 32 := i >>> 23 &&& 0x1FF
def F_OP11 (i : BitVec 32) : BitVec 32 := i >>> 21 &&& 0x7FF

def decode_rrr : Nat → Option Rrr
  | 0x8 => some .selb
  | 0xB => some .shufb
  | 0xC => some .mpya
  | 0xD => some .fnms
  | 0xE => some .fma
  | 0xF => some .fms
  | _ => none

def decode_ri18 : Nat → Option Ri18
  | 0x21 => some .ila
  | 0x08 => some .hbra
  | 0x09 => some .hbrr
  | _ => none

def decode_ri16 : Nat → Option Ri16
  | 0x040 => some .brz
  | 0x042 => some .brnz
  | 0x044 => some .brhz
  | 0x046 => some .brhnz
  | 0x041 => some .stqa
  | 0x047 => some .stqr
  | 0x061 => some .lqa
  | 0x067 => some .lqr
  | 0x060 => some .bra
  | 0x062 => some .brasl
  | 0x064 => some .br
  | 0x066 => some .brsl
  | 0x065 => some .fsmbi
  | 0x081 => some .il
  | 0x082 => some .ilhu
  | 0x083 => some .ilh
  | 0x0C1 => some .iohl
  | _ => none

def decode_ri10 : Nat → Option Ri10
  | 0x34 => some .lqd
  | 0x24 => some .stqd
  | 0x1C => some .ai
  | 0x0C => some .sfi
  | 0x1D => some .ahi
  | 0x0D => some .sfhi
  | 0x14 => some .andi
  | 0x15 => some .andhi
  | 0x16 => some .andbi
  | 0x04 => some .ori
  | 0x05 => some .orhi
  | 0x06 => some .orbi
  | 0x44 => some .xori
  | 0x45 => some .xorhi
  | 0x46 => some .xorbi
  | 0x7C => some .ceqi
  | 0x7D => some .ceqhi
  | 0x7E => some .ceqbi
  | 0x4C => some .cgti
  | 0x4D => some .cgthi
  | 0x4E => some .cgtbi
  | 0x5C => some .clgti
  | 0x5D => some .clgthi
  | 0x5E => some .clgtbi
  | 0x74 => some .mpyi
  | 0x75 => some .mpyui
  | 0x4F => some .hgti
  | 0x5F => some .hlgti
  | 0x7F => some .heqi
  | _ => none

def decode_chan : Nat → Option Chan
  | 0x00D => some .rdch
  | 0x10D => some .wrch
  | 0x00F => some .rchcnt
  | _ => none

def decode_rr : Nat → Option Rr
  | 0x000 => some .stop
  | 0x140 => some .stopd
  | 0x001 => some .lnop
  | 0x201 => some .nop
  | 0x002 => some .sync
  | 0x003 => some .dsync
  | 0x00C => some .mfspr
  | 0x10C => some .mtspr
  | 0x1AC => some .hbr
  | 0x1C4 => some .lqx
  | 0x144 => some .stqx
  | 0x1F4 => some .cbd
  | 0x1F5 => some .chd
  | 0x1F6 => some .cwd
  | 0x1F7 => some .cdd
  | 0x1D4 => some .cbx
  | 0x1D5 => some .chx
  | 0x1D6 => some .cwx
  | 0x1D7 => some .cdx
  | 0x0C0 => some .a
  | 0x040 => some .sf
  | 0x0C8 => some .ah
  | 0x048 => some .sfh
  | 0x0C2 => some .cg
  | 0x042 => some .bg
  | 0x340 => some .addx
  | 0x341 => some .sfx
  | 0x342 => some .cgx
  | 0x343 => some .bgx
  | 0x053 => some .absdb
  | 0x0D3 => some .avgb
  | 0x253 => some .sumb
  | 0x2A5 => some .clz
  | 0x2B4 => some .cntb
  | 0x2B6 => some .xsbh
  | 0x2AE => some .xshw
  | 0x2A6 => some .xswd
  | 0x1B0 => some .gb
  | 0x1B1 => some .gbh
  | 0x1B2 => some .gbb
  | 0x1B4 => some .fsm
  | 0x1B5 => some .fsmh
  | 0x1B6 => some .fsmb
  | 0x0C1 => some .and
  | 0x041 => some .or
  | 0x241 => some .xor
  | 0x0C9 => some .nand
  | 0x049 => some .nor
  | 0x2C1 => some .andc
  | 0x2C9 => some .orc
  | 0x249 => some .eqv
  | 0x1F0 => some .orx
  | 0x058 => some .rot
  | 0x059 => some .rotm
  | 0x05A => some .rotma
  | 0x05B => some .shl
  | 0x05C => some .roth
  | 0x05D => some .rothm
  | 0x05E => some .rotmah
  | 0x05F => some .shlh
  | 0x078 => some .roti
  | 0x079 => some .rotmi
  | 0x07A => some .rotmai
  | 0x07B => some .shli
  | 0x07C => some .rothi
  | 0x07D => some .rothmi
  | 0x07E => some .rotmahi
  | 0x07F => some .shlhi
  | 0x1D8 => some .rotqbi
  | 0x1D9 => some .rotqmbi
  | 0x1DB => some .shlqbi
  | 0x1DC => some .rotqby
  | 0x1DD => some .rotqmby
  | 0x1DF => some .shlqby
  | 0x1CC => some .rotqbybi
  | 0x1CD => some .rotqmbybi
  | 0x1CF => some .shlqbybi
  | 0x1F8 => some .rotqbii
  | 0x1F9 => some .rotqmbii
  | 0x1FB => some .shlqbii
  | 0x1FC => some .rotqbyi
  | 0x1FD => some .rotqmbyi
  | 0x1FF => some .shlqbyi
  | 0x3C0 => some .ceq
  | 0x3C8 => some .ceqh
  | 0x3D0 => some .ceqb
  | 0x240 => some .cgt
  | 0x248 => some .cgth
  | 0x250 => some .cgtb
  | 0x2C0 => some .clgt
  | 0x2C8 => some .clgth
  | 0x2D0 => some .clgtb
  | 0x258 => some .hgt
  | 0x2D8 => some .hlgt
  | 0x3D8 => some .heq
  | 0x3C4 => some .mpy
  | 0x3CC => some .mpyu
  | 0x3C5 => some .mpyh
  | 0x3C7 => some .mpys
  | 0x3C6 => some .mpyhh
  | 0x3CE => some .mpyhhu
  | 0x346 => some .mpyhha
  | 0x34E => some .mpyhhau
  | 0x1A8 => some .bi
  | 0x1A9 => some .bisl
  | 0x1AA => some .iret
  | 0x1AB => some .bisled
  | 0x128 => some .biz
  | 0x129 => some .binz
  | 0x12A => some .bihz
  | 0x12B => some .bihnz
  | 0x2C4 => some .fa
  | 0x2C5 => some .fs
  | 0x2C6 => some .fm
  | 0x3C2 => some .fceq
  | 0x3CA => some .fcmeq
  | 0x2C2 => some .fcgt
  | 0x2CA => some .fcmgt
  | 0x3D4 => some .fi
  | 0x1B8 => some .frest
  | 0x1B9 => some .frsqest
  | 0x398 => some .fscrrd
  | 0x3BA => some .fscrwr
  | 0x2CC => some .dfa
  | 0x2CD => some .dfs
  | 0x2CE => some .dfm
  | 0x35C => some .dfma
  | 0x35D => some .dfms
  | 0x35E => some .dfnms
  | 0x35F => some .dfnma
  | 0x3C3 => some .dfceq
  | 0x3CB => some .dfcmeq
  | 0x2C3 => some .dfcgt
  | 0x2CB => some .dfcmgt
  | 0x3BF => some .dftsv
  | 0x3B8 => some .fesd
  | 0x3B9 => some .frds
  | 0x3B0 => some .cflts
  | 0x3B1 => some .cflts
  | 0x3B2 => some .cfltu
  | 0x3B3 => some .cfltu
  | 0x3B4 => some .csflt
  | 0x3B5 => some .csflt
  | 0x3B6 => some .cuflt
  | 0x3B7 => some .cuflt
  | _ => none

-- op4 >= 8 is exclusively RRR; otherwise the first stage with a matching label wins.
def spu_decode (insn : BitVec 32) : SpuOp :=
  if 0x8 ≤ (F_OP4 insn).toNat then
    match decode_rrr (F_OP4 insn).toNat with
    | some op => .rrr op
    | none => .unknown
  else match decode_ri18 (F_OP7 insn).toNat with
  | some op => .ri18 op
  | none => match decode_ri16 (F_OP9 insn).toNat with
  | some op => .ri16 op
  | none => match decode_ri10 (F_OP8 insn).toNat with
  | some op => .ri10 op
  | none => match decode_chan (F_OP11 insn).toNat with
  | some op => .chan op
  | none => match decode_rr (F_OP11 insn).toNat with
  | some op => .rr op
  | none => .unknown

end BudokaiRuntime.Spu
