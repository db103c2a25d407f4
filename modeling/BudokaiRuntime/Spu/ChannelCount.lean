import BudokaiRuntime.Spu.RestartDiscipline

-- rchcnt against what wrch and rdch of the same channel do.
namespace BudokaiRuntime.Spu

@[match_pattern] abbrev CH_SPU_WrEventMask : Nat := 1
@[match_pattern] abbrev CH_SPU_WrEventAck : Nat := 2
@[match_pattern] abbrev CH_SPU_RdEventMask : Nat := 11
@[match_pattern] abbrev CH_SPU_RdMachStat : Nat := 13
@[match_pattern] abbrev CH_MFC_RdListStallStat : Nat := 25
@[match_pattern] abbrev CH_MFC_WrListStallAck : Nat := 26
@[match_pattern] abbrev CH_MFC_RdAtomicStat : Nat := 27

def wrchCases : List Nat :=
  [CH_MFC_LSA,CH_MFC_EAH,CH_MFC_EAL,CH_MFC_Size,CH_MFC_TagID,CH_MFC_Cmd,CH_MFC_WrTagMask,CH_MFC_WrTagUpdate,
    CH_SPU_WrOutMbox,CH_SPU_WrOutIntrMbox,CH_SPU_WrEventMask,CH_SPU_WrEventAck,CH_SPU_WrDec,CH_SPU_WrSRR0,
    CH_MFC_WrListStallAck]

def rdchCases : List Nat :=
  [CH_MFC_RdTagStat,CH_SPU_RdInMbox,CH_SPU_RdSigNotify1,CH_SPU_RdSigNotify2,CH_SPU_RdDec,CH_SPU_RdMachStat,
    CH_SPU_RdEventStat,CH_SPU_RdEventMask,CH_SPU_RdSRR0,CH_MFC_RdListStallStat,CH_MFC_RdAtomicStat]

def Blocks (ctx : SpuCtx) (ch : Nat) : Prop := (rdch {ctx with running := true} ch).1.running = false

-- Writing the channel can replace an outbound value that is still there to be taken.
def Overwrites (ctx : SpuCtx) (ch : Nat) : Prop := ctx.outbound_mbox_count ≠ 0 ∧
  ∃ val after, wrch ctx ch val = some after ∧ after.outbound_mbox ≠ ctx.outbound_mbox

def Truthful (ctx : SpuCtx) (ch : Nat) : Prop := rchcnt ctx ch = 0 ↔ Blocks ctx ch ∨ Overwrites ctx ch

-- The counters are C ints.
structure IntCounts (ctx : SpuCtx) : Prop where
  inbound : -2^31 ≤ ctx.inbound_mbox_count ∧ ctx.inbound_mbox_count < 2^31
  signals : ∀ k, -2^31 ≤ ctx.signal_count k ∧ ctx.signal_count k < 2^31

-- The channels rchcnt has a case for, and the interrupt mailbox while it is full.
def Counted (ctx : SpuCtx) : Nat → Prop
  | CH_SPU_RdSigNotify1 | CH_SPU_RdSigNotify2 | CH_MFC_WrTagUpdate | CH_MFC_RdTagStat | CH_SPU_WrOutMbox => True
  | CH_SPU_RdInMbox => 0 ≤ ctx.inbound_mbox_count
  | CH_SPU_WrOutIntrMbox => ctx.outbound_mbox_count ≠ 0
  | _ => False

section Access
variable (ctx : SpuCtx)

theorem blocks_iff (ch : Nat) : Blocks ctx ch ↔ readBlocks ctx ch = true := by
  have status := rdch_status {ctx with running := true} ch
  have same : readBlocks {ctx with running := true} ch = readBlocks ctx ch := by
    unfold readBlocks
    split <;> rfl
  rw [same] at status
  have running := congrArg Status.running status
  cases blocked : readBlocks ctx ch with
  | true =>
      rw [blocked] at running
      exact iff_of_true running rfl
  | false =>
      rw [blocked] at running
      exact iff_of_false (fun stopped => Bool.noConfusion (running.symm.trans stopped)) Bool.noConfusion

theorem wrch_keeps_outbound (ch : Nat) (mbox : ch ≠ CH_SPU_WrOutMbox) (intr : ch ≠ CH_SPU_WrOutIntrMbox)
    (ran : wrch ctx ch val = some after) : after.outbound_mbox = ctx.outbound_mbox := by
  unfold wrch at ran
  split at ran
  case h_6 => exact congrArg ChannelState.outbound_mbox (mfc_execute_transferred ctx val ran).channels
  case h_9 => exact absurd rfl mbox
  case h_10 => exact absurd rfl intr
  all_goals
    cases ran
    rfl

theorem overwrites_iff (ch : Nat) : Overwrites ctx ch ↔
    ctx.outbound_mbox_count ≠ 0 ∧ (ch = CH_SPU_WrOutMbox ∨ ch = CH_SPU_WrOutIntrMbox) := by
  refine and_congr_right fun _ => ⟨fun ⟨val,after,ran,changed⟩ => ?_,fun outbound => ?_⟩
  · by_contra neither
    obtain ⟨mbox,intr⟩ := not_or.mp neither
    exact changed (wrch_keeps_outbound ctx ch mbox intr ran)
  · have other : ctx.outbound_mbox+1 ≠ ctx.outbound_mbox := by
      intro same
      simp at same
    rcases outbound with rfl | rfl <;> exact ⟨ctx.outbound_mbox+1,_,rfl,other⟩

theorem truthful_free (ch : Nat) (free : readBlocks ctx ch = false) (mbox : ch ≠ CH_SPU_WrOutMbox)
    (intr : ch ≠ CH_SPU_WrOutIntrMbox) : Truthful ctx ch ↔ rchcnt ctx ch ≠ 0 := by
  have calm : ¬ (Blocks ctx ch ∨ Overwrites ctx ch) := by
    rw [blocks_iff,overwrites_iff,free]
    rintro (blocked | ⟨_,outbound⟩)
    · cases blocked
    · exact outbound.elim mbox intr
  exact ⟨fun told none => calm (told.mp none),fun some => iff_of_false some calm⟩

theorem int_count_zero_iff (count : Int) (low : -2^31 ≤ count) (high : count < 2^31) :
    BitVec.ofInt 32 count = 0 ↔ count = 0 := by
  constructor
  · intro zero
    have value := congrArg BitVec.toInt zero
    rw [BitVec.toInt_ofInt_eq_self (by decide) (by simpa using low) (by simpa using high)] at value
    exact value
  · intro zero
    rw [zero]
    rfl

theorem truthful_mailbox (ints : IntCounts ctx) :
    Truthful ctx CH_SPU_RdInMbox ↔ 0 ≤ ctx.inbound_mbox_count := by
  have count : rchcnt ctx CH_SPU_RdInMbox = 0 ↔ ctx.inbound_mbox_count = 0 :=
    int_count_zero_iff _ ints.inbound.1 ints.inbound.2
  have blocks : readBlocks ctx CH_SPU_RdInMbox = true ↔ ctx.inbound_mbox_count ≤ 0 := decide_eq_true_iff
  have calm : ¬ Overwrites ctx CH_SPU_RdInMbox := fun replaced =>
    absurd ((overwrites_iff ctx _).mp replaced).2 (by decide)
  rw [Truthful,count,blocks_iff,blocks,or_iff_left calm]
  omega

theorem truthful_signal (ints : IntCounts ctx) (k : Fin 2) : Truthful ctx (BlockingRead.signal k).channel := by
  have count : rchcnt ctx (BlockingRead.signal k).channel = BitVec.ofInt 32 (ctx.signal_count k) :=
    match k with
    | 0 => rfl
    | 1 => rfl
  have blocks : readBlocks ctx (BlockingRead.signal k).channel = (ctx.signal_count k == 0) :=
    match k with
    | 0 => rfl
    | 1 => rfl
  have calm : ¬ Overwrites ctx (BlockingRead.signal k).channel := by
    rw [overwrites_iff]
    exact fun replaced => absurd replaced.2 (match k with | 0 => by decide | 1 => by decide)
  rw [Truthful,count,int_count_zero_iff _ (ints.signals k).1 (ints.signals k).2,blocks_iff,blocks,
    or_iff_left calm,beq_iff_eq]

theorem truthful_outbound : Truthful ctx CH_SPU_WrOutMbox := by
  have calm : ¬ Blocks ctx CH_SPU_WrOutMbox := by
    rw [blocks_iff]
    exact Bool.false_ne_true
  rw [Truthful,or_iff_right calm,overwrites_iff,and_iff_left (.inl rfl)]
  by_cases empty : ctx.outbound_mbox_count = 0
  · simp [rchcnt,empty]
  · simp [rchcnt,empty]

theorem truthful_interrupt : Truthful ctx CH_SPU_WrOutIntrMbox ↔ ctx.outbound_mbox_count ≠ 0 := by
  have calm : ¬ Blocks ctx CH_SPU_WrOutIntrMbox := by
    rw [blocks_iff]
    exact Bool.false_ne_true
  have count : rchcnt ctx CH_SPU_WrOutIntrMbox = 0 := rfl
  rw [Truthful,or_iff_right calm,overwrites_iff,and_iff_left (.inr rfl)]
  exact ⟨fun told => told.mp count,fun full => iff_of_true count full⟩

theorem truthful_counted (ch : Nat) (one : rchcnt ctx ch = 1) (free : readBlocks ctx ch = false)
    (mbox : ch ≠ CH_SPU_WrOutMbox) (intr : ch ≠ CH_SPU_WrOutIntrMbox) : Truthful ctx ch := by
  rw [truthful_free ctx ch free mbox intr,one]
  decide
end Access

theorem rchcnt_truthful_iff (ctx : SpuCtx) (ints : IntCounts ctx) (ch : Nat) : Truthful ctx ch ↔ Counted ctx ch := by
  unfold Counted
  split
  case h_1 => exact iff_true_intro (truthful_signal ctx ints 0)
  case h_2 => exact iff_true_intro (truthful_signal ctx ints 1)
  case h_3 => exact iff_true_intro (truthful_counted ctx CH_MFC_WrTagUpdate rfl rfl (by decide) (by decide))
  case h_4 => exact iff_true_intro (truthful_counted ctx CH_MFC_RdTagStat rfl rfl (by decide) (by decide))
  case h_5 => exact iff_true_intro (truthful_outbound ctx)
  case h_6 => exact truthful_mailbox ctx ints
  case h_7 => exact truthful_interrupt ctx
  case h_8 one two update stat mbox inbox intr =>
    have none : rchcnt ctx ch = 0 := by
      unfold rchcnt
      split
      · exact absurd rfl inbox
      · exact absurd rfl mbox
      · exact absurd rfl update
      · exact absurd rfl stat
      · exact absurd rfl one
      · exact absurd rfl two
      · rfl
    have free : readBlocks ctx ch = false := by
      unfold readBlocks
      split
      · exact absurd rfl inbox
      · exact absurd rfl one
      · exact absurd rfl two
      · rfl
    exact (truthful_free ctx ch free mbox intr).trans (iff_of_false (not_not_intro none) id)

theorem rchcnt_truthful_iff_empty : Truthful (spu_ctx_init 0 none) CH_MFC_Cmd ↔ False :=
  rchcnt_truthful_iff (spu_ctx_init 0 none) ⟨by decide,by decide⟩ CH_MFC_Cmd

-- The local store address can always be staged, and its count says it never can.
theorem staging_channel_uncounted :
    ¬ ∀ (ctx : SpuCtx), IntCounts ctx → ∀ ch, ch ∈ wrchCases ∨ ch ∈ rdchCases → Truthful ctx ch := by
  intro truthful
  have told := truthful (spu_ctx_init 0 none) ⟨by decide,by decide⟩ CH_MFC_LSA (.inl (by decide))
  have free := (truthful_free (spu_ctx_init 0 none) CH_MFC_LSA rfl (by decide) (by decide)).mp told
  exact free rfl

end BudokaiRuntime.Spu
