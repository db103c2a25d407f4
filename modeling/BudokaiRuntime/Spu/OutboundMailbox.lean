import BudokaiRuntime.Foundations.EventRuns
import BudokaiRuntime.Spu.BlockedRead
import BudokaiRuntime.Spu.HostAccess

-- The outbound mailboxes over runs: what the program has written and nobody has taken yet,
-- against the one value and count that the context holds.
namespace BudokaiRuntime.Spu
open EventRuns

def channelWrite (ctx : SpuCtx) : Option (Nat × BitVec 32) :=
  let insn := fetch (prepared ctx)
  if spu_decode insn = .chan .wrch then some (F_CH insn,GW ((prepared ctx).gpr (F_RT insn)) 0) else none

-- `take`: the PPU side has read the mailbox and resets its count.
inductive MailEvent where
  | host (e : HostEvent)
  | take

def MailEvent.apply (fpu : HostFpu) (ctx : SpuCtx) : MailEvent → Option SpuCtx
  | .host e => e.apply fpu ctx
  | .take => some {ctx with outbound_mbox_count := 0}

-- No access of the host leaves ls[]: the mailbox lies behind it.
def MailEvent.Inside (ctx : SpuCtx) : MailEvent → Prop
  | .host e => e.Fits ctx
  | .take => True

def MailEvent.write (ctx : SpuCtx) : MailEvent → Option (Nat × BitVec 32)
  | .host .insn => if ctx.running then channelWrite ctx else none
  | .host (.service _) => none
  | .host (.setup ..) => none
  | .take => none

-- Two mailboxes of one entry each. A full entry keeps its message.
@[ext] structure Mailboxes where
  out : Option (BitVec 32)
  intr : Option (BitVec 32)

def Mailboxes.receive (m : Mailboxes) : Option (Nat × BitVec 32) → Mailboxes
  | some (CH_SPU_WrOutMbox,v) => {m with out := m.out.or (some v)}
  | some (CH_SPU_WrOutIntrMbox,v) => {m with intr := m.intr.or (some v)}
  | _ => m

def Mailboxes.after (m : Mailboxes) (ctx : SpuCtx) : MailEvent → Mailboxes
  | .take => ⟨none,none⟩
  | e => m.receive (e.write ctx)

-- WrOutMbox is the value and count of the context; an interrupt message can be read there too.
def Mailboxes.Shown (m : Mailboxes) (ctx : SpuCtx) : Prop :=
  m.out = (if ctx.outbound_mbox_count = 0 then none else some ctx.outbound_mbox) ∧
    (m.intr = none ∨ ctx.outbound_mbox_count ≠ 0 ∧ m.intr = some ctx.outbound_mbox)

def Mailboxes.of (ctx : SpuCtx) : Mailboxes where
  out := if ctx.outbound_mbox_count = 0 then none else some ctx.outbound_mbox
  intr := none

def ShownOver (fpu : HostFpu) : Mailboxes → SpuCtx → List MailEvent → Prop
  | m,ctx,[] => m.Shown ctx
  | m,ctx,e::events =>
      m.Shown ctx ∧ ∀ next, e.apply fpu ctx = some next → ShownOver fpu (m.after ctx e) next events

-- WrOutMbox finds nothing pending, or its own value; WrOutIntrMbox finds its own value.
def WriteFits (ctx : SpuCtx) : Option (Nat × BitVec 32) → Prop
  | some (CH_SPU_WrOutMbox,v) => ctx.outbound_mbox_count = 0 ∨ ctx.outbound_mbox = v
  | some (CH_SPU_WrOutIntrMbox,v) => ctx.outbound_mbox_count ≠ 0 ∧ ctx.outbound_mbox = v
  | _ => True

def WritesFit (fpu : HostFpu) : SpuCtx → List MailEvent → Prop
  | _,[] => True
  | ctx,e::events =>
      ∀ next, e.apply fpu ctx = some next → WriteFits ctx (e.write ctx) ∧ WritesFit fpu next events

def outboundAfter (ctx : SpuCtx) : Option (Nat × BitVec 32) → BitVec 32 × Int
  | some (CH_SPU_WrOutMbox,v) => (v,1)
  | some (CH_SPU_WrOutIntrMbox,v) => (v,1)
  | _ => (ctx.outbound_mbox,ctx.outbound_mbox_count)

def MailEvent.outbound (ctx : SpuCtx) : MailEvent → BitVec 32 × Int
  | .take => (ctx.outbound_mbox,0)
  | .host e => outboundAfter ctx (MailEvent.write ctx (.host e))

def SpuCtx.outbound (ctx : SpuCtx) : BitVec 32 × Int := (ctx.outbound_mbox,ctx.outbound_mbox_count)

theorem outbound_of_channels {s t : SpuCtx} (same : s.channels = t.channels) : s.outbound = t.outbound :=
  Prod.ext (congrArg ChannelState.outbound_mbox same) (congrArg ChannelState.outbound_mbox_count same)

section Step
variable (fpu : HostFpu) (insn pc : BitVec 32) (ctx : SpuCtx)

theorem rdch_outbound (ch : Nat) : (rdch ctx ch).1.outbound = ctx.outbound := by
  unfold rdch rdSignal
  split <;> first | rfl | (split <;> rfl)

theorem wrch_outbound (ch : Nat) (val : BitVec 32) (ran : wrch ctx ch val = some after) :
    after.outbound = outboundAfter ctx (some (ch,val)) := by
  unfold wrch at ran
  split at ran
  case h_6 => exact outbound_of_channels (mfc_execute_transferred ctx val ran).channels
  case h_13 ch _ _ _ _ _ _ _ _ out intr _ _ =>
    cases ran
    unfold outboundAfter
    split
    · rename_i same
      cases same
      exact absurd rfl out
    · rename_i same
      cases same
      exact absurd rfl intr
    · rfl
  all_goals
    cases ran
    rfl

theorem spu_exec_outbound (op : SpuOp) (ran : spu_exec fpu op insn pc ctx = some after) : after.outbound =
    outboundAfter ctx (if op = .chan .wrch then some (F_CH insn,GW (ctx.gpr (F_RT insn)) 0) else none) := by
  cases op with
  | rr op =>
      cases ran
      exact outbound_of_channels (exec_rr_channels fpu insn ctx op)
  | chan op =>
      cases op with
      | rdch =>
          cases ran
          exact rdch_outbound ctx (F_CH insn)
      | wrch => exact wrch_outbound ctx _ _ ran
      | rchcnt =>
          cases ran
          rfl
  | _ => exact outbound_of_channels (spu_exec_computed fpu insn pc ctx _ rfl ran).channels

theorem spu_step_outbound (ran : spu_step fpu ctx = some after) :
    after.outbound = outboundAfter ctx (channelWrite ctx) := by
  rw [spu_step_prepared] at ran
  have stored := spu_exec_outbound fpu _ _ _ _ ran
  have same := outbound_of_channels (prepared_channels ctx)
  rw [stored]
  change outboundAfter (advance (prepared ctx)) (channelWrite ctx) = outboundAfter ctx (channelWrite ctx)
  unfold outboundAfter
  split
  · rfl
  · rfl
  · exact same

-- What an event does to the value and count: a channel write on 28 or 30 stores, a take
-- resets the count, and nothing else touches them.
theorem apply_outbound (e : MailEvent) (ran : e.apply fpu ctx = some after) :
    after.outbound = e.outbound ctx := by
  cases e with
  | take =>
      cases ran
      rfl
  | host e =>
      cases e with
      | insn =>
          simp only [MailEvent.apply,HostEvent.apply,MailEvent.outbound,MailEvent.write] at ran ⊢
          by_cases running : ctx.running = true
          · rw [if_pos running] at ran ⊢
            exact spu_step_outbound fpu ctx ran
          · rw [if_neg running] at ran ⊢
            cases ran
            rfl
      | service vm =>
          simp only [MailEvent.apply,HostEvent.apply] at ran
          split at ran
          · simp only [edge_service] at ran
            split at ran
            · cases ran
              rfl
            · cases ran
          · cases ran
            rfl
      | setup gpr ls pc running inbound_mbox inbound_mbox_count signal signal_count vm =>
          cases ran
          rfl

end Step

section Shown
variable (m : Mailboxes) (ctx next : SpuCtx)

theorem shown_of_outbound {s t : SpuCtx} (same : s.outbound = t.outbound) : m.Shown s ↔ m.Shown t := by
  have value : s.outbound_mbox = t.outbound_mbox := congrArg Prod.fst same
  have count : s.outbound_mbox_count = t.outbound_mbox_count := congrArg Prod.snd same
  rw [Mailboxes.Shown,Mailboxes.Shown,value,count]

theorem receive_other {write : Option (Nat × BitVec 32)}
    (other : ∀ v, write ≠ some (CH_SPU_WrOutMbox,v) ∧ write ≠ some (CH_SPU_WrOutIntrMbox,v)) :
    m.receive write = m ∧ outboundAfter ctx write = ctx.outbound ∧ (WriteFits ctx write ↔ True) := by
  refine ⟨?_,?_,?_⟩
  · unfold Mailboxes.receive
    split
    · exact absurd rfl (other _).1
    · exact absurd rfl (other _).2
    · rfl
  · unfold outboundAfter
    split
    · exact absurd rfl (other _).1
    · exact absurd rfl (other _).2
    · rfl
  · unfold WriteFits
    split
    · exact absurd rfl (other _).1
    · exact absurd rfl (other _).2
    · rfl

theorem shown_out_write (shown : m.Shown ctx) (v : BitVec 32) (stored : next.outbound = (v,1)) :
    (m.receive (some (CH_SPU_WrOutMbox,v))).Shown next ↔ WriteFits ctx (some (CH_SPU_WrOutMbox,v)) := by
  have value : next.outbound_mbox = v := congrArg Prod.fst stored
  have count : next.outbound_mbox_count = 1 := congrArg Prod.snd stored
  obtain ⟨out,intr⟩ := shown
  simp only [Mailboxes.receive,Mailboxes.Shown,WriteFits,value,count]
  rw [if_neg (show ¬ (1 : Int) = 0 by decide),out]
  by_cases empty : ctx.outbound_mbox_count = 0
  · rw [if_pos empty]
    rcases intr with none_ | ⟨full,_⟩
    · exact iff_of_true ⟨rfl,.inl none_⟩ (.inl empty)
    · exact absurd empty full
  · rw [if_neg empty,Option.some_or,Option.some.injEq,or_iff_right empty]
    refine and_iff_left_of_imp fun same => ?_
    rcases intr with none_ | ⟨_,pending⟩
    · exact .inl none_
    · exact .inr ⟨by decide,pending.trans (congrArg some same)⟩

theorem shown_intr_write (shown : m.Shown ctx) (v : BitVec 32) (stored : next.outbound = (v,1)) :
    (m.receive (some (CH_SPU_WrOutIntrMbox,v))).Shown next ↔ WriteFits ctx (some (CH_SPU_WrOutIntrMbox,v)) := by
  have value : next.outbound_mbox = v := congrArg Prod.fst stored
  have count : next.outbound_mbox_count = 1 := congrArg Prod.snd stored
  obtain ⟨out,intr⟩ := shown
  simp only [Mailboxes.receive,Mailboxes.Shown,WriteFits,value,count]
  rw [if_neg (show ¬ (1 : Int) = 0 by decide),out]
  by_cases empty : ctx.outbound_mbox_count = 0
  · rw [if_pos empty]
    exact iff_of_false (fun both => absurd both.1 (Option.some_ne_none v).symm) fun both => both.1 empty
  · rw [if_neg empty,Option.some.injEq]
    constructor
    · intro both
      exact ⟨empty,both.1⟩
    · intro ⟨_,same⟩
      refine ⟨same,.inr ⟨by decide,?_⟩⟩
      rcases intr with none_ | ⟨_,pending⟩
      · rw [none_]
        rfl
      · rw [pending,same]
        rfl

theorem shown_write (shown : m.Shown ctx) (write : Option (Nat × BitVec 32))
    (stored : next.outbound = outboundAfter ctx write) : (m.receive write).Shown next ↔ WriteFits ctx write := by
  by_cases other : ∀ v, write ≠ some (CH_SPU_WrOutMbox,v) ∧ write ≠ some (CH_SPU_WrOutIntrMbox,v)
  · obtain ⟨same,unchanged,fits⟩ := receive_other m ctx other
    rw [same,fits,shown_of_outbound m (stored.trans unchanged)]
    exact iff_of_true shown trivial
  · obtain ⟨v,chosen⟩ := not_forall.mp other
    by_cases out : write = some (CH_SPU_WrOutMbox,v)
    · rw [out] at stored ⊢
      exact shown_out_write m ctx next shown v stored
    · have intr : write = some (CH_SPU_WrOutIntrMbox,v) := not_not.mp fun absent => chosen ⟨out,absent⟩
      rw [intr] at stored ⊢
      exact shown_intr_write m ctx next shown v stored

theorem shown_step (fpu : HostFpu) (shown : m.Shown ctx) (e : MailEvent) (ran : e.apply fpu ctx = some next) :
    (m.after ctx e).Shown next ↔ WriteFits ctx (e.write ctx) := by
  have stored := apply_outbound fpu ctx e ran
  cases e with
  | take =>
      have count : next.outbound_mbox_count = 0 := congrArg Prod.snd stored
      exact iff_of_true ⟨(if_pos count).symm,.inl rfl⟩ trivial
  | host e => exact shown_write m ctx next shown _ stored

end Shown

theorem shown_over_iff (fpu : HostFpu) (m : Mailboxes) (ctx : SpuCtx) (shown : m.Shown ctx)
    (events : List MailEvent) : ShownOver fpu m ctx events ↔ WritesFit fpu ctx events := by
  induction events generalizing m ctx with
  | nil => exact iff_of_true shown trivial
  | cons e events ih =>
      rw [ShownOver,WritesFit,and_iff_right shown]
      refine forall₂_congr fun next ran => ?_
      have step := shown_step m ctx next fpu shown e ran
      constructor
      · intro rest
        have still : (m.after ctx e).Shown next := by
          cases events with
          | nil => exact rest
          | cons _ _ => exact rest.1
        exact ⟨step.mp still,(ih _ _ still).mp rest⟩
      · intro ⟨fits,rest⟩
        exact (ih _ _ (step.mpr fits)).mpr rest

theorem shown_of (ctx : SpuCtx) : (Mailboxes.of ctx).Shown ctx := ⟨rfl,.inl rfl⟩

theorem mail_defined_iff (fpu : HostFpu) (ctx : SpuCtx) (e : MailEvent) :
    (∃ next, e.apply fpu ctx = some next) ↔ e.Inside ctx := by
  cases e with
  | host e => exact event_defined_iff fpu ctx e
  | take => exact iff_of_true ⟨_,rfl⟩ trivial

-- The run overwrites nothing behind ls[], and every message in it stays.
theorem outbound_messages_kept_iff (fpu : HostFpu) (ctx : SpuCtx) (events : List MailEvent) :
    ((∃ final, run (MailEvent.apply fpu) ctx events = some final) ∧
      ShownOver fpu (Mailboxes.of ctx) ctx events) ↔
    Along (MailEvent.apply fpu) MailEvent.Inside ctx events ∧ WritesFit fpu ctx events :=
  and_congr (run_defined_iff (mail_defined_iff fpu) ctx events) (shown_over_iff fpu _ ctx (shown_of ctx) events)

-- wrch SPU_WrOutMbox,$3 and then wrch SPU_WrOutIntrMbox,$4, as the kernel loop does.
def twoMessages : SpuCtx :=
  {spu_ctx_init 0 none with
    ls := loadImage [0x21A00E03,0x21A00F04]
    gpr := fun r => if r = 3 then spu_reg_set_w .zero 0 1 else spu_reg_set_w .zero 0 2
    running := true}

theorem interrupt_message_overwrites : ¬ ∀ (fpu : HostFpu) (ctx : SpuCtx) (events : List MailEvent),
    ShownOver fpu (Mailboxes.of ctx) ctx events := by
  intro kept
  have fits := (shown_over_iff hostFpu _ twoMessages (shown_of twoMessages) [.host .insn,.host .insn]).mp
    (kept hostFpu twoMessages [.host .insn,.host .insn])
  have first : (HostEvent.insn.apply hostFpu twoMessages).map (fun ctx => (ctx.outbound_mbox,MailEvent.write ctx
      (.host .insn),(HostEvent.insn.apply hostFpu ctx).isSome)) = some (1,some (30,2),true) := by decide +kernel
  obtain ⟨next,ran,shape⟩ := Option.map_eq_some_iff.mp first
  have pending : next.outbound_mbox = 1 := congrArg Prod.fst shape
  have write : MailEvent.write next (.host .insn) = some (30,2) := congrArg (Prod.fst ∘ Prod.snd) shape
  have runs : (HostEvent.insn.apply hostFpu next).isSome = true := congrArg (Prod.snd ∘ Prod.snd) shape
  obtain ⟨last,ran_again⟩ := Option.isSome_iff_exists.mp runs
  have second := ((fits next ran).2 last ran_again).1
  rw [write] at second
  exact absurd (pending.symm.trans second.2) (by decide)

end BudokaiRuntime.Spu
