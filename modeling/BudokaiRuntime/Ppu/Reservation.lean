import BudokaiRuntime.Ppu.Context

-- lwarx and stwcx. of several contexts on one memory.
namespace BudokaiRuntime.Ppu
open ByteLanes Guest Rsx

structure Shared where
  ctxs : Nat → PpuCtx
  mem : Machine

-- Each event is one atomic step of one context; `regs` is any code that stays in its registers.
inductive PpuEvent where
  | lwarx (c : Nat) (rd ra rb : Fin 32)
  | stwcx (c : Nat) (rs ra rb : Fin 32)
  | write (c : Nat) (addr : BitVec 64) (val : BitVec 32)
  | regs (c : Nat) (gpr : Fin 32 → BitVec 64) (cr : BitVec 32) (lr ctr : BitVec 64)

def no_callees : Env Unit := fun _ _ => none

def Shared.lifted (fuel : Nat) (s : Shared) (c : Nat) (i : Insn) : Option Shared :=
  (i.run (entered (s.ctxs c) s.mem ()) no_callees fuel).map fun t =>
    ⟨Function.update s.ctxs c t.ctx,t.mem⟩

def PpuEvent.apply (fuel : Nat) (s : Shared) : PpuEvent → Option Shared
  | .lwarx c rd ra rb => s.lifted fuel c (.lwarx rd ra rb)
  | .stwcx c rs ra rb => s.lifted fuel c (.stwcx rs ra rb)
  | .write _ addr val => (vm_write32 fuel s.mem addr val).map fun mem => {s with mem}
  | .regs c gpr cr lr ctr => some {s with ctxs := Function.update s.ctxs c {s.ctxs c with gpr,cr,lr,ctr}}

def Shared.word (s : Shared) (w : BitVec 32) : BitVec 32 := s.mem.vm.be32 w

def Shared.address (s : Shared) (c : Nat) (ra rb : Fin 32) : BitVec 32 :=
  low32 ((s.ctxs c).gpr ra + (s.ctxs c).gpr rb)

-- A vm_write32 that an event makes: the context, the address and the value. A stwcx. makes one
-- exactly when it reports success.
structure Store where
  ctx : Nat
  addr : BitVec 32
  val : BitVec 32
deriving DecidableEq

def PpuEvent.store (s : Shared) : PpuEvent → Option Store
  | .stwcx c rs ra rb =>
      if (s.ctxs c).reserve_addr = (s.address c ra rb).setWidth 64 then
        some ⟨c,s.address c ra rb,low32 ((s.ctxs c).gpr rs)⟩
      else none
  | .write c addr val => some ⟨c,low32 addr,val⟩
  | _ => none

-- A store to the word, or the mirror of PUT that overlaps it.
def touches (a w : BitVec 32) : Prop := ¬ Clear a 4 w 4 ∨ a = RSX_PUT ∧ ¬ Clear 0 4 w 4

instance (a w : BitVec 32) : Decidable (touches a w) := inferInstanceAs (Decidable (_ ∨ _))

-- Between its lwarx and its next stwcx.: the word a context has reserved, and whether another
-- context has stored to it since.
structure Reserved where
  word : BitVec 32
  lost : Bool
deriving DecidableEq

abbrev Reservations : Type := Nat → Option Reserved

def Reservations.mark (r : Reservations) (st : Store) : Reservations := fun c =>
  if c = st.ctx then r c else (r c).map fun reserved =>
    {reserved with lost := reserved.lost || decide (touches st.addr reserved.word)}

def Reservations.after (r : Reservations) (s : Shared) (e : PpuEvent) : Reservations :=
  let marked := (e.store s).elim r r.mark
  match e with
  | .lwarx c _ ra rb => Function.update marked c (some ⟨s.address c ra rb,false⟩)
  | .stwcx c _ _ _ => Function.update marked c none
  | _ => marked

-- A stwcx. that stores has a reservation, of the word it stores to, and has lost nothing.
def Conditional (r : Reservations) (s : Shared) : PpuEvent → Prop
  | .stwcx c rs ra rb => (PpuEvent.stwcx c rs ra rb).store s ≠ none →
      r c = some ⟨s.address c ra rb,false⟩
  | _ => True

def ConditionalOver (fuel : Nat) : Reservations → Shared → List PpuEvent → Prop
  | _,_,[] => True
  | r,s,e::events => Conditional r s e ∧ ∀ next, e.apply fuel s = some next →
      ConditionalOver fuel (r.after s e) next events

-- The last step of a decrement loop on the word: the value read there, less one.
def completes (r : Reservations) (s : Shared) (w : BitVec 32) : PpuEvent → Bool
  | .stwcx c rs ra rb => (r c).elim false (·.word = w) && s.address c ra rb = w &&
      (s.ctxs c).reserve_addr = w.setWidth 64 &&
      low32 ((s.ctxs c).gpr rs) = (s.ctxs c).reserve_value - 1
  | _ => false

def OnlyLoops (fuel : Nat) (w : BitVec 32) : Reservations → Shared → List PpuEvent → Prop
  | _,_,[] => True
  | r,s,e::events => (∀ st, e.store s = some st → touches st.addr w → completes r s w e = true) ∧
      ∀ next, e.apply fuel s = some next → OnlyLoops fuel w (r.after s e) next events

def shared_run (fuel : Nat) (w : BitVec 32) : Reservations → Shared → List PpuEvent → Option (Nat × Shared)
  | _,s,[] => some (0,s)
  | r,s,e::events => (e.apply fuel s).bind fun next =>
      (shared_run fuel w (r.after s e) next events).map fun (n,last) =>
        (n + (if completes r s w e then 1 else 0),last)

def guarded (a val : BitVec 32) : Prop := a = REF ∨ val = 0 ∧ (a = ROOT ∨ a = WORKLOADS ∨ a = STATES)

instance (a val : BitVec 32) : Decidable (guarded a val) := inferInstanceAs (Decidable (_ ∨ _))

-- A store hits no word that another context has reserved; a stwcx. stores its value as it is,
-- and without a reservation it is not at address 0, which reserve_addr has for none.
def StoreFits (r : Reservations) (s : Shared) (e : PpuEvent) : Prop :=
  (∀ st, e.store s = some st → (∀ c reserved, c ≠ st.ctx → r c = some reserved → ¬ touches st.addr reserved.word) ∧
    ((∃ c rs ra rb, e = .stwcx c rs ra rb) → ¬ guarded st.addr st.val)) ∧
  ∀ c rs ra rb, e = .stwcx c rs ra rb → r c = none → s.address c ra rb ≠ 0

def StoresFit (fuel : Nat) : Reservations → Shared → List PpuEvent → Prop
  | _,_,[] => True
  | r,s,e::events => StoreFits r s e ∧ ∀ next, e.apply fuel s = some next → StoresFit fuel (r.after s e) next events

section Effects
variable {fuel : Nat} {s next : Shared} {e : PpuEvent} {r : Reservations} {c : Nat} {w : BitVec 32}

theorem written_word {mem after : Machine} {addr : BitVec 64} {val : BitVec 32}
    (wrote : vm_write32 fuel mem addr val = some after) (missed : ¬ touches (low32 addr) w) :
    after.vm.be32 w = mem.vm.be32 w := by
  obtain ⟨clear,mirror⟩ := not_or.mp missed
  have beside : Clear (low32 addr) 4 w 4 := not_not.mp clear
  rcases write32_cases wrote with ⟨_,same⟩ | ⟨_,same⟩ | ⟨put,stored⟩ | ⟨_,_,stored⟩
  · rw [same]
  · rw [same]
  · have zero : Clear 0 4 w 4 := not_not.mp fun hit => mirror ⟨put,hit⟩
    have here : Clear RSX_PUT 4 w 4 := by rwa [← put]
    rw [stored,be32_put32_clear here,be32_put32_clear zero]
  · rw [stored]
    exact be32_put32_clear beside

theorem written_here {mem after : Machine} {addr : BitVec 64} {val : BitVec 32}
    (wrote : vm_write32 fuel mem addr val = some after) (plain : ¬ guarded (low32 addr) val) :
    after.vm.be32 (low32 addr) = val := by
  obtain ⟨ref,chains⟩ := not_or.mp plain
  change ¬ addr.setWidth 32 = REF at ref
  have kept : chain_val (addr.setWidth 32) val = val := by
    rw [chain_val,if_neg fun head => chains ⟨head.2,.inr (.inl head.1)⟩,
      if_neg fun head => chains ⟨head.2,.inr (.inr head.1)⟩]
  unfold vm_write32 at wrote
  dsimp only at wrote
  rw [kept,if_neg fun root => chains ⟨root.2,.inl root.1⟩] at wrote
  obtain ⟨mid,_,rfl⟩ := Option.map_eq_some_iff.mp wrote
  rw [if_neg ref]
  exact be32_put32 _ _ _

theorem lifted_other {i : Insn} (went : s.lifted fuel c i = some next) (other : d ≠ c) :
    next.ctxs d = s.ctxs d := by
  obtain ⟨t,_,rfl⟩ := Option.map_eq_some_iff.mp went
  exact Function.update_of_ne other _ _

theorem lwarx_effect (went : s.lifted fuel c (.lwarx rd ra rb) = some next) : next.mem = s.mem ∧
    (next.ctxs c).reserve_addr = (s.address c ra rb).setWidth 64 ∧
      (next.ctxs c).reserve_value = s.word (s.address c ra rb) := by
  obtain ⟨t,ran,rfl⟩ := Option.map_eq_some_iff.mp went
  cases Option.some.inj ran
  refine ⟨rfl,?_,?_⟩
  · exact congrArg PpuCtx.reserve_addr (Function.update_self c _ s.ctxs)
  · exact (congrArg PpuCtx.reserve_value (Function.update_self c _ s.ctxs)).trans (vm_read32_eq _ _)

theorem stwcx_effect (went : s.lifted fuel c (.stwcx rs ra rb) = some next) :
    ((PpuEvent.stwcx c rs ra rb).store s = none ∧ next.mem = s.mem) ∨
    ((PpuEvent.stwcx c rs ra rb).store s = some ⟨c,s.address c ra rb,low32 ((s.ctxs c).gpr rs)⟩ ∧
      vm_write32 fuel s.mem ((s.ctxs c).gpr ra + (s.ctxs c).gpr rb) (low32 ((s.ctxs c).gpr rs)) = some next.mem) := by
  obtain ⟨t,ran,rfl⟩ := Option.map_eq_some_iff.mp went
  obtain ⟨_,_,_,⟨other,_,_,kept⟩ | ⟨reserved,_,_,wrote⟩⟩ := conditional_left ran
  · exact .inl ⟨if_neg other,kept⟩
  · exact .inr ⟨if_pos reserved,wrote⟩

theorem stwcx_reservation (went : s.lifted fuel c (.stwcx rs ra rb) = some next) : (next.ctxs c).reserve_addr = 0 := by
  obtain ⟨t,ran,rfl⟩ := Option.map_eq_some_iff.mp went
  obtain ⟨u,_,rfl⟩ := Option.map_eq_some_iff.mp ran
  exact congrArg PpuCtx.reserve_addr (Function.update_self c _ s.ctxs)

theorem word_kept (went : e.apply fuel s = some next) (missed : ∀ st, e.store s = some st → ¬ touches st.addr w) :
    next.word w = s.word w := by
  cases e with
  | lwarx c rd ra rb =>
      have loaded : s.lifted fuel c (.lwarx rd ra rb) = some next := went
      rw [Shared.word,(lwarx_effect loaded).1,← Shared.word]
  | stwcx c rs ra rb =>
      have tried : s.lifted fuel c (.stwcx rs ra rb) = some next := went
      rcases stwcx_effect tried with ⟨_,kept⟩ | ⟨stores,wrote⟩
      · rw [Shared.word,kept,← Shared.word]
      · exact written_word wrote (missed _ stores)
  | write c addr val =>
      obtain ⟨mem,wrote,rfl⟩ := Option.map_eq_some_iff.mp went
      exact written_word wrote (missed _ rfl)
  | regs c gpr cr lr ctr =>
      cases went
      rfl

theorem reservation_kept (went : e.apply fuel s = some next) (load : ∀ rd ra rb, e ≠ .lwarx c rd ra rb)
    (conditional : ∀ rs ra rb, e ≠ .stwcx c rs ra rb) : (next.ctxs c).reserve_addr = (s.ctxs c).reserve_addr ∧
      (next.ctxs c).reserve_value = (s.ctxs c).reserve_value := by
  cases e with
  | lwarx d rd ra rb =>
      have other : c ≠ d := fun same => load rd ra rb (same ▸ rfl)
      rw [lifted_other went other]
      exact ⟨rfl,rfl⟩
  | stwcx d rs ra rb =>
      have other : c ≠ d := fun same => conditional rs ra rb (same ▸ rfl)
      rw [lifted_other went other]
      exact ⟨rfl,rfl⟩
  | write d addr val =>
      obtain ⟨mem,_,rfl⟩ := Option.map_eq_some_iff.mp went
      exact ⟨rfl,rfl⟩
  | regs d gpr cr lr ctr =>
      cases went
      by_cases same : c = d
      · subst same
        simp only [Function.update_self,and_self]
      · have kept : Function.update s.ctxs d {s.ctxs d with gpr,cr,lr,ctr} c = s.ctxs c :=
          Function.update_of_ne same _ _
        exact ⟨congrArg PpuCtx.reserve_addr kept,congrArg PpuCtx.reserve_value kept⟩

theorem mark_kept (st : Store)
    (apart : ∀ c reserved, c ≠ st.ctx → r c = some reserved → ¬ touches st.addr reserved.word) : r.mark st = r := by
  funext c
  by_cases own : c = st.ctx
  · exact if_pos own
  · rw [Reservations.mark,if_neg own]
    cases held : r c with
    | none => rfl
    | some reserved =>
        have missed : decide (touches st.addr reserved.word) = false := decide_eq_false (apart c reserved own held)
        simp only [Option.map_some,missed,Bool.or_false]

theorem marked_kept (fits : StoreFits r s e) : (e.store s).elim r r.mark = r := by
  cases stores : e.store s with
  | none => rfl
  | some st => exact mark_kept st (fits.1 st stores).1

theorem after_reserved (fits : StoreFits r s e) {reserved : Reserved} (held : r.after s e c = some reserved) :
    (∃ rd ra rb, e = .lwarx c rd ra rb ∧ reserved = ⟨s.address c ra rb,false⟩) ∨
    (r c = some reserved ∧ (∀ rd ra rb, e ≠ .lwarx c rd ra rb) ∧ ∀ rs ra rb, e ≠ .stwcx c rs ra rb) := by
  unfold Reservations.after at held
  rw [marked_kept fits] at held
  cases e with
  | lwarx d rd ra rb =>
      dsimp only at held
      by_cases same : c = d
      · subst same
        rw [Function.update_self] at held
        exact .inl ⟨rd,ra,rb,rfl,(Option.some.inj held).symm⟩
      · rw [Function.update_of_ne same] at held
        exact .inr ⟨held,fun _ _ _ equal => same (PpuEvent.lwarx.inj equal).1.symm,fun _ _ _ equal => by cases equal⟩
  | stwcx d rs ra rb =>
      dsimp only at held
      by_cases same : c = d
      · subst same
        rw [Function.update_self] at held
        cases held
      · rw [Function.update_of_ne same] at held
        exact .inr ⟨held,fun _ _ _ equal => (by cases equal),fun _ _ _ equal => same (PpuEvent.stwcx.inj equal).1.symm⟩
  | write d addr val => exact .inr ⟨held,fun _ _ _ equal => (by cases equal),fun _ _ _ equal => by cases equal⟩
  | regs d gpr cr lr ctr => exact .inr ⟨held,fun _ _ _ equal => (by cases equal),fun _ _ _ equal => by cases equal⟩

theorem completed_store (done : completes r s w e = true) : ∃ c rs ra rb reserved, e = .stwcx c rs ra rb ∧
    r c = some reserved ∧ reserved.word = w ∧ e.store s = some ⟨c,w,(s.ctxs c).reserve_value - 1⟩ := by
  cases e with
  | stwcx c rs ra rb =>
      simp only [completes,Bool.and_eq_true,decide_eq_true_eq] at done
      obtain ⟨⟨⟨held,place⟩,reserve⟩,value⟩ := done
      cases here : r c with
      | none =>
          rw [here] at held
          cases held
      | some reserved =>
          rw [here] at held
          refine ⟨c,rs,ra,rb,reserved,rfl,here,of_decide_eq_true held,?_⟩
          rw [PpuEvent.store,if_pos (place ▸ reserve),place,value]
  | lwarx c rd ra rb => cases done
  | write c addr val => cases done
  | regs c gpr cr lr ctr => cases done

-- A context's reserve_addr is the address of its reservation, or 0.
def Held (r : Reservations) (s : Shared) : Prop :=
  ∀ c, (s.ctxs c).reserve_addr = (r c).elim 0 (·.word.setWidth 64)

theorem mark_word (st : Store) (c : Nat) : ((r.mark st) c).elim (0 : BitVec 64) (·.word.setWidth 64) =
    (r c).elim 0 (·.word.setWidth 64) := by
  unfold Reservations.mark
  split
  · rfl
  · cases r c <;> rfl

theorem marked_word (o : Option Store) (c : Nat) : ((o.elim r r.mark) c).elim (0 : BitVec 64) (·.word.setWidth 64) =
    (r c).elim 0 (·.word.setWidth 64) := by
  cases o with
  | none => rfl
  | some st => exact mark_word st c

theorem held_step (held : Held r s) (went : e.apply fuel s = some next) : Held (r.after s e) next := by
  intro d
  cases e with
  | lwarx c rd ra rb =>
      have loaded : s.lifted fuel c (.lwarx rd ra rb) = some next := went
      simp only [Reservations.after]
      by_cases own : d = c
      · rw [own,Function.update_self]
        exact (lwarx_effect loaded).2.1
      · rw [Function.update_of_ne own,lifted_other loaded own,marked_word]
        exact held d
  | stwcx c rs ra rb =>
      have tried : s.lifted fuel c (.stwcx rs ra rb) = some next := went
      simp only [Reservations.after]
      by_cases own : d = c
      · rw [own,Function.update_self]
        exact stwcx_reservation tried
      · rw [Function.update_of_ne own,lifted_other tried own,marked_word]
        exact held d
  | write c addr val =>
      rw [(reservation_kept went (by intro _ _ _ same; cases same) (by intro _ _ _ same; cases same)).1]
      exact (held d).trans (mark_word ⟨c,low32 addr,val⟩ d).symm
  | regs c gpr cr lr ctr =>
      rw [(reservation_kept went (by intro _ _ _ same; cases same) (by intro _ _ _ same; cases same)).1]
      exact held d

-- The reservations that stand, and, for one word, the values that were read there.
def Standing (r : Reservations) : Prop := ∀ c reserved, r c = some reserved → reserved.lost = false

def Current (r : Reservations) (s : Shared) (w : BitVec 32) : Prop :=
  ∀ c reserved, r c = some reserved → reserved.word = w → (s.ctxs c).reserve_value = s.word w

theorem standing_step (standing : Standing r) (fits : StoreFits r s e) : Standing (r.after s e) := by
  intro c reserved held
  rcases after_reserved fits held with ⟨_,_,_,_,rfl⟩ | ⟨before,_,_⟩
  · rfl
  · exact standing c reserved before

-- Where the code stores, reserve_addr is the address, so that the reservation is of it.
theorem conditional_standing (standing : Standing r) (held : Held r s) (fits : StoreFits r s e) :
    Conditional r s e := by
  cases e with
  | stwcx c rs ra rb =>
      intro stores
      have same : (s.ctxs c).reserve_addr = (s.address c ra rb).setWidth 64 :=
        not_not.mp fun other => stores (if_neg other)
      rw [held c] at same
      cases here : r c with
      | none =>
          rw [here] at same
          have zero : low32 0 = s.address c ra rb := (congrArg low32 same).trans (low32_zext _)
          exact absurd zero.symm (fits.2 c rs ra rb rfl here)
      | some reserved =>
          rw [here] at same
          have word : reserved.word = s.address c ra rb :=
            (low32_zext _).symm.trans ((congrArg low32 same).trans (low32_zext _))
          rw [← word,← standing c reserved here]
  | lwarx c rd ra rb => trivial
  | write c addr val => trivial
  | regs c gpr cr lr ctr => trivial

theorem current_step (current : Current r s w) (fits : StoreFits r s e) (went : e.apply fuel s = some next)
    (loops : ∀ st, e.store s = some st → touches st.addr w → completes r s w e = true) :
    Current (r.after s e) next w := by
  intro c reserved held same
  rcases after_reserved fits held with ⟨rd,ra,rb,rfl,rfl⟩ | ⟨before,load,conditional⟩
  · have loaded : s.lifted fuel c (.lwarx rd ra rb) = some next := went
    obtain ⟨mem,_,value⟩ := lwarx_effect loaded
    have place : s.address c ra rb = w := same
    rw [value,place,Shared.word,Shared.word,mem]
  · -- A store that touches the word is another context's, and would hit this reservation.
    have missed : ∀ st, e.store s = some st → ¬ touches st.addr w := by
      intro st stores hit
      obtain ⟨d,rs,ra,rb,_,rfl,_,_,made⟩ := completed_store (loops st stores hit)
      obtain rfl := Option.some.inj (stores.symm.trans made)
      by_cases own : c = d
      · exact conditional rs ra rb (own ▸ rfl)
      · exact (fits.1 _ stores).1 c reserved own before (same ▸ hit)
    rw [(reservation_kept went load conditional).2,word_kept went missed]
    exact current c reserved before same

theorem completed_lowers (current : Current r s w) (fits : StoreFits r s e) (went : e.apply fuel s = some next)
    (done : completes r s w e = true) : next.word w = s.word w - 1 := by
  obtain ⟨c,rs,ra,rb,reserved,rfl,held,same,made⟩ := completed_store done
  have plain := (fits.1 _ made).2 ⟨c,rs,ra,rb,rfl⟩
  have tried : s.lifted fuel c (.stwcx rs ra rb) = some next := went
  rcases stwcx_effect tried with ⟨none_,_⟩ | ⟨stores,wrote⟩
  · rw [none_] at made
    cases made
  · have equal := Option.some.inj (stores.symm.trans made)
    have place : s.address c ra rb = w := congrArg Store.addr equal
    have value : low32 ((s.ctxs c).gpr rs) = (s.ctxs c).reserve_value - 1 := congrArg Store.val equal
    rw [value] at wrote
    have here : low32 ((s.ctxs c).gpr ra + (s.ctxs c).gpr rb) = w := place
    have stored := written_here wrote (by rw [here]; exact plain)
    rw [here] at stored
    rw [Shared.word,stored,current c reserved held same]

theorem conditional_over (standing : Standing r) (held : Held r s) (events : List PpuEvent)
    (fits : StoresFit fuel r s events) : ConditionalOver fuel r s events := by
  induction events generalizing r s with
  | nil => trivial
  | cons e events ih =>
      obtain ⟨here,later⟩ := fits
      refine ⟨conditional_standing standing held here,fun next went => ?_⟩
      exact ih (standing_step standing here) (held_step held went) (later next went)

theorem loops_lower (current : Current r s w) (events : List PpuEvent) (fits : StoresFit fuel r s events)
    (loops : OnlyLoops fuel w r s events) (ran : shared_run fuel w r s events = some (n,final)) :
    final.word w = s.word w - BitVec.ofNat 32 n := by
  induction events generalizing r s n with
  | nil =>
      cases ran
      exact (BitVec.sub_zero _).symm
  | cons e events ih =>
      obtain ⟨next,went,rest⟩ := Option.bind_eq_some_iff.mp ran
      obtain ⟨⟨m,last⟩,later,same⟩ := Option.map_eq_some_iff.mp rest
      cases same
      obtain ⟨here,fit⟩ := fits
      have lowered := ih (current_step current here went loops.1) (fit next went) (loops.2 next went) later
      by_cases done : completes r s w e = true
      · rw [lowered,completed_lowers current here went done,if_pos done,BitVec.ofNat_add]
        grind
      · have missed : ∀ st, e.store s = some st → ¬ touches st.addr w :=
          fun st stores hit => done (loops.1 st stores hit)
        rw [lowered,word_kept went missed,if_neg done,Nat.add_zero]

end Effects

-- From a state in which nobody holds a reservation: a context starts zeroed.
theorem conditional_stores_hold (fuel : Nat) (s : Shared) (events : List PpuEvent)
    (start : ∀ c, (s.ctxs c).reserve_addr = 0) (fits : StoresFit fuel (fun _ => none) s events) :
    ConditionalOver fuel (fun _ => none) s events ∧
      ∀ w n final, OnlyLoops fuel w (fun _ => none) s events →
        shared_run fuel w (fun _ => none) s events = some (n,final) →
          final.word w = s.word w - BitVec.ofNat 32 n :=
  ⟨conditional_over (fun _ _ held => absurd held.symm (Option.some_ne_none _)) start events fits,fun _ _ _ loops ran =>
    loops_lower (fun _ _ held => absurd held.symm (Option.some_ne_none _)) events fits loops ran⟩

def counting : Shared where
  ctxs := fun _ => ⟨fun r => if r = 4 then 0x1000 else 0,0,0,0,0,0⟩
  mem := ⟨fun a => if a = 0x1003 then 1 else 0,rsx_init⟩

def decrement (c : Nat) : List PpuEvent := [.lwarx c 3 0 4,.stwcx c 0 0 4]

theorem conditional_stores_hold_alone : ConditionalOver 0 (fun _ => none) counting (decrement 0) ∧
    ∀ w n final, OnlyLoops 0 w (fun _ => none) counting (decrement 0) →
      shared_run 0 w (fun _ => none) counting (decrement 0) = some (n,final) →
        final.word w = counting.word w - BitVec.ofNat 32 n := by
  refine conditional_stores_hold 0 counting (decrement 0) (fun _ => rfl) ⟨⟨fun st stores => ?_,nofun⟩,fun first one => ?_⟩
  · exact absurd stores.symm (Option.some_ne_none _)
  cases one
  refine ⟨⟨fun st stores => ?_,fun c rs ra rb same unreserved => ?_⟩,fun _ _ => trivial⟩
  · cases stores
    refine ⟨fun c reserved other held => ?_,fun _ => by decide⟩
    have away : c ≠ 0 := other
    have kept : Function.update (fun _ => none : Reservations) 0 (some ⟨counting.address 0 0 4,false⟩) c =
        some reserved := held
    rw [Function.update_of_ne away] at kept
    cases kept
  · cases same
    have kept : Function.update (fun _ => none : Reservations) 0 (some ⟨counting.address 0 0 4,false⟩) 0 = none :=
      unreserved
    rw [Function.update_self] at kept
    cases kept

-- Both contexts load the count of 1, and both stores report success.
theorem second_store_is_not_refused : ¬ ∀ (fuel : Nat) (s : Shared) (events : List PpuEvent),
    (∀ c, (s.ctxs c).reserve_addr = 0) → ConditionalOver fuel (fun _ => none) s events := by
  intro law
  have run := law 0 counting [.lwarx 0 3 0 4,.lwarx 1 3 0 4,.stwcx 0 0 0 4,.stwcx 1 0 0 4] fun _ => rfl
  let none_ : Reservations := fun _ => none
  have lost : ((PpuEvent.lwarx 0 3 0 4).apply 0 counting).bind (fun s => ((PpuEvent.lwarx 1 3 0 4).apply 0 s).bind
      fun t => ((PpuEvent.stwcx 0 0 0 4).apply 0 t).map fun u => (((PpuEvent.stwcx 1 0 0 4).store u).isSome,
        (((none_.after counting (.lwarx 0 3 0 4)).after s (.lwarx 1 3 0 4)).after t (.stwcx 0 0 0 4)) 1)) =
      some (true,some ⟨0x1000,true⟩) := by decide +kernel
  obtain ⟨s,first,rest⟩ := Option.bind_eq_some_iff.mp lost
  obtain ⟨t,second,rest⟩ := Option.bind_eq_some_iff.mp rest
  obtain ⟨u,third,facts⟩ := Option.map_eq_some_iff.mp rest
  have stores := congrArg Prod.fst facts
  have held := congrArg Prod.snd facts
  have last := (((run.2 s first).2 t second).2 u third).1
  have kept := (last (Option.isSome_iff_ne_none.mp stores)).symm.trans held
  exact Bool.noConfusion (congrArg Reserved.lost (Option.some.inj kept))

end BudokaiRuntime.Ppu
