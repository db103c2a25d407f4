import Mathlib.Order.Lattice
import Mathlib.Data.List.Basic

-- Keeping the best of what comes by: a challenger replaces the champion when its key is
-- strictly above, and an element without a key neither beats nor is beaten.
namespace BudokaiRuntime.Champion

section Order
variable {α κ : Type} [LinearOrder κ] (key : α → Option κ)

def Beats (x y : α) : Prop := ∃ p q, key x = some p ∧ key y = some q ∧ q < p

instance (x y : α) : Decidable (Beats key x y) :=
  match left : key x,right : key y with
  | some p,some q => decidable_of_iff (q < p)
      ⟨fun less => ⟨p,q,left,right,less⟩,fun ⟨_,_,one,two,less⟩ => by
        cases left.symm.trans one
        cases right.symm.trans two
        exact less⟩
  | none,_ => isFalse fun ⟨_,_,one,_,_⟩ => nomatch left.symm.trans one
  | some _,none => isFalse fun ⟨_,_,_,two,_⟩ => nomatch right.symm.trans two

def challenge (best x : α) : α := if Beats key x best then x else best

-- What is left in the end: the start, or the first among those with the greatest key.
structure Wins (start : α) (l : List α) (r : α) : Prop where
  origin : r = start ∨ r ∈ l ∧ Beats key r start
  unbeaten : ∀ x ∈ l, ¬ Beats key x r

variable {key} {x y z start r r' : α} {l l' : List α}

theorem beats_irrefl (x : α) : ¬ Beats key x x := by
  rintro ⟨p,q,one,two,less⟩
  cases one.symm.trans two
  exact lt_irrefl p less

theorem beats_trans (first : Beats key x y) (second : Beats key y z) : Beats key x z := by
  obtain ⟨p,q,one,two,less⟩ := first
  obtain ⟨q',s,two',three,less'⟩ := second
  cases two.symm.trans two'
  exact ⟨p,s,one,three,less'.trans less⟩

theorem wins_fold (start : α) (l : List α) : Wins key start l (l.foldl (challenge key) start) := by
  induction l generalizing start with
  | nil => exact ⟨.inl rfl,nofun⟩
  | cons x l ih =>
      obtain ⟨origin,unbeaten⟩ := ih (challenge key start x)
      rw [List.foldl_cons]
      generalize l.foldl (challenge key) (challenge key start x) = r at origin unbeaten ⊢
      unfold challenge at origin
      split at origin
      · rename_i beaten
        rcases origin with rfl | ⟨member,above⟩
        · refine ⟨.inr ⟨List.mem_cons_self,beaten⟩,?_⟩
          intro y here
          rcases List.mem_cons.mp here with rfl | later
          · exact beats_irrefl y
          · exact unbeaten y later
        · refine ⟨.inr ⟨List.mem_cons_of_mem x member,beats_trans above beaten⟩,?_⟩
          intro y here
          rcases List.mem_cons.mp here with rfl | later
          · exact fun back => beats_irrefl y (beats_trans back above)
          · exact unbeaten y later
      · rename_i kept
        rcases origin with rfl | ⟨member,above⟩
        · refine ⟨.inl rfl,?_⟩
          intro y here
          rcases List.mem_cons.mp here with rfl | later
          · exact kept
          · exact unbeaten y later
        · refine ⟨.inr ⟨List.mem_cons_of_mem x member,above⟩,?_⟩
          intro y here
          rcases List.mem_cons.mp here with rfl | later
          · exact fun back => kept (beats_trans back above)
          · exact unbeaten y later

theorem wins_unique (one : Wins key start l r) (two : Wins key start l' r') (same : ∀ x, x ∈ l ↔ x ∈ l') :
    r = r' ∨ r ∈ l ∧ r' ∈ l ∧ ∃ p, key r = some p ∧ key r' = some p := by
  rcases one.origin with rfl | ⟨member,above⟩
  · rcases two.origin with rfl | ⟨member',above'⟩
    · exact .inl rfl
    · exact absurd above' (one.unbeaten r' ((same r').mpr member'))
  · rcases two.origin with rfl | ⟨member',above'⟩
    · exact absurd above (two.unbeaten r ((same r).mp member))
    · obtain ⟨p,_,here,_,_⟩ := above
      obtain ⟨q,_,there,_,_⟩ := above'
      refine .inr ⟨member,(same r').mpr member',p,here,?_⟩
      rcases lt_trichotomy p q with less | rfl | more
      · exact absurd ⟨q,p,there,here,less⟩ (one.unbeaten r' ((same r').mpr member'))
      · exact there
      · exact absurd ⟨p,q,here,there,more⟩ (two.unbeaten r ((same r).mp member))
end Order

end BudokaiRuntime.Champion
