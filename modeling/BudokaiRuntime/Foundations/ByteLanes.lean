import Mathlib.Algebra.Order.Ring.Nat
import Mathlib.Logic.Equiv.Fin.Basic

namespace BudokaiRuntime.ByteLanes

def ofBits (bit : Fin w → Bool) : BitVec w := (BitVec.iunfoldr (fun i (_ : Unit) => ((),bit i)) ()).2

theorem getLsbD_ofBits (bit : Fin w → Bool) (i : Nat) (bound : i < w) :
    (ofBits bit).getLsbD i = bit ⟨i,bound⟩ :=
  BitVec.iunfoldr_getLsbD (fun _ => ()) ⟨i,bound⟩ fun _ => rfl

-- Big-endian reading of a byte vector: byte 0 is the most significant one.
def ofBytes (b : Fin k → BitVec 8) : BitVec (8*k) :=
  ofBits fun i => (b ⟨k-1-i/8,by omega⟩).getLsbD (i%8)

def byteAt (v : BitVec (8*k)) (j : Fin k) : BitVec 8 := v.extractLsb' (8*(k-1-j)) 8

theorem getLsbD_ofBytes (b : Fin k → BitVec 8) (i : Nat) (bound : i < 8*k) :
    (ofBytes b).getLsbD i = (b ⟨k-1-i/8,by omega⟩).getLsbD (i%8) :=
  getLsbD_ofBits _ i bound

theorem getLsbD_byteAt (v : BitVec (8*k)) (j : Fin k) (i : Nat) :
    (byteAt v j).getLsbD i = (decide (i < 8) && v.getLsbD (8*(k-1-j)+i)) := by
  simp [byteAt]

@[simp] theorem byteAt_ofBytes (b : Fin k → BitVec 8) (j : Fin k) : byteAt (ofBytes b) j = b j := by
  apply BitVec.eq_of_getLsbD_eq
  intro i bound
  have inside : 8*(k-1-j.val)+i < 8*k := by omega
  have quotient : k-1-(8*(k-1-j.val)+i)/8 = j.val := by omega
  have remainder : (8*(k-1-j.val)+i)%8 = i := by omega
  rw [getLsbD_byteAt,getLsbD_ofBytes _ _ inside]
  simp only [bound,decide_true,Bool.true_and,quotient,remainder]

@[simp] theorem ofBytes_byteAt (v : BitVec (8*k)) : ofBytes (byteAt v) = v := by
  apply BitVec.eq_of_getLsbD_eq
  intro i bound
  have place : 8*(k-1-(k-1-i/8))+i%8 = i := by omega
  have small : i%8 < 8 := Nat.mod_lt _ (by decide)
  rw [getLsbD_ofBytes _ _ bound,getLsbD_byteAt]
  simp only [small,decide_true,Bool.true_and,place]

theorem bytes_ext {v w : BitVec (8*k)} (same : ∀ j, byteAt v j = byteAt w j) : v = w := by
  rw [← ofBytes_byteAt v,← ofBytes_byteAt w,funext same]

def ofBytesLe (b : Fin k → BitVec 8) : BitVec (8*k) := ofBytes fun j => b j.rev

theorem ofBytes_inj {b c : Fin k → BitVec 8} : ofBytes b = ofBytes c ↔ b = c := by
  refine ⟨fun same => funext fun j => ?_,congrArg ofBytes⟩
  rw [← byteAt_ofBytes b,same,byteAt_ofBytes]

theorem readings_agree_iff (b : Fin k → BitVec 8) : ofBytesLe b = ofBytes b ↔ ∀ j, b j.rev = b j :=
  ofBytes_inj.trans funext_iff

def lane (r : Fin (m*k) → BitVec 8) (i : Fin m) : BitVec (8*k) :=
  ofBytes fun j => r (finProdFinEquiv (i,j))

def ofLanes (v : Fin m → BitVec (8*k)) : Fin (m*k) → BitVec 8 :=
  fun b => byteAt (v b.divNat) b.modNat

theorem divNat_pair (i : Fin m) (j : Fin k) : (finProdFinEquiv (i,j)).divNat = i :=
  congrArg Prod.fst (finProdFinEquiv.symm_apply_apply (i,j))

theorem modNat_pair (i : Fin m) (j : Fin k) : (finProdFinEquiv (i,j)).modNat = j :=
  congrArg Prod.snd (finProdFinEquiv.symm_apply_apply (i,j))

@[simp] theorem lane_ofLanes (v : Fin m → BitVec (8*k)) (i : Fin m) : lane (ofLanes v) i = v i := by
  simp only [lane,ofLanes,divNat_pair,modNat_pair]
  exact ofBytes_byteAt (v i)

@[simp] theorem ofLanes_lane (r : Fin (m*k) → BitVec 8) : ofLanes (lane r) = r := by
  funext b
  simp only [ofLanes,lane,byteAt_ofBytes]
  exact congrArg r (finProdFinEquiv.apply_symm_apply b)

theorem lanes_ext {r s : Fin (m*k) → BitVec 8} (same : ∀ i, lane r i = lane s i) : r = s := by
  rw [← ofLanes_lane r,← ofLanes_lane s,funext same]

end BudokaiRuntime.ByteLanes
