import Mathlib.Data.List.DropRight
import Mathlib.Data.Nat.ModEq

/-!
# Bounded queues that drop their oldest element, and circular indices

`push` is the abstract operation: a full queue gives up its front before the new element goes to the
back.
-/

namespace OpsAgent.Lib.BoundedFifo

variable {α : Type*} (cap : Nat)

def push (cap : Nat) (q : List α) (x : α) : List α :=
  if q.length=cap then q.tail++[x] else q++[x]
def dropped (cap : Nat) (q : List α) : List α :=
  if q.length=cap then q.take 1 else []

theorem dropped_append_push (q : List α) (x : α) : dropped cap q++push cap q x=q++[x] := by
  unfold dropped push
  split
  · cases q with
    | nil | cons y ys => rfl
  · rfl

/-- Pushing keeps the last `cap` of everything pushed. -/
theorem push_rtake (xs : List α) (x : α) (hc : 0<cap) :
    push cap (xs.rtake cap) x=(xs++[x]).rtake cap := by
  obtain ⟨n,rfl⟩ : ∃ n, cap=n+1 := ⟨cap-1,by omega⟩
  rw [List.rtake_concat_succ]
  unfold push
  by_cases hl : (xs.rtake (n+1)).length=n+1
  · rw [if_pos hl]
    have htail : (xs.rtake (n+1)).tail=xs.rtake n := by
      simp only [List.rtake,List.length_drop] at hl ⊢
      rw [List.tail_drop]
      congr 1
      omega
    rw [htail]
  · rw [if_neg hl]
    have hshort : xs.length≤n := by
      simp only [List.rtake,List.length_drop] at hl
      omega
    have hfull : xs.rtake (n+1)=xs.rtake n := by
      simp only [List.rtake]
      congr 1
      omega
    rw [hfull]

theorem rtake_length (n : Nat) (xs : List α) : (xs.rtake n).length=min n xs.length := by
  rw [List.rtake,List.length_drop]
  omega

def slot (n t i : Nat) : Nat := (t+i) % n

variable (n t i : Nat)

theorem slot_lt (hn : 0<n) : slot n t i<n := Nat.mod_lt _ hn
theorem slot_zero (n t : Nat) (ht : t<n) : slot n t 0=t := Nat.mod_eq_of_lt ht
theorem slot_inj {n t i j : Nat} (hi : i<n) (hj : j<n) (h : slot n t i=slot n t j) : i=j := by
  have hm : i ≡ j [MOD n] := Nat.ModEq.add_left_cancel' t h
  rw [Nat.ModEq,Nat.mod_eq_of_lt hi,Nat.mod_eq_of_lt hj] at hm
  exact hm
theorem slot_full (n t : Nat) (ht : t<n) : slot n t n=t := by
  rw [slot,Nat.add_mod_right,Nat.mod_eq_of_lt ht]
theorem slot_succ : slot n t (i+1)=(slot n t i+1) % n := by
  rw [slot,slot,Nat.mod_add_mod,Nat.add_assoc]
theorem slot_advance : slot n ((t+1) % n) i=slot n t (i+1) := by
  rw [slot,slot,Nat.mod_add_mod,Nat.add_assoc,Nat.add_comm 1 i]

theorem slot_surj (n t j : Nat) (ht : t<n) (hj : j<n) : ∃ i, i<n ∧ slot n t i=j := by
  by_cases h : t≤j
  · refine ⟨j-t,by omega,?_⟩
    rw [slot,Nat.add_sub_cancel' h,Nat.mod_eq_of_lt hj]
  · refine ⟨j+n-t,by omega,?_⟩
    have hs : t+(j+n-t)=j+n := by omega
    rw [slot,hs,Nat.add_mod_right,Nat.mod_eq_of_lt hj]

end OpsAgent.Lib.BoundedFifo
