import Mathlib.Algebra.Order.Ring.Nat

/-!
# Cutting a list into pieces
-/

namespace OpsAgent.Lib
open List

variable {α : Type*}

def pieces (n : Nat) (l : List α) : List (List α) :=
  if n=0 ∨ l=[] then [] else l.take n::pieces n (l.drop n)
termination_by l.length
decreasing_by
  have := length_pos_iff.mpr (show l≠[] by tauto)
  rw [length_drop]
  omega

variable {n : Nat} {l : List α}

theorem pieces_nil (n : Nat) : pieces n ([] : List α)=[] := by rw [pieces,if_pos (.inr rfl)]
theorem pieces_of_ne_nil (hn : 0<n) (hl : l≠[]) : pieces n l=l.take n::pieces n (l.drop n) := by
  rw [pieces,if_neg (by simp [hl]; omega)]

theorem pieces_induction {P : List α → Prop} (hn : 0<n) (hnil : P [])
    (hcut : ∀ l, l≠[] → P (l.drop n) → P l) (l : List α) : P l := by
  induction hlen : l.length using Nat.strong_induction_on generalizing l with
  | _ k ih =>
    by_cases hl : l=[]
    · rw [hl]
      exact hnil
    · have hpos:=length_pos_iff.mpr hl
      refine hcut l hl (ih (l.drop n).length ?_ (l.drop n) rfl)
      rw [length_drop]
      omega

theorem flatten_pieces (hn : 0<n) (l : List α) : (pieces n l).flatten=l := by
  induction l using pieces_induction hn with
  | hnil => rw [pieces_nil,flatten_nil]
  | hcut l hl ih => rw [pieces_of_ne_nil hn hl,flatten_cons,ih,take_append_drop]

theorem length_le_of_mem_pieces (hn : 0<n) (l : List α) : ∀ p∈pieces n l, p.length≤n := by
  induction l using pieces_induction hn with
  | hnil => simp [pieces_nil]
  | hcut l hl ih =>
    rw [pieces_of_ne_nil hn hl]
    intro p hp
    rcases mem_cons.mp hp with rfl | hp
    · exact length_take_le n l
    · exact ih p hp

theorem sum_pieces (hn : 0<n) (f : Nat → Nat) (hf : f 0=0) (l : List α) :
    ((pieces n l).map fun p => f p.length).sum=l.length / n*f n+f (l.length % n) := by
  induction l using pieces_induction hn with
  | hnil => simp [pieces_nil,hf]
  | hcut l hl ih =>
    rw [pieces_of_ne_nil hn hl,map_cons,sum_cons,ih,length_take,length_drop]
    by_cases hlt : l.length<n
    · have hpos:=length_pos_iff.mpr hl
      rw [Nat.min_eq_right hlt.le,Nat.sub_eq_zero_of_le hlt.le,Nat.div_eq_of_lt hlt,
        Nat.mod_eq_of_lt hlt]
      simp [hf]
    · have hle : n≤l.length := Nat.le_of_not_lt hlt
      rw [Nat.min_eq_left hle,Nat.div_eq_sub_div hn hle,← Nat.mod_eq_sub_mod hle,Nat.add_mul,
        Nat.one_mul]
      omega

end OpsAgent.Lib
