import Mathlib.Data.Int.ConditionallyCompleteOrder
import Mathlib.Order.ConditionallyCompleteLattice.Basic

/-!
# Streaks in a sequence of timed observations

A streak is a stretch of observations that all hold, from its first one on.
-/

namespace OpsAgent.Lib.Streaks

variable {p : ℕ → Bool} {t : ℕ → ℤ} {d : ℤ} {i j k m : ℕ}

structure Streak (p : ℕ → Bool) (j k : ℕ) : Prop where
  le : j≤k
  holds : ∀ m, j ≤ m → m≤k → p m
  starts : ∀ i, j=i+1 → p i=false

def Long (p : ℕ → Bool) (t : ℕ → ℤ) (d : ℤ) (k : ℕ) : Prop := ∃ j, Streak p j k ∧ d≤t k-t j
def Reaches (p : ℕ → Bool) (t : ℕ → ℤ) (d : ℤ) (j k : ℕ) : Prop :=
  Streak p j k ∧ d≤t k-t j ∧ ∀ m, j ≤ m → m<k → t m-t j<d

theorem Streak.last (h : Streak p j k) : p k := h.holds k h.le le_rfl
theorem Streak.shorten (h : Streak p j k) (hj : j ≤ m) (hm : m≤k) : Streak p j m :=
  ⟨hj,fun n hn hnm => h.holds n hn (hnm.trans hm),h.starts⟩

theorem Streak.extend (h : Streak p j k) (hk : p (k+1)) : Streak p j (k+1) := by
  refine ⟨h.le.trans (Nat.le_succ k),?_,h.starts⟩
  intro m hj hm
  rcases Nat.lt_or_eq_of_le hm with hm | rfl
  · exact h.holds m hj (Nat.le_of_lt_succ hm)
  · exact hk

theorem Streak.begin (hk : p k) (hstarts : ∀ i, k=i+1 → p i=false) : Streak p k k := by
  refine ⟨le_rfl,?_,hstarts⟩
  intro m hkm hmk
  rw [Nat.le_antisymm hmk hkm]
  exact hk

theorem Streak.start_unique (hi : Streak p i k) (hj : Streak p j k) : i=j := by
  have start_le : ∀ {a b : ℕ}, Streak p a k → Streak p b k → b≤a := by
    intro a b ha hb
    by_contra hlt
    obtain ⟨c,rfl⟩ := Nat.exists_eq_succ_of_ne_zero (Nat.ne_zero_of_lt (Nat.lt_of_not_le hlt))
    have hc:=ha.holds c (Nat.le_of_lt_succ (Nat.lt_of_not_le hlt)) ((Nat.le_succ c).trans hb.le)
    rw [hb.starts c rfl] at hc
    cases hc
  exact Nat.le_antisymm (start_le hj hi) (start_le hi hj)

theorem Long.last (h : Long p t d k) : p k := h.choose_spec.1.last

theorem Long.iff_of_streak (h : Streak p j k) : Long p t d k ↔ d≤t k-t j := by
  constructor
  · rintro ⟨i,hi,hd⟩
    rw [hi.start_unique h] at hd
    exact hd
  · exact fun hd => ⟨j,h,hd⟩

theorem Long.extend (ht : Monotone t) (h : Long p t d k) (hk : p (k+1)) : Long p t d (k+1) := by
  obtain ⟨j,hj,hd⟩ := h
  have hle:=ht (Nat.le_add_right k 1)
  exact ⟨j,hj.extend hk,by omega⟩

theorem exists_reaches_iff (ht : Monotone t) :
    (∃ j, Reaches p t d j k) ↔ Long p t d k ∧ ∀ i, k=i+1 → ¬ Long p t d i := by
  constructor
  · rintro ⟨j,hj,hd,hfirst⟩
    refine ⟨⟨j,hj,hd⟩,?_⟩
    rintro i rfl hi
    rcases Nat.lt_or_eq_of_le hj.le with hlt | rfl
    · have hshort:=hj.shorten (Nat.le_of_lt_succ hlt) (Nat.le_succ i)
      have hlong:=(Long.iff_of_streak hshort).mp hi
      have := hfirst i (Nat.le_of_lt_succ hlt) (Nat.lt_succ_self i)
      omega
    · have hlast:=hi.last
      rw [hj.starts i rfl] at hlast
      cases hlast
  · rintro ⟨⟨j,hj,hd⟩,hbefore⟩
    refine ⟨j,hj,hd,?_⟩
    intro m hjm hmk
    by_contra hlong
    obtain ⟨i,rfl⟩ := Nat.exists_eq_succ_of_ne_zero (Nat.ne_zero_of_lt hmk)
    have hle:=ht (Nat.le_of_lt_succ hmk)
    have hshort:=hj.shorten (hjm.trans (Nat.le_of_lt_succ hmk)) (Nat.le_succ i)
    exact hbefore i rfl ⟨j,hshort,by omega⟩

theorem existsUnique_reaches (h : Streak p j k) (hlong : Long p t d k) :
    ∃! m, (j ≤ m ∧ m≤k) ∧ ∃ i, Reaches p t d i m := by
  have hex : ∃ m, j ≤ m ∧ d≤t m-t j := ⟨k,h.le,(Long.iff_of_streak h).mp hlong⟩
  have hfind:=Nat.find_spec hex
  have hle : Nat.find hex≤k := Nat.find_min' hex ⟨h.le,(Long.iff_of_streak h).mp hlong⟩
  refine ⟨Nat.find hex,⟨⟨hfind.1,hle⟩,j,h.shorten hfind.1 hle,hfind.2,?_⟩,?_⟩
  · intro m hjm hm
    by_contra hd
    exact Nat.find_min hex hm ⟨hjm,by omega⟩
  · rintro m ⟨⟨hjm,hmk⟩,i,hi,hd,hfirst⟩
    have hij:=hi.start_unique (h.shorten hjm hmk)
    subst hij
    refine Nat.le_antisymm ?_ (Nat.find_min' hex ⟨hjm,hd⟩)
    by_contra hlt
    have := hfirst (Nat.find hex) hfind.1 (Nat.lt_of_not_le hlt)
    omega

end OpsAgent.Lib.Streaks
