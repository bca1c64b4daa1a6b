import Mathlib.Data.List.Dedup
import Mathlib.Data.List.Sort

/-!
# Sorting by exchanges
-/

namespace OpsAgent.Lib
open List

variable {α : Type*} [LinearOrder α]
  (x : α) (n : Nat)

def sweep : α → List α → α × List α
  | x, [] => (x,[])
  | x, y::ys =>
    if y<x then
      let r:=sweep y ys
      (r.1,x::r.2)
    else
      let r:=sweep x ys
      (r.1,y::r.2)

def exchangeRounds : Nat → List α → List α
  | 0, xs => xs
  | _+1, [] => []
  | n+1, x::xs =>
    let r:=sweep x xs
    r.1::exchangeRounds n r.2

def exchangeSort (xs : List α) : List α := exchangeRounds xs.length xs

theorem sweep_perm (ys : List α) : ((sweep x ys).1::(sweep x ys).2).Perm (x::ys) := by
  induction ys generalizing x with
  | nil => exact List.Perm.refl _
  | cons y ys ih =>
    rw [sweep]
    split
    · exact (List.Perm.swap x _ _).trans ((ih y).cons x)
    · exact (List.Perm.swap y _ _).trans (((ih x).cons y).trans (List.Perm.swap x y ys))

theorem sweep_length (ys : List α) : (sweep x ys).2.length=ys.length := by
  have h:=(sweep_perm x ys).length_eq
  simpa using h

theorem sweep_fst_le (ys : List α) : ∀ z∈x::ys, (sweep x ys).1≤z := by
  induction ys generalizing x with
  | nil => simp [sweep]
  | cons y ys ih =>
    have hx:=ih x
    have hy:=ih y
    simp only [forall_mem_cons] at hx hy ⊢
    rw [sweep]
    split
    case isTrue hlt => exact ⟨le_trans hy.1 (le_of_lt hlt),hy.1,hy.2⟩
    case isFalse hle => exact ⟨hx.1,le_trans hx.1 (not_lt.mp hle),hx.2⟩

theorem exchangeRounds_perm (xs : List α) : (exchangeRounds n xs).Perm xs := by
  induction n generalizing xs with
  | zero => exact List.Perm.refl _
  | succ n ih =>
    cases xs with
    | nil => exact List.Perm.refl _
    | cons x xs => exact ((ih (sweep x xs).2).cons _).trans (sweep_perm x xs)

theorem exchangeRounds_sorted (xs : List α) (h : xs.length≤n) :
    (exchangeRounds n xs).Pairwise (· ≤ ·) := by
  induction n generalizing xs with
  | zero =>
    rw [length_eq_zero_iff.mp (Nat.le_zero.mp h)]
    exact List.Pairwise.nil
  | succ n ih =>
    cases xs with
    | nil => exact List.Pairwise.nil
    | cons x xs =>
      have hlen : (sweep x xs).2.length≤n := by
        rw [sweep_length]
        simpa using h
      refine pairwise_cons.mpr ⟨fun z hz => ?_,ih _ hlen⟩
      have hz' : z∈(sweep x xs).2 := (exchangeRounds_perm n _).mem_iff.mp hz
      exact sweep_fst_le x xs z ((sweep_perm x xs).mem_iff.mp (mem_cons_of_mem _ hz'))

theorem exchangeSort_perm (xs : List α) : (exchangeSort xs).Perm xs := exchangeRounds_perm _ xs
theorem exchangeSort_sorted (xs : List α) : (exchangeSort xs).Pairwise (· ≤ ·) :=
  exchangeRounds_sorted _ xs (Nat.le_refl _)

variable {xs ys : List α}

theorem eq_of_perm_of_sorted (h : xs.Perm ys) (hx : xs.Pairwise (· ≤ ·))
    (hy : ys.Pairwise (· ≤ ·)) : xs=ys :=
  h.eq_of_pairwise (fun _ _ _ _ hab hba => le_antisymm hab hba) hx hy
theorem exchangeSort_eq_of_sorted (h : ys.Perm xs) (hy : ys.Pairwise (· ≤ ·)) : exchangeSort xs=ys :=
  eq_of_perm_of_sorted ((exchangeSort_perm xs).trans h.symm) (exchangeSort_sorted xs) hy

variable {σ : Type*} {f : σ → α → σ}

theorem foldl_dedup_of_sorted (hf : ∀ s a, f (f s a) a=f s a) (xs : List α)
    (hx : xs.Pairwise (· ≤ ·)) (s : σ) : xs.dedup.foldl f s=xs.foldl f s := by
  induction xs generalizing s with
  | nil => rfl
  | cons x xs ih =>
    by_cases hmem : x∈xs
    · rw [dedup_cons_of_mem hmem]
      cases xs with
      | nil => cases hmem
      | cons y ys =>
        have hxy : y=x := by
          have hle:=(pairwise_cons.mp hx).1 y mem_cons_self
          rcases mem_cons.mp hmem with heq | hin
          · exact heq.symm
          · exact le_antisymm ((pairwise_cons.mp (pairwise_cons.mp hx).2).1 x hin) hle
        rw [ih (pairwise_cons.mp hx).2,hxy]
        simp [hf]
    · rw [dedup_cons_of_notMem hmem]
      exact ih (pairwise_cons.mp hx).2 (f s x)

theorem foldl_eq_of_sorted (hf : ∀ s a, f (f s a) a=f s a)
    (hx : xs.Pairwise (· ≤ ·)) (hy : ys.Pairwise (· ≤ ·)) (h : ∀ a, a∈xs ↔ a∈ys) (s : σ) :
    xs.foldl f s=ys.foldl f s := by
  have hperm : xs.dedup.Perm ys.dedup :=
    (perm_ext_iff_of_nodup xs.nodup_dedup ys.nodup_dedup).mpr fun a => by
      rw [mem_dedup,mem_dedup,h]
  have heq:=eq_of_perm_of_sorted hperm (hx.sublist xs.dedup_sublist) (hy.sublist ys.dedup_sublist)
  rw [← foldl_dedup_of_sorted hf xs hx,← foldl_dedup_of_sorted hf ys hy,heq]

end OpsAgent.Lib
