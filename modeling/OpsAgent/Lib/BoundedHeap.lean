import Mathlib.Data.List.Sort

/-!
# The largest elements of a stream

A priority queue of at most `k` elements, kept in order with the least one first. A new element takes
the place of the least one if its key is larger.
-/

namespace OpsAgent.Lib.BoundedHeap
open List

variable {α : Type*} [LinearOrder α]

def offer (key : α → Nat) (k : Nat) (heap : List α) (x : α) : List α :=
  if heap.length<k then heap.orderedInsert (· ≤ ·) x
  else
    match heap with
    | [] => []
    | least::rest => if key least<key x then rest.orderedInsert (· ≤ ·) x else least::rest

/-- The heap has `k` of the elements, or all of them, and no other one is larger. -/
structure Keeps (key : α → Nat) (k : Nat) (seen heap : List α) : Prop where
  sorted : heap.Pairwise (· ≤ ·)
  length : heap.length=min k seen.length
  split : ∃ rest, heap++rest ~ seen ∧ ∀ x∈heap, ∀ y∈rest, key y≤key x

variable {key : α → Nat} {k : Nat} {seen heap : List α} {x least : α}

theorem keeps_nil (key : α → Nat) (k : Nat) : Keeps key k [] [] :=
  ⟨.nil,(Nat.min_zero k).symm,[],.nil,by simp⟩

theorem Keeps.full (h : Keeps key k seen heap) (hfull : k≤heap.length) :
    heap.length=min k (seen++[x]).length := by
  have hlength:=h.length
  rw [length_append,length_singleton]
  omega

theorem Keeps.admit (h : Keeps key k seen heap) (hroom : heap.length<k) :
    Keeps key k (seen++[x]) (heap.orderedInsert (· ≤ ·) x) := by
  obtain ⟨hsorted,hlength,rest,hsplit,-⟩ := h
  have hcount:=hsplit.length_eq
  rw [length_append] at hcount
  have hnil : rest=[] := length_eq_zero_iff.mp (by omega)
  rw [hnil,append_nil] at hsplit
  refine ⟨hsorted.orderedInsert x heap,?_,[],?_,by simp⟩
  · rw [orderedInsert_length,length_append,length_singleton]
    omega
  · rw [append_nil]
    exact (perm_orderedInsert _ x heap).trans ((hsplit.cons x).trans (perm_append_singleton x seen).symm)

theorem Keeps.refuse (h : Keeps key k seen heap) (hfull : k≤heap.length) (hx : ∀ a∈heap, key x≤key a) :
    Keeps key k (seen++[x]) heap := by
  obtain ⟨rest,hsplit,hle⟩ := h.split
  have hseen : heap++x::rest ~ seen++[x] :=
    perm_middle.trans ((hsplit.cons x).trans (perm_append_singleton x seen).symm)
  refine ⟨h.sorted,h.full hfull,x::rest,hseen,fun a ha y hy => ?_⟩
  rcases mem_cons.mp hy with rfl | hy
  · exact hx a ha
  · exact hle a ha y hy

theorem Keeps.replace (hkey : Monotone key) (h : Keeps key k seen (least::heap))
    (hfull : k≤(least::heap).length) (hlarger : key least<key x) :
    Keeps key k (seen++[x]) (heap.orderedInsert (· ≤ ·) x) := by
  obtain ⟨rest,hsplit,hle⟩ := h.split
  obtain ⟨hleast,htail⟩ := pairwise_cons.mp h.sorted
  have hswap : x::heap++least::rest ~ x::(least::heap++rest) := perm_middle.cons x
  have hseen:=hswap.trans ((hsplit.cons x).trans (perm_append_singleton x seen).symm)
  refine ⟨htail.orderedInsert x heap,?_,least::rest,?_,fun a ha y hy => ?_⟩
  · rw [orderedInsert_length]
    exact h.full hfull
  · exact ((perm_orderedInsert _ x heap).append_right _).trans hseen
  · -- what is kept is above the element that leaves, which is above the rest
    have ha : key least≤key a := by
      rcases (mem_orderedInsert _).mp ha with rfl | ha
      · exact hlarger.le
      · exact hkey (hleast a ha)
    rcases mem_cons.mp hy with rfl | hy
    · exact ha
    · exact (hle least mem_cons_self y hy).trans ha

theorem Keeps.offer (hkey : Monotone key) (h : Keeps key k seen heap) (x : α) :
    Keeps key k (seen++[x]) (offer key k heap x) := by
  unfold BoundedHeap.offer
  split
  · exact h.admit ‹_›
  · rename_i hfull
    rw [not_lt] at hfull
    cases heap with
    | nil => exact h.refuse hfull nofun
    | cons least heap =>
      dsimp only
      split
      · exact h.replace hkey hfull ‹_›
      · rename_i hsmall
        refine h.refuse hfull fun a ha => (Nat.not_lt.mp hsmall).trans ?_
        rcases mem_cons.mp ha with rfl | ha
        · exact le_rfl
        · exact hkey ((pairwise_cons.mp h.sorted).1 a ha)

end OpsAgent.Lib.BoundedHeap
