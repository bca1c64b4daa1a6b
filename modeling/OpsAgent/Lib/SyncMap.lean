import Mathlib.Data.List.Basic

/-!
# A concurrent map

The operations of `sync.Map` that are one atomic step, and `Range`, which is not.
-/

namespace OpsAgent.Lib
open List

structure SyncMap (κ ν : Type*) where
  entries : List (κ × ν)

namespace SyncMap
variable {κ ν : Type*} [DecidableEq κ]

def empty : SyncMap κ ν := ⟨[]⟩
def load (m : SyncMap κ ν) (k : κ) : Option ν := m.entries.lookup k
def delete (m : SyncMap κ ν) (k : κ) : SyncMap κ ν := ⟨m.entries.filter fun e => e.1 != k⟩
def store (m : SyncMap κ ν) (k : κ) (v : ν) : SyncMap κ ν := ⟨(k,v)::(m.delete k).entries⟩
def keys (m : SyncMap κ ν) : List κ := m.entries.map Prod.fst

variable (m : SyncMap κ ν) {k k' : κ}

theorem load_store_self (k : κ) (v : ν) : (m.store k v).load k=some v := by
  rw [load,store,lookup_cons_self]

theorem load_delete_of_ne (h : k' ≠ k) : (m.delete k).load k' = m.load k' := by
  unfold load delete
  induction m.entries with
  | nil => rfl
  | cons e es ih =>
    by_cases he : e.1=k
    · have hne : (k' == e.1)=false := beq_eq_false_iff_ne.mpr (he ▸ h)
      rw [filter_cons_of_neg (by simp [he]),ih,lookup_cons,hne]
    · rw [filter_cons_of_pos (by simp [he]),lookup_cons,lookup_cons,ih]

theorem load_store_of_ne (v : ν) (h : k' ≠ k) : (m.store k v).load k' = m.load k' := by
  have hne : (k' == k)=false := beq_eq_false_iff_ne.mpr h
  rw [← m.load_delete_of_ne h,load,store,lookup_cons,hne]
  rfl

/-- A `Range` that is under way: the keys that it has visited, and those that have been
in the map since it began. -/
structure Ranging (κ : Type*) where
  (visited throughout : List κ)
  deriving DecidableEq

namespace Ranging

def start (m : SyncMap κ ν) : Ranging κ := ⟨[],m.keys⟩
def delete (r : Ranging κ) (k : κ) : Ranging κ :=
  {r with throughout := r.throughout.filter (· != k)}
def visit (r : Ranging κ) (m : SyncMap κ ν) (k : κ) : Option (ν × Ranging κ) :=
  if k∈r.visited then none
  else (m.load k).map fun v => (v,{r with visited := k::r.visited})
def complete (r : Ranging κ) : Bool := r.throughout.all fun k => k∈r.visited

end Ranging

end SyncMap

end OpsAgent.Lib
