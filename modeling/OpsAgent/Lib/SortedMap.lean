import Mathlib.Data.List.Sort

/-!
# Finite maps with one entry list each

Two maps with the same bindings are the same value, and a loop over the entries has one order.
-/

namespace OpsAgent.Lib
open List

variable {κ : Type*} {α : Type*} [LinearOrder κ]

namespace Entries

def Sorted (es : List (κ × α)) : Prop := es.Pairwise fun a b => a.1<b.1

instance (es : List (κ × α)) : Decidable (Sorted es) :=
  inferInstanceAs (Decidable (es.Pairwise fun a b => a.1<b.1))

def get? (k : κ) : List (κ × α) → Option α
  | [] => none
  | (l,v)::es => if k=l then some v else get? k es

def put (k : κ) (v : α) : List (κ × α) → List (κ × α)
  | [] => [(k,v)]
  | (l,w)::es =>
    if k<l then (k,v)::(l,w)::es
    else if k=l then (k,v)::es
    else (l,w)::put k v es

@[simp] theorem get?_nil (k : κ) : get? k ([] : List (κ × α))=none := rfl
theorem get?_cons (k l : κ) (v : α) (es : List (κ × α)) :
    get? k ((l,v)::es) = if k=l then some v else get? k es := rfl

theorem get?_put (k k' : κ) (v : α) (es : List (κ × α)) :
    get? k' (put k v es) = if k' = k then some v else get? k' es := by
  induction es with
  | nil => simp [put,get?]
  | cons e es ih =>
    obtain ⟨l,w⟩ := e
    by_cases hlt : k<l
    · simp only [put,if_pos hlt,get?_cons]
    by_cases heq : k=l
    · subst heq
      simp only [put,lt_irrefl,if_false,if_true,get?_cons]
      split <;> rfl
    simp only [put,if_neg hlt,if_neg heq,get?_cons,ih]
    by_cases hl : k' = l
    · subst hl
      simp [Ne.symm heq]
    · simp [hl]

variable {es : List (κ × α)} {k : κ} {v : α} {e : κ × α}

theorem mem_of_get? (h : get? k es=some v) : (k,v)∈es := by
  induction es with
  | nil => simp at h
  | cons e es ih =>
    obtain ⟨l,w⟩ := e
    rw [get?_cons] at h
    split at h
    case isTrue heq =>
      cases h
      exact heq ▸ mem_cons_self
    case isFalse => exact mem_cons_of_mem _ (ih h)

theorem Sorted.tail (h : Sorted (e::es)) : Sorted es :=
  (pairwise_cons.mp h).2

theorem get?_eq_none_of_lt (h : ∀ e∈es, k<e.1) : get? k es=none := by
  induction es with
  | nil => rfl
  | cons e es ih =>
    have hne : k≠e.1 := ne_of_lt (h e mem_cons_self)
    rw [get?_cons,if_neg hne]
    exact ih fun x hx => h x (mem_cons_of_mem _ hx)

theorem get?_of_mem (hs : Sorted es) (h : (k,v)∈es) : get? k es=some v := by
  induction es with
  | nil => simp at h
  | cons e es ih =>
    obtain ⟨l,w⟩ := e
    rcases mem_cons.mp h with heq | hmem
    · cases heq
      simp [get?_cons]
    · have hlt : l<k := (pairwise_cons.mp hs).1 _ hmem
      rw [get?_cons,if_neg (ne_of_gt hlt)]
      exact ih hs.tail hmem

theorem mem_iff_get? (hs : Sorted es) : (k,v)∈es ↔ get? k es=some v :=
  ⟨get?_of_mem hs,mem_of_get?⟩

theorem mem_put (h : e∈put k v es) : e=(k,v) ∨ e∈es := by
  induction es with
  | nil => exact .inl (by simpa [put] using h)
  | cons a es ih =>
    obtain ⟨l,w⟩ := a
    rw [put] at h
    split at h
    · exact mem_cons.mp h
    split at h
    · exact (mem_cons.mp h).imp_right (mem_cons_of_mem _)
    rcases mem_cons.mp h with heq | hmem
    · exact .inr (heq ▸ mem_cons_self)
    · exact (ih hmem).imp_right (mem_cons_of_mem _)

theorem sorted_put (k : κ) (v : α) (hs : Sorted es) : Sorted (put k v es) := by
  induction es with
  | nil => simp [put,Sorted]
  | cons e es ih =>
    obtain ⟨l,w⟩ := e
    have hhead:=(pairwise_cons.mp hs).1
    rw [put]
    split
    case isTrue hlt =>
      refine pairwise_cons.mpr ⟨fun e he => ?_,hs⟩
      rcases mem_cons.mp he with heq | hmem
      · exact heq ▸ hlt
      · exact lt_trans hlt (hhead e hmem)
    case isFalse hlt =>
      split
      case isTrue heq =>
        subst heq
        exact pairwise_cons.mpr ⟨hhead,hs.tail⟩
      case isFalse heq =>
        have hgt : l<k := lt_of_le_of_ne (not_lt.mp hlt) (Ne.symm heq)
        refine pairwise_cons.mpr ⟨fun e he => ?_,ih hs.tail⟩
        rcases mem_put he with h | h
        · exact h ▸ hgt
        · exact hhead e h

theorem ext {fs : List (κ × α)} (he : Sorted es) (hf : Sorted fs)
    (h : ∀ k, get? k es=get? k fs) : es=fs := by
  have hnd {gs : List (κ × α)} (hg : Sorted gs) : gs.Nodup :=
    hg.imp fun hlt heq => absurd (heq ▸ hlt) (lt_irrefl _)
  have hperm : es.Perm fs := (perm_ext_iff_of_nodup (hnd he) (hnd hf)).mpr fun e => by
    rw [mem_iff_get? he,mem_iff_get? hf,h]
  exact hperm.eq_of_pairwise (fun a b _ _ hab hba => absurd hba (lt_asymm hab)) he hf

theorem length_put (k : κ) (v : α) (hs : Sorted es) :
    (put k v es).length = if (get? k es).isSome then es.length else es.length+1 := by
  induction es with
  | nil => rfl
  | cons e es ih =>
    obtain ⟨l,w⟩ := e
    have hhead:=(pairwise_cons.mp hs).1
    rw [put,get?_cons]
    split
    case isTrue hlt =>
      have hnone : get? k es=none := get?_eq_none_of_lt fun e he => lt_trans hlt (hhead e he)
      simp [ne_of_lt hlt,hnone]
    case isFalse =>
      split
      case isTrue => simp
      case isFalse =>
        rw [length_cons,ih hs.tail]
        split <;> rfl

end Entries

structure SortedMap (κ : Type*) (α : Type*) [LinearOrder κ] where
  entries : List (κ × α)
  sorted : Entries.Sorted entries

namespace SortedMap

def empty : SortedMap κ α := ⟨[],List.Pairwise.nil⟩
def get? (m : SortedMap κ α) (k : κ) : Option α := Entries.get? k m.entries
def insert (m : SortedMap κ α) (k : κ) (v : α) : SortedMap κ α :=
  ⟨Entries.put k v m.entries,Entries.sorted_put k v m.sorted⟩
def erase (m : SortedMap κ α) (k : κ) : SortedMap κ α :=
  ⟨m.entries.filter (fun e => e.1≠k),m.sorted.filter _⟩
def copy (dst src : SortedMap κ α) : SortedMap κ α :=
  src.entries.foldl (fun m e => m.insert e.1 e.2) dst
def keys (m : SortedMap κ α) : List κ := m.entries.map Prod.fst
def size (m : SortedMap κ α) : Nat := m.entries.length

variable {m : SortedMap κ α}

theorem ext {n : SortedMap κ α} (h : ∀ k, m.get? k=n.get? k) : m=n := by
  have he : m.entries=n.entries := Entries.ext m.sorted n.sorted h
  cases m
  cases n
  cases he
  rfl

theorem mem_entries {k : κ} {v : α} : (k,v)∈m.entries ↔ m.get? k=some v := Entries.mem_iff_get? m.sorted
@[simp] theorem get?_empty (k : κ) : (empty : SortedMap κ α).get? k=none := rfl
theorem get?_insert (m : SortedMap κ α) (k k' : κ) (v : α) :
    (m.insert k v).get? k' = if k' = k then some v else m.get? k' := Entries.get?_put k k' v _
@[simp] theorem get?_insert_self (m : SortedMap κ α) (k : κ) (v : α) :
    (m.insert k v).get? k=some v := by simp [get?_insert]
theorem get?_insert_of_ne (m : SortedMap κ α) {k k' : κ} (v : α) (h : k' ≠ k) :
    (m.insert k v).get? k' = m.get? k' := by simp [get?_insert,h]

theorem get?_erase (m : SortedMap κ α) (k k' : κ) :
    (m.erase k).get? k' = if k' = k then none else m.get? k' := by
  apply Option.ext
  intro v
  rw [← mem_entries,erase,mem_filter,mem_entries]
  by_cases h : k' = k <;> simp [h]

@[simp] theorem get?_erase_self (m : SortedMap κ α) (k : κ) : (m.erase k).get? k=none := by
  simp [get?_erase]
theorem mem_keys {k : κ} : k∈m.keys ↔ (m.get? k).isSome := by
  simp only [keys,mem_map,Prod.exists,exists_and_right,exists_eq_right,mem_entries,
    Option.isSome_iff_exists]
theorem sorted_keys (m : SortedMap κ α) : m.keys.Pairwise (· < ·) :=
  pairwise_map.mpr m.sorted
theorem nodup_keys (m : SortedMap κ α) : m.keys.Nodup :=
  m.sorted_keys.imp fun hlt => ne_of_lt hlt

theorem keys_eq {ν : Type*} {n : SortedMap κ ν}
    (h : ∀ k, (m.get? k).isSome=(n.get? k).isSome) : m.keys=n.keys := by
  have hperm : m.keys.Perm n.keys := (perm_ext_iff_of_nodup m.nodup_keys n.nodup_keys).mpr
    fun k => by rw [mem_keys,mem_keys,h]
  exact hperm.eq_of_pairwise (fun _ _ _ _ hab hba => absurd hba (lt_asymm hab))
    m.sorted_keys n.sorted_keys

theorem isSome_get?_insert (m : SortedMap κ α) (k k' : κ) (v : α) :
    ((m.insert k v).get? k').isSome=(decide (k' = k)||(m.get? k').isSome) := by
  rw [get?_insert]
  by_cases h : k' = k <;> simp [h]
theorem size_insert (m : SortedMap κ α) (k : κ) (v : α) :
    (m.insert k v).size = if (m.get? k).isSome then m.size else m.size+1 :=
  Entries.length_put k v m.sorted
theorem size_erase_le (m : SortedMap κ α) (k : κ) : (m.erase k).size ≤ m.size :=
  length_filter_le ..

theorem size_eq_zero_iff : m.size=0 ↔ ∀ k, m.get? k=none := by
  constructor
  · intro h k
    rw [get?,length_eq_zero_iff.mp h,Entries.get?_nil]
  · intro h
    refine length_eq_zero_iff.mpr (eq_nil_iff_forall_not_mem.mpr fun e he => ?_)
    have hget : m.get? e.1=some e.2 := mem_entries.mp he
    rw [h] at hget
    cases hget

theorem get?_foldl_insert (es : List (κ × α)) (m : SortedMap κ α) (hs : Entries.Sorted es) (k : κ) :
    (es.foldl (fun m e => m.insert e.1 e.2) m).get? k=(Entries.get? k es).or (m.get? k) := by
  induction es generalizing m with
  | nil => rfl
  | cons e es ih =>
    obtain ⟨l,v⟩ := e
    rw [foldl_cons,ih _ hs.tail,get?_insert,Entries.get?_cons]
    by_cases hk : k=l
    · have hnone : Entries.get? k es=none :=
        Entries.get?_eq_none_of_lt fun e he => hk ▸ (pairwise_cons.mp hs).1 e he
      simp [hk,hk ▸ hnone]
    · simp [hk]

theorem get?_copy (dst src : SortedMap κ α) (k : κ) :
    (dst.copy src).get? k=(src.get? k).or (dst.get? k) :=
  get?_foldl_insert src.entries dst src.sorted k

end SortedMap

end OpsAgent.Lib
