import OpsAgent.Lib.SortedMap

/-!
# An index from keys to sets

A set is a map to booleans in which every value is true, and a key whose set becomes empty is
dropped.
-/

namespace OpsAgent.Lib

variable {γ : Type*} {α : Type*} [LinearOrder γ] [LinearOrder α]

abbrev SetIndex (γ α : Type*) [LinearOrder γ] [LinearOrder α] := SortedMap γ (SortedMap α Bool)

namespace SetIndex

def addMember (idx : SetIndex γ α) (g : γ) (a : α) : SetIndex γ α :=
  idx.insert g (((idx.get? g).getD .empty).insert a true)
def removeMember (idx : SetIndex γ α) (g : γ) (a : α) : SetIndex γ α :=
  match idx.get? g with
  | none => idx
  | some ms => if (ms.erase a).size=0 then idx.erase g else idx.insert g (ms.erase a)
def keysOf (idx : SetIndex γ α) (a : α) : List γ :=
  idx.entries.filterMap fun e => if (e.2.get? a).getD false then some e.1 else none
def Holds (idx : SetIndex γ α) (g : γ) (a : α) : Prop :=
  ((idx.get? g).bind fun ms => ms.get? a)=some true

structure Clean (idx : SetIndex γ α) : Prop where
  nonempty : ∀ g ms, idx.get? g=some ms → ms.size≠0
  allTrue : ∀ g ms a b, idx.get? g=some ms → ms.get? a=some b → b

theorem clean_empty : Clean (.empty : SetIndex γ α) where
  nonempty := by simp
  allTrue := by simp
theorem not_holds_empty (g : γ) (a : α) : ¬Holds (.empty : SetIndex γ α) g a := by simp [Holds]

variable {idx : SetIndex γ α}
  {g : γ} {a : α}

theorem mem_keysOf : g∈idx.keysOf a ↔ idx.Holds g a := by
  unfold keysOf Holds
  rw [List.mem_filterMap]
  constructor
  · intro ⟨e,he,h⟩
    obtain ⟨l,ms⟩ := e
    split at h
    case isFalse => cases h
    case isTrue ht =>
      cases h
      rw [SortedMap.mem_entries.mp he]
      cases hget : ms.get? a with
      | none => simp [hget] at ht
      | some b => simpa [hget] using ht
  · intro h
    obtain ⟨ms,hms,hget⟩ := Option.bind_eq_some_iff.mp h
    exact ⟨(g,ms),SortedMap.mem_entries.mpr hms,by simp [hget]⟩

theorem holds_addMember (idx : SetIndex γ α) (g g' : γ) (a a' : α) :
    (idx.addMember g a).Holds g' a' ↔ g' = g ∧ a' = a ∨ idx.Holds g' a' := by
  unfold Holds addMember
  rw [SortedMap.get?_insert]
  by_cases hg : g' = g
  · subst hg
    by_cases ha : a' = a
    · simp [ha]
    · cases hget : idx.get? g' <;> simp [SortedMap.get?_insert_of_ne _ _ ha,ha]
  · simp [hg]

theorem get?_removeMember_bind (idx : SetIndex γ α) (g : γ) (a x : α) :
    (((idx.removeMember g a).get? g).bind fun ms => ms.get? x) =
      if x=a then none else (idx.get? g).bind fun ms => ms.get? x := by
  unfold removeMember
  cases hget : idx.get? g with
  | none => simp [hget]
  | some ms =>
    by_cases hz : (ms.erase a).size=0
    · have hx:=SortedMap.size_eq_zero_iff.mp hz x
      rw [SortedMap.get?_erase] at hx
      simp [hz,hx]
    · simp [hz,SortedMap.get?_erase]

theorem get?_removeMember_of_ne (idx : SetIndex γ α) {g g' : γ} (a : α) (h : g' ≠ g) :
    (idx.removeMember g a).get? g' = idx.get? g' := by
  unfold removeMember
  split
  · rfl
  · split <;> simp [SortedMap.get?_erase,SortedMap.get?_insert,h]

theorem holds_removeMember (idx : SetIndex γ α) (g g' : γ) (a a' : α) :
    (idx.removeMember g a).Holds g' a' ↔ ¬(g' = g ∧ a' = a) ∧ idx.Holds g' a' := by
  unfold Holds
  by_cases hg : g' = g
  · subst hg
    rw [get?_removeMember_bind]
    by_cases ha : a' = a <;> simp [ha]
  · simp [get?_removeMember_of_ne idx a hg,hg]

theorem clean_addMember (h : Clean idx) (g : γ) (a : α) : Clean (idx.addMember g a) := by
  refine ⟨fun g' ms hms => ?_,fun g' ms a' b hms hb => ?_⟩
  · rw [addMember,SortedMap.get?_insert] at hms
    split at hms
    · cases hms
      intro hz
      simpa using SortedMap.size_eq_zero_iff.mp hz a
    · exact h.nonempty g' ms hms
  · rw [addMember,SortedMap.get?_insert] at hms
    split at hms
    · cases hms
      rw [SortedMap.get?_insert] at hb
      split at hb
      · exact (Option.some.inj hb).symm
      · cases hget : idx.get? g with
        | none => simp [hget] at hb
        | some ms => exact h.allTrue g ms a' b hget (by simpa [hget] using hb)
    · exact h.allTrue g' ms a' b hms hb

theorem clean_removeMember (h : Clean idx) (g : γ) (a : α) : Clean (idx.removeMember g a) := by
  unfold removeMember
  cases hget : idx.get? g with
  | none => exact h
  | some ms =>
    simp only
    split
    case isTrue =>
      have hold {g' : γ} {ms' : SortedMap α Bool} (h' : (idx.erase g).get? g' = some ms') :
          idx.get? g' = some ms' := by
        rw [SortedMap.get?_erase] at h'
        split at h'
        · cases h'
        · exact h'
      exact ⟨fun g' ms' h' => h.nonempty g' ms' (hold h'),
        fun g' ms' a' b h' hb => h.allTrue g' ms' a' b (hold h') hb⟩
    case isFalse hz =>
      refine ⟨fun g' ms' h' => ?_,fun g' ms' a' b h' hb => ?_⟩
      · rw [SortedMap.get?_insert] at h'
        split at h'
        · cases h'
          exact hz
        · exact h.nonempty g' ms' h'
      · rw [SortedMap.get?_insert] at h'
        split at h'
        · cases h'
          rw [SortedMap.get?_erase] at hb
          split at hb
          · cases hb
          · exact h.allTrue g ms a' b hget hb
        · exact h.allTrue g' ms' a' b h' hb

variable (gs : List γ)

theorem holds_foldl_addMember (idx : SetIndex γ α) (g : γ) (a a' : α) :
    (gs.foldl (fun i g => i.addMember g a) idx).Holds g a' ↔ g∈gs ∧ a' = a ∨ idx.Holds g a' := by
  induction gs generalizing idx with
  | nil => simp
  | cons k gs ih =>
    rw [List.foldl_cons,ih,holds_addMember,List.mem_cons]
    tauto

theorem clean_foldl_addMember (h : Clean idx) (a : α) :
    Clean (gs.foldl (fun i g => i.addMember g a) idx) := by
  induction gs generalizing idx with
  | nil => exact h
  | cons k gs ih => exact ih (clean_addMember h k a)

theorem holds_foldl_removeMember (idx : SetIndex γ α) (g : γ) (a a' : α) :
    (gs.foldl (fun i g => i.removeMember g a) idx).Holds g a' ↔ ¬(g∈gs ∧ a' = a) ∧ idx.Holds g a' := by
  induction gs generalizing idx with
  | nil => simp
  | cons k gs ih =>
    rw [List.foldl_cons,ih,holds_removeMember,List.mem_cons]
    tauto

theorem clean_foldl_removeMember (h : Clean idx) (a : α) :
    Clean (gs.foldl (fun i g => i.removeMember g a) idx) := by
  induction gs generalizing idx with
  | nil => exact h
  | cons k gs ih => exact ih (clean_removeMember h k a)

theorem mem_keys_iff_holds (h : Clean idx) : a∈((idx.get? g).getD .empty).keys ↔ idx.Holds g a := by
  rw [SortedMap.mem_keys,Holds]
  cases hget : idx.get? g with
  | none => simp
  | some ms =>
    cases hms : ms.get? a with
    | none => simp [hms]
    | some b => simp [hms,h.allTrue g ms a b hget hms]

end SetIndex

end OpsAgent.Lib
