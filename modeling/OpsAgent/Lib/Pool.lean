import Mathlib.Algebra.Order.Ring.Nat

/-!
# Pools of threads

The threads of a program are a list, and a thread that moves replaces its own entry.
-/

namespace OpsAgent.Lib.Pool
open List

variable {α : Type*} {β : Type*} {a b c : β} {i j : Nat} {l : List β}

theorem exists_split (h : l[i]?=some a) :
    ∃ pre post, l=pre++a::post ∧ pre.length=i ∧ ∀ b, l.set i b=pre++b::post := by
  induction l generalizing i with
  | nil => simp at h
  | cons c rest ih =>
    cases i with
    | zero =>
      have hc : c=a := by simpa using h
      exact ⟨[],rest,by rw [hc,nil_append],rfl,fun b => rfl⟩
    | succ i =>
      obtain ⟨pre,post,hl,hlen,hset⟩ := ih (i := i) (by simpa using h)
      refine ⟨c::pre,post,by rw [hl,cons_append],congrArg (· + 1) hlen,fun b => ?_⟩
      rw [set_cons_succ,hset b,cons_append]

theorem count_flatMap_set [DecidableEq α] (f : β → List α) (b : β) (h : l[i]?=some a) (x : α) :
    ((l.set i b).flatMap f).count x+(f a).count x=(l.flatMap f).count x+(f b).count x := by
  obtain ⟨pre,post,hl,-,hset⟩ := exists_split h
  rw [hset b,hl]
  simp only [flatMap_append,flatMap_cons,count_append]
  omega

theorem sum_map_set (f : β → Nat) (b : β) (h : l[i]?=some a) :
    ((l.set i b).map f).sum+f a=(l.map f).sum+f b := by
  obtain ⟨pre,post,hl,-,hset⟩ := exists_split h
  rw [hset b,hl]
  simp only [map_append,map_cons,sum_append,sum_cons]
  omega

theorem countP_set (p : β → Bool) (b : β) (h : l[i]?=some a) :
    (l.set i b).countP p+(p a).toNat=l.countP p+(p b).toNat := by
  obtain ⟨pre,post,hl,-,hset⟩ := exists_split h
  rw [hset b,hl]
  simp only [countP_append,countP_cons]
  cases p a <;> cases p b <;> simp <;> omega

variable {F : β → Prop} {p : β → Bool}

theorem forall_mem_set (h : ∀ a∈l, F a) (hb : F b) (i : Nat) : ∀ a∈l.set i b, F a := by
  intro a ha
  rcases mem_or_eq_of_mem_set ha with ha | rfl
  · exact h a ha
  · exact hb

theorem forall_mem_push (h : ∀ a∈l, F a) (hb : F b) : ∀ a∈l++[b], F a := by
  intro a ha
  rcases mem_append.mp ha with ha | ha
  · exact h a ha
  · rw [mem_singleton.mp ha]
    exact hb

theorem mem_set_or (hi : l[i]?=some a) (hc : c∈l) (b : β) : c∈l.set i b ∨ c=a := by
  obtain ⟨pre,post,hl,-,hset⟩ := exists_split hi
  rw [hl,mem_append,mem_cons] at hc
  rw [hset b,mem_append,mem_cons]
  rcases hc with hc | rfl | hc
  · exact .inl (.inl hc)
  · exact .inr rfl
  · exact .inl (.inr (.inr hc))

theorem mem_set_self (hi : l[i]?=some a) (b : β) : b∈l.set i b := by
  obtain ⟨pre,post,-,-,hset⟩ := exists_split hi
  rw [hset b]
  exact mem_append_right pre mem_cons_self

theorem eq_or_mem_eraseIdx (hi : l[i]?=some a) (hc : c∈l.set i b) : c=b ∨ c∈l.eraseIdx i := by
  obtain ⟨pre,post,hl,hlen,hset⟩ := exists_split hi
  have herase : l.eraseIdx i=pre++post := by
    rw [hl,← hlen,eraseIdx_append_of_length_le (Nat.le_refl _),Nat.sub_self,eraseIdx_cons_zero]
  rw [hset b,mem_append,mem_cons] at hc
  rw [herase,mem_append]
  rcases hc with hc | rfl | hc
  · exact .inr (.inl hc)
  · exact .inl rfl
  · exact .inr (.inr hc)

theorem any_set (hi : l[i]?=some a) (h : p b=p a) : (l.set i b).any p=l.any p := by
  obtain ⟨pre,post,hl,-,hset⟩ := exists_split hi
  rw [hset b,hl]
  simp [h]

theorem getElem?_set_or (h : (l.set i b)[j]?=some c) : j=i ∧ c=b ∨ j≠i ∧ l[j]?=some c := by
  rw [getElem?_set] at h
  split at h
  · rename_i hij
    split at h
    · exact .inl ⟨hij.symm,(Option.some.inj h).symm⟩
    · cases h
  · rename_i hij
    exact .inr ⟨fun heq => hij heq.symm,h⟩

theorem getElem?_set_of (hi : l[i]?=some a) (b : β) :
    (l.set i b)[i]?=some b := getElem?_set_self (List.getElem?_eq_some_iff.mp hi).1

theorem exists_getElem?_set (hi : l[i]?=some a)
    (hab : j=i → F a → F b) (h : ∃ c, l[j]?=some c ∧ F c) : ∃ c, (l.set i b)[j]?=some c ∧ F c := by
  obtain ⟨c,hj,hc⟩ := h
  by_cases hji : j=i
  · subst hji
    cases hi.symm.trans hj
    exact ⟨b,getElem?_set_of hi b,hab rfl hc⟩
  · exact ⟨c,(getElem?_set_ne (Ne.symm hji)).trans hj,hc⟩

theorem getElem?_push_of (h : l[i]?=some a) (b : β) : (l++[b])[i]?=some a := by
  rw [getElem?_append_left (List.getElem?_eq_some_iff.mp h).1]
  exact h

theorem getElem?_push_or (h : (l++[b])[i]?=some c) : l[i]?=some c ∨ i=l.length ∧ c=b := by
  rcases Nat.lt_or_ge i l.length with hlt | hge
  · rw [getElem?_append_left hlt] at h
    exact .inl h
  · rw [getElem?_append_right hge] at h
    have hi : i-l.length=0 := Nat.lt_one_iff.mp (List.getElem?_eq_some_iff.mp h).1
    rw [hi] at h
    exact .inr ⟨by omega,(Option.some.inj h).symm⟩

theorem index_unique (h : l.countP p≤1)
    (hi : l[i]?=some a) (hj : l[j]?=some b) (ha : p a) (hb : p b) : i=j := by
  obtain ⟨pre,post,hl,hlen,-⟩ := exists_split hi
  rw [hl,countP_append,countP_cons,if_pos ha] at h
  have hpre : pre.countP p=0 := by omega
  have hpost : post.countP p=0 := by omega
  by_contra hne
  have hmem : b∈pre ∨ b∈post := by
    rw [hl] at hj
    rcases Nat.lt_or_ge j pre.length with hlt | hge
    · rw [getElem?_append_left hlt] at hj
      exact .inl (mem_of_getElem? hj)
    · rw [getElem?_append_right hge] at hj
      obtain ⟨d,hd⟩ : ∃ d, j-pre.length=d+1 := ⟨j-pre.length-1,by omega⟩
      rw [hd,getElem?_cons_succ] at hj
      exact .inr (mem_of_getElem? hj)
  rcases hmem with hm | hm
  · exact countP_eq_zero.mp hpre b hm hb
  · exact countP_eq_zero.mp hpost b hm hb

end OpsAgent.Lib.Pool
