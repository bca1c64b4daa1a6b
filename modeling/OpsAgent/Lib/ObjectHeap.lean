import OpsAgent.Lib.ValueTree

/-!
# Maps and lists in a heap

`RepTree P h r t` says that the value `r` denotes the tree `t` in the heap `h`, with all objects on
the way at addresses in `P`.
-/

namespace OpsAgent.Lib
open List Option

universe u v

inductive Ref (β : Type v) where
  | scalar (b : β)
  | list (address : Option Nat)
  | map (address : Option Nat)

inductive Obj (κ : Type u) (β : Type v) where
  | list (items : List (Ref β))
  | map (entries : List (κ × Ref β))

abbrev Heap (κ : Type u) (β : Type v) := List (Obj κ β)

variable {κ : Type u} {β : Type v}

def Ref.addrs : Ref β → List Nat
  | .scalar _ => []
  | .list address => address.toList
  | .map address => address.toList
def Obj.addrs : Obj κ β → List Nat
  | .list items => items.flatMap Ref.addrs
  | .map entries => entries.flatMap fun e => e.2.addrs

namespace Heap

def items (h : Heap κ β) : Option Nat → Option (List (Ref β))
  | none => some []
  | some a => match h[a]? with
    | some (.list xs) => some xs
    | _ => none

def entries (h : Heap κ β) : Option Nat → Option (List (κ × Ref β))
  | none => some []
  | some a => match h[a]? with
    | some (.map es) => some es
    | _ => none

theorem items_of_agree {h h' : Heap κ β} {address : Option Nat} {xs : List (Ref β)}
    (hx : h.items address=some xs) (hagree : ∀ a o, address=some a → h[a]?=some o → h'[a]?=some o) :
    h'.items address=some xs := by
  cases address with
  | none => exact hx
  | some a =>
    cases ho : h[a]? with
    | none => simp [items,ho] at hx
    | some o => simpa [items,hagree a o rfl ho,ho] using hx

theorem entries_of_agree {h h' : Heap κ β} {address : Option Nat} {es : List (κ × Ref β)}
    (hx : h.entries address=some es) (hagree : ∀ a o, address=some a → h[a]?=some o → h'[a]?=some o) :
    h'.entries address=some es := by
  cases address with
  | none => exact hx
  | some a =>
    cases ho : h[a]? with
    | none => simp [entries,ho] at hx
    | some o => simpa [entries,hagree a o rfl ho,ho] using hx

theorem items_alloc (h : Heap κ β) (xs : List (Ref β)) :
    Heap.items (h++[.list xs]) (some h.length)=some xs := by simp [items]
theorem entries_alloc (h : Heap κ β) (es : List (κ × Ref β)) :
    Heap.entries (h++[.map es]) (some h.length)=some es := by simp [entries]

end Heap

mutual

def RepTree (P : Nat → Prop) (h : Heap κ β) : Ref β → ValueTree κ β → Prop
  | r, .leaf b => r=.scalar b
  | r, .list ts => ∃ address xs, r=.list address ∧ (∀ a, address=some a → P a) ∧
      h.items address=some xs ∧ RepList P h xs ts
  | r, .map ts => ∃ address es, r=.map address ∧ (∀ a, address=some a → P a) ∧
      h.entries address=some es ∧ RepEntries P h es ts

def RepList (P : Nat → Prop) (h : Heap κ β) : List (Ref β) → List (ValueTree κ β) → Prop
  | xs, [] => xs=[]
  | xs, t::ts => ∃ x xs', xs=x::xs' ∧ RepTree P h x t ∧ RepList P h xs' ts
def RepEntries (P : Nat → Prop) (h : Heap κ β) : List (κ × Ref β) → List (κ × ValueTree κ β) → Prop
  | es, [] => es=[]
  | es, (k,t)::ts => ∃ x es', es=(k,x)::es' ∧ RepTree P h x t ∧ RepEntries P h es' ts

end

theorem repList_cons {P : Nat → Prop} {h : Heap κ β} {x : Ref β} {xs : List (Ref β)}
    {t : ValueTree κ β} {ts : List (ValueTree κ β)} :
    RepList P h (x::xs) (t::ts) ↔ RepTree P h x t ∧ RepList P h xs ts := by
  rw [RepList]
  exact ⟨fun ⟨_,_,heq,hx,hxs⟩ => by cases heq; exact ⟨hx,hxs⟩,fun hr => ⟨x,xs,rfl,hr⟩⟩

theorem repEntries_cons {P : Nat → Prop} {h : Heap κ β} {k : κ} {x : Ref β} {es : List (κ × Ref β)}
    {t : ValueTree κ β} {ts : List (κ × ValueTree κ β)} :
    RepEntries P h ((k,x)::es) ((k,t)::ts) ↔ RepTree P h x t ∧ RepEntries P h es ts := by
  rw [RepEntries]
  exact ⟨fun ⟨_,_,heq,hx,hes⟩ => by cases heq; exact ⟨hx,hes⟩,fun hr => ⟨x,es,rfl,hr⟩⟩

/-! The frame rule: only the objects at addresses in `P` count. -/

section Frame
variable {P Q : Nat → Prop} {h h' : Heap κ β} {t : ValueTree κ β}

mutual

theorem RepTree.frame (hPQ : ∀ a, P a → Q a) (hagree : ∀ a o, P a → h[a]?=some o → h'[a]?=some o)
    {r : Ref β} (t : ValueTree κ β) (hr : RepTree P h r t) : RepTree Q h' r t := by
  cases t with
  | leaf b =>
    rw [RepTree] at hr ⊢
    exact hr
  | list ts =>
    rw [RepTree] at hr ⊢
    obtain ⟨address,xs,rfl,hP,hxs,hrep⟩ := hr
    exact ⟨address,xs,rfl,fun a ha => hPQ a (hP a ha),
      Heap.items_of_agree hxs fun a o ha => hagree a o (hP a ha),RepList.frame hPQ hagree ts hrep⟩
  | map ts =>
    rw [RepTree] at hr ⊢
    obtain ⟨address,es,rfl,hP,hes,hrep⟩ := hr
    exact ⟨address,es,rfl,fun a ha => hPQ a (hP a ha),
      Heap.entries_of_agree hes fun a o ha => hagree a o (hP a ha),
      RepEntries.frame hPQ hagree ts hrep⟩

theorem RepList.frame (hPQ : ∀ a, P a → Q a) (hagree : ∀ a o, P a → h[a]?=some o → h'[a]?=some o)
    {xs : List (Ref β)} (ts : List (ValueTree κ β)) (hr : RepList P h xs ts) : RepList Q h' xs ts := by
  cases ts with
  | nil =>
    rw [RepList] at hr ⊢
    exact hr
  | cons t ts =>
    rw [RepList] at hr ⊢
    obtain ⟨x,xs',rfl,hx,hxs⟩ := hr
    exact ⟨x,xs',rfl,RepTree.frame hPQ hagree t hx,RepList.frame hPQ hagree ts hxs⟩

theorem RepEntries.frame (hPQ : ∀ a, P a → Q a) (hagree : ∀ a o, P a → h[a]?=some o → h'[a]?=some o)
    {es : List (κ × Ref β)} (ts : List (κ × ValueTree κ β)) (hr : RepEntries P h es ts) :
    RepEntries Q h' es ts := by
  cases ts with
  | nil =>
    rw [RepEntries] at hr ⊢
    exact hr
  | cons e ts =>
    obtain ⟨k,t⟩ := e
    rw [RepEntries] at hr ⊢
    obtain ⟨x,es',rfl,hx,hes⟩ := hr
    exact ⟨x,es',rfl,RepTree.frame hPQ hagree t hx,RepEntries.frame hPQ hagree ts hes⟩

end

theorem RepTree.addrs {r : Ref β} (hr : RepTree P h r t) : ∀ b∈r.addrs, P b := by
  intro b hb
  cases t with
  | leaf c =>
    rw [RepTree] at hr
    subst hr
    cases hb
  | list ts =>
    rw [RepTree] at hr
    obtain ⟨address,xs,rfl,hP,_⟩ := hr
    exact hP b (mem_toList.mp hb)
  | map ts =>
    rw [RepTree] at hr
    obtain ⟨address,es,rfl,hP,_⟩ := hr
    exact hP b (mem_toList.mp hb)

theorem RepList.addrs {xs : List (Ref β)} {ts : List (ValueTree κ β)} (hr : RepList P h xs ts) :
    ∀ b∈(Obj.list xs : Obj κ β).addrs, P b := by
  induction ts generalizing xs with
  | nil =>
    rw [RepList] at hr
    subst hr
    simp [Obj.addrs]
  | cons t ts ih =>
    rw [RepList] at hr
    obtain ⟨x,xs',rfl,hx,hxs⟩ := hr
    intro b hb
    rcases mem_append.mp hb with hb | hb
    · exact hx.addrs b hb
    · exact ih hxs b hb

variable {ts : List (κ × ValueTree κ β)} {es : List (κ × Ref β)}

theorem RepEntries.addrs (hr : RepEntries P h es ts) : ∀ b∈(Obj.map es).addrs, P b := by
  induction ts generalizing es with
  | nil =>
    rw [RepEntries] at hr
    subst hr
    simp [Obj.addrs]
  | cons e ts ih =>
    obtain ⟨k,t⟩ := e
    rw [RepEntries] at hr
    obtain ⟨x,es',rfl,hx,hes⟩ := hr
    intro b hb
    rcases mem_append.mp hb with hb | hb
    · exact hx.addrs b hb
    · exact ih hes b hb

/-! Reading and writing an entry. -/

variable [LinearOrder κ]

theorem RepEntries.get? (hr : RepEntries P h es ts) (k : κ) :
    (Entries.get? k es=none ∧ Entries.get? k ts=none) ∨
      ∃ x t, Entries.get? k es=some x ∧ Entries.get? k ts=some t ∧ RepTree P h x t := by
  induction ts generalizing es with
  | nil =>
    rw [RepEntries] at hr
    subst hr
    exact .inl ⟨rfl,rfl⟩
  | cons e ts ih =>
    obtain ⟨l,t⟩ := e
    rw [RepEntries] at hr
    obtain ⟨x,es',rfl,hx,hes⟩ := hr
    rw [Entries.get?_cons,Entries.get?_cons]
    by_cases hk : k=l
    · simp only [if_pos hk]
      exact .inr ⟨x,t,rfl,rfl,hx⟩
    · simp only [if_neg hk]
      exact ih hes

theorem RepEntries.put {x : Ref β} (hr : RepEntries P h es ts) (hx : RepTree P h x t) (k : κ) :
    RepEntries P h (Entries.put k x es) (Entries.put k t ts) := by
  induction ts generalizing es with
  | nil =>
    rw [RepEntries] at hr
    subst hr
    simp only [Entries.put]
    rw [RepEntries]
    exact ⟨x,[],rfl,hx,by rw [RepEntries]⟩
  | cons e ts ih =>
    obtain ⟨l,u⟩ := e
    have hr' := hr
    rw [RepEntries] at hr
    obtain ⟨y,es',rfl,hy,hes⟩ := hr
    rw [Entries.put,Entries.put]
    by_cases hlt : k<l
    · simp only [if_pos hlt]
      rw [RepEntries]
      exact ⟨x,_,rfl,hx,hr'⟩
    by_cases heq : k=l
    · simp only [if_neg hlt,if_pos heq]
      rw [RepEntries]
      exact ⟨x,es',rfl,hx,hes⟩
    · simp only [if_neg hlt,if_neg heq]
      rw [RepEntries]
      exact ⟨y,_,rfl,hy,ih hes⟩

end Frame

/-- `h'` is `h` with new objects, which refer only to addresses from `base` on. -/
structure Grows (base : Nat) (h h' : Heap κ β) : Prop where
  extends_ : h <+: h'
  refs : ∀ a o, h.length≤a → h'[a]?=some o → ∀ b∈o.addrs, base≤b

variable {h h' : Heap κ β} {base base' : Nat} {ts : List (ValueTree κ β)} {o : Obj κ β}

theorem getElem?_of_extends (hext : h <+: h') {a : Nat} (ho : h[a]?=some o) : h'[a]?=some o := by
  obtain ⟨new,rfl⟩ := hext
  rw [getElem?_append_left (List.getElem?_eq_some_iff.mp ho).1]
  exact ho

theorem Grows.refl (base : Nat) (h : Heap κ β) : Grows base h h where
  extends_ := prefix_rfl
  refs _ _ ha ho := absurd (List.getElem?_eq_some_iff.mp ho).1 (Nat.not_lt.mpr ha)
theorem Grows.length_le (hg : Grows base h h') : h.length≤h'.length := hg.extends_.length_le
theorem Grows.weaken (hg : Grows base h h') (hb : base' ≤ base) : Grows base' h h' where
  extends_ := hg.extends_
  refs a o ha ho b hb' := Nat.le_trans hb (hg.refs a o ha ho b hb')

theorem Grows.trans {h'' : Heap κ β} (hg : Grows base h h')
    (hg' : Grows base' h' h'') (hb : base≤base') : Grows base h h'' where
  extends_ := hg.extends_.trans hg'.extends_
  refs a o ha ho b hb' := by
    by_cases hlt : a<h'.length
    · obtain ⟨o',ho'⟩ : ∃ o', h'[a]?=some o' := ⟨_,getElem?_eq_getElem hlt⟩
      have heq : o' = o := some.inj ((getElem?_of_extends hg'.extends_ ho').symm.trans ho)
      exact hg.refs a o' ha ho' b (heq ▸ hb')
    · exact Nat.le_trans hb (hg'.refs a o (Nat.not_lt.mp hlt) ho b hb')

theorem Grows.alloc (hg : Grows base h h')
    (ho : ∀ b∈o.addrs, base≤b) : Grows base h (h' ++ [o]) where
  extends_ := hg.extends_.trans (prefix_append h' [o])
  refs a o' ha ho' b hb := by
    by_cases hlt : a<h'.length
    · rw [getElem?_append_left hlt] at ho'
      exact hg.refs a o' ha ho' b hb
    · have hmem:=mem_of_getElem? (getElem?_append_right (Nat.not_lt.mp hlt) ▸ ho')
      exact ho b ((mem_singleton.mp hmem) ▸ hb)

variable {xs : List (Ref β)} {es : List (κ × Ref β)}
  {r : Ref β} {t : ValueTree κ β}

theorem rep_extends {P : Nat → Prop} (hext : h <+: h') (hr : RepTree P h r t) : RepTree P h' r t :=
  RepTree.frame (fun _ h => h) (fun _ _ _ ho => getElem?_of_extends hext ho) t hr
theorem repList_extends {P : Nat → Prop} (hext : h <+: h') (hr : RepList P h xs ts) : RepList P h' xs ts :=
  RepList.frame (fun _ h => h) (fun _ _ _ ho => getElem?_of_extends hext ho) ts hr
theorem repEntries_extends {P : Nat → Prop} (hext : h <+: h') {ts : List (κ × ValueTree κ β)} (hr : RepEntries P h es ts) :
    RepEntries P h' es ts :=
  RepEntries.frame (fun _ h => h) (fun _ _ _ ho => getElem?_of_extends hext ho) ts hr
theorem rep_base (hb : base' ≤ base) (hr : RepTree (base ≤ ·) h r t) : RepTree (base' ≤ ·) h r t :=
  RepTree.frame (fun _ ha => Nat.le_trans hb ha) (fun _ _ _ ho => ho) t hr
theorem repList_base (hb : base' ≤ base) (hr : RepList (base ≤ ·) h xs ts) : RepList (base' ≤ ·) h xs ts :=
  RepList.frame (fun _ ha => Nat.le_trans hb ha) (fun _ _ _ ho => ho) ts hr
theorem repEntries_base (hb : base' ≤ base) {ts : List (κ × ValueTree κ β)}
    (hr : RepEntries (base ≤ ·) h es ts) : RepEntries (base' ≤ ·) h es ts :=
  RepEntries.frame (fun _ ha => Nat.le_trans hb ha) (fun _ _ _ ho => ho) ts hr

theorem repTree_map_alloc {ts : List (κ × ValueTree κ β)} (hb : base≤h.length)
    (hext : h++[.map es] <+: h') : RepTree (base ≤ ·) h' (.map (some h.length)) (.map ts) ↔
      RepEntries (base ≤ ·) h' es ts := by
  have hes : h'.entries (some h.length)=some es :=
    Heap.entries_of_agree (Heap.entries_alloc h es) fun _ _ _ ho => getElem?_of_extends hext ho
  rw [RepTree]
  constructor
  · rintro ⟨address,es',heq,-,hes',hr⟩
    cases heq
    cases hes.symm.trans hes'
    exact hr
  · intro hr
    refine ⟨_,es,rfl,?_,hes,hr⟩
    rintro a ⟨⟩
    exact hb

theorem repTree_list_alloc (hb : base≤h.length) (hext : h++[.list xs] <+: h') :
    RepTree (base ≤ ·) h' (.list (some h.length)) (.list ts) ↔ RepList (base ≤ ·) h' xs ts := by
  have hxs : h'.items (some h.length)=some xs :=
    Heap.items_of_agree (Heap.items_alloc h xs) fun _ _ _ ho => getElem?_of_extends hext ho
  rw [RepTree]
  constructor
  · rintro ⟨address,xs',heq,-,hxs',hr⟩
    cases heq
    cases hxs.symm.trans hxs'
    exact hr
  · intro hr
    refine ⟨_,xs,rfl,?_,hxs,hr⟩
    rintro a ⟨⟩
    exact hb

theorem RepEntries.alloc {ts : List (κ × ValueTree κ β)}
    (hb : base≤h.length) (hg : Grows base h h') (hr : RepEntries (base ≤ ·) h' es ts) :
    Grows base h (h' ++ [.map es]) ∧
      RepTree (base ≤ ·) (h' ++ [.map es]) (.map (some h'.length)) (.map ts) := by
  refine ⟨hg.alloc hr.addrs,?_⟩
  rw [repTree_map_alloc (hb.trans hg.length_le) prefix_rfl]
  exact repEntries_extends (prefix_append h' _) hr

theorem RepList.alloc (hb : base≤h.length) (hg : Grows base h h')
    (hr : RepList (base ≤ ·) h' xs ts) : Grows base h (h' ++ [.list xs]) ∧
      RepTree (base ≤ ·) (h' ++ [.list xs]) (.list (some h'.length)) (.list ts) := by
  refine ⟨hg.alloc hr.addrs,?_⟩
  rw [repTree_list_alloc (hb.trans hg.length_le) prefix_rfl]
  exact repList_extends (prefix_append h' _) hr

end OpsAgent.Lib
