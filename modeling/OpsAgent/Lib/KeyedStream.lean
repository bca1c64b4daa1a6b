import Mathlib.Data.List.Basic

/-!
# Streams processed with one entry per key

Before a batch, expired entries are dropped from a table; then each element is turned into an output
with the help of the entry of its key, which it replaces.
-/

namespace OpsAgent.Lib.KeyedStream
open List Bool

variable {χ κ ε υ : Type*} {x : ε}

structure Rule (χ κ ε υ : Type*) where
  key : χ → κ
  emit : Option ε → χ → υ
  store : χ → ε

def expire (old : ε → Bool) (e : Option ε) : Option ε := e.filter fun x => !old x

theorem expire_none (old : ε → Bool) : expire old none=none := rfl
theorem expire_some_of_old {old : ε → Bool} (h : old x) : expire old (some x)=none := by
  simp [expire,Option.filter,h]
theorem expire_some_of_not_old {old : ε → Bool} (h : old x=false) :
    expire old (some x)=some x := by simp [expire,Option.filter,h]

theorem expire_congr {old old' : ε → Bool} {e : Option ε} (h : ∀ x∈e, old x=old' x) :
    expire old e=expire old' e := by
  cases e with
  | none => rfl
  | some x => simp only [expire,Option.filter,h x rfl]

section Table
variable [DecidableEq κ]

def process (R : Rule χ κ ε υ) (t : κ → Option ε) : List χ → (κ → Option ε) × List υ
  | [] => (t,[])
  | x::xs =>
    let r:=process R (Function.update t (R.key x) (some (R.store x))) xs
    (r.1,R.emit (t (R.key x)) x::r.2)

def processBatches (R : Rule χ κ ε υ) (old : List χ → ε → Bool) (t : κ → Option ε) :
    List (List χ) → List (List υ)
  | [] => []
  | b::bs =>
    let r:=process R (fun k => expire (old b) (t k)) b
    r.2::processBatches R old r.1 bs

end Table

def track (R : Rule χ κ ε υ) (e : Option ε) : List χ → Option ε × List υ
  | [] => (e,[])
  | x::xs =>
    let r:=track R (some (R.store x)) xs
    (r.1,R.emit e x::r.2)

def lastEntry (store : χ → ε) (e : Option ε) (xs : List χ) : Option ε :=
  match xs.getLast? with
  | none => e
  | some x => some (store x)

theorem lastEntry_of_ne_nil (store : χ → ε) (e e' : Option ε) {xs : List χ} (h : xs≠[]) :
    lastEntry store e xs=lastEntry store e' xs := by
  rw [lastEntry,lastEntry,getLast?_eq_some_getLast h]

theorem track_fst (R : Rule χ κ ε υ) (e : Option ε) (xs : List χ) :
    (track R e xs).1=lastEntry R.store e xs := by
  induction xs generalizing e with
  | nil => rfl
  | cons x xs ih =>
    rw [track,ih]
    cases xs with
    | nil => rfl
    | cons y ys =>
      rw [lastEntry_of_ne_nil R.store _ e (cons_ne_nil y ys)]
      simp [lastEntry]

def trackBatches (R : Rule χ κ ε υ) (old : List χ → ε → Bool) (p : χ → Bool) (e : Option ε) :
    List (List χ) → List (List υ)
  | [] => []
  | b::bs =>
    let r:=track R (expire (old b) e) (b.filter p)
    r.2::trackBatches R old p r.1 bs

section Project
variable [DecidableEq κ] {R : Rule χ κ ε υ} {k : κ} {p : χ → Bool} {q : υ → Bool}

structure Selects (R : Rule χ κ ε υ) (k : κ) (p : χ → Bool) (q : υ → Bool) (xs : List χ) : Prop where
  key : ∀ x∈xs, p x ↔ R.key x=k
  emit : ∀ e x, q (R.emit e x)=p x

theorem process_project (t : κ → Option ε) (xs : List χ) (h : Selects R k p q xs) :
    (process R t xs).1 k=(track R (t k) (xs.filter p)).1 ∧
      (process R t xs).2.filter q=(track R (t k) (xs.filter p)).2 := by
  induction xs generalizing t with
  | nil => exact ⟨rfl,rfl⟩
  | cons x xs ih =>
    have hrest : Selects R k p q xs := ⟨fun y hy => h.key y (mem_cons_of_mem x hy),h.emit⟩
    obtain ⟨hentry,hout⟩ := ih (Function.update t (R.key x) (some (R.store x))) hrest
    have hkey:=h.key x mem_cons_self
    have hemit:=h.emit (t (R.key x)) x
    cases hp : p x with
    | true =>
      have hk : R.key x=k := hkey.mp hp
      rw [hk,Function.update_self] at hentry hout
      simp only [process,hk,filter_cons_of_pos hp,track]
      refine ⟨hentry,?_⟩
      rw [filter_cons_of_pos (by rw [← hk,hemit,hp]),hout]
    | false =>
      have hk : k≠R.key x := fun he => Bool.false_ne_true (hp ▸ hkey.mpr he.symm)
      rw [Function.update_of_ne hk] at hentry hout
      have hskip : ¬ p x := by rw [hp]; exact Bool.false_ne_true
      simp only [process,filter_cons_of_neg hskip]
      refine ⟨hentry,?_⟩
      rw [filter_cons_of_neg (by rw [hemit]; exact hskip),hout]

theorem processBatches_project (old : List χ → ε → Bool) (t : κ → Option ε) (bs : List (List χ))
    (h : ∀ b∈bs, Selects R k p q b) :
    (processBatches R old t bs).map (filter q)=trackBatches R old p (t k) bs := by
  induction bs generalizing t with
  | nil => rfl
  | cons b bs ih =>
    obtain ⟨hentry,hout⟩ := process_project (fun j => expire (old b) (t j)) b
      (h b mem_cons_self)
    simp only [processBatches,trackBatches,map_cons,hout]
    rw [ih _ fun b' hb' => h b' (mem_cons_of_mem b hb'),hentry]

end Project

section Own
variable {R : Rule χ κ ε υ} {old : List χ → ε → Bool} {p : χ → Bool}

def own (p : χ → Bool) (bs : List (List χ)) : List (List χ) :=
  (bs.map (filter p)).filter fun b => !b.isEmpty

variable {b : List χ} {bs : List (List χ)} {e e' : Option ε}

theorem own_cons_nil (bs : List (List χ)) (h : b.filter p=[]) : own p (b::bs)=own p bs := by
  simp [own,h]
theorem own_cons_ne_nil (bs : List (List χ)) (h : b.filter p≠[]) :
    own p (b::bs)=b.filter p::own p bs := by
  have hne : (!(b.filter p).isEmpty)=true := by simp [h]
  rw [own,own,map_cons,filter_cons,if_pos hne]

def undisturbed (store : χ → ε) (old : List χ → ε → Bool) (p : χ → Bool) :
    Option ε → List (List χ) → Bool
  | _, [] => true
  | last, b::bs =>
    ((b.filter p).isEmpty||last.all fun x => !old b x||old (b.filter p) x) &&
      undisturbed store old p (lastEntry store last (b.filter p)) bs

def Near (old : List χ → ε → Bool) (p : χ → Bool) (bs : List (List χ)) (e e' : Option ε) : Prop :=
  e=e' ∨ e=none ∧ ∃ x, e' = some x ∧ ∀ b∈bs, b.filter p≠[] → old (b.filter p) x

/-- In time order: selected elements expire no more than their whole batch, and no less than any
batch before. -/
structure Ordered (old : List χ → ε → Bool) (p : χ → Bool) (bs : List (List χ)) : Prop where
  within : ∀ b∈bs, ∀ x, old (b.filter p) x → old b x
  later : bs.Pairwise fun b b' => b'.filter p≠[] → ∀ x, old b x → old (b'.filter p) x

theorem near_skip (hord : Ordered old p (b::bs)) (h : Near old p (b::bs) e e') :
    Near old p bs (expire (old b) e) e' := by
  rcases h with rfl | ⟨rfl,x,rfl,hx⟩
  · cases e with
    | none => exact .inl rfl
    | some x =>
      cases hold : old b x with
      | false => exact .inl (expire_some_of_not_old hold)
      | true =>
        refine .inr ⟨expire_some_of_old hold,x,rfl,?_⟩
        intro b' hb' hne
        exact (pairwise_cons.mp hord.later).1 b' hb' hne x hold
  · exact .inr ⟨rfl,x,rfl,fun b' hb' => hx b' (mem_cons_of_mem b hb')⟩

theorem near_meet (hne : b.filter p≠[]) (hord : Ordered old p (b::bs)) (h : Near old p (b::bs) e e')
    (hund : ∀ x∈e', old b x → old (b.filter p) x) : expire (old b) e=expire (old (b.filter p)) e' := by
  rcases h with rfl | ⟨rfl,x,rfl,hx⟩
  · apply expire_congr
    intro x hx
    have hwithin:=hord.within b mem_cons_self x
    rw [Bool.eq_iff_iff]
    exact ⟨hund x hx,hwithin⟩
  · rw [expire_none,expire_some_of_old (hx b mem_cons_self hne)]

theorem trackBatches_own {last : Option ε} (hord : Ordered old p bs)
    (hund : undisturbed R.store old p last bs) (hlast : ∀ x∈e', x∈last) (h : Near old p bs e e') :
    (trackBatches R old p e bs).flatten=(trackBatches R old p e' (own p bs)).flatten := by
  induction bs generalizing last e e' with
  | nil => rfl
  | cons b bs ih =>
    have hordRest : Ordered old p bs :=
      ⟨fun b' hb' => hord.within b' (mem_cons_of_mem b hb'),
        (pairwise_cons.mp hord.later).2⟩
    simp only [undisturbed,and_eq_true] at hund
    by_cases hne : b.filter p=[]
    · have hundRest:=hund.2
      rw [hne] at hundRest
      rw [own_cons_nil bs hne]
      simp only [trackBatches,hne,track,flatten_cons,nil_append]
      exact ih hordRest hundRest hlast (near_skip hord h)
    · have hnow : ∀ x∈e', old b x → old (b.filter p) x := by
        intro x hx hold
        have hall:=hund.1
        have hxl : last=some x := hlast x hx
        simpa [hne,hxl,hold] using hall
      have hmeet:=near_meet hne hord h hnow
      have hself : (b.filter p).filter p=b.filter p := by rw [filter_filter]; simp
      rw [own_cons_ne_nil bs hne]
      simp only [trackBatches,hself,hmeet,flatten_cons]
      congr 1
      refine ih hordRest hund.2 ?_ (.inl rfl)
      intro x hx
      rw [track_fst] at hx
      rwa [lastEntry_of_ne_nil R.store last _ hne]

end Own

section Kept
variable {R : Rule χ κ ε υ} {old : List χ → ε → Bool} {p : χ → Bool}

def kept (store : χ → ε) (old : List χ → ε → Bool) (p : χ → Bool) :
    Option ε → List (List χ) → Bool
  | _, [] => true
  | last, b::bs =>
    (last.all fun x => !old b x)&&kept store old p (lastEntry store last (b.filter p)) bs

theorem track_append (e : Option ε) (xs ys : List χ) :
    (track R e (xs++ys)).2=(track R e xs).2++(track R (track R e xs).1 ys).2 := by
  induction xs generalizing e with
  | nil => rfl
  | cons x xs ih =>
    rw [cons_append,track,track,ih]
    rfl

theorem trackBatches_kept {bs : List (List χ)} {e : Option ε} (h : kept R.store old p e bs) :
    (trackBatches R old p e bs).flatten=(track R e (bs.flatten.filter p)).2 := by
  induction bs generalizing e with
  | nil => rfl
  | cons b bs ih =>
    simp only [kept,and_eq_true] at h
    obtain ⟨hnow,hlater⟩ := h
    have hexpire : expire (old b) e=e := by
      cases e with
      | none => rfl
      | some x => exact expire_some_of_not_old (by simpa using hnow)
    rw [← track_fst R] at hlater
    simp only [trackBatches,hexpire]
    rw [flatten_cons,ih hlater,flatten_cons,filter_append,track_append]

end Kept

end OpsAgent.Lib.KeyedStream
