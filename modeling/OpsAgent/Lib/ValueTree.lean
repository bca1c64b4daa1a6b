import Mathlib.Data.List.Induction
import OpsAgent.Lib.SortedMap

/-!
# Nested values and layers of them

A tree is a value, a list, or a map of named trees. Its face at a path is a map, or a value that is
not a map.
-/

namespace OpsAgent.Lib
open List Option

universe u v

section Decides
variable {τ : Type*}

/-- A layer satisfies `hit`, and all layers above it satisfy `keeps`. -/
def Decides (layers : List τ) (hit keeps : τ → Prop) : Prop :=
  ∃ lower l higher, layers=lower++l::higher ∧ hit l ∧ ∀ h∈higher, keeps h

theorem decides_append (layers : List τ) (x : τ) (hit keeps : τ → Prop) :
    Decides (layers++[x]) hit keeps ↔ hit x ∨ keeps x ∧ Decides layers hit keeps := by
  constructor
  · intro ⟨lower,l,higher,heq,hl,hh⟩
    rcases eq_nil_or_concat higher with hnil | ⟨hs,y,hcat⟩
    · subst hnil
      have hlast:=append_inj' heq rfl
      cases hlast.2
      exact .inl hl
    · subst hcat
      rw [concat_eq_append,← cons_append,← append_assoc] at heq
      have hlast:=append_inj' heq rfl
      cases hlast.2
      exact .inr ⟨hh x (by simp),lower,l,hs,hlast.1,hl,fun h hmem => hh h (by simp [hmem])⟩
  · intro h
    rcases h with hx | ⟨hk,lower,l,higher,heq,hl,hh⟩
    · exact ⟨layers,x,[],rfl,hx,by simp⟩
    · refine ⟨lower,l,higher++[x],by rw [heq,append_assoc]; rfl,hl,fun h hmem => ?_⟩
      rcases mem_append.mp hmem with hm | hm
      · exact hh h hm
      · exact (mem_singleton.mp hm) ▸ hk

@[simp] theorem not_decides_nil (hit keeps : τ → Prop) : ¬Decides [] hit keeps := by
  intro hdecides
  obtain ⟨lower,l,higher,heq,-⟩ := hdecides
  simp at heq

theorem decides_map {υ : Type*} (f : υ → τ) (layers : List υ) (hit keeps : τ → Prop) :
    Decides (layers.map f) hit keeps ↔ Decides layers (fun l => hit (f l)) (fun l => keeps (f l)) := by
  induction layers using List.reverseRecOn with
  | nil => simp
  | append_singleton layers x ih =>
    rw [map_append,map_singleton,decides_append,decides_append,ih]

theorem decides_congr {layers : List τ} {hit hit' keeps keeps' : τ → Prop}
    (hh : ∀ l, hit l ↔ hit' l) (hk : ∀ l, keeps l ↔ keeps' l) :
    Decides layers hit keeps ↔ Decides layers hit' keeps' := by simp only [Decides,hh,hk]

end Decides

inductive ValueTree (κ : Type u) (β : Type v) where
  | leaf (b : β)
  | list (items : List (ValueTree κ β))
  | map (entries : List (κ × ValueTree κ β))

inductive Face (κ : Type u) (β : Type v) where
  | map
  | value (t : ValueTree κ β)

variable {κ : Type u} {β : Type v}

namespace ValueTree

def isMap : ValueTree κ β → Bool
  | .map _ => true
  | _ => false

mutual

def depth : ValueTree κ β → Nat
  | .leaf _ => 0
  | .list items => depthList items+1
  | .map entries => depthEntries entries+1
def depthList : List (ValueTree κ β) → Nat
  | [] => 0
  | t::ts => max (depth t) (depthList ts)
def depthEntries : List (κ × ValueTree κ β) → Nat
  | [] => 0
  | (_,t)::es => max (depth t) (depthEntries es)

end

/-! Another leaf in the place of each. -/

mutual

def mapLeaves {γ : Type v} (f : β → γ) : ValueTree κ β → ValueTree κ γ
  | .leaf b => .leaf (f b)
  | .list items => .list (mapList f items)
  | .map entries => .map (mapEntries f entries)
def mapList {γ : Type v} (f : β → γ) : List (ValueTree κ β) → List (ValueTree κ γ)
  | [] => []
  | t::ts => mapLeaves f t::mapList f ts
def mapEntries {γ : Type v} (f : β → γ) : List (κ × ValueTree κ β) → List (κ × ValueTree κ γ)
  | [] => []
  | (k,t)::es => (k,mapLeaves f t)::mapEntries f es

end

def face : ValueTree κ β → Face κ β
  | .map _ => .map
  | .leaf b => .value (.leaf b)
  | .list items => .value (.list items)

variable {t : ValueTree κ β} {es : List (κ × ValueTree κ β)} {w : ValueTree κ β}

theorem face_eq_map_iff : t.face=.map ↔ ∃ es, t=.map es := by cases t <;> simp [face]

theorem face_eq_value_iff : t.face=.value w ↔ t=w ∧ w.isMap=false := by
  cases t with
  | map es =>
    simp only [face,reduceCtorEq,false_iff,not_and]
    intro h
    simp [← h,isMap]
  | leaf b | list items =>
    simp only [face,Face.value.injEq]
    exact ⟨fun h => ⟨h,h ▸ rfl⟩,And.left⟩

variable [LinearOrder κ]

mutual

def isOrdered : ValueTree κ β → Bool
  | .leaf _ => true
  | .list items => isOrderedList items
  | .map entries => decide (Entries.Sorted entries)&&isOrderedEntries entries
def isOrderedList : List (ValueTree κ β) → Bool
  | [] => true
  | t::ts => isOrdered t&&isOrderedList ts
def isOrderedEntries : List (κ × ValueTree κ β) → Bool
  | [] => true
  | (_,t)::es => isOrdered t&&isOrderedEntries es

end

def at? : ValueTree κ β → List κ → Option (ValueTree κ β)
  | t, [] => some t
  | .map es, k::p => (Entries.get? k es).bind fun t => t.at? p
  | .leaf _, _::_ => none
  | .list _, _::_ => none

def faceAt (t : ValueTree κ β) (p : List κ) : Option (Face κ β) := (t.at? p).map face

def hides : ValueTree κ β → List κ → Bool
  | _, [] => false
  | .map es, k::p => (Entries.get? k es).any fun t => t.hides p
  | .leaf _, _::_ => true
  | .list _, _::_ => true

theorem isOrdered_map : isOrdered (.map es) ↔ Entries.Sorted es ∧ isOrderedEntries es := by
  simp [isOrdered]
theorem isOrderedEntries_iff : isOrderedEntries es ↔ ∀ e∈es, e.2.isOrdered := by
  induction es with
  | nil => simp [isOrderedEntries]
  | cons e es ih => simp [isOrderedEntries,ih]

variable {k : κ} {p : List κ} (layers : List (ValueTree κ β))

theorem isOrdered_get? (h : isOrderedEntries es) (hk : Entries.get? k es=some t) : t.isOrdered :=
  isOrderedEntries_iff.mp h (k,t) (Entries.mem_of_get? hk)

theorem isOrderedEntries_put (h : isOrderedEntries es) (ht : t.isOrdered) :
    isOrderedEntries (Entries.put k t es) := by
  refine isOrderedEntries_iff.mpr fun e he => ?_
  rcases Entries.mem_put he with heq | hmem
  · exact heq ▸ ht
  · exact isOrderedEntries_iff.mp h e hmem

theorem depthEntries_put (es : List (κ × ValueTree κ β)) (k : κ) (t : ValueTree κ β) :
    depthEntries (Entries.put k t es) ≤ max t.depth (depthEntries es) := by
  induction es with
  | nil => simp [Entries.put,depthEntries]
  | cons e es ih =>
    obtain ⟨l,w⟩ := e
    rw [Entries.put]
    split
    · simp only [depthEntries]
      omega
    split
    · simp only [depthEntries]
      omega
    · simp only [depthEntries]
      omega

theorem depth_le_depthEntries (h : Entries.get? k es=some t) : t.depth≤depthEntries es := by
  induction es with
  | nil => cases h
  | cons e es ih =>
    obtain ⟨l,w⟩ := e
    rw [Entries.get?_cons] at h
    simp only [depthEntries]
    split at h
    · cases h
      omega
    · have := ih h
      omega

@[simp] theorem faceAt_nil (t : ValueTree κ β) : t.faceAt []=some t.face := by cases t <;> rfl
theorem faceAt_map_cons (es : List (κ × ValueTree κ β)) (k : κ) (p : List κ) :
    faceAt (.map es) (k::p)=(Entries.get? k es).bind fun t => t.faceAt p := by
  simp only [faceAt,at?,map_bind]
  rfl
theorem faceAt_cons_of_not_map (h : t.isMap=false) (k : κ) (p : List κ) : t.faceAt (k::p)=none := by
  cases t with
  | map es => cases h
  | _ => rfl
@[simp] theorem hides_nil (t : ValueTree κ β) : t.hides []=false := by cases t <;> rfl
theorem hides_map_cons (es : List (κ × ValueTree κ β)) (k : κ) (p : List κ) :
    hides (.map es) (k::p)=(Entries.get? k es).any fun t => t.hides p := rfl
theorem hides_cons_of_not_map (h : t.isMap=false) (k : κ) (p : List κ) : t.hides (k::p) := by
  cases t with
  | map es => cases h
  | _ => rfl

theorem hides_iff (t : ValueTree κ β) (p : List κ) :
    t.hides p ↔ ∃ q w, q <+: p ∧ q≠p ∧ t.at? q=some w ∧ w.isMap=false := by
  induction p generalizing t with
  | nil =>
    simp only [hides_nil,Bool.false_eq_true,false_iff,not_exists]
    intro q w h
    exact h.2.1 (prefix_nil.mp h.1)
  | cons k p ih =>
    constructor
    · intro h
      by_cases hm : t.isMap
      · cases t with
        | map es =>
          obtain ⟨c,hc,hh⟩ := (any_eq_true _ _).mp h
          obtain ⟨q,w,hq,hne,hat,hw⟩ := (ih c).mp hh
          refine ⟨k::q,w,cons_prefix_cons.mpr ⟨rfl,hq⟩,?_,?_,hw⟩
          · exact fun heq => hne (cons.inj heq).2
          · simp [at?,hc,hat]
        | leaf b | list items => cases hm
      · exact ⟨[],t, nil_prefix,(cons_ne_nil k p).symm,by cases t <;> rfl,
          Bool.eq_false_iff.mpr hm⟩
    · intro ⟨q,w,hq,hne,hat,hw⟩
      by_cases hm : t.isMap
      · cases t with
        | map es =>
          cases q with
          | nil =>
            cases hat
            cases hw
          | cons l q =>
            obtain ⟨rfl,hq'⟩ := cons_prefix_cons.mp hq
            obtain ⟨c,hc,hat'⟩ := bind_eq_some_iff.mp hat
            have hne' : q≠p := fun heq => hne (heq ▸ rfl)
            rw [hides_map_cons,hc]
            exact (ih c).mpr ⟨q,w,hq',hne',hat',hw⟩
        | leaf b | list items => cases hm
      · exact hides_cons_of_not_map (Bool.eq_false_iff.mpr hm) k p

mutual

theorem eq_of_faceAt (t u : ValueTree κ β) (ht : t.isOrdered) (hu : u.isOrdered)
    (h : ∀ p, t.faceAt p=u.faceAt p) : t=u := by
  have hface : t.face=u.face := by simpa using h []
  cases t with
  | leaf b | list items => exact ((face_eq_value_iff.mp hface.symm).1).symm
  | map es =>
    obtain ⟨fs,rfl⟩ := face_eq_map_iff.mp hface.symm
    obtain ⟨hes,hes'⟩ := isOrdered_map.mp ht
    obtain ⟨hfs,hfs'⟩ := isOrdered_map.mp hu
    refine congrArg ValueTree.map (Entries.ext hes hfs fun k => ?_)
    have hk (p : List κ) := h (k::p)
    simp only [faceAt_map_cons] at hk
    cases ha : Entries.get? k es with
    | none =>
      cases hb : Entries.get? k fs with
      | none => rfl
      | some b => simpa [ha,hb] using hk []
    | some a =>
      cases hb : Entries.get? k fs with
      | none => simpa [ha,hb] using hk []
      | some b =>
        have hab : a=b := eq_of_faceAt_entries es k a (Entries.mem_of_get? ha) b
          (isOrdered_get? hes' ha) (isOrdered_get? hfs' hb) (by simpa [ha,hb] using hk)
        rw [hab]

theorem eq_of_faceAt_entries (es : List (κ × ValueTree κ β)) (k : κ) (a : ValueTree κ β)
    (hmem : (k,a)∈es) (b : ValueTree κ β) (ha : a.isOrdered) (hb : b.isOrdered)
    (h : ∀ p, a.faceAt p=b.faceAt p) : a=b := by
  cases es with
  | nil => cases hmem
  | cons e es =>
    obtain ⟨l,c⟩ := e
    by_cases hc : (k,a)=(l,c)
    · have hac : a=c := (Prod.mk.inj hc).2
      rw [hac] at ha h ⊢
      exact eq_of_faceAt c b ha hb h
    · exact eq_of_faceAt_entries es k a (mem_of_ne_of_mem hc hmem) b ha hb h

end

def shownOver (l : ValueTree κ β) (p : List κ) (below : Option (Face κ β)) : Option (Face κ β) :=
  (l.faceAt p).or (if l.hides p then none else below)
def stacked (layers : List (ValueTree κ β)) (p : List κ) : Option (Face κ β) :=
  layers.foldl (fun below l => l.shownOver p below) none

theorem faceAt_eq_value_iff : t.faceAt p=some (.value w) ↔ t.at? p=some w ∧ w.isMap=false := by
  simp only [faceAt,map_eq_some_iff,face_eq_value_iff]
  constructor
  · intro ⟨a,ha,heq,hw⟩
    exact ⟨heq ▸ ha,hw⟩
  · intro ⟨h,hw⟩
    exact ⟨w,h,rfl,hw⟩

theorem faceAt_eq_map_iff : t.faceAt p=some .map ↔ ∃ es, t.at? p=some (.map es) := by
  simp only [faceAt,map_eq_some_iff,face_eq_map_iff]
  constructor
  · intro ⟨a,ha,es,heq⟩
    exact ⟨es,heq ▸ ha⟩
  · intro ⟨es,h⟩
    exact ⟨_,h,es,rfl⟩

theorem faceAt_eq_none_iff : t.faceAt p=none ↔ t.at? p=none := by simp [faceAt]

theorem stacked_eq_value_iff (p : List κ) (w : ValueTree κ β) :
    stacked layers p=some (.value w) ↔ Decides layers (fun l => l.faceAt p=some (.value w))
        (fun h => h.faceAt p=none ∧ h.hides p=false) := by
  induction layers using List.reverseRecOn with
  | nil => simp [stacked]
  | append_singleton layers x ih =>
    rw [decides_append,← ih,stacked,foldl_append,foldl_cons,foldl_nil,shownOver]
    cases hx : x.faceAt p <;> cases hh : x.hides p <;> simp [stacked]

theorem stacked_eq_map_iff (p : List κ) : stacked layers p=some .map ↔
      Decides layers (fun l => l.faceAt p=some .map)
        (fun h => (∀ w, h.faceAt p≠some (.value w)) ∧ h.hides p=false) := by
  induction layers using List.reverseRecOn with
  | nil => simp [stacked]
  | append_singleton layers x ih =>
    rw [decides_append,← ih,stacked,foldl_append,foldl_cons,foldl_nil,shownOver]
    cases hx : x.faceAt p with
    | none => cases hh : x.hides p <;> simp [stacked]
    | some f => cases f <;> simp

end ValueTree

end OpsAgent.Lib
