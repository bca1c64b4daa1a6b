import OpsAgent.Federation.ConfigDistributor
import OpsAgent.Lib.Fuel
import OpsAgent.Lib.ObjectHeap

/-!
# Configuration levels in memory (`federation/config_distributor.go`)

`ResolveConfig` hands out maps that its callers may change, so the levels and the results are
objects in a heap. A map under construction is a local value until it is returned.
-/

namespace OpsAgent.Federation.InHeap
open Lib List

variable {β : Type}

abbrev ConfigHeap (β : Type) := Heap String β

def copyItems (copy : ConfigHeap β → Ref β → Option (ConfigHeap β × Ref β)) (h : ConfigHeap β) :
    List (Ref β) → Option (ConfigHeap β × List (Ref β))
  | [] => some (h,[])
  | item::items =>
    (copy h item).bind fun r => (copyItems copy r.1 items).map fun s => (s.1,r.2::s.2)

def copyEntries (copy : ConfigHeap β → Ref β → Option (ConfigHeap β × Ref β)) (h : ConfigHeap β) :
    List (String × Ref β) → Option (ConfigHeap β × List (String × Ref β))
  | [] => some (h,[])
  | (k,v)::es =>
    (copy h v).bind fun r => (copyEntries copy r.1 es).map fun s => (s.1,(k,r.2)::s.2)

def allocMap (s : ConfigHeap β × List (String × Ref β)) : ConfigHeap β × Option Nat :=
  (s.1++[.map s.2],some s.1.length)
def allocList (s : ConfigHeap β × List (Ref β)) : ConfigHeap β × Option Nat :=
  (s.1++[.list s.2],some s.1.length)

def deepCopy : Nat → ConfigHeap β → Ref β → Option (ConfigHeap β × Ref β)
  | 0, _, _ => none
  | _+1, h, .scalar b => some (h,.scalar b)
  | n+1, h, .map m => (h.entries m).bind fun es =>
    (copyEntries (deepCopy n) h es).map fun s => ((allocMap s).1,.map (allocMap s).2)
  | n+1, h, .list m => (h.items m).bind fun items =>
    (copyItems (deepCopy n) h items).map fun s => ((allocList s).1,.list (allocList s).2)

/- The map that `deepCopyMap` builds. -/
def deepCopyMap (n : Nat) (h : ConfigHeap β) (m : Option Nat) :
    Option (ConfigHeap β × List (String × Ref β)) :=
  (h.entries m).bind (copyEntries (deepCopy n) h)

def mergeEntry (copy : ConfigHeap β → Ref β → Option (ConfigHeap β × Ref β))
    (merge : ConfigHeap β → Option Nat → Option Nat → Option (ConfigHeap β × Option Nat))
    (h : ConfigHeap β) : Option (Ref β) → Ref β → Option (ConfigHeap β × Ref β)
  | some (.map dstMap), .map srcMap => (merge h dstMap srcMap).map fun r => (r.1,.map r.2)
  | _, srcVal => copy h srcVal

def mergeLoop (copy : ConfigHeap β → Ref β → Option (ConfigHeap β × Ref β))
    (merge : ConfigHeap β → Option Nat → Option Nat → Option (ConfigHeap β × Option Nat))
    (h : ConfigHeap β) (result : List (String × Ref β)) :
    List (String × Ref β) → Option (ConfigHeap β × List (String × Ref β))
  | [] => some (h,result)
  | (k,srcVal)::src =>
    (mergeEntry copy merge h (Entries.get? k result) srcVal).bind fun r =>
      mergeLoop copy merge r.1 (Entries.put k r.2 result) src

def deepMerge : Nat → ConfigHeap β → Option Nat → Option Nat →
    Option (ConfigHeap β × Option Nat)
  | 0, _, _, _ => none
  | n+1, h, dst, src => (deepCopyMap n h dst).bind fun r =>
    (r.1.entries src).bind fun es =>
      (mergeLoop (deepCopy n) (deepMerge n) r.1 r.2 es).map allocMap

structure LevelRefs where
  global : Option Nat
  (regions groups agents : SortedMap String (Option Nat))

def mergeLevel (n : Nat) (levels : SortedMap String (Option Nat))
    (s : ConfigHeap β × Option Nat) (name : String) : Option (ConfigHeap β × Option Nat) :=
  match levels.get? name with
  | some cfg => deepMerge n s.1 s.2 cfg
  | none => some s

def mergeGroups (n : Nat) (levels : SortedMap String (Option Nat))
    (s : ConfigHeap β × Option Nat) : List String → Option (ConfigHeap β × Option Nat)
  | [] => some s
  | g::gs => (mergeLevel n levels s g).bind fun s => mergeGroups n levels s gs

def resolveConfig (n : Nat) (h : ConfigHeap β) (levels : LevelRefs) (agentID region : String)
    (groups : List String) : Option (ConfigHeap β × Option Nat) :=
  (deepCopyMap n h levels.global).bind fun r =>
    (mergeLevel n levels.regions (allocMap r) region).bind fun s =>
      (mergeGroups n levels.groups s (exchangeSort groups)).bind fun s =>
        mergeLevel n levels.agents s agentID

/- The result of a copy made in `h`: new objects, reachable only from each other. -/
def CopyOf (h : ConfigHeap β) (t : Value β) (res : ConfigHeap β × Ref β) : Prop :=
  Grows h.length h res.1 ∧ RepTree (h.length ≤ ·) res.1 res.2 t

section Copy
variable {n : Nat} {copy : ConfigHeap β → Ref β → Option (ConfigHeap β × Ref β)}
  {P : Nat → Prop}

theorem copyItems_ends (hcopy : ∀ h r t, RepTree P h r t → Ends (copy h r) (n≤t.depth) (CopyOf h t))
    (ts : List (Value β)) (h : ConfigHeap β) (xs : List (Ref β)) (hr : RepList P h xs ts) :
    Ends (copyItems copy h xs) (n≤ValueTree.depthList ts) fun res =>
      Grows h.length h res.1 ∧ RepList (h.length ≤ ·) res.1 res.2 ts := by
  induction ts generalizing h xs with
  | nil =>
    rw [RepList] at hr
    subst hr
    exact ⟨Grows.refl _ h,by rw [RepList]⟩
  | cons t ts ih =>
    rw [RepList] at hr
    obtain ⟨x,xs,rfl,hx,hxs⟩ := hr
    have hhead : Ends (copy h x) (n≤ValueTree.depthList (t::ts)) (CopyOf h t) :=
      (hcopy h x t hx).mono (fun hn => by simp only [ValueTree.depthList]; omega) (fun _ h => h)
    refine hhead.bind fun r hpost => ?_
    obtain ⟨hg,hrep⟩ := hpost
    have htail:=ih r.1 xs (repList_extends hg.extends_ hxs)
    refine (htail.mono (fun hn => by simp only [ValueTree.depthList]; omega) (fun _ h => h)).map ?_
    intro s hpost
    obtain ⟨hg',hrep'⟩ := hpost
    refine ⟨hg.trans hg' hg.length_le,?_⟩
    rw [RepList]
    exact ⟨r.2,s.2,rfl,rep_extends hg'.extends_ hrep,repList_base hg.length_le hrep'⟩

theorem copyEntries_ends (hcopy : ∀ h r t, RepTree P h r t → Ends (copy h r) (n≤t.depth) (CopyOf h t))
    (ts : List (String × Value β)) (h : ConfigHeap β) (es : List (String × Ref β))
    (hr : RepEntries P h es ts) : Ends (copyEntries copy h es) (n≤ValueTree.depthEntries ts) fun res =>
      Grows h.length h res.1 ∧ RepEntries (h.length ≤ ·) res.1 res.2 ts := by
  induction ts generalizing h es with
  | nil =>
    rw [RepEntries] at hr
    subst hr
    exact ⟨Grows.refl _ h,by rw [RepEntries]⟩
  | cons e ts ih =>
    obtain ⟨k,t⟩ := e
    rw [RepEntries] at hr
    obtain ⟨x,es,rfl,hx,hes⟩ := hr
    have hhead : Ends (copy h x) (n≤ValueTree.depthEntries ((k,t)::ts)) (CopyOf h t) :=
      (hcopy h x t hx).mono (fun hn => by simp only [ValueTree.depthEntries]; omega) (fun _ h => h)
    refine hhead.bind fun r hpost => ?_
    obtain ⟨hg,hrep⟩ := hpost
    have htail:=ih r.1 es (repEntries_extends hg.extends_ hes)
    refine (htail.mono (fun hn => by simp only [ValueTree.depthEntries]; omega)
      (fun _ h => h)).map ?_
    intro s hpost
    obtain ⟨hg',hrep'⟩ := hpost
    refine ⟨hg.trans hg' hg.length_le,?_⟩
    rw [RepEntries]
    exact ⟨r.2,s.2,rfl,rep_extends hg'.extends_ hrep,repEntries_base hg.length_le hrep'⟩

end Copy

variable {h h₀ : ConfigHeap β}

theorem allocMap_rep {base : Nat} {s : ConfigHeap β × List (String × Ref β)}
    {ts : List (String × Value β)} (hb : base≤h.length) (hg : Grows base h s.1)
    (hr : RepEntries (base ≤ ·) s.1 s.2 ts) : Grows base h (allocMap s).1 ∧
      RepTree (base ≤ ·) (allocMap s).1 (.map (allocMap s).2) (.map ts) :=
  hr.alloc hb hg

theorem allocList_rep {base : Nat} {s : ConfigHeap β × List (Ref β)} {ts : List (Value β)}
    (hb : base≤h.length) (hg : Grows base h s.1) (hr : RepList (base ≤ ·) s.1 s.2 ts) :
    Grows base h (allocList s).1 ∧
      RepTree (base ≤ ·) (allocList s).1 (.list (allocList s).2) (.list ts) :=
  hr.alloc hb hg

theorem deepCopy_ends (n : Nat) {P : Nat → Prop} (h : ConfigHeap β) (r : Ref β) (t : Value β)
    (hr : RepTree P h r t) : Ends (deepCopy n h r) (n≤t.depth) (CopyOf h t) := by
  induction n generalizing h r t with
  | zero => exact Nat.zero_le _
  | succ n ih =>
    cases t with
    | leaf b =>
      rw [RepTree] at hr
      subst hr
      exact ⟨Grows.refl _ h,by rw [RepTree]⟩
    | list ts =>
      rw [RepTree] at hr
      obtain ⟨address,xs,rfl,-,hxs,hrep⟩ := hr
      rw [deepCopy,hxs]
      refine ((copyItems_ends ih ts h xs hrep).mono
        (fun hn => by simp only [ValueTree.depth]; omega) (fun _ h => h)).map ?_
      intro s hpost
      obtain ⟨hg,hs⟩ := hpost
      exact allocList_rep (Nat.le_refl _) hg hs
    | map ts =>
      rw [RepTree] at hr
      obtain ⟨address,es,rfl,-,hes,hrep⟩ := hr
      rw [deepCopy,hes]
      refine ((copyEntries_ends ih ts h es hrep).mono
        (fun hn => by simp only [ValueTree.depth]; omega) (fun _ h => h)).map ?_
      intro s hpost
      obtain ⟨hg,hs⟩ := hpost
      exact allocMap_rep (Nat.le_refl _) hg hs

/-! A merge is not deeper than its arguments, so that the fuel for those is enough. -/

mutual

theorem depthEntries_mergeEntries (result src : List (String × Value β)) :
    ValueTree.depthEntries (mergeEntries result src) ≤
      max (ValueTree.depthEntries result) (ValueTree.depthEntries src) := by
  cases src with
  | nil => rw [mergeEntries]; omega
  | cons e src =>
    obtain ⟨k,v⟩ := e
    have hrest:=depthEntries_mergeEntries
      (Entries.put k (mergeValue (Entries.get? k result) v) result) src
    have hput:=ValueTree.depthEntries_put result k (mergeValue (Entries.get? k result) v)
    have hv:=depth_mergeValue (Entries.get? k result) v (ValueTree.depthEntries result)
      fun d hd => ValueTree.depth_le_depthEntries hd
    rw [mergeEntries]
    simp only [ValueTree.depthEntries]
    omega

theorem depth_mergeValue (dst : Option (Value β)) (v : Value β) (bound : Nat)
    (hd : ∀ d, dst=some d → d.depth≤bound) : (mergeValue dst v).depth ≤ max bound v.depth := by
  cases v with
  | leaf b | list items => rw [mergeValue_of_not_map rfl]; omega
  | map src =>
    by_cases hm : ∃ es, dst=some (.map es)
    · obtain ⟨es,rfl⟩ := hm
      have hrest:=depthEntries_mergeEntries es src
      have hes:=hd _ rfl
      rw [mergeValue_map]
      simp only [ValueTree.depth] at hes ⊢
      omega
    · rw [mergeValue_of_dst_not_map _ fun es heq => hm ⟨es,heq⟩]
      omega

end

section Merge
variable {n base : Nat} {P : Nat → Prop}
  {copy : ConfigHeap β → Ref β → Option (ConfigHeap β × Ref β)}
  {merge : ConfigHeap β → Option Nat → Option Nat → Option (ConfigHeap β × Option Nat)}

def Merges (n : Nat) (P Q : Nat → Prop)
    (merge : ConfigHeap β → Option Nat → Option Nat → Option (ConfigHeap β × Option Nat)) : Prop :=
  ∀ h dst src ds ss, RepTree P h (.map dst) (.map ds) → RepTree Q h (.map src) (.map ss) →
    Ends (merge h dst src) (n ≤ max (ValueTree.depth (.map ds)) (ValueTree.depth (.map ss)))
      fun res => CopyOf h (.map (mergeEntries ds ss)) (res.1,.map res.2)

theorem mergeEntry_of_not_map (h : ConfigHeap β) (dst : Option (Ref β)) {r : Ref β}
    (hr : ∀ m, r ≠ .map m) : mergeEntry copy merge h dst r=copy h r := by
  cases r with
  | map m => exact absurd rfl (hr m)
  | scalar b | list m => cases dst with
    | none => rfl
    | some d => cases d <;> rfl

theorem mergeEntry_ends (hcopy : ∀ h r t, RepTree P h r t → Ends (copy h r) (n≤t.depth) (CopyOf h t))
    (hmerge : Merges n (base ≤ ·) P merge) (h : ConfigHeap β) {es : List (String × Ref β)}
    {ts : List (String × Value β)} (hes : RepEntries (base ≤ ·) h es ts) (k : String) {r : Ref β}
    {v : Value β} (hr : RepTree P h r v) : Ends (mergeEntry copy merge h (Entries.get? k es) r)
      (n ≤ max (ValueTree.depthEntries ts) v.depth) (CopyOf h (mergeValue (Entries.get? k ts) v)) := by
  have hplain (hne : mergeEntry copy merge h (Entries.get? k es) r=copy h r)
      (hval : mergeValue (Entries.get? k ts) v=v) :
      Ends (mergeEntry copy merge h (Entries.get? k es) r)
        (n ≤ max (ValueTree.depthEntries ts) v.depth)
        (CopyOf h (mergeValue (Entries.get? k ts) v)) := by
    rw [hne,hval]
    exact (hcopy h r v hr).mono (fun hn => by omega) (fun _ h => h)
  cases v with
  | leaf b =>
    have hr' := hr
    rw [RepTree] at hr'
    subst hr'
    exact hplain (mergeEntry_of_not_map h _ fun m heq => by cases heq) (mergeValue_of_not_map rfl)
  | list items =>
    have hr' := hr
    rw [RepTree] at hr'
    obtain ⟨address,xs,rfl,-⟩ := hr'
    exact hplain (mergeEntry_of_not_map h _ fun m heq => by cases heq) (mergeValue_of_not_map rfl)
  | map src =>
    have hr' := hr
    rw [RepTree] at hr'
    obtain ⟨srcMap,ses,rfl,-⟩ := hr'
    rcases hes.get? k with ⟨hnone,hnone'⟩ | ⟨x,d,hx,hd,hrep⟩
    · rw [hnone,hnone'] at hplain ⊢
      exact hplain rfl (mergeValue_of_dst_not_map _ fun es h => by cases h)
    rw [hx,hd] at hplain ⊢
    cases d with
    | leaf b =>
      rw [RepTree] at hrep
      subst hrep
      exact hplain rfl (mergeValue_of_dst_not_map _ fun es h => by cases h)
    | list items =>
      rw [RepTree] at hrep
      obtain ⟨address,xs,rfl,-⟩ := hrep
      exact hplain rfl (mergeValue_of_dst_not_map _ fun es h => by cases h)
    | map ds =>
      have hrep' := hrep
      rw [RepTree] at hrep'
      obtain ⟨dstMap,des,rfl,-⟩ := hrep'
      have hdepth:=ValueTree.depth_le_depthEntries hd
      rw [mergeValue_map]
      exact ((hmerge h dstMap srcMap ds src hrep hr).mono (fun hn => by omega)
        (fun _ h => h)).map fun _ h => h

theorem mergeLoop_ends (hcopy : ∀ h r t, RepTree P h r t → Ends (copy h r) (n≤t.depth) (CopyOf h t))
    (hmerge : Merges n (base ≤ ·) P merge) (ss ts : List (String × Value β)) (h : ConfigHeap β)
    (hb : base≤h.length) (es src : List (String × Ref β)) (hes : RepEntries (base ≤ ·) h es ts)
    (hsrc : RepEntries P h src ss) : Ends (mergeLoop copy merge h es src)
      (n ≤ max (ValueTree.depthEntries ts) (ValueTree.depthEntries ss)) fun res =>
        Grows base h res.1 ∧ RepEntries (base ≤ ·) res.1 res.2 (mergeEntries ts ss) := by
  induction ss generalizing h es src ts with
  | nil =>
    rw [RepEntries] at hsrc
    subst hsrc
    rw [mergeEntries]
    exact ⟨Grows.refl _ h,hes⟩
  | cons e ss ih =>
    obtain ⟨k,v⟩ := e
    rw [RepEntries] at hsrc
    obtain ⟨r,src,rfl,hr,hsrc⟩ := hsrc
    have hentry : Ends (mergeEntry copy merge h (Entries.get? k es) r)
        (n ≤ max (ValueTree.depthEntries ts) (ValueTree.depthEntries ((k,v)::ss)))
        (CopyOf h (mergeValue (Entries.get? k ts) v)) :=
      (mergeEntry_ends hcopy hmerge h hes k hr).mono
        (fun hn => by simp only [ValueTree.depthEntries]; omega) (fun _ h => h)
    rw [mergeLoop,mergeEntries]
    refine hentry.bind fun res hpost => ?_
    obtain ⟨hg,hrep⟩ := hpost
    have hput:=(repEntries_extends hg.extends_ hes).put (rep_base hb hrep) k
    have hdepth:=ValueTree.depthEntries_put ts k (mergeValue (Entries.get? k ts) v)
    have hval:=depth_mergeValue (Entries.get? k ts) v (ValueTree.depthEntries ts)
      fun d hd => ValueTree.depth_le_depthEntries hd
    have hrest:=ih _ res.1 (Nat.le_trans hb hg.length_le) _ src hput
      (repEntries_extends hg.extends_ hsrc)
    refine hrest.mono (fun hn => by simp only [ValueTree.depthEntries]; omega) ?_
    intro s hpost
    obtain ⟨hg',hrep'⟩ := hpost
    exact ⟨(hg.weaken hb).trans hg' (Nat.le_refl _),hrep'⟩

end Merge

theorem deepCopyMap_ends (n : Nat) {P : Nat → Prop} (h : ConfigHeap β) (m : Option Nat)
    (ts : List (String × Value β)) (hr : RepTree P h (.map m) (.map ts)) :
    Ends (deepCopyMap n h m) (n≤ValueTree.depthEntries ts) fun res =>
      Grows h.length h res.1 ∧ RepEntries (h.length ≤ ·) res.1 res.2 ts := by
  rw [RepTree] at hr
  obtain ⟨address,es,heq,-,hes,hrep⟩ := hr
  cases heq
  rw [deepCopyMap,hes]
  exact copyEntries_ends (fun h r t => deepCopy_ends n h r t) ts h es hrep

theorem deepMerge_ends (n : Nat) (P Q : Nat → Prop) : Merges n P Q (@deepMerge β n) := by
  induction n generalizing P Q with
  | zero => exact fun _ _ _ _ _ _ _ => Nat.zero_le _
  | succ n ih =>
    intro h dst src ds ss hdst hsrc
    rw [deepMerge]
    have hcopied : Ends (deepCopyMap n h dst)
        (n+1 ≤ max (ValueTree.depth (.map ds)) (ValueTree.depth (.map ss))) _ :=
      (deepCopyMap_ends n h dst ds hdst).mono
        (fun hn => by simp only [ValueTree.depth]; omega) (fun _ h => h)
    refine hcopied.bind fun r hpost => ?_
    obtain ⟨hg,hr⟩ := hpost
    have hsrc' := rep_extends hg.extends_ hsrc
    rw [RepTree] at hsrc'
    obtain ⟨address,es,heq,-,hes,hrep⟩ := hsrc'
    cases heq
    rw [hes]
    have hloop:=mergeLoop_ends (fun h r t => deepCopy_ends n h r t) (ih (h.length ≤ ·) Q) ss ds
      r.1 hg.length_le r.2 es hr hrep
    refine (hloop.mono (fun hn => by simp only [ValueTree.depth]; omega) (fun _ h => h)).map ?_
    intro s hpost
    obtain ⟨hg',hs⟩ := hpost
    exact allocMap_rep (Nat.le_refl _) (hg.trans hg' (Nat.le_refl _)) hs

def RepLevel (P : Nat → Prop) (h : ConfigHeap β) (refs : SortedMap String (Option Nat))
    (levels : SortedMap String (ConfigMap β)) : Prop :=
  ∀ name, (refs.get? name=none ∧ levels.get? name=none) ∨
    ∃ m c, refs.get? name=some m ∧ levels.get? name=some c ∧ RepTree P h (.map m) c.root

structure LevelRefs.Denotes (refs : LevelRefs) (P : Nat → Prop) (h : ConfigHeap β)
    (levels : ConfigLevels β) : Prop where
  global : RepTree P h (.map refs.global) levels.global.root
  regions : RepLevel P h refs.regions levels.regions
  groups : RepLevel P h refs.groups levels.groups
  agents : RepLevel P h refs.agents levels.agents

theorem RepLevel.frame {P : Nat → Prop} {h' : ConfigHeap β}
    {refs : SortedMap String (Option Nat)} {levels : SortedMap String (ConfigMap β)}
    (hagree : ∀ a o, P a → h[a]?=some o → h'[a]?=some o) (hr : RepLevel P h refs levels) :
    RepLevel P h' refs levels := by
  intro name
  rcases hr name with hnone | ⟨m,c,hm,hc,hrep⟩
  · exact .inl hnone
  · exact .inr ⟨m,c,hm,hc,RepTree.frame (fun _ h => h) hagree _ hrep⟩

theorem LevelRefs.Denotes.frame {refs : LevelRefs} {P : Nat → Prop} {h' : ConfigHeap β}
    {levels : ConfigLevels β} (hagree : ∀ a o, P a → h[a]?=some o → h'[a]?=some o)
    (hd : refs.Denotes P h levels) : refs.Denotes P h' levels where
  global := RepTree.frame (fun _ h => h) hagree _ hd.global
  regions := hd.regions.frame hagree
  groups := hd.groups.frame hagree
  agents := hd.agents.frame hagree

structure DepthBound (levels : ConfigLevels β) (bound : Nat) : Prop where
  global : levels.global.root.depth≤bound
  regions : ∀ name c, levels.regions.get? name=some c → c.root.depth≤bound
  groups : ∀ name c, levels.groups.get? name=some c → c.root.depth≤bound
  agents : ∀ name c, levels.agents.get? name=some c → c.root.depth≤bound

def Resolving (h : ConfigHeap β) (bound : Nat) (c : ConfigMap β)
    (s : ConfigHeap β × Option Nat) : Prop :=
  Grows h.length h s.1 ∧ RepTree (h.length ≤ ·) s.1 (.map s.2) c.root ∧ c.root.depth≤bound

section Resolve
variable {n bound : Nat} {P : Nat → Prop} {h : ConfigHeap β}

theorem depth_deepMerge {c d : ConfigMap β} (hc : c.root.depth≤bound)
    (hd : d.root.depth≤bound) : (Federation.deepMerge c d).root.depth≤bound := by
  have hle:=depth_mergeValue (some c.root) d.root bound (fun x hx => by cases hx; exact hc)
  rw [ConfigMap.root,ConfigMap.root,mergeValue_map] at hle
  exact Nat.le_trans hle (Nat.max_le.mpr ⟨Nat.le_refl _,hd⟩)

variable {refs : SortedMap String (Option Nat)} {levels : SortedMap String (ConfigMap β)}
  (hrep : RepLevel P h refs levels) (hbound : ∀ name c, levels.get? name=some c → c.root.depth≤bound)
  {c : ConfigMap β} {s : ConfigHeap β × Option Nat}
include hrep hbound

theorem mergeLevel_ends (name : String) (hs : Resolving h bound c s) :
    Ends (mergeLevel n refs s name) (n≤bound)
      (Resolving h bound (Federation.mergeLevel levels c name)) := by
  obtain ⟨hg,hc,hdepth⟩ := hs
  rw [mergeLevel,Federation.mergeLevel]
  rcases hrep name with ⟨hnone,hnone'⟩ | ⟨m,d,hm,hd,hrd⟩
  · rw [hnone,hnone']
    exact ⟨hg,hc,hdepth⟩
  · rw [hm,hd]
    have hdd:=hbound name d hd
    refine (deepMerge_ends n (h.length ≤ ·) P s.1 s.2 m c.entries d.entries hc
      (rep_extends hg.extends_ hrd)).mono (fun hn => ?_) ?_
    · have hroots : max c.root.depth d.root.depth≤bound := Nat.max_le.mpr ⟨hdepth,hdd⟩
      exact Nat.le_trans hn hroots
    · intro res hpost
      obtain ⟨hg',hres⟩ := hpost
      exact ⟨hg.trans hg' hg.length_le,rep_base hg.length_le hres,depth_deepMerge hdepth hdd⟩

theorem mergeGroups_ends (gs : List String) (hs : Resolving h bound c s) :
    Ends (mergeGroups n refs s gs) (n≤bound)
      (Resolving h bound (gs.foldl (Federation.mergeLevel levels) c)) := by
  induction gs generalizing c s with
  | nil => exact hs
  | cons g gs ih => exact (mergeLevel_ends hrep hbound g hs).bind fun s' hs' => ih hs'

omit hrep hbound

theorem resolveConfig_ends {refs : LevelRefs} {levels : ConfigLevels β}
    (hd : refs.Denotes P h levels) (hb : DepthBound levels bound) (agentID region : String)
    (groups : List String) : Ends (resolveConfig n h refs agentID region groups) (n≤bound)
      (Resolving h bound (Federation.resolveConfig levels agentID region groups)) := by
  have hglobal : Ends (deepCopyMap n h refs.global) (n≤bound) _ :=
    (deepCopyMap_ends n h refs.global levels.global.entries hd.global).mono
      (fun hn => by
        have hle:=hb.global
        simp only [ConfigMap.root,ValueTree.depth] at hle
        omega) (fun _ h => h)
  refine hglobal.bind fun r hpost => ?_
  obtain ⟨hg,hr⟩ := hpost
  obtain ⟨hg',hr'⟩ := allocMap_rep (Nat.le_refl _) hg hr
  refine (mergeLevel_ends hd.regions hb.regions region ⟨hg',hr',hb.global⟩).bind fun s hs => ?_
  refine (mergeGroups_ends hd.groups hb.groups (exchangeSort groups) hs).bind fun s' hs' => ?_
  exact mergeLevel_ends hd.agents hb.agents agentID hs'

end Resolve

theorem exists_depth_bound (es : List (String × ConfigMap β)) :
    ∃ bound, ∀ e∈es, e.2.root.depth≤bound := by
  induction es with
  | nil => exact ⟨0,by simp⟩
  | cons e es ih =>
    obtain ⟨bound,hb⟩ := ih
    refine ⟨max e.2.root.depth bound,fun x hx => ?_⟩
    rcases mem_cons.mp hx with heq | hmem
    · subst heq
      omega
    · have := hb x hmem
      omega

theorem exists_level_bound (levels : SortedMap String (ConfigMap β)) :
    ∃ bound, ∀ name c, levels.get? name=some c → c.root.depth≤bound := by
  obtain ⟨bound,hb⟩ := exists_depth_bound levels.entries
  exact ⟨bound,fun name c hc => hb (name,c) (SortedMap.mem_entries.mpr hc)⟩

theorem exists_depthBound (levels : ConfigLevels β) : ∃ bound, DepthBound levels bound := by
  obtain ⟨r,hr⟩ := exists_level_bound levels.regions
  obtain ⟨g,hg⟩ := exists_level_bound levels.groups
  obtain ⟨a,ha⟩ := exists_level_bound levels.agents
  exact ⟨max levels.global.root.depth (max r (max g a)),by omega,
    fun name c hc => (hr name c hc).trans (by omega),
    fun name c hc => (hg name c hc).trans (by omega),
    fun name c hc => (ha name c hc).trans (by omega)⟩

/-! ### Callers

Between the calls of `ResolveConfig` the callers may store anything that they can
reach into any object that they can reach, and allocate objects of their own. -/

structure World (β : Type) where
  heap : ConfigHeap β
  held : List Nat

inductive Reaches (w : World β) : Nat → Prop
  | held {a} : a∈w.held → Reaches w a
  | field {a b o} : Reaches w a → w.heap[a]?=some o → b∈o.addrs → Reaches w b

inductive Step (refs : LevelRefs) : World β → World β → Prop
  | resolve {w n agentID region groups} {h : ConfigHeap β} {m} :
      resolveConfig n w.heap refs agentID region groups=some (h,m) →
      Step refs w ⟨h,m.toList++w.held⟩
  | store {w a o} : Reaches w a → (∀ b∈o.addrs, Reaches w b) → Step refs w ⟨w.heap.set a o,w.held⟩
  | create {w o} : (∀ b∈o.addrs, Reaches w b) → Step refs w ⟨w.heap++[o],w.heap.length::w.held⟩

/- The objects of the initial heap are as they were, and the callers cannot reach them. -/
structure Apart (h₀ : ConfigHeap β) (w : World β) : Prop where
  grows : Grows h₀.length h₀ w.heap
  held : ∀ a∈w.held, h₀.length≤a

theorem Apart.reaches {w : World β} (hw : Apart h₀ w) {a : Nat} (ha : Reaches w a) : h₀.length≤a := by
  induction ha with
  | held h => exact hw.held _ h
  | field _ ho hb ih => exact hw.grows.refs _ _ ih ho _ hb

theorem Apart.store {w : World β} (hw : Apart h₀ w) {a : Nat}
    {o : Obj String β} (ha : h₀.length≤a) (ho : ∀ b∈o.addrs, h₀.length≤b) :
    Grows h₀.length h₀ (w.heap.set a o) := by
  obtain ⟨new,hnew⟩ := hw.grows.extends_
  refine ⟨⟨new.set (a-h₀.length) o,?_⟩,fun b o' hb hget c hc => ?_⟩
  · rw [← hnew,set_append_right _ _ ha]
  · by_cases hab : a=b
    · subst hab
      have hlt : a<w.heap.length := by
        have := (List.getElem?_eq_some_iff.mp hget).1
        simpa using this
      rw [getElem?_set_self hlt] at hget
      cases hget
      exact ho c hc
    · rw [getElem?_set_ne hab] at hget
      exact hw.grows.refs b o' hb hget c hc

theorem Apart.step {refs : LevelRefs} {levels : ConfigLevels β}
    (hd : refs.Denotes (· < h₀.length) h₀ levels) {w w' : World β} (hw : Apart h₀ w)
    (hs : Step refs w w') : Apart h₀ w' := by
  cases hs with
  | resolve hres =>
    obtain ⟨bound,hb⟩ := exists_depthBound levels
    have hd' : refs.Denotes (· < h₀.length) w.heap levels :=
      hd.frame fun _ _ _ ho => getElem?_of_extends hw.grows.extends_ ho
    obtain ⟨hg,hrep,-⟩ := (resolveConfig_ends hd' hb _ _ _).of_some hres
    refine ⟨hw.grows.trans hg hw.grows.length_le,fun a ha => ?_⟩
    rcases mem_append.mp ha with hm | hheld
    · exact Nat.le_trans hw.grows.length_le (hrep.addrs a hm)
    · exact hw.held a hheld
  | store ha ho => exact ⟨hw.store (hw.reaches ha) fun b hb => hw.reaches (ho b hb),hw.held⟩
  | create ho =>
    refine ⟨hw.grows.alloc fun b hb => hw.reaches (ho b hb),fun a ha => ?_⟩
    rcases mem_cons.mp ha with heq | hheld
    · exact heq ▸ hw.grows.length_le
    · exact hw.held a hheld

theorem apart_of_run {refs : LevelRefs} {levels : ConfigLevels β}
    (hd : refs.Denotes (· < h₀.length) h₀ levels) {w : World β}
    (hrun : Relation.ReflTransGen (Step refs) ⟨h₀,[]⟩ w) : Apart h₀ w := by
  induction hrun with
  | refl => exact ⟨Grows.refl _ h₀,fun a ha => by cases ha⟩
  | tail _ hs ih => exact ih.step hd hs

/-- Whatever callers do with results, every later call returns the configuration of the stored levels. -/
theorem resolveConfig_unaffected (h₀ : ConfigHeap β) (refs : LevelRefs) (levels : ConfigLevels β)
    (w : World β) (hd : refs.Denotes (· < h₀.length) h₀ levels)
    (hrun : Relation.ReflTransGen (Step refs) ⟨h₀,[]⟩ w) : (∀ a, a<h₀.length → w.heap[a]?=h₀[a]?) ∧
      refs.Denotes (· < h₀.length) w.heap levels ∧ ∀ agentID region groups, (∃ fuel, ∀ n, fuel≤n →
          (resolveConfig n w.heap refs agentID region groups).isSome=true) ∧
        ∀ n h m, resolveConfig n w.heap refs agentID region groups=some (h,m) →
          RepTree (w.heap.length ≤ ·) h (.map m)
            (Federation.resolveConfig levels agentID region groups).root := by
  have hw:=apart_of_run hd hrun
  have hd' : refs.Denotes (· < h₀.length) w.heap levels :=
    hd.frame fun _ _ _ ho => getElem?_of_extends hw.grows.extends_ ho
  obtain ⟨bound,hb⟩ := exists_depthBound levels
  refine ⟨fun a ha => ?_,hd',fun agentID region groups => ⟨⟨bound+1,fun n hn => ?_⟩,?_⟩⟩
  · obtain ⟨new,hnew⟩ := hw.grows.extends_
    rw [← hnew,getElem?_append_left ha]
  · exact (resolveConfig_ends hd' hb agentID region groups).isSome (Nat.not_le.mpr hn)
  · intro n h m hres
    exact ((resolveConfig_ends hd' hb agentID region groups).of_some hres).2.1

def diskHeap : ConfigHeap Nat := [.map [("disks",.list (some 1))],.list [.scalar 7]]
def diskRefs : LevelRefs := ⟨some 0,.empty,.empty,.empty⟩
def diskLevels : ConfigLevels Nat :=
  ⟨⟨[("disks",.list [.leaf 7])],by decide⟩,.empty,.empty,.empty⟩

theorem diskRefs_denotes : diskRefs.Denotes (· < diskHeap.length) diskHeap diskLevels where
  global := by
    simp [ConfigMap.root,diskLevels,diskRefs,diskHeap,RepTree,RepList,RepEntries,
      Heap.entries,Heap.items]
  regions _ := .inl ⟨rfl,rfl⟩
  groups _ := .inl ⟨rfl,rfl⟩
  agents _ := .inl ⟨rfl,rfl⟩

def diskCopied : World Nat :=
  ⟨diskHeap++[.list [.scalar 7],.map [("disks",.list (some 2))]],[3]⟩
def diskChanged : World Nat :=
  ⟨diskHeap++[.list [],.map [("disks",.list (some 2))]],[3]⟩

theorem diskChanged_run : Relation.ReflTransGen (Step diskRefs) ⟨diskHeap,[]⟩ diskChanged := by
  have hcall : resolveConfig 2 diskHeap diskRefs "a" "eu" []=some (diskCopied.heap,some 3) := rfl
  have hresolve:=Step.resolve (w := ⟨diskHeap,[]⟩) hcall
  have hlist : Reaches diskCopied 2 :=
    Reaches.field (Reaches.held (mem_singleton_self 3)) rfl (mem_singleton_self 2)
  have hstore : Step diskRefs diskCopied diskChanged :=
    Step.store (o := .list []) hlist (fun b hb => by cases hb)
  exact (Relation.ReflTransGen.single hresolve).tail hstore

theorem diskChanged_unaffected :
    diskChanged.heap[2]?=some (.list []) ∧ (∀ a, a<2 → diskChanged.heap[a]?=diskHeap[a]?) ∧
      diskRefs.Denotes (· < 2) diskChanged.heap diskLevels :=
  have h:=resolveConfig_unaffected diskHeap diskRefs diskLevels diskChanged diskRefs_denotes
    diskChanged_run
  ⟨rfl,h.1,h.2.1⟩

end OpsAgent.Federation.InHeap
