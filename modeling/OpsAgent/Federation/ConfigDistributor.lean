import OpsAgent.Federation.Groups
import OpsAgent.Lib.ExchangeSort
import OpsAgent.Lib.GoStrings
import OpsAgent.Lib.ValueTree

/-!
# Configuration levels (`federation/config_distributor.go`)

Here maps are values, so that `deepCopy` is not seen; a nil map is an empty one. The order in which
a loop visits the entries of a map is the key order.
-/

namespace OpsAgent.Federation
open Lib Lib.GoStrings List Option Bool ValueTree

variable {β : Type}

abbrev Value (β : Type) := ValueTree String β

/- A `map[string]any` with the maps in it. -/
structure ConfigMap (β : Type) where
  entries : List (String × Value β)
  ordered : ValueTree.isOrdered (.map entries)

namespace ConfigMap

def root (c : ConfigMap β) : Value β := .map c.entries
def empty : ConfigMap β := ⟨[],rfl⟩

theorem ext_root {c d : ConfigMap β} (h : c.root=d.root) : c=d := by
  cases c
  cases d
  cases h
  rfl

end ConfigMap

mutual

/- The loop of `deepMerge` over the entries of `src`, on the map built so far. -/
def mergeEntries (result : List (String × Value β)) :
    List (String × Value β) → List (String × Value β)
  | [] => result
  | (k,srcVal)::src =>
    mergeEntries (Entries.put k (mergeValue (Entries.get? k result) srcVal) result) src

def mergeValue (dstVal : Option (Value β)) : Value β → Value β
  | .map srcMap => match dstVal with
    | some (.map dstMap) => .map (mergeEntries dstMap srcMap)
    | _ => .map srcMap
  | .leaf b => .leaf b
  | .list items => .list items

end

theorem mergeValue_of_not_map {dst : Option (Value β)} {v : Value β} (h : v.isMap=false) :
    mergeValue dst v=v := by
  cases v with
  | map es => cases h
  | leaf b | list items => rfl

theorem mergeValue_map (dst src : List (String × Value β)) :
    mergeValue (some (.map dst)) (.map src)=.map (mergeEntries dst src) := rfl

theorem mergeValue_of_dst_not_map {dst : Option (Value β)} (v : Value β)
    (h : ∀ es, dst≠some (.map es)) : mergeValue dst v=v := by
  cases v with
  | leaf b | list items => rfl
  | map src =>
    cases dst with
    | none => rfl
    | some d =>
      cases d with
      | map es => exact absurd rfl (h es)
      | leaf b | list items => rfl

theorem get?_mergeEntries (result src : List (String × Value β)) (hs : Entries.Sorted src) (k : String) :
    Entries.get? k (mergeEntries result src) =
      ((Entries.get? k src).map (mergeValue (Entries.get? k result))).or (Entries.get? k result) := by
  induction src generalizing result with
  | nil => rw [mergeEntries]; rfl
  | cons e src ih =>
    obtain ⟨l,v⟩ := e
    rw [mergeEntries,ih _ hs.tail,Entries.get?_put,Entries.get?_cons]
    by_cases hk : k=l
    · subst hk
      have hnone : Entries.get? k src=none :=
        Entries.get?_eq_none_of_lt (pairwise_cons.mp hs).1
      simp [hnone]
    · simp [hk]

theorem sorted_mergeEntries (result src : List (String × Value β)) (h : Entries.Sorted result) :
    Entries.Sorted (mergeEntries result src) := by
  induction src generalizing result with
  | nil => rw [mergeEntries]; exact h
  | cons e src ih =>
    obtain ⟨l,v⟩ := e
    rw [mergeEntries]
    exact ih _ (Entries.sorted_put _ _ h)

mutual

theorem isOrdered_mergeEntries (result src : List (String × Value β))
    (hr : ValueTree.isOrderedEntries result) (hrs : Entries.Sorted result)
    (hs : ValueTree.isOrderedEntries src) : ValueTree.isOrderedEntries (mergeEntries result src) := by
  cases src with
  | nil => rw [mergeEntries]; exact hr
  | cons e src =>
    obtain ⟨l,v⟩ := e
    rw [ValueTree.isOrderedEntries,and_eq_true] at hs
    have hv : (mergeValue (Entries.get? l result) v).isOrdered :=
      isOrdered_mergeValue _ v (fun d hd => isOrdered_get? hr hd) hs.1
    rw [mergeEntries]
    exact isOrdered_mergeEntries _ src (isOrderedEntries_put hr hv)
      (Entries.sorted_put _ _ hrs) hs.2

theorem isOrdered_mergeValue (dst : Option (Value β)) (v : Value β)
    (hd : ∀ d, dst=some d → d.isOrdered) (hv : v.isOrdered) : (mergeValue dst v).isOrdered := by
  cases v with
  | leaf b | list items => rw [mergeValue_of_not_map rfl]; exact hv
  | map src =>
    by_cases hm : ∃ es, dst=some (.map es)
    · obtain ⟨es,rfl⟩ := hm
      obtain ⟨hes,hes'⟩ := isOrdered_map.mp (hd _ rfl)
      rw [mergeValue_map]
      exact isOrdered_map.mpr ⟨sorted_mergeEntries es src hes,
        isOrdered_mergeEntries es src hes' hes (isOrdered_map.mp hv).2⟩
    · rw [mergeValue_of_dst_not_map _ fun es heq => hm ⟨es,heq⟩]
      exact hv

end

def deepMerge (dst src : ConfigMap β) : ConfigMap β where
  entries := mergeEntries dst.entries src.entries
  ordered := isOrdered_map.mpr
    ⟨sorted_mergeEntries _ _ (isOrdered_map.mp dst.ordered).1,
    isOrdered_mergeEntries _ _ (isOrdered_map.mp dst.ordered).2
      (isOrdered_map.mp dst.ordered).1 (isOrdered_map.mp src.ordered).2⟩

theorem faceAt_mergeValue (p : List String) (dst : Option (Value β)) (v : Value β) (hv : v.isOrdered) :
    (mergeValue dst v).faceAt p=v.shownOver p (dst.bind fun d => d.faceAt p) := by
  induction p generalizing dst v with
  | nil =>
    have hface : (mergeValue dst v).face=v.face := by
      cases v with
      | leaf b | list items => rw [mergeValue_of_not_map rfl]
      | map src =>
        by_cases hm : ∃ es, dst=some (.map es)
        · obtain ⟨es,rfl⟩ := hm
          rw [mergeValue_map]
          rfl
        · rw [mergeValue_of_dst_not_map _ fun es heq => hm ⟨es,heq⟩]
    rw [ValueTree.shownOver,faceAt_nil,faceAt_nil,hface]
    rfl
  | cons k p ih =>
    by_cases hmap : v.isMap
    · cases v with
      | leaf b | list items => cases hmap
      | map src =>
        by_cases hm : ∃ es, dst=some (.map es)
        · obtain ⟨es,rfl⟩ := hm
          obtain ⟨hsrc,hsrc'⟩ := isOrdered_map.mp hv
          rw [mergeValue_map,ValueTree.shownOver,bind_some,faceAt_map_cons,
            faceAt_map_cons,faceAt_map_cons,hides_map_cons,get?_mergeEntries es src hsrc]
          cases hget : Entries.get? k src with
          | none => simp
          | some c =>
            simp only [map_some,some_or,bind_some,any_some]
            exact ih (Entries.get? k es) c (isOrdered_get? hsrc' hget)
        · rw [mergeValue_of_dst_not_map _ fun es heq => hm ⟨es,heq⟩]
          have hbelow : (dst.bind fun d => d.faceAt (k::p))=none := by
            cases dst with
            | none => rfl
            | some d =>
              refine faceAt_cons_of_not_map ?_ k p
              cases d with
              | map es => exact absurd ⟨es,rfl⟩ hm
              | _ => rfl
          rw [ValueTree.shownOver,hbelow]
          simp
    · have hnot:=eq_false_iff.mpr hmap
      rw [mergeValue_of_not_map hnot,ValueTree.shownOver,hides_cons_of_not_map hnot]
      simp

theorem faceAt_deepMerge (dst src : ConfigMap β) (p : List String) :
    (deepMerge dst src).root.faceAt p=src.root.shownOver p (dst.root.faceAt p) := by
  have h:=faceAt_mergeValue p (some dst.root) src.root src.ordered
  rw [ConfigMap.root,ConfigMap.root,mergeValue_map] at h
  exact h

theorem deepMerge_self_right (dst src : ConfigMap β) :
    deepMerge (deepMerge dst src) src=deepMerge dst src := by
  refine ConfigMap.ext_root
    (eq_of_faceAt _ _ (ConfigMap.ordered _) (ConfigMap.ordered _) fun p => ?_)
  rw [faceAt_deepMerge,faceAt_deepMerge,ValueTree.shownOver,ValueTree.shownOver]
  cases src.root.faceAt p <;> cases src.root.hides p <;> rfl

structure ConfigLevels (β : Type) where
  global : ConfigMap β
  (regions groups agents : SortedMap String (ConfigMap β))

/- `if cfg, ok := levels[name]; ok { result = deepMerge(result, cfg) }` -/
def mergeLevel (levels : SortedMap String (ConfigMap β)) (result : ConfigMap β) (name : String) :
    ConfigMap β :=
  match levels.get? name with
  | some cfg => deepMerge result cfg
  | none => result

def resolveConfig (levels : ConfigLevels β) (agentID region : String) (groups : List String) :
    ConfigMap β :=
  let result:=mergeLevel levels.regions levels.global region
  let result:=(exchangeSort groups).foldl (mergeLevel levels.groups) result
  mergeLevel levels.agents result agentID

/- `json.Marshal`, which writes maps in key order and may fail, and `sha256.Sum256`. -/
structure Digest (β : Type) where
  marshal : ConfigMap β → Except String GoString
  sum256 : GoString → GoString

def getConfigVersion (D : Digest β) (levels : ConfigLevels β) (agentID region : String)
    (groups : List String) : Except String String :=
  match D.marshal (resolveConfig levels agentID region groups) with
  | .error err => .error ("marshal config: "++err)
  | .ok data => .ok (hex ((D.sum256 data).take 8))

def levelStack (levels : ConfigLevels β) (agentID region : String) (groups : List String) :
    List (ConfigMap β) :=
  levels.global::((levels.regions.get? region).toList ++
    ((groups.mergeSort (· ≤ ·)).filterMap levels.groups.get? ++
      (levels.agents.get? agentID).toList))

theorem foldl_mergeLevel (levels : SortedMap String (ConfigMap β)) (names : List String)
    (result : ConfigMap β) : names.foldl (mergeLevel levels) result =
      (names.filterMap levels.get?).foldl deepMerge result := by
  induction names generalizing result with
  | nil => rfl
  | cons n names ih =>
    rw [foldl_cons,ih,mergeLevel,filterMap_cons]
    cases levels.get? n <;> rfl

variable (groups : List String)

theorem mergeSort_sorted : (groups.mergeSort (· ≤ ·)).Pairwise (· ≤ ·) := by
  have h : (groups.mergeSort (· ≤ ·)).Pairwise fun a b => decide (a≤b) :=
    pairwise_mergeSort
      (fun a b c hab hbc => by simpa using le_trans (of_decide_eq_true hab) (of_decide_eq_true hbc))
      (fun a b => by simpa using le_total a b) groups
  exact h.imp fun hab => of_decide_eq_true hab

theorem exchangeSort_eq_mergeSort : exchangeSort groups=groups.mergeSort (· ≤ ·) :=
  exchangeSort_eq_of_sorted (mergeSort_perm groups _) (mergeSort_sorted groups)

variable (levels : ConfigLevels β) (agentID region : String)

theorem resolveConfig_eq_foldl : resolveConfig levels agentID region groups =
      (levelStack levels agentID region groups).tail.foldl deepMerge levels.global := by
  have hone (ls : SortedMap String (ConfigMap β)) (result : ConfigMap β) (name : String) :
      mergeLevel ls result name=(ls.get? name).toList.foldl deepMerge result := by
    rw [mergeLevel]
    cases ls.get? name <;> rfl
  rw [resolveConfig,foldl_mergeLevel,hone,hone,exchangeSort_eq_mergeSort,levelStack,
    tail_cons,foldl_append,foldl_append]

theorem faceAt_foldl_deepMerge (base : ConfigMap β) (rest : List (ConfigMap β)) (p : List String) :
    (rest.foldl deepMerge base).root.faceAt p =
      ValueTree.stacked ((base::rest).map ConfigMap.root) p := by
  induction rest using List.reverseRecOn with
  | nil => simp [ValueTree.stacked,ValueTree.shownOver]
  | append_singleton rest c ih =>
    rw [foldl_append,foldl_cons,foldl_nil,faceAt_deepMerge,ih,ValueTree.stacked,
      ValueTree.stacked,← cons_append,map_append,foldl_append]
    rfl

theorem faceAt_resolveConfig (p : List String) :
    (resolveConfig levels agentID region groups).root.faceAt p =
      ValueTree.stacked ((levelStack levels agentID region groups).map ConfigMap.root) p := by
  rw [resolveConfig_eq_foldl,faceAt_foldl_deepMerge]
  rfl

def ConfigMap.NonMapAt (c : ConfigMap β) (p : List String) : Prop :=
  ∃ v, c.root.at? p=some v ∧ v.isMap=false
def ConfigMap.MapAt (c : ConfigMap β) (p : List String) : Prop :=
  ∃ es, c.root.at? p=some (.map es)
def ProvidesValue (stack : List (ConfigMap β)) (p : List String) (v : Value β) : Prop :=
  Decides stack (fun c => c.root.at? p=some v)
    (fun c => c.root.at? p=none ∧ ∀ q, q <+: p → q≠p → ¬c.NonMapAt q)
def ProvidesMap (stack : List (ConfigMap β)) (p : List String) : Prop :=
  Decides stack (fun c => c.MapAt p) (fun c => ∀ q, q <+: p → ¬c.NonMapAt q)

theorem ConfigMap.not_hides_iff (c : ConfigMap β) (p : List String) :
    c.root.hides p=false ↔ ∀ q, q <+: p → q≠p → ¬c.NonMapAt q := by
  rw [← not_eq_true,hides_iff]
  constructor
  · intro h q hq hne ⟨v,hv,hm⟩
    exact h ⟨q,v,hq,hne,hv,hm⟩
  · intro h ⟨q,v,hq,hne,hv,hm⟩
    exact h q hq hne ⟨v,hv,hm⟩

theorem providesValue_iff (stack : List (ConfigMap β)) (p : List String) (v : Value β)
    (hv : v.isMap=false) :
    ValueTree.stacked (stack.map ConfigMap.root) p=some (.value v) ↔ ProvidesValue stack p v := by
  rw [stacked_eq_value_iff,decides_map]
  refine decides_congr (fun c => ?_) (fun c => ?_)
  · rw [faceAt_eq_value_iff]
    exact ⟨And.left,fun h => ⟨h,hv⟩⟩
  · rw [faceAt_eq_none_iff,ConfigMap.not_hides_iff]

theorem providesMap_iff (stack : List (ConfigMap β)) (p : List String) :
    ValueTree.stacked (stack.map ConfigMap.root) p=some .map ↔ ProvidesMap stack p := by
  rw [stacked_eq_map_iff,decides_map]
  refine decides_congr (fun c => faceAt_eq_map_iff) (fun c => ?_)
  simp only [ne_eq,faceAt_eq_value_iff,ConfigMap.not_hides_iff]
  constructor
  · intro ⟨hp,hq⟩ q hpre
    by_cases h : q=p
    · intro ⟨v,hv⟩
      exact hp v (h ▸ hv)
    · exact hq q hpre h
  · intro h
    exact ⟨fun v hv => h p prefix_rfl ⟨v,hv⟩,fun q hpre _ => h q hpre⟩

/-- At every path a resolved configuration has what its levels provide, and nothing else. -/
theorem resolveConfig_at_path (levels : ConfigLevels β) (agentID region : String)
    (groups : List String) (p : List String) :
    let result:=(resolveConfig levels agentID region groups).root
    let stack:=levelStack levels agentID region groups
    (∀ v, v.isMap=false → (result.at? p=some v ↔ ProvidesValue stack p v)) ∧
      ((∃ es, result.at? p=some (.map es)) ↔ ProvidesMap stack p) ∧
      (result.at? p=none ↔
        (∀ v, v.isMap=false → ¬ProvidesValue stack p v) ∧ ¬ProvidesMap stack p) := by
  intro result stack
  have hface:=faceAt_resolveConfig groups levels agentID region p
  have hvalue (v : Value β) (hv : v.isMap=false) :
      result.at? p=some v ↔ ProvidesValue stack p v := by
    rw [← providesValue_iff stack p v hv,← hface,faceAt_eq_value_iff]
    exact ⟨fun h => ⟨h,hv⟩,And.left⟩
  have hmap : (∃ es, result.at? p=some (.map es)) ↔ ProvidesMap stack p := by
    rw [← providesMap_iff,← hface,faceAt_eq_map_iff]
  refine ⟨hvalue,hmap,?_⟩
  constructor
  · intro hnone
    exact ⟨fun v hv h => by simp [(hvalue v hv).mpr h] at hnone,
      fun h => by obtain ⟨es,hes⟩ := hmap.mpr h; simp [hes] at hnone⟩
  · intro ⟨hv,hm⟩
    cases hat : result.at? p with
    | none => rfl
    | some t =>
      cases ht : t.isMap with
      | false => exact absurd ((hvalue t ht).mp hat) (hv t ht)
      | true =>
        cases t with
        | map es => exact absurd (hmap.mp ⟨es,hat⟩) hm
        | leaf b | list items => cases ht

theorem mergeLevel_self_right (levels : SortedMap String (ConfigMap β)) (result : ConfigMap β)
    (name : String) :
    mergeLevel levels (mergeLevel levels result name) name=mergeLevel levels result name := by
  unfold mergeLevel
  cases levels.get? name with
  | none => rfl
  | some cfg => exact deepMerge_self_right result cfg

theorem resolveConfig_congr {groups groups' : List String} (h : ∀ g, g∈groups ↔ g∈groups') :
    resolveConfig levels agentID region groups=resolveConfig levels agentID region groups' := by
  have hmem (g : String) : g∈exchangeSort groups ↔ g∈exchangeSort groups' := by
    rw [(exchangeSort_perm groups).mem_iff,(exchangeSort_perm groups').mem_iff,h]
  rw [resolveConfig,resolveConfig]
  refine congrArg (fun result => mergeLevel levels.agents result agentID) ?_
  exact foldl_eq_of_sorted (fun s a => mergeLevel_self_right levels.groups s a)
    (exchangeSort_sorted groups) (exchangeSort_sorted groups') hmem _

/-- The configuration and its version depend only on the set of the groups. -/
theorem config_and_version_of_group_set (D : Digest β) (levels : ConfigLevels β)
    (agentID region : String) (groups groups' : List String) (h : ∀ g, g∈groups ↔ g∈groups') :
    resolveConfig levels agentID region groups=resolveConfig levels agentID region groups' ∧
      getConfigVersion D levels agentID region groups =
        getConfigVersion D levels agentID region groups' := by
  have heq:=resolveConfig_congr levels agentID region h
  exact ⟨heq,by rw [getConfigVersion,getConfigVersion,heq]⟩

def twoGroups : ConfigLevels Nat where
  global := ⟨[("interval",.leaf 10)],by decide⟩
  regions := .empty
  groups := ⟨[("db",⟨[("interval",.leaf 20),("path",.leaf 1)],by decide⟩),
    ("web",⟨[("interval",.leaf 30)],by decide⟩)],by decide⟩
  agents := .empty

/-- `json.Marshal` of maps from names to numbers, and SHA-256 of the texts that occur here. -/
def flatDigest : Digest Nat where
  marshal c := .ok (utf8 "\x7b"++[44].intercalate (c.entries.map fun e => utf8 ("\""++e.1++"\":") ++
    match e.2 with
    | .leaf n => decimal n
    | _ => []) ++ utf8 "\x7d")
  sum256 data :=
    if data=utf8 "\x7b\x7d" then
      [68,19,111,163,85,179,103,138,17,70,173,22,247,232,100,158,148,251,
      79,194,31,231,126,131,16,192,96,246,28,170,255,138]
    else if data=utf8 "\x7b\"interval\":10\x7d" then
      [222,76,243,235,192,20,63,48,11,11,185,221,25,120,166,166,223,234,
      186,7,31,35,159,5,165,129,94,104,116,0,247,252]
    else if data=utf8 "\x7b\"interval\":30,\"path\":1\x7d" then
      [64,111,162,131,0,55,117,165,201,240,152,71,252,150,102,195,79,47,
      8,73,75,163,22,132,24,96,188,183,163,200,152,116]
    else []

theorem twoGroups_repeated : resolveConfig twoGroups "a" "eu" ["web","db","web"] =
        resolveConfig twoGroups "a" "eu" ["db","web"] ∧
      getConfigVersion flatDigest twoGroups "a" "eu" ["web","db","web"] =
        getConfigVersion flatDigest twoGroups "a" "eu" ["db","web"] :=
  config_and_version_of_group_set flatDigest twoGroups "a" "eu" _ _ (by simp)

end OpsAgent.Federation
