import Mathlib.Data.List.AList
import Mathlib.Data.List.Sort
import OpsAgent.Lib.GoTime

/-!
# Metrics and their series (`collector/metric.go`)

A map with string keys is an association list; `maps.Copy(dst, src)` is the union in which `src`
goes before `dst`. `S` is the type of the texts: their characters where they are UTF-8, their bytes
where a function also meets others.
-/

namespace OpsAgent.Collector
open List Option Lib
open Lib.GoTime (Time)
open Lib.GoValue (Float64)

abbrev StringMap (V : Type) (S : Type := String) := AList fun _ : S => V

inductive MetricType where
  | gauge | counter | histogram
  deriving DecidableEq

/- What a field can hold: the types that some part of the agent handles, and any other. -/
inductive FieldValue (S : Type := String) where
  | float64 (x : Float64)
  | float32 (x : GoValue.Float32)
  | int64 (n : Int64)
  | int (n : Int64)
  | int32 (n : Int32)
  | uint (n : UInt64)
  | uint32 (n : UInt32)
  | uint64 (n : UInt64)
  | string (s : S)
  | bool (b : Bool)
  | other (type : String)
  deriving DecidableEq

structure Metric (S : Type := String) where
  name : S
  tags : StringMap S S
  fields : StringMap (FieldValue S) S
  metricType : MetricType

def Metric.addTag (m : Metric) (key value : String) : Metric :=
  {m with tags := m.tags.insert key value}

structure TimedMetric (S : Type := String) extends Metric S where
  timestamp : Time

def sortedKeys {V S : Type} [LE S] [DecidableLE S] (m : StringMap V S) : List S :=
  m.keys.insertionSort (· ≤ ·)
def sortedTags (tags : StringMap String) : List (String × String) :=
  (sortedKeys tags).map fun k => (k,(tags.lookup k).getD "")

abbrev Series := String × List (String × String)

def TimedMetric.series (m : TimedMetric) : Series := (m.name,sortedTags m.tags)
def ofSeries (σ : Series) (m : TimedMetric) : Bool := m.series=σ

variable {V S : Type} [DecidableEq S] [LE S] [DecidableLE S] (m : StringMap V S)

theorem mem_sortedKeys {m : StringMap V S} {k : S} : k∈sortedKeys m ↔ (m.lookup k).isSome := by
  rw [sortedKeys,mem_insertionSort,AList.lookup_isSome]
  exact AList.mem_keys.symm
omit [DecidableEq S] in
theorem sortedKeys_nodup : (sortedKeys m).Nodup :=
  (perm_insertionSort (· ≤ ·) m.keys).nodup_iff.mpr m.keys_nodup
theorem sortedKeys_pairwise (m : StringMap V) : (sortedKeys m).Pairwise (· ≤ ·) :=
  pairwise_insertionSort (· ≤ ·) m.keys

theorem sortedKeys_congr {m m' : StringMap V}
    (h : ∀ k, (m.lookup k).isSome=(m'.lookup k).isSome) : sortedKeys m=sortedKeys m' := by
  have hperm : (sortedKeys m).Perm (sortedKeys m') := by
    refine (perm_ext_iff_of_nodup (sortedKeys_nodup m) (sortedKeys_nodup m')).mpr ?_
    intro k
    rw [mem_sortedKeys,mem_sortedKeys,h]
  exact hperm.eq_of_pairwise' (sortedKeys_pairwise m) (sortedKeys_pairwise m')

theorem lookup_map_value (f : String → V) (ks : List String) (k : String) :
    (ks.map fun j => (j,f j)).lookup k = if k∈ks then some (f k) else none := by
  induction ks with
  | nil => rfl
  | cons j ks ih =>
    rw [map_cons,lookup_cons,ih]
    by_cases hj : k=j
    · subst hj
      simp
    · simp [hj,beq_eq_false_iff_ne.mpr hj]

theorem sortedTags_lookup (tags : StringMap String) (k : String) :
    (sortedTags tags).lookup k=tags.lookup k := by
  rw [sortedTags,lookup_map_value fun j => (tags.lookup j).getD ""]
  simp only [mem_sortedKeys]
  cases tags.lookup k <;> rfl

theorem sortedTags_eq_iff (tags tags' : StringMap String) :
    sortedTags tags=sortedTags tags' ↔ ∀ k, tags.lookup k=tags'.lookup k := by
  constructor
  · intro h k
    rw [← sortedTags_lookup,h,sortedTags_lookup]
  · intro h
    have hkeys : sortedKeys tags=sortedKeys tags' := sortedKeys_congr fun k => by rw [h k]
    rw [sortedTags,sortedTags,hkeys]
    exact map_congr_left fun k _ => by rw [h k]

def sortedEntries (m : StringMap V S) : List (S × V) :=
  (sortedKeys m).filterMap fun k => (m.lookup k).map fun v => (k,v)

omit [LE S] [DecidableLE S] in
theorem lookup_filterMap_value [BEq S] [LawfulBEq S] (f : S → Option V) (ks : List S) (k : S) :
    (ks.filterMap fun j => (f j).map fun v => (j,v)).lookup k = if k∈ks then f k else none := by
  induction ks with
  | nil => rfl
  | cons j ks ih =>
    rw [filterMap_cons]
    by_cases hj : k=j
    · subst hj
      cases hf : f k with
      | none => simp [ih,hf]
      | some v => simp
    · cases hf : f j with
      | none => simp [ih,hj]
      | some v => simp [ih,hj,lookup_cons,beq_eq_false_iff_ne.mpr hj]

theorem sortedEntries_lookup [BEq S] [LawfulBEq S] (k : S) : (sortedEntries m).lookup k=m.lookup k := by
  rw [sortedEntries,lookup_filterMap_value]
  simp only [mem_sortedKeys]
  cases m.lookup k <;> rfl

theorem sortedEntries_nodup : ((sortedEntries m).map Prod.fst).Nodup := by
  refine (sortedKeys_nodup m).sublist ?_
  rw [sortedEntries]
  generalize sortedKeys m=ks
  induction ks with
  | nil => exact List.Sublist.refl _
  | cons k ks ih =>
    rw [filterMap_cons]
    cases m.lookup k with
    | none => exact ih.cons k
    | some v => exact ih.cons_cons k

theorem lookup_of_mem_sortedEntries {m : StringMap V S} {e : S × V} (h : e∈sortedEntries m) :
    m.lookup e.1=some e.2 := by
  obtain ⟨k,-,hk⟩ := mem_filterMap.mp h
  obtain ⟨v,hv,rfl⟩ := map_eq_some_iff.mp hk
  exact hv

end OpsAgent.Collector
