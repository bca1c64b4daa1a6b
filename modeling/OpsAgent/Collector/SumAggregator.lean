import OpsAgent.Collector.Aggregators
import OpsAgent.Collector.Pipeline

/-!
# The sum aggregator (`collector/aggregators/sum/sum.go`)

Every method holds the aggregator's own mutex from beginning to end, so a call is
one step. Sums of `int64` wrap around; the arithmetic of `float64` is a parameter.
-/

namespace OpsAgent.Collector
open List Option
open Lib.GoValue (Float64 Val)

structure FloatArith where
  add : Float64 → Float64 → Float64
  ofInt64 : Int64 → Float64

structure SumAggregator where
  fields : List String
  sums : StringMap FieldValue
  isInt : StringMap Bool
  tags : StringMap String
  name : String

namespace SumAggregator

def new (fields : List String) : SumAggregator := ⟨fields,∅,∅,∅,""⟩

def init (cfg : AnyMap) : Except String SumAggregator := (initFields "sum" cfg).map new

def addField (F : FloatArith) (metricFields : StringMap FieldValue) (a : SumAggregator)
    (fname : String) : SumAggregator :=
  match metricFields.lookup fname with
  | some (.float64 v) => match a.sums.lookup fname with
    | some (.float64 ev) => {a with sums := a.sums.insert fname (.float64 (F.add ev v))}
    | some (.int64 ev) =>
      { a with sums := a.sums.insert fname (.float64 (F.add (F.ofInt64 ev) v))
               isInt := a.isInt.insert fname false}
    | some _ => a
    | none =>
      {a with sums := a.sums.insert fname (.float64 v), isInt := a.isInt.insert fname false}
  | some (.int64 v) => match a.sums.lookup fname with
    | some (.int64 ev) => {a with sums := a.sums.insert fname (.int64 (ev+v))}
    | some (.float64 ev) =>
      { a with sums := a.sums.insert fname (.float64 (F.add ev (F.ofInt64 v)))
               isInt := a.isInt.insert fname false}
    | some _ => a
    | none =>
      {a with sums := a.sums.insert fname (.int64 v), isInt := a.isInt.insert fname true}
  | _ => a

def capture (m : Metric) (a : SumAggregator) : SumAggregator :=
  if a.name="" ∧ a.fields.any fun fname => (m.fields.lookup fname).isSome then
    {a with name := m.name, tags := m.tags ∪ a.tags}
  else a
def add (F : FloatArith) (a : SumAggregator) (m : Metric) : SumAggregator :=
  capture m (a.fields.foldl (addField F m.fields) a)
def pushFields (a : SumAggregator) : StringMap FieldValue :=
  a.fields.foldl (fun fields fname => match a.sums.lookup fname with
    | some val => fields.insert fname val
    | none => fields) ∅
def push (a : SumAggregator) : List Metric :=
  if a.sums.entries.isEmpty then []
  else if a.pushFields.entries.isEmpty then []
  else [⟨a.name++"_sum",a.tags,a.pushFields,.counter⟩]
def reset (a : SumAggregator) : SumAggregator :=
  {a with sums := ∅, isInt := ∅, tags := ∅, name := "" }

def value (f : String) (m : Metric) : Option FieldValue :=
  match m.fields.lookup f with
  | some (.float64 x) => some (.float64 x)
  | some (.int64 n) => some (.int64 n)
  | _ => none

def values (f : String) (ms : List Metric) : List FieldValue := ms.filterMap (value f)

def plus (F : FloatArith) : FieldValue → FieldValue → FieldValue
  | .float64 x, .float64 y => .float64 (F.add x y)
  | .int64 x, .float64 y => .float64 (F.add (F.ofInt64 x) y)
  | .int64 x, .int64 y => .int64 (x+y)
  | .float64 x, .int64 y => .float64 (F.add x (F.ofInt64 y))
  | x, _ => x

def tally (F : FloatArith) (sum : Option FieldValue) (v : FieldValue) : Option FieldValue :=
  some (match sum with
    | none => v
    | some x => plus F x v)
def total (F : FloatArith) (vs : List FieldValue) : Option FieldValue := vs.foldl (tally F) none

variable (F : FloatArith) (mf : StringMap FieldValue) (a : SumAggregator) (m : Metric)

theorem addField_fields (a : SumAggregator) (f : String) : (addField F mf a f).fields=a.fields := by
  unfold addField
  split
  · split <;> rfl
  · split <;> rfl
  · rfl

variable {f : String} {g : String}
  (fields : List String)
  (ms : List Metric) (fs : List String)

theorem addField_other (a : SumAggregator) (h : g≠f) : (addField F mf a f).sums.lookup g=a.sums.lookup g := by
  unfold addField
  split
  · split <;> first | rfl | exact AList.lookup_insert_ne h
  · split <;> first | rfl | exact AList.lookup_insert_ne h
  · rfl

theorem addField_self (a : SumAggregator) (f : String) :
    (addField F m.fields a f).sums.lookup f = (value f m).toList.foldl (tally F) (a.sums.lookup f) := by
  have hset : ∀ v, (a.sums.insert f v).lookup f=some v := fun v => AList.lookup_insert a.sums
  cases hm : m.fields.lookup f with
  | none => simp [addField,value,hm]
  | some v =>
    cases v <;> cases ha : a.sums.lookup f with
    | none => simp only [addField,value,tally,hm,ha,hset,toList,foldl]
    | some x => cases x <;> simp only [addField,value,tally,plus,hm,ha,hset,toList,foldl]

theorem foldl_addField_fields (a : SumAggregator) : (fs.foldl (addField F mf) a).fields=a.fields := by
  induction fs generalizing a with
  | nil => rfl
  | cons f fs ih => exact (ih (addField F mf a f)).trans (addField_fields F mf a f)

theorem foldl_addField_other (a : SumAggregator) (h : g∉fs) :
    (fs.foldl (addField F mf) a).sums.lookup g=a.sums.lookup g := by
  induction fs generalizing a with
  | nil => rfl
  | cons f fs ih =>
    obtain ⟨hne,hmem⟩ := not_or.mp (mt mem_cons.mpr h)
    exact (ih (addField F mf a f) hmem).trans (addField_other F mf a hne)

theorem foldl_addField_self (hnd : fs.Nodup)
    (a : SumAggregator) (h : f∈fs) : (fs.foldl (addField F m.fields) a).sums.lookup f =
      (value f m).toList.foldl (tally F) (a.sums.lookup f) := by
  induction fs generalizing a with
  | nil => cases h
  | cons g fs ih =>
    obtain ⟨hg,hnd⟩ := nodup_cons.mp hnd
    rw [foldl_cons]
    by_cases hfg : f=g
    · subst hfg
      rw [foldl_addField_other F m.fields fs _ hg]
      exact addField_self F m a f
    · have hmem : f∈fs := (mem_cons.mp h).resolve_left hfg
      rw [ih hnd (addField F m.fields a g) hmem,addField_other F m.fields a hfg]

theorem capture_sums (a : SumAggregator) :
    (capture m a).sums=a.sums ∧ (capture m a).fields=a.fields := by
  unfold capture
  split <;> exact ⟨rfl,rfl⟩
theorem add_fields (m : Metric) : (add F a m).fields=a.fields :=
  (capture_sums m _).2.trans (foldl_addField_fields F m.fields a.fields a)

theorem foldl_add_fields (a : SumAggregator) : (ms.foldl (add F) a).fields=a.fields := by
  induction ms generalizing a with
  | nil => rfl
  | cons m ms ih => exact (ih (add F a m)).trans (add_fields F a m)

theorem foldl_add_sums (a : SumAggregator) (hnd : a.fields.Nodup) (hf : f∈a.fields) :
    (ms.foldl (add F) a).sums.lookup f=(values f ms).foldl (tally F) (a.sums.lookup f) := by
  induction ms generalizing a with
  | nil => rfl
  | cons m ms ih =>
    have hfields:=add_fields F a m
    have hhead : (add F a m).sums.lookup f =
        (value f m).toList.foldl (tally F) (a.sums.lookup f) := by
      rw [add,(capture_sums m _).1]
      exact foldl_addField_self F m a.fields hnd a hf
    rw [foldl_cons,ih (add F a m) (hfields ▸ hnd) (hfields ▸ hf),hhead]
    cases hv : value f m <;> simp [values,hv]

theorem values_given {ms : List Metric} (hf : f∈fields) (h : ∀ m∈ms, Numeric fields m) :
    values f ms=given f ms := by
  refine filterMap_congr fun m hm => ?_
  have hfield:=List.all_eq_true.mp (h m hm) f hf
  rw [value]
  cases hv : m.fields.lookup f with
  | none => rfl
  | some v =>
    rw [hv] at hfield
    cases v <;> first | rfl | cases hfield

theorem reset_foldl_add (ms : List Metric) : (ms.foldl (add F) (new fields)).reset=new fields := by
  have hfields:=foldl_add_fields F ms (new fields)
  rw [reset,hfields]
  rfl

def emitted (f : String) (result : List Metric) : Option FieldValue :=
  result.head?.bind fun m => m.fields.lookup f

theorem foldl_insert_lookup (sums : StringMap FieldValue) (fs : List String)
    (out : StringMap FieldValue) (f : String) :
    (fs.foldl (fun fields fname => match sums.lookup fname with
      | some val => fields.insert fname val
      | none => fields) out).lookup f =
      if f∈fs then (sums.lookup f).or (out.lookup f) else out.lookup f := by
  induction fs generalizing out with
  | nil => rfl
  | cons g fs ih =>
    rw [foldl_cons,ih]
    by_cases hfg : f=g
    · subst hfg
      cases hs : sums.lookup f with
      | none | some v => simp
    · cases hs : sums.lookup g with
      | none => simp [hfg]
      | some v => simp [hfg,AList.lookup_insert_ne hfg]

theorem pushFields_lookup (hf : f∈a.fields) : a.pushFields.lookup f=a.sums.lookup f := by
  rw [pushFields,foldl_insert_lookup,if_pos hf,AList.lookup_empty,or_none]
theorem lookup_of_isEmpty {V : Type} (m : StringMap V) (h : m.entries.isEmpty) (f : String) :
    m.lookup f=none := by
  have hm : m = ∅ := AList.ext (isEmpty_iff.mp h)
  rw [hm,AList.lookup_empty]

theorem emitted_push (hf : f∈a.fields) : emitted f a.push=a.sums.lookup f := by
  unfold push
  split
  next he => exact (lookup_of_isEmpty a.sums he f).symm
  next =>
    split
    next he => exact (lookup_of_isEmpty a.pushFields he f).symm.trans (pushFields_lookup a hf)
    next => exact pushFields_lookup a hf

theorem emitted_push_foldl (hnd : fields.Nodup) {ms : List Metric} (hf : f∈fields)
    (hnum : ∀ m∈ms, Numeric fields m) :
    emitted f (ms.foldl (add F) (new fields)).push=total F (given f ms) := by
  have hmem : f∈(ms.foldl (add F) (new fields)).fields := by
    rw [foldl_add_fields]
    exact hf
  rw [emitted_push _ hmem,foldl_add_sums F ms (new fields) hnd hf,values_given fields hf hnum]
  rfl

end SumAggregator
end OpsAgent.Collector
