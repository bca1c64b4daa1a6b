import OpsAgent.Collector.Metric
import OpsAgent.Config.Types
import OpsAgent.Lib.FloatArith

/-!
# The avg and minmax aggregators (`collector/aggregators/avg/avg.go`, `minmax/minmax.go`)

The arithmetic is a parameter: that of `float64`, or the exact one.
-/

namespace OpsAgent.Collector
open List Option
open Lib.GoValue (Float64 Val)

structure Numbers (K : Type) where
  ofFloat64 : Float64 → K
  ofInt : Int → K
  (add sub mul div : K → K → K)
  lt : K → K → Bool
  -- `int(math.Floor(x))` and `int(math.Ceil(x))`
  (floor ceil : K → Int)
  -- `sort.Float64s`
  sort : List K → List K
  sort_perm : ∀ vals, (sort vals).Perm vals

def exact : Numbers ℚ where
  ofFloat64 := Float64.value
  ofInt n := n
  add := (· + ·)
  sub := (· - ·)
  mul := (· * ·)
  div := (· / ·)
  lt x y := x<y
  floor x := ⌊x⌋
  ceil x := ⌈x⌉
  sort vals := vals.insertionSort (· ≤ ·)
  sort_perm vals := perm_insertionSort (· ≤ ·) vals

def float64 : Numbers Float64 where
  ofFloat64 x := x
  ofInt := Float64.ofInt
  add := Float64.add
  sub := Float64.sub
  mul := Float64.mul
  div := Float64.div
  lt := Float64.lt
  floor x := ⌊x.value⌋
  ceil x := ⌈x.value⌉
  sort vals := vals.insertionSort fun x y => !(y.isNaN&&!x.isNaN||y.lt x)
  sort_perm vals := perm_insertionSort _ vals

structure Captured where
  name : String
  tags : StringMap String

structure Aggregator (S : Type) extends Captured where
  fields : List String
  kept : S

/- What `Push` gives to the accumulator, a gauge. -/
structure Aggregate (K : Type) where
  name : String
  tags : StringMap String
  fields : StringMap K

def parseFields (plugin : String) (i : Nat) : List Val → Except String (List String)
  | [] => .ok []
  | .str name::entries => (parseFields plugin (i+1) entries).map (name :: ·)
  | entry::_ =>
    .error (plugin++": field entry "++toString i++" must be a string, got "++entry.typeName)

def initFields (plugin : String) (cfg : AnyMap) : Except String (List String) :=
  match (cfg.getD []).lookup "fields" with
  | none => .ok []
  | some (.seq entries) => parseFields plugin 0 entries
  | some raw => .error (plugin++": \"fields\" must be a list, got "++raw.typeName)

def carries (fields : List String) (m : Metric) : Bool :=
  fields.any fun fname => (m.fields.lookup fname).isSome
/- The types that `Add` handles. -/
def FieldValue.summable : FieldValue → Bool
  | .float64 _ => true
  | .int64 _ => true
  | _ => false
def Numeric (fields : List String) (m : Metric) : Bool :=
  fields.all fun fname => (m.fields.lookup fname).all FieldValue.summable
/-- All values of a field, whatever their types. -/
def given (fname : String) (ms : List Metric) : List FieldValue :=
  ms.filterMap fun m => m.fields.lookup fname
def capture (fields : List String) (c : Captured) (m : Metric) : Captured :=
  if c.name="" ∧ carries fields m then ⟨m.name,m.tags ∪ c.tags⟩ else c

section
variable {K S : Type}

def Numbers.ofField (A : Numbers K) : FieldValue → Option K
  | .float64 v => some (A.ofFloat64 v)
  | .int64 v => some (A.ofInt v.toInt)
  | _ => none
def Numbers.number (A : Numbers K) (fname : String) (m : Metric) : Option K :=
  (m.fields.lookup fname).bind A.ofField
def Numbers.numbers (A : Numbers K) (fname : String) (ms : List Metric) : List K :=
  ms.filterMap (A.number fname)
/-- All values of a field as numbers, one that is not summable as zero. -/
def Numbers.given (A : Numbers K) (fname : String) (ms : List Metric) : List K :=
  (Collector.given fname ms).map fun v => (A.ofField v).getD (A.ofInt 0)

def addField (A : Numbers K) (addValue : S → String → K → S) (m : Metric) (kept : S)
    (fname : String) : S :=
  match A.number fname m with
  | some v => addValue kept fname v
  | none => kept

theorem numbers_given (A : Numbers K) {fields : List String} {ms : List Metric} {fname : String}
    (hf : fname∈fields) (h : ∀ m∈ms, Numeric fields m) : A.numbers fname ms=A.given fname ms := by
  induction ms with
  | nil => rfl
  | cons m ms ih =>
    obtain ⟨hm,hms⟩ := forall_mem_cons.mp h
    have hfield:=List.all_eq_true.mp hm fname hf
    have hrest:=ih hms
    simp only [Numbers.numbers,Numbers.given,given,Numbers.number,filterMap_cons] at hrest ⊢
    cases hv : m.fields.lookup fname with
    | none => simpa using hrest
    | some v =>
      rw [hv] at hfield
      cases v <;> first | exact congrArg (_ :: ·) hrest | cases hfield

def Aggregator.new (fields : List String) (empty : S) : Aggregator S := ⟨⟨"",∅⟩,fields,empty⟩

def Aggregator.add (A : Numbers K) (addValue : S → String → K → S) (a : Aggregator S) (m : Metric) :
    Aggregator S where
  toCaptured := capture a.fields a.toCaptured m
  fields := a.fields
  kept := a.fields.foldl (addField A addValue m) a.kept

def Aggregator.reset (empty : S) (a : Aggregator S) : Aggregator S := .new a.fields empty
def collect (value : String → Option K) (fields : List String) : StringMap K :=
  fields.foldl (fun out fname => match value fname with
    | some v => out.insert fname v
    | none => out) ∅
def emit (name : String) (tags : StringMap String) (fields : StringMap K) : List (Aggregate K) :=
  if fields.entries.isEmpty then [] else [⟨name,tags,fields⟩]

end

structure Averages (K : Type) where
  sums : StringMap K
  counts : StringMap Nat

namespace Averages
variable {K : Type} (A : Numbers K)

def empty : Averages K := ⟨∅,∅⟩
def addValue (s : Averages K) (fname : String) (v : K) : Averages K where
  sums := s.sums.insert fname (A.add ((s.sums.lookup fname).getD (A.ofInt 0)) v)
  counts := s.counts.insert fname ((s.counts.lookup fname).getD 0+1)

def value (s : Averages K) (fname : String) : Option K :=
  match s.counts.lookup fname with
  | none => none
  | some 0 => none
  | some count => some (A.div ((s.sums.lookup fname).getD (A.ofInt 0)) (A.ofInt count))

def init (cfg : AnyMap) : Except String (Aggregator (Averages K)) :=
  (initFields "avg" cfg).map fun fields => .new fields empty
def add : Aggregator (Averages K) → Metric → Aggregator (Averages K) := Aggregator.add A (addValue A)
def push (a : Aggregator (Averages K)) : List (Aggregate K) :=
  if a.kept.counts.entries.isEmpty then []
  else emit (a.name++"_avg") a.tags (collect (a.kept.value A) a.fields)

end Averages

structure Extremes (K : Type) where
  (mins maxs : StringMap K)

namespace Extremes
variable {K : Type} (A : Numbers K)

def empty : Extremes K := ⟨∅,∅⟩

def addValue (s : Extremes K) (fname : String) (v : K) : Extremes K :=
  match s.mins.lookup fname with
  | none => ⟨s.mins.insert fname v,s.maxs.insert fname v⟩
  | some lo =>
    ⟨if A.lt v lo then s.mins.insert fname v else s.mins,
      if A.lt ((s.maxs.lookup fname).getD (A.ofInt 0)) v then s.maxs.insert fname v else s.maxs⟩

def minValue (s : Extremes K) (fname : String) : Option K := s.mins.lookup fname
def maxValue (s : Extremes K) (fname : String) : Option K :=
  (s.mins.lookup fname).map fun _ => (s.maxs.lookup fname).getD (A.ofInt 0)
def init (cfg : AnyMap) : Except String (Aggregator (Extremes K)) :=
  (initFields "minmax" cfg).map fun fields => .new fields empty
def add : Aggregator (Extremes K) → Metric → Aggregator (Extremes K) := Aggregator.add A (addValue A)

def push (a : Aggregator (Extremes K)) : List (Aggregate K) :=
  if a.kept.mins.entries.isEmpty then []
  else
    emit (a.name++"_min") a.tags (collect a.kept.minValue a.fields) ++
      emit (a.name++"_max") a.tags (collect (a.kept.maxValue A) a.fields)

end Extremes

section
variable {K S T : Type} {A : Numbers K} {addValue : S → String → K → S} {keep : S → String → T}
  {R : T → List K → Prop}

structure Keeps (addValue : S → String → K → S) (keep : S → String → T) (R : T → List K → Prop) :
    Prop where
  self : ∀ s fname v vals, R (keep s fname) vals → R (keep (addValue s fname v) fname) (vals++[v])
  other : ∀ s fname g v, g≠fname → keep (addValue s fname v) g=keep s g

variable {fname g : String} {vals : List K} (value : String → Option K)

theorem Keeps.addField_self (h : Keeps addValue keep R) (m : Metric) {s : S} (hs : R (keep s fname) vals) :
    R (keep (addField A addValue m s fname) fname) (vals++(A.number fname m).toList) := by
  unfold addField
  cases A.number fname m with
  | none => simpa using hs
  | some v => exact h.self s fname v vals hs

theorem Keeps.addField_other (h : Keeps addValue keep R) (m : Metric) (s : S)
    (hne : g≠fname) : keep (addField A addValue m s fname) g=keep s g := by
  unfold addField
  cases A.number fname m with
  | none => rfl
  | some v => exact h.other s fname g v hne

theorem Keeps.foldl_other (h : Keeps addValue keep R) (m : Metric) (fs : List String) (s : S) (hg : g∉fs) : keep (fs.foldl (addField A addValue m) s) g=keep s g := by
  induction fs generalizing s with
  | nil => rfl
  | cons f fs ih =>
    obtain ⟨hne,hmem⟩ := not_or.mp (mt mem_cons.mpr hg)
    exact (ih (addField A addValue m s f) hmem).trans (h.addField_other m s hne)

theorem Keeps.foldl_self (h : Keeps addValue keep R) (m : Metric) (fs : List String)
    (hnd : fs.Nodup) (s : S) (hg : g∈fs) (hs : R (keep s g) vals) :
    R (keep (fs.foldl (addField A addValue m) s) g) (vals++(A.number g m).toList) := by
  induction fs generalizing s with
  | nil => exact absurd hg not_mem_nil
  | cons f fs ih =>
    obtain ⟨hf,hnd⟩ := nodup_cons.mp hnd
    rw [foldl_cons]
    by_cases hfg : g=f
    · subst hfg
      rw [h.foldl_other m fs _ hf]
      exact h.addField_self m hs
    · refine ih hnd (addField A addValue m s f) ((mem_cons.mp hg).resolve_left hfg) ?_
      rw [h.addField_other m s hfg]
      exact hs

theorem numbers_concat (A : Numbers K) (fname : String) (ms : List Metric) (m : Metric) :
    A.numbers fname (ms++[m])=A.numbers fname ms++(A.number fname m).toList := by
  rw [Numbers.numbers,Numbers.numbers,filterMap_append]
  cases h : A.number fname m <;> simp [h]

def captured (fields : List String) (ms : List Metric) : Captured :=
  ms.foldl (capture fields) ⟨"",∅⟩

structure Aggregator.Holds (A : Numbers K) (keep : S → String → T) (R : T → List K → Prop)
    (a : Aggregator S) (ms : List Metric) : Prop where
  captured : a.toCaptured=captured a.fields ms
  kept : ∀ fname∈a.fields, R (keep a.kept fname) (A.numbers fname ms)

theorem Aggregator.new_holds (A : Numbers K) (fields : List String) {empty : S}
    (h : ∀ fname, R (keep empty fname) []) : (Aggregator.new fields empty).Holds A keep R [] :=
  ⟨rfl,fun fname _ => h fname⟩

theorem Aggregator.Holds.add (hk : Keeps addValue keep R) {a : Aggregator S} {ms : List Metric}
    (h : a.Holds A keep R ms) (hnd : a.fields.Nodup) (m : Metric) :
    (a.add A addValue m).Holds A keep R (ms++[m]) := by
  refine ⟨?_,fun fname hf => ?_⟩
  · have hcap : (a.add A addValue m).toCaptured=capture a.fields a.toCaptured m := rfl
    rw [hcap,h.captured]
    exact (foldl_concat ..).symm
  · rw [numbers_concat]
    exact hk.foldl_self m a.fields hnd a.kept hf (h.kept fname hf)

theorem foldl_collect (fs : List String) (out : StringMap K)
    (fname : String) :
    (fs.foldl (fun out fname => match value fname with
      | some v => out.insert fname v
      | none => out) out).lookup fname =
      if fname∈fs then (value fname).or (out.lookup fname) else out.lookup fname := by
  induction fs generalizing out with
  | nil => rfl
  | cons f fs ih =>
    rw [foldl_cons,ih]
    by_cases hf : fname=f
    · subst hf
      cases value fname <;> simp
    · cases value f with
      | none => simp [hf]
      | some v => simp [hf,AList.lookup_insert_ne hf]

theorem collect_lookup {fs : List String}
    (h : fname∈fs) : (collect value fs).lookup fname=value fname := by
  rw [collect,foldl_collect,if_pos h,AList.lookup_empty,or_none]

theorem eq_of_mem_emit {name : String} {tags : StringMap String} {fields : StringMap K}
    {out : Aggregate K} (h : out∈emit name tags fields) : out=⟨name,tags,fields⟩ := by
  unfold emit at h
  split at h
  · exact absurd h not_mem_nil
  · exact mem_singleton.mp h

end

namespace Averages
variable {K : Type} (A : Numbers K)

def mean (vals : List K) : Option K :=
  if vals=[] then none else some (A.div (vals.foldl A.add (A.ofInt 0)) (A.ofInt vals.length))
def keep (s : Averages K) (fname : String) : Option K × Option Nat :=
  (s.sums.lookup fname,s.counts.lookup fname)
def Sums (kept : Option K × Option Nat) (vals : List K) : Prop :=
  kept.1.getD (A.ofInt 0)=vals.foldl A.add (A.ofInt 0) ∧
    kept.2 = if vals=[] then none else some vals.length

theorem keeps : Keeps (addValue A) keep (Sums A) where
  self s fname v vals h := by
    obtain ⟨hsum,hcount⟩ := h
    dsimp only [keep] at hsum hcount
    constructor
    · simp only [keep,addValue,AList.lookup_insert,getD_some,hsum]
      exact (foldl_concat ..).symm
    · simp [keep,addValue,hcount]
      cases vals <;> simp
  other s fname g v hne := by simp only [keep,addValue,AList.lookup_insert_ne hne]

theorem empty_sums (fname : String) : Sums A (keep empty fname) [] := ⟨rfl,rfl⟩

theorem value_of_sums {s : Averages K} {fname : String} {vals : List K}
    (h : Sums A (s.keep fname) vals) : s.value A fname=mean A vals := by
  obtain ⟨hsum,hcount⟩ := h
  dsimp only [keep] at hsum hcount
  rw [value,mean,hcount,hsum]
  cases vals with
  | nil | cons v vals => rfl

theorem push_value {a : Aggregator (Averages K)} {ms : List Metric} (h : a.Holds A keep (Sums A) ms)
    {out : Aggregate K} (hout : out∈push A a) : out.name=a.name++"_avg" ∧ out.tags=a.tags ∧
      ∀ fname∈a.fields, out.fields.lookup fname=mean A (A.numbers fname ms) := by
  unfold push at hout
  split at hout
  · exact absurd hout not_mem_nil
  · cases eq_of_mem_emit hout
    refine ⟨rfl,rfl,fun fname hf => ?_⟩
    rw [collect_lookup _ hf]
    exact value_of_sums A (h.kept fname hf)

end Averages

namespace Extremes
variable {K : Type} (A : Numbers K)

def lower (lo : Option K) (v : K) : Option K :=
  some (match lo with
    | none => v
    | some x => if A.lt v x then v else x)
def upper (hi : Option K) (v : K) : Option K :=
  some (match hi with
    | none => v
    | some x => if A.lt x v then v else x)
def minimum (vals : List K) : Option K := vals.foldl (lower A) none
def maximum (vals : List K) : Option K := vals.foldl (upper A) none
def keep (s : Extremes K) (fname : String) : Option K × Option K :=
  (s.mins.lookup fname,s.maxs.lookup fname)
def Bounds (kept : Option K × Option K) (vals : List K) : Prop :=
  kept=(minimum A vals,maximum A vals)

theorem maximum_isSome (vals : List K) : (maximum A vals).isSome=(minimum A vals).isSome := by
  cases vals using List.reverseRecOn with
  | nil => rfl
  | append_singleton vals v =>
    rw [maximum,minimum,foldl_concat,foldl_concat]
    rfl

theorem keeps : Keeps (addValue A) keep (Bounds A) where
  self s fname v vals h := by
    obtain ⟨hmin,hmax⟩ := Prod.mk.inj (show keep s fname=_ from h)
    have hsome:=maximum_isSome A vals
    rw [Bounds,minimum,maximum,foldl_concat,foldl_concat]
    change _=(lower A (minimum A vals) v,upper A (maximum A vals) v)
    rw [← hmin,← hmax] at hsome ⊢
    unfold keep addValue
    cases hlo : s.mins.lookup fname with
    | none =>
      have hnone : s.maxs.lookup fname=none := by simpa [hlo] using hsome
      simp [hnone,lower,upper]
    | some lo =>
      obtain ⟨hi,hhi⟩ : ∃ hi, s.maxs.lookup fname=some hi :=
        isSome_iff_exists.mp (by simpa [hlo] using hsome)
      simp only [hhi,getD_some,lower,upper]
      split <;> split <;> simp [hlo,hhi]
  other s fname g v hne := by
    unfold keep addValue
    cases s.mins.lookup fname with
    | none => simp [AList.lookup_insert_ne hne]
    | some lo => dsimp only; split <;> split <;> simp [AList.lookup_insert_ne hne]

theorem empty_bounds (fname : String) : Bounds A (keep empty fname) [] := rfl

theorem push_value {a : Aggregator (Extremes K)} {ms : List Metric}
    (h : a.Holds A keep (Bounds A) ms) {out : Aggregate K} (hout : out∈push A a) : out.tags=a.tags ∧
      (out.name=a.name++"_min" ∧
          (∀ fname∈a.fields, out.fields.lookup fname=minimum A (A.numbers fname ms)) ∨
        out.name=a.name++"_max" ∧
          ∀ fname∈a.fields, out.fields.lookup fname=maximum A (A.numbers fname ms)) := by
  have hbounds : ∀ fname∈a.fields, a.kept.mins.lookup fname=minimum A (A.numbers fname ms) ∧
      a.kept.maxs.lookup fname=maximum A (A.numbers fname ms) := by
    intro fname hf
    exact Prod.mk.inj (h.kept fname hf)
  unfold push at hout
  split at hout
  · exact absurd hout not_mem_nil
  · rcases mem_append.mp hout with hout | hout
    · cases eq_of_mem_emit hout
      refine ⟨rfl,.inl ⟨rfl,fun fname hf => ?_⟩⟩
      rw [collect_lookup _ hf]
      exact (hbounds fname hf).1
    · cases eq_of_mem_emit hout
      refine ⟨rfl,.inr ⟨rfl,fun fname hf => ?_⟩⟩
      obtain ⟨hmin,hmax⟩ := hbounds fname hf
      have hsome:=maximum_isSome A (A.numbers fname ms)
      rw [collect_lookup _ hf,maxValue,hmin,hmax]
      cases hx : maximum A (A.numbers fname ms) with
      | none =>
        rw [hx] at hsome
        have hnone : minimum A (A.numbers fname ms)=none := by simpa using hsome.symm
        rw [hnone]
        rfl
      | some x =>
        rw [hx] at hsome
        obtain ⟨y,hy⟩ := isSome_iff_exists.mp hsome.symm
        rw [hy]
        rfl

end Extremes

end OpsAgent.Collector
