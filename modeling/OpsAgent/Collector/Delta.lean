import OpsAgent.Collector.Aggregators
import OpsAgent.Lib.KeyedStream

/-!
# The delta processor (`collector/processors/delta/delta.go`)

`Apply` holds the processor's mutex from beginning to end, so a call is one step. The variable
`unfit` is what a conversion to `int64` gives for a number that does not fit.
-/

namespace OpsAgent.Collector.Delta
open Lib Lib.GoValue List
open Lib.GoTime (Time Duration)

structure Entry where
  values : StringMap FieldValue
  timestamp : Time

inductive OutputMode where
  | delta | rate

structure Settings where
  fields : List String
  outputMode : OutputMode
  maxStaleSeconds : Int64

structure Processor extends Settings where
  prev : String → Option Entry

def metricKey (name : String) (tags : StringMap String) : String :=
  (sortedKeys tags).foldl (fun b k => b++"|"++k++"="++(tags.lookup k).getD "") name

def toFloat64 : FieldValue → Option Float64
  | .int64 n => some (Float64.ofInt n.toInt)
  | .float64 x => some x
  | .int n => some (Float64.ofInt n.toInt)
  | .float32 x => some (Float64.ofFloat32 x)
  | _ => none

def zeroOfSameType : FieldValue → FieldValue
  | .int64 _ => .int64 0
  | .float64 _ => .float64 ⟨0⟩
  | .int _ => .int 0
  | .float32 _ => .float32 ⟨0⟩
  | _ => .float64 ⟨0⟩

def computeDelta (prev cur : FieldValue) : Option Float64 := do
  let prevF ← toFloat64 prev
  let curF ← toFloat64 cur
  if Float64.lt curF prevF then none else some (Float64.sub curF prevF)
def seconds (d : Duration) : Float64 :=
  Float64.add (Float64.ofInt (d / 1000000000).toInt)
    (Float64.div (Float64.ofInt (d % 1000000000).toInt) (Float64.ofInt 1000000000))

def changed (unfit : Float64 → Int64) (mode : OutputMode) (elapsed : Float64)
    (prev cur : FieldValue) : FieldValue :=
  match computeDelta prev cur with
  | none => zeroOfSameType cur
  | some delta => match mode with
    | .rate =>
      if Float64.le elapsed ⟨0⟩ then .float64 ⟨0⟩ else .float64 (Float64.div delta elapsed)
    | .delta => match prev, cur with
      | .int64 _, .int64 _ => .int64 (Float64.toInt64 unfit delta)
      | _, _ => .float64 delta

def newValue (unfit : Float64 → Int64) (mode : OutputMode) (prev : Option Entry)
    (timestamp : Time) (fieldName : String) (curVal : FieldValue) : FieldValue :=
  match prev with
  | none => zeroOfSameType curVal
  | some e => match e.values.lookup fieldName with
    | none => zeroOfSameType curVal
    | some prevVal =>
      changed unfit mode (seconds (GoTime.sub timestamp e.timestamp)) prevVal curVal

def newFields (unfit : Float64 → Int64) (c : Settings) (prev : Option Entry) (m : TimedMetric) :
    StringMap FieldValue :=
  c.fields.foldl (fun out fieldName => match m.fields.lookup fieldName with
    | none => out
    | some curVal =>
      out.insert fieldName (newValue unfit c.outputMode prev m.timestamp fieldName curVal)) m.fields

def updated (unfit : Float64 → Int64) (c : Settings) (prev : Option Entry) (m : TimedMetric) :
    TimedMetric :=
  {m with fields := newFields unfit c prev m}
def entryOf (m : TimedMetric) : Entry := ⟨m.fields,m.timestamp⟩
def latestTS (batch : List TimedMetric) : Time :=
  batch.foldl (fun latest m => if latest < m.timestamp then m.timestamp else latest) 0

/-- `now.Add(-time.Duration(p.maxStaleSeconds) * time.Second)`; the product wraps around. -/
def threshold (c : Settings) (now : Time) : Time :=
  now+(-c.maxStaleSeconds*1000000000).toInt
def cleanupStale (p : Processor) (now : Time) : Processor :=
  {p with prev := fun k => (p.prev k).filter fun e => !(e.timestamp<threshold p.toSettings now)}

def applyAll (unfit : Float64 → Int64) (p : Processor) :
    List TimedMetric → Processor × List TimedMetric
  | [] => (p,[])
  | m::ms =>
    let key:=metricKey m.name m.tags
    let r:=applyAll unfit {p with prev := Function.update p.prev key (some (entryOf m))} ms
    (r.1,updated unfit p.toSettings (p.prev key) m::r.2)

def apply (unfit : Float64 → Int64) (p : Processor) (batch : List TimedMetric) :
    Processor × List TimedMetric :=
  applyAll unfit (if latestTS batch=0 then p else cleanupStale p (latestTS batch)) batch
def applyBatches (unfit : Float64 → Int64) (p : Processor) :
    List (List TimedMetric) → List (List TimedMetric)
  | [] => []
  | b::bs => (apply unfit p b).2::applyBatches unfit (apply unfit p b).1 bs

def rule (unfit : Float64 → Int64) (c : Settings) :
    KeyedStream.Rule TimedMetric String Entry TimedMetric where
  key m := metricKey m.name m.tags
  emit := updated unfit c
  store := entryOf

def stale (c : Settings) (batch : List TimedMetric) (e : Entry) : Bool :=
  latestTS batch != 0&&e.timestamp<threshold c (latestTS batch)

section Process
variable (unfit : Float64 → Int64) (p : Processor)

theorem applyAll_eq (ms : List TimedMetric) :
    applyAll unfit p ms =
      ({p with prev := (KeyedStream.process (rule unfit p.toSettings) p.prev ms).1},
        (KeyedStream.process (rule unfit p.toSettings) p.prev ms).2) := by
  induction ms generalizing p with
  | nil => rfl
  | cons m ms ih =>
    simp only [applyAll,ih]
    rfl

theorem cleaned_prev (batch : List TimedMetric) :
    (if latestTS batch=0 then p else cleanupStale p (latestTS batch)) =
      {p with prev := fun k => KeyedStream.expire (stale p.toSettings batch) (p.prev k)} := by
  by_cases h : latestTS batch=0
  · have hkeep : ∀ e : Option Entry, KeyedStream.expire (stale p.toSettings batch) e=e := by
      intro e
      cases e with
      | none => rfl
      | some x => exact KeyedStream.expire_some_of_not_old (by simp [stale,h])
    simp only [if_pos h,hkeep]
  · simp only [if_neg h,cleanupStale,KeyedStream.expire,stale,bne_iff_ne.mpr h,Bool.true_and]

theorem applyBatches_eq (bs : List (List TimedMetric)) : applyBatches unfit p bs =
      KeyedStream.processBatches (rule unfit p.toSettings) (stale p.toSettings) p.prev bs := by
  induction bs generalizing p with
  | nil => rfl
  | cons b bs ih =>
    rw [applyBatches,ih,apply,cleaned_prev,applyAll_eq]
    rfl

end Process

variable (batch : List TimedMetric)

theorem foldl_latest_le_iff (t u : Time) :
    batch.foldl (fun latest m => if latest < m.timestamp then m.timestamp else latest) t≤u ↔
      t≤u ∧ ∀ m∈batch, m.timestamp≤u := by
  induction batch generalizing t with
  | nil => simp
  | cons m ms ih =>
    rw [foldl_cons,ih,forall_mem_cons,← and_assoc]
    refine and_congr_left fun _ => ?_
    split
    next hlt => exact ⟨fun h => ⟨hlt.le.trans h,h⟩,And.right⟩
    next hge => exact ⟨fun h => ⟨h,(not_lt.mp hge).trans h⟩,And.left⟩

theorem latestTS_le_iff (u : Time) : latestTS batch≤u ↔ 0≤u ∧ ∀ m∈batch, m.timestamp≤u :=
  foldl_latest_le_iff batch 0 u
theorem latestTS_nonneg : 0≤latestTS batch :=
  ((latestTS_le_iff batch _).mp le_rfl).1
theorem le_latestTS {batch : List TimedMetric} {m : TimedMetric} (h : m∈batch) :
    m.timestamp≤latestTS batch :=
  ((latestTS_le_iff batch _).mp le_rfl).2 m h

theorem stale_mono (c : Settings) {b b' : List TimedMetric} (h : latestTS b≤latestTS b')
    {e : Entry} (he : stale c b e) : stale c b' e := by
  have hb : 0≤latestTS b := latestTS_nonneg b
  obtain ⟨hset,hbefore⟩ := Bool.and_eq_true_iff.mp he
  have hpos : 0<latestTS b := lt_of_le_of_ne hb (bne_iff_ne.mp hset).symm
  have hlater : threshold c (latestTS b)≤threshold c (latestTS b') := add_le_add_left h _
  refine Bool.and_eq_true_iff.mpr ⟨bne_iff_ne.mpr (hpos.trans_le h).ne',?_⟩
  exact decide_eq_true ((of_decide_eq_true hbefore).trans_le hlater)

def InOrder (bs : List (List TimedMetric)) : Prop :=
  (bs.flatten.map TimedMetric.timestamp).Pairwise (· ≤ ·)

instance (bs : List (List TimedMetric)) : Decidable (InOrder bs) :=
  inferInstanceAs (Decidable ((bs.flatten.map TimedMetric.timestamp).Pairwise (· ≤ ·)))

theorem InOrder.of_cons {b : List TimedMetric} {bs : List (List TimedMetric)} (h : InOrder (b::bs)) :
    InOrder bs ∧ ∀ m∈b, ∀ b' ∈ bs, ∀ m' ∈ b', m.timestamp ≤ m'.timestamp := by
  rw [InOrder,flatten_cons,map_append,pairwise_append] at h
  refine ⟨h.2.1,?_⟩
  intro m hm b' hb' m' hm'
  exact h.2.2 _ (mem_map_of_mem hm) _
    (mem_map_of_mem (mem_flatten_of_mem hb' hm'))

theorem ordered_of_inOrder (c : Settings) (p : TimedMetric → Bool) {bs : List (List TimedMetric)}
    (h : InOrder bs) : KeyedStream.Ordered (stale c) p bs := by
  constructor
  · intro b _ e
    apply stale_mono c
    rw [latestTS_le_iff]
    exact ⟨latestTS_nonneg b,fun m hm => le_latestTS (mem_of_mem_filter hm)⟩
  · induction bs with
    | nil => exact List.Pairwise.nil
    | cons b bs ih =>
      obtain ⟨hrest,hlater⟩ := h.of_cons
      refine pairwise_cons.mpr ⟨?_,ih hrest⟩
      intro b' hb' hne e
      obtain ⟨m',hm'⟩ := exists_mem_of_ne_nil _ hne
      apply stale_mono c
      rw [latestTS_le_iff]
      refine ⟨latestTS_nonneg _,fun m hm => ?_⟩
      exact (hlater m hm b' hb' m' (mem_of_mem_filter hm')).trans (le_latestTS hm')

def new (c : Settings) : Processor := ⟨c,fun _ => none⟩
def ownMetrics (σ : Series) (bs : List (List TimedMetric)) : List (List TimedMetric) :=
  KeyedStream.own (ofSeries σ) bs
def outputs (unfit : Float64 → Int64) (c : Settings) (σ : Series) (bs : List (List TimedMetric)) :
    List TimedMetric :=
  ((applyBatches unfit (new c) bs).map (filter (ofSeries σ))).flatten
def seriesKey (σ : Series) : String := σ.2.foldl (fun b t => b++"|"++t.1++"="++t.2) σ.1

theorem metricKey_eq (m : TimedMetric) : metricKey m.name m.tags=seriesKey m.series := by
  rw [metricKey,seriesKey,TimedMetric.series,sortedTags,foldl_map]

def ownKey (σ : Series) (bs : List (List TimedMetric)) : Prop :=
  ∀ b∈bs, ∀ m∈b, seriesKey m.series=seriesKey σ → m.series=σ

instance (σ : Series) (bs : List (List TimedMetric)) : Decidable (ownKey σ bs) :=
  inferInstanceAs (Decidable (∀ b∈bs, ∀ m∈b, seriesKey m.series=seriesKey σ → m.series=σ))

/-- No batch with a metric of `σ` has a timestamp so late that the entry of the metric of `σ`
before it is stale, unless the batch's own metrics of `σ` are that late. -/
def keepsEntry (c : Settings) (σ : Series) (bs : List (List TimedMetric)) : Bool :=
  KeyedStream.undisturbed entryOf (stale c) (ofSeries σ) none bs

section Outputs
variable {unfit : Float64 → Int64} {c : Settings} {σ : Series} {bs bs' : List (List TimedMetric)}

theorem outputs_eq_track (hkey : ownKey σ bs) : outputs unfit c σ bs =
      (KeyedStream.trackBatches (rule unfit c) (stale c) (ofSeries σ) none bs).flatten := by
  have hselects : ∀ b∈bs,
      KeyedStream.Selects (rule unfit c) (seriesKey σ) (ofSeries σ) (ofSeries σ) b := by
    intro b hb
    constructor
    · intro m hm
      rw [ofSeries,decide_eq_true_iff]
      refine ⟨fun h => ?_,fun h => hkey b hb m hm ?_⟩
      · exact (metricKey_eq m).trans (congrArg seriesKey h)
      · exact (metricKey_eq m).symm.trans h
    · intro e m
      rfl
  rw [outputs,applyBatches_eq]
  exact congrArg flatten (KeyedStream.processBatches_project _ _ bs hselects)

theorem outputs_eq_own (hord : InOrder bs) (hkey : ownKey σ bs) (hkeep : keepsEntry c σ bs) :
    outputs unfit c σ bs = (KeyedStream.trackBatches (rule unfit c) (stale c) (ofSeries σ) none
        (ownMetrics σ bs)).flatten :=
  (outputs_eq_track hkey).trans (KeyedStream.trackBatches_own
    (ordered_of_inOrder c (ofSeries σ) hord) hkeep (fun _ => id) (.inl rfl))

/-- Streams in time order with the same metrics of a series have the same outputs of it, if no other
series has its key and no batch makes its entry stale early. -/
theorem outputs_of_same_series (hord : InOrder bs) (hord' : InOrder bs') (hkey : ownKey σ bs)
    (hkey' : ownKey σ bs') (hkeep : keepsEntry c σ bs=true) (hkeep' : keepsEntry c σ bs' = true)
    (hsame : ownMetrics σ bs=ownMetrics σ bs') : outputs unfit c σ bs=outputs unfit c σ bs' := by
  rw [outputs_eq_own hord hkey hkeep,outputs_eq_own hord' hkey' hkeep',hsame]

end Outputs

def counterMetric (name : String) (n : Float64) (timestamp : Time) : TimedMetric :=
  ⟨⟨name,∅,(∅ : StringMap FieldValue).insert "n" (.float64 n),.counter⟩,timestamp⟩
def eight : Float64 := ⟨0x4020000000000000#64⟩
def withOther (other : List TimedMetric) : List (List TimedMetric) :=
  [[counterMetric "a" ⟨0⟩ 1000000000],counterMetric "a" eight 11000000000::other]

theorem outputs_of_same_series_a : InOrder (withOther [counterMetric "b" eight 12000000000]) ∧
      outputs (fun _ => Int64.minValue) ⟨["n"],.rate,300⟩ ("a",[])
          (withOther [counterMetric "b" eight 12000000000]) =
        outputs (fun _ => Int64.minValue) ⟨["n"],.rate,300⟩ ("a",[]) (withOther []) :=
  ⟨by decide,outputs_of_same_series (by decide) (by decide) (by decide) (by decide) rfl rfl rfl⟩

theorem outputs_depend_on_other_series :
    InOrder (withOther [counterMetric "b" eight 1000000000000]) ∧ InOrder (withOther []) ∧
      ownMetrics ("a",[]) (withOther [counterMetric "b" eight 1000000000000]) =
        ownMetrics ("a",[]) (withOther []) ∧ ∀ unfit, (outputs unfit ⟨["n"],.delta,300⟩ ("a",[])
          (withOther [counterMetric "b" eight 1000000000000])).map (·.fields.lookup "n") =
            [some (.float64 ⟨0⟩),some (.float64 ⟨0⟩)] ∧
        (outputs unfit ⟨["n"],.delta,300⟩ ("a",[]) (withOther [])).map (·.fields.lookup "n") =
          [some (.float64 ⟨0⟩),some (.float64 eight)] := by
  have hsub : Float64.sub eight ⟨0⟩=eight := by
    apply Float64.sub_zero
    · decide
    · decide
    · rfl
  refine ⟨by decide,by decide,rfl,fun unfit => ⟨?_,?_⟩⟩
  · simp only [outputs,withOther,applyBatches,apply,applyAll]
    rfl
  · rw [← hsub]
    simp only [outputs,withOther,applyBatches,apply,applyAll]
    rfl

end OpsAgent.Collector.Delta
