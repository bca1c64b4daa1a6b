import OpsAgent.Collector.ToProto
import OpsAgent.Config.Types
import OpsAgent.Lib.FloatText
import OpsAgent.Lib.QuotedText

/-!
# The Prometheus output (`collector/outputs/prometheus/prometheus.go`)

`Write` and `renderPrometheus` hold the mutex from beginning to end. The variable `order` lists the
values of a map in the order in which `range` goes through it, which the language leaves open.
-/

namespace OpsAgent.Collector.Prometheus
open List
open Lib.GoValue (Float64)
open Lib.GoTime (Time unixMilli)
open Lib.FloatText (formatFloat)
open Lib.QuotedText (replaceAll)

structure Output where
  (path addr : String)
  latest : StringMap TimedMetric

def setting (cfg : AnyMap) (key default : String) : String :=
  match (cfg.getD []).lookup key with
  | some (.str v) => if v≠"" then v else default
  | _ => default
def init (cfg : AnyMap) : Output :=
  ⟨setting cfg "path" "/metrics",setting cfg "addr" "127.0.0.1:9100",∅⟩
def write (p : Output) (metrics : List TimedMetric) : Output :=
  {p with latest := metrics.foldl (fun latest m => latest.insert m.name m) p.latest}

def extractNumericValue (order : StringMap FieldValue → List FieldValue)
    (fields : StringMap FieldValue) : Float64 :=
  match ["value","count","gauge"].findSome? fun key => (fields.lookup key).bind toFloat64 with
  | some f => f
  | none => ((order fields).findSome? toFloat64).getD ⟨0⟩

/-- `[a-zA-Z0-9_]` -/
def validNameChar (c : Char) : Bool := c.isAlphanum||c == '_'
def sanitizeName (name : String) : List Char :=
  let sanitized:=name.toList.map fun c => if validNameChar c then c else '_'
  if sanitized.head?.any Char.isDigit then '_' :: sanitized else sanitized
def escapeLabelValue (s : List Char) : List Char :=
  replaceAll '\n' ['\\', 'n'] (replaceAll '"' ['\\', '"'] (replaceAll '\\' ['\\', '\\'] s))
def label (tag : String × String) : List Char :=
  sanitizeName tag.1 ++ '=' :: '"' :: (escapeLabelValue tag.2.toList++['"'])
def labels (tags : StringMap String) : List Char :=
  if (sortedTags tags).isEmpty then []
  else '\x7b' :: ([','].intercalate ((sortedTags tags).map label)++['\x7d'])

def typeStr : MetricType → List Char
  | .counter => "counter".toList
  | _ => "gauge".toList
def typeStart : List Char := ['#', ' ', 'T', 'Y', 'P', 'E', ' ']
def typeLine (m : TimedMetric) : List Char :=
  typeStart++(sanitizeName m.name ++ ' ' :: typeStr m.metricType)
def sampleLine (order : StringMap FieldValue → List FieldValue) (m : TimedMetric) : List Char :=
  sanitizeName m.name++(labels m.tags ++ ' ' ::
    (formatFloat (extractNumericValue order m.fields) ++ ' ' ::
      (toString (unixMilli m.timestamp).toInt).toList))
def exposed (p : Output) : List TimedMetric := (sortedKeys p.latest).filterMap p.latest.lookup
def renderPrometheus (order : StringMap FieldValue → List FieldValue) (p : Output) : List Char :=
  (exposed p).flatMap fun m => typeLine m ++ '\n' :: (sampleLine order m++['\n'])
def linesOf (text : List Char) : List (List Char) := (text.splitOn '\n').dropLast
def typeName? (line : List Char) : Option (List Char) :=
  if typeStart.isPrefixOf line then some ((line.drop 7).takeWhile (· != ' ')) else none
def typeNames (text : List Char) : List (List Char) := (linesOf text).filterMap typeName?

theorem linesOf_append {line : List Char} (h : '\n' ∉ line) (text : List Char) :
    linesOf (line ++ '\n' :: text)=line::linesOf text := by
  have hline : ∀ c∈line, (c == '\n')=false :=
    fun c hc => beq_eq_false_iff_ne.mpr fun he => h (he ▸ hc)
  rw [linesOf,splitOn,splitOnP_append_cons_of_forall_mem hline _ rfl]
  exact dropLast_cons_of_ne_nil (splitOnP_ne_nil _ text)

theorem sanitizeName_valid (name : String) : ∀ c∈sanitizeName name, validNameChar c := by
  have hmap : ∀ c∈name.toList.map fun c => if validNameChar c then c else '_',
      validNameChar c := by
    intro c hc
    obtain ⟨d,-,rfl⟩ := mem_map.mp hc
    split
    · assumption
    · rfl
  intro c hc
  unfold sanitizeName at hc
  simp only at hc
  split at hc
  · rcases mem_cons.mp hc with rfl | hc
    · rfl
    · exact hmap c hc
  · exact hmap c hc

theorem not_mem_sanitizeName {c : Char} (h : validNameChar c=false) (name : String) :
    c∉sanitizeName name :=
  fun hc => Bool.false_ne_true (h ▸ sanitizeName_valid name c hc)

theorem not_mem_escapeLabelValue (s : List Char) : '\n' ∉ escapeLabelValue s := by
  intro h
  obtain ⟨c,-,hc⟩ := mem_flatMap.mp h
  by_cases heq : c = '\n'
  · rw [if_pos heq] at hc
    revert hc
    decide
  · rw [if_neg heq,mem_singleton] at hc
    exact heq hc.symm

theorem not_mem_label (tag : String × String) : '\n' ∉ label tag := by
  simp [label,not_mem_sanitizeName (c := '\n') rfl,not_mem_escapeLabelValue]

theorem not_mem_labels (tags : StringMap String) : '\n' ∉ labels tags := by
  have hall : ∀ tags : List (String × String), '\n' ∉ [','].intercalate (tags.map label) := by
    intro tags
    induction tags with
    | nil => simp [intercalate]
    | cons tag tags ih =>
      cases tags with
      | nil => simpa [intercalate] using not_mem_label tag
      | cons tag' rest =>
        rw [map_cons] at ih ⊢
        rw [map_cons,intercalate_cons_cons]
        simp [not_mem_label tag,ih]
  unfold labels
  split
  · simp
  · simp [hall]

theorem not_mem_decimal (n : Int) : '\n' ∉ n.repr.toList := by
  have hdigits : ∀ k : Nat, '\n' ∉ k.repr.toList := by
    intro k hk
    rw [Nat.toList_repr] at hk
    exact absurd (Nat.isDigit_of_mem_toDigits (by decide) (by decide) hk) (by decide)
  rw [Int.repr_eq_if]
  split
  · exact hdigits _
  · rw [String.toList_append,mem_append,not_or]
    exact ⟨by decide,hdigits _⟩

theorem not_mem_typeStr (t : MetricType) : '\n' ∉ typeStr t := by cases t <;> decide

theorem not_mem_typeLine (m : TimedMetric) : '\n' ∉ typeLine m := by
  have hstart : '\n' ∉ typeStart := by decide
  have hname:=not_mem_sanitizeName (c := '\n') rfl m.name
  rw [typeLine,mem_append,mem_append,mem_cons]
  rintro (h | h | h | h)
  · exact hstart h
  · exact hname h
  · exact absurd h (by decide)
  · exact not_mem_typeStr m.metricType h

variable (order : StringMap FieldValue → List FieldValue)

theorem not_mem_sampleLine (m : TimedMetric) : '\n' ∉ sampleLine order m := by
  have hvalue : '\n' ∉ formatFloat (extractNumericValue order m.fields) :=
    fun h => absurd (Lib.FloatText.formatFloat_textChars _ _ h) (by decide)
  have hname:=not_mem_sanitizeName (c := '\n') rfl m.name
  simp [sampleLine,hname,hvalue,not_mem_labels,not_mem_decimal]

theorem typeName?_typeLine (m : TimedMetric) : typeName? (typeLine m)=some (sanitizeName m.name) := by
  have hname : ∀ c∈sanitizeName m.name, (c != ' ')=true := by
    intro c hc
    rw [bne_iff_ne]
    rintro rfl
    exact not_mem_sanitizeName rfl m.name hc
  have hstart : typeStart.isPrefixOf (typeLine m) :=
    isPrefixOf_iff_prefix.mpr (prefix_append _ _)
  have hdrop : (typeLine m).drop 7=sanitizeName m.name ++ ' ' :: typeStr m.metricType := rfl
  rw [typeName?,if_pos hstart,hdrop,takeWhile_append_of_pos hname]
  simp

theorem typeName?_sampleLine (m : TimedMetric) : typeName? (sampleLine order m)=none := by
  have hhead : (sampleLine order m).head? ≠ some '#' := by
    have hname:=not_mem_sanitizeName (c := '#') rfl m.name
    unfold sampleLine
    cases hs : sanitizeName m.name with
    | nil =>
      unfold labels
      split
      · simp
      · simp
    | cons c cs =>
      rw [hs] at hname
      simp only [cons_append,head?_cons,ne_eq,Option.some.injEq]
      exact fun he => hname (he ▸ mem_cons_self)
  rw [typeName?,if_neg]
  intro hstart
  obtain ⟨rest,hrest⟩ := isPrefixOf_iff_prefix.mp hstart
  rw [← hrest] at hhead
  exact hhead rfl

theorem linesOf_render (p : Output) : linesOf (renderPrometheus order p) =
      (exposed p).flatMap fun m => [typeLine m,sampleLine order m] := by
  rw [renderPrometheus]
  generalize exposed p=ms
  induction ms with
  | nil => rfl
  | cons m ms ih =>
    rw [flatMap_cons,append_assoc,cons_append,append_assoc,
      singleton_append,linesOf_append (not_mem_typeLine m),
      linesOf_append (not_mem_sampleLine order m),ih]
    rfl

theorem typeNames_render (p : Output) :
    typeNames (renderPrometheus order p)=(exposed p).map fun m => sanitizeName m.name := by
  rw [typeNames,linesOf_render]
  generalize exposed p=ms
  induction ms with
  | nil => rfl
  | cons m ms ih =>
    rw [flatMap_cons,filterMap_append,ih,map_cons,filterMap_cons,
      typeName?_typeLine,filterMap_cons,typeName?_sampleLine]
    rfl

def written (cfg : AnyMap) (batches : List (List TimedMetric)) : Output :=
  batches.foldl write (init cfg)
def latestWith (p : TimedMetric → Bool) (ms : List TimedMetric) : Option TimedMetric :=
  (ms.filter p).getLast?

variable {m : TimedMetric}
  {ms : List TimedMetric} {p : TimedMetric → Bool}

theorem latestWith_eq_some (h : latestWith p ms=some m) : m∈ms ∧ p m :=
  mem_filter.mp (mem_of_getLast? h)
theorem exists_latestWith (hm : m∈ms) (hp : p m) : ∃ l, latestWith p ms=some l :=
  ⟨_,getLast?_eq_some_getLast (ne_nil_of_mem (mem_filter.mpr ⟨hm,hp⟩))⟩

theorem latestWith_concat (p : TimedMetric → Bool) (ms : List TimedMetric) (m : TimedMetric) :
    latestWith p (ms++[m]) = if p m then some m else latestWith p ms := by
  rw [latestWith,filter_append]
  split
  next h => simp [h]
  next h => simp [h,latestWith]

theorem foldl_insert_latest (ms : List TimedMetric) (name : String) :
    (ms.foldl (fun latest m => latest.insert m.name m) (∅ : StringMap TimedMetric)).lookup name =
      latestWith (fun m => m.name=name) ms := by
  induction ms using List.reverseRecOn with
  | nil => rfl
  | append_singleton ms m ih =>
    rw [foldl_append,latestWith_concat,← ih]
    by_cases h : m.name=name
    · subst h
      simp
    · simp [h,AList.lookup_insert_ne (Ne.symm h)]

theorem foldl_write_latest (p : Output) (batches : List (List TimedMetric)) :
    (batches.foldl write p).latest =
      batches.flatten.foldl (fun latest m => latest.insert m.name m) p.latest := by
  induction batches generalizing p with
  | nil => rfl
  | cons b bs ih => rw [foldl_cons,ih,flatten_cons,foldl_append]; rfl

theorem written_latest (cfg : AnyMap) (batches : List (List TimedMetric)) (name : String) :
    (written cfg batches).latest.lookup name = latestWith (fun m => m.name=name) batches.flatten := by
  rw [written,foldl_write_latest]
  exact foldl_insert_latest batches.flatten name

variable {batches : List (List TimedMetric)} {cfg : AnyMap}

theorem mem_exposed_written : m∈exposed (written cfg batches) ↔
      latestWith (fun m' => m'.name=m.name) batches.flatten=some m := by
  rw [exposed,mem_filterMap]
  constructor
  · intro ⟨name,_,hlookup⟩
    rw [written_latest] at hlookup
    have hname : m.name=name := of_decide_eq_true (latestWith_eq_some hlookup).2
    rw [hname]
    exact hlookup
  · intro h
    rw [← written_latest cfg] at h
    exact ⟨m.name,mem_sortedKeys.mpr (by rw [h]; rfl),h⟩

theorem exposed_names (cfg : AnyMap) (batches : List (List TimedMetric)) :
    ((exposed (written cfg batches)).map fun m => m.name) = sortedKeys (written cfg batches).latest := by
  have hkeys : ∀ ks : List String,
      (∀ k∈ks, ((written cfg batches).latest.lookup k).isSome) →
      ((ks.filterMap (written cfg batches).latest.lookup).map fun m => m.name)=ks := by
    intro ks hks
    induction ks with
    | nil => rfl
    | cons k ks ih =>
      obtain ⟨m,hm⟩ := Option.isSome_iff_exists.mp (hks k mem_cons_self)
      have hname : m.name=k := by
        rw [written_latest] at hm
        exact of_decide_eq_true (latestWith_eq_some hm).2
      have hrest:=ih fun j hj => hks j (mem_cons_of_mem k hj)
      simp [hm,hname,hrest]
  exact hkeys _ fun k hk => mem_sortedKeys.mp hk

def FamiliesApart (batches : List (List TimedMetric)) : Prop :=
  ∀ m∈batches.flatten, ∀ m' ∈ batches.flatten,
    sanitizeName m.name=sanitizeName m'.name → m.series=m'.series

theorem FamiliesApart.name_iff (h : FamiliesApart batches)
    {m' : TimedMetric} (hm : m∈batches.flatten) (hm' : m' ∈ batches.flatten) :
    m'.name=m.name ↔ m'.series=m.series :=
  ⟨fun hname => h m' hm' m hm (congrArg sanitizeName hname),congrArg Prod.fst⟩

theorem FamiliesApart.mem_exposed (h : FamiliesApart batches) {σ : Series} (hm : latestWith (ofSeries σ) batches.flatten=some m) :
    m∈exposed (written cfg batches) := by
  obtain ⟨hmem,hseries⟩ := latestWith_eq_some hm
  have hσ : m.series=σ := of_decide_eq_true hseries
  have hsame : batches.flatten.filter (fun m' => m'.name=m.name) =
      batches.flatten.filter (ofSeries σ) := by
    apply filter_congr
    intro m' hm'
    rw [ofSeries,decide_eq_decide,h.name_iff hmem hm',hσ]
  rw [mem_exposed_written,latestWith,hsame]
  exact hm

theorem FamiliesApart.nodup (h : FamiliesApart batches) (cfg : AnyMap) :
    ((exposed (written cfg batches)).map fun m => sanitizeName m.name).Nodup := by
  have hnames : ((exposed (written cfg batches)).map fun m => m.name).Nodup := by
    rw [exposed_names]
    exact sortedKeys_nodup _
  have hmap : ((exposed (written cfg batches)).map fun m => sanitizeName m.name) =
      ((exposed (written cfg batches)).map fun m => m.name).map sanitizeName := by
    rw [map_map]
    rfl
  rw [hmap]
  refine hnames.map_on ?_
  intro k hk k' hk' heq
  obtain ⟨m,hm,rfl⟩ := mem_map.mp hk
  obtain ⟨m',hm',rfl⟩ := mem_map.mp hk'
  have hin:=(latestWith_eq_some (mem_exposed_written.mp hm)).1
  have hin' := (latestWith_eq_some (mem_exposed_written.mp hm')).1
  exact congrArg Prod.fst (h m hin m' hin' heq)

/-- Every series is exposed with its latest metric, and no family has two type lines, exactly if no two
series have the same family name. -/
theorem exposition_complete_iff (order : StringMap FieldValue → List FieldValue) (cfg : AnyMap)
    (batches : List (List TimedMetric)) : linesOf (renderPrometheus order (written cfg batches)) =
        (exposed (written cfg batches)).flatMap (fun m => [typeLine m,sampleLine order m]) ∧
      (((∀ σ m, latestWith (ofSeries σ) batches.flatten=some m → m∈exposed (written cfg batches)) ∧
        (typeNames (renderPrometheus order (written cfg batches))).Nodup) ↔ FamiliesApart batches) := by
  refine ⟨linesOf_render order _,?_⟩
  rw [typeNames_render]
  constructor
  · intro ⟨hall,hnodup⟩ m hm m' hm' heq
    obtain ⟨l,hl⟩ := exists_latestWith (p := ofSeries m.series) hm (decide_eq_true rfl)
    obtain ⟨l',hl'⟩ := exists_latestWith (p := ofSeries m'.series) hm' (decide_eq_true rfl)
    have hseries : l.series=m.series := of_decide_eq_true (latestWith_eq_some hl).2
    have hseries' : l'.series=m'.series := of_decide_eq_true (latestWith_eq_some hl').2
    have hname : l.name=m.name := congrArg Prod.fst hseries
    have hname' : l'.name=m'.name := congrArg Prod.fst hseries'
    have hfamily : sanitizeName l.name=sanitizeName l'.name := by rw [hname,hname',heq]
    have hl_eq : l=l' := inj_on_of_nodup_map hnodup (hall _ l hl) (hall _ l' hl') hfamily
    rw [← hseries,← hseries',hl_eq]
  · intro h
    exact ⟨fun σ m hm => h.mem_exposed hm,h.nodup cfg⟩

def hostMetric (name host : String) (t : Int) : TimedMetric :=
  ⟨⟨name,(∅ : StringMap String).insert "host" host,
    (∅ : StringMap FieldValue).insert "value" (.float64 ⟨0⟩),.gauge⟩,
    (62135596800+t)*1000000000⟩

theorem exposition_drops_series : latestWith (ofSeries (hostMetric "cpu" "a" 1).series)
        [hostMetric "cpu" "a" 1,hostMetric "cpu" "b" 1]=some (hostMetric "cpu" "a" 1) ∧
      hostMetric "cpu" "a" 1 ∉ exposed (written none [[hostMetric "cpu" "a" 1,hostMetric "cpu" "b" 1]]) ∧
      ∀ order, linesOf (renderPrometheus order
          (written none [[hostMetric "cpu" "a" 1,hostMetric "cpu" "b" 1]])) =
        ["# TYPE cpu gauge".toList,"cpu\x7bhost=\"b\"\x7d 0 1000".toList] := by
  have hexposed : exposed (written none [[hostMetric "cpu" "a" 1,hostMetric "cpu" "b" 1]]) =
      [hostMetric "cpu" "b" 1] := rfl
  have htags : (hostMetric "cpu" "a" 1).tags.lookup "host" ≠
      (hostMetric "cpu" "b" 1).tags.lookup "host" := by decide
  refine ⟨rfl,?_,fun order => ?_⟩
  · rw [hexposed,mem_singleton]
    exact fun h => htags (congrArg (fun m => m.tags.lookup "host") h)
  have hvalue : extractNumericValue order (hostMetric "cpu" "b" 1).fields=⟨0⟩ := rfl
  have htext : formatFloat ⟨0⟩=['0'] := rfl
  have htime : (toString (unixMilli (hostMetric "cpu" "b" 1).timestamp).toInt).toList =
      ['1', '0', '0', '0'] := rfl
  rw [linesOf_render,hexposed,flatMap_singleton,sampleLine,hvalue,htext,htime]
  rfl

end OpsAgent.Collector.Prometheus
