import OpsAgent.Collector.Prometheus
import OpsAgent.GrpcClient.MetricCache
import OpsAgent.Lib.FileStore
import OpsAgent.Lib.GoJson
import OpsAgent.Lib.JsonFloat
import OpsAgent.Lib.TextLines

/-!
# Metrics in a file (`grpcclient/persist.go`)

How `encoding/json` writes numbers of type `float32` and values of other types than those below is
the variable `encodeOther`. A Go string is any sequence of bytes; an invalid byte is written as the escape
of U+FFFD, which is read back as the three bytes of that character.
-/

namespace OpsAgent.GrpcClient
open Lib List Option GoJson
open Lib.GoStrings (GoString)
open Lib.GoTime (Time unixMilli)
open Lib.GoValue (Float64)
open Lib.FileStore (Files write)
open OpsAgent.Collector

def metricTypeString : MetricType → String
  | .counter => "counter"
  | .gauge => "gauge"
  | .histogram => "histogram"

def metricTypeFromString (s : String) : MetricType :=
  if s="counter" then .counter
  else if s="gauge" then .gauge
  else if s="histogram" then .histogram
  else .gauge

/-- The text that `encoding/json` writes for a string. -/
def text (s : GoString) : String := String.ofList (TextLines.runes s)
def bytes (s : String) : GoString := TextLines.encode s.toList
/-- The bytes are the UTF-8 encoding of some text. -/
def Utf8 (s : GoString) : Prop := ∃ t, bytes t=s

theorem text_bytes (t : String) : text (bytes t)=t := by
  rw [text,bytes,TextLines.runes_encode,String.ofList_toList]

theorem bytes_injective : Function.Injective bytes := Function.LeftInverse.injective text_bytes

theorem bytes_text_iff {s : GoString} : bytes (text s)=s ↔ Utf8 s := by
  constructor
  · exact fun h => ⟨text s,h⟩
  · rintro ⟨t,rfl⟩
    rw [text_bytes]

abbrev Value := FieldValue GoString
abbrev Encoder := Value → Except String Json

def integer (n : Int) : Json := .num (JsonNumber.ofInt n)

section
variable (encodeOther : Encoder)

def encodeField : Value → Except String Json
  | .float64 x => match JsonFloat.encodeFloat x with
    | some k => .ok (.num k)
    | none => .error ("json: unsupported value: "++String.ofList (FloatText.formatFloat x))
  | .int64 n => .ok (integer n.toInt)
  | .int n => .ok (integer n.toInt)
  | .int32 n => .ok (integer n.toInt)
  | .uint n => .ok (integer n.toNat)
  | .uint32 n => .ok (integer n.toNat)
  | .uint64 n => .ok (integer n.toNat)
  | .string s => .ok (.str (text s))
  | .bool b => .ok (.bool b)
  | v => encodeOther v

def encodeMembers : List (GoString × Value) → Except String (List (String × Json))
  | [] => .ok []
  | (key,v)::es => match encodeField encodeOther v with
    | .error err => .error err
    | .ok j => match encodeMembers es with
      | .error err => .error err
      | .ok members => .ok ((text key,j)::members)

def metricJson (m : TimedMetric GoString) (fields : List (String × Json)) : Json :=
  .obj [("name",.str (text m.name)),
    ("tags",.obj ((sortedEntries m.tags).map fun t => (text t.1,.str (text t.2)))),("fields",.obj fields),
    ("type",.str (metricTypeString m.metricType)),("timestamp",integer (unixMilli m.timestamp).toInt)]

def encodeMetrics : List (TimedMetric GoString) → Except String (List Json)
  | [] => .ok []
  | m::ms => match encodeMembers encodeOther (sortedEntries m.fields) with
    | .error err => .error err
    | .ok fields => match encodeMetrics ms with
      | .error err => .error err
      | .ok js => .ok (metricJson m fields::js)

def metricsJson : List Json → Json
  | [] => .null
  | js => .arr js

/-- The error of `os.WriteFile`, if there is one, is given. -/
def persistMetrics (writeErr : Option String) (fs : Files String GoString) (metrics : List (TimedMetric GoString))
    (path : String) : Except String (Files String GoString) :=
  match encodeMetrics encodeOther metrics with
  | .error err => .error err
  | .ok js => match writeErr with
    | some err => .error err
    | none => .ok (write fs path (TextLines.encode (metricsJson js).print))

end

/- What `json.Unmarshal` stores: its texts are always UTF-8. -/
structure PersistedMetric where
  name : String
  tags : Option (StringMap String)
  fields : Option (StringMap Value)
  type : String
  timestamp : Int64

/-- What an `any` holds after decoding: a number is a `float64`. -/
def anyValue : Json → Value
  | .null => .other "<nil>"
  | .bool b => .bool b
  | .num n => match FloatText.parseFloat n.text with
    | .ok x => .float64 x
    | .error _ => .other "<nil>"
  | .str s => .string (bytes s)
  | .arr _ => .other "[]interface \x7b\x7d"
  | .obj _ => .other "map[string]interface \x7b\x7d"

def anyField : Decoder Value := fun place j _ =>
  (anyValue j,(badNumber j).map fun n =>
    typeError place ("number "++String.ofList n.text) "float64")

def persistedMetricFields : List (StructField PersistedMetric) :=
  [.of "name" PersistedMetric.name (fun m v => {m with name := v}) GoJson.string,
    .of "tags" PersistedMetric.tags (fun m v => {m with tags := v})
      (mapOf "map[string]string" "" GoJson.string),
    .of "fields" PersistedMetric.fields (fun m v => {m with fields := v})
      (mapOf "map[string]interface \x7b\x7d" (.other "<nil>") anyField),
    .of "type" PersistedMetric.type (fun m v => {m with type := v}) GoJson.string,
    .of "timestamp" PersistedMetric.timestamp (fun m v => {m with timestamp := v})
      (GoJson.int64 "int64")]

def PersistedMetric.zero : PersistedMetric := ⟨"",none,none,"",0⟩
def timeOfUnixMilli (ms : Int64) : Time := (ms.toInt+62135596800000)*1000000

def rekey {V W : Type} (f : V → W) (m : StringMap V) : StringMap W GoString where
  entries := m.entries.map fun e => ⟨bytes e.1,f e.2⟩
  nodupKeys := by
    have hkeys:=List.Nodup.map bytes_injective m.nodupKeys
    rw [keys,List.map_map] at hkeys
    rw [NodupKeys,keys,List.map_map]
    exact hkeys

def PersistedMetric.metric (pm : PersistedMetric) : TimedMetric GoString :=
  ⟨⟨bytes pm.name,rekey bytes (pm.tags.getD ∅),rekey id (pm.fields.getD ∅),
    metricTypeFromString pm.type⟩,timeOfUnixMilli pm.timestamp⟩

inductive LoadError where
  | read (message : String)
  | decode (err : DecodeError)

def decodeMetrics : Decoder (Option (List PersistedMetric)) :=
  slice "[]grpcclient.persistedMetric" .zero
    (GoJson.struct "grpcclient" "persistedMetric" persistedMetricFields)

/-- The error of `os.ReadFile` other than that there is no file is given. -/
def loadMetrics (readErr : Option String) (fs : Files String GoString) (path : String) :
    Except LoadError (List (TimedMetric GoString)) :=
  match readErr with
  | some err => .error (.read err)
  | none => match fs path with
    | none => .error (.read ("open "++path++": no such file or directory"))
    | some data => match unmarshal none decodeMetrics (TextLines.runes data) with
      | .error err => .error (.decode err)
      | .ok persisted => .ok ((persisted.getD []).map PersistedMetric.metric)

def reread : Value → Value
  | .int64 n => .float64 (Float64.ofInt n.toInt)
  | .string s => .string (bytes (text s))
  | v => v
def finite : Value → Bool
  | .float64 x => x.isFinite
  | _ => true
def survives : Value → Prop
  | .float64 x => x.isFinite=true
  | .int64 _ => False
  | .string s => Utf8 s
  | _ => True

theorem survives_iff (v : Value) : survives v ↔ finite v ∧ reread v=v := by
  cases v with
  | float64 x | int64 n => simp [survives,finite,reread]
  | string s => simp [survives,finite,reread,bytes_text_iff]
  | _ => exact iff_of_true trivial ⟨rfl,rfl⟩
theorem anyField_num {k : JsonNumber} {x : Float64} (h : FloatText.parseFloat k.text=.ok x)
    (place : Place) (old : Value) : anyField place (.num k) old=(.float64 x,none) := by
  simp [anyField,anyValue,badNumber,h]

section
variable {encodeOther : Encoder}
  {v : Value} {es : List (GoString × Value)}

theorem encodeField_wire (encodeOther : Encoder)
    (hwire : (fieldToProto v).isSome) (hfinite : finite v) :
    ∃ j, encodeField encodeOther v=.ok j ∧ (∀ place old, anyField place j old=(reread v,none)) ∧
      ∀ limit, j.within limit := by
  cases v with
  | float64 x =>
    obtain ⟨k,hk⟩ : ∃ k, JsonFloat.encodeFloat x=some k := ⟨_,dif_pos hfinite⟩
    have hread:=(JsonFloat.encodeFloat_eq_some hk).2
    exact ⟨.num k,by rw [encodeField,hk],anyField_num hread,fun limit => by simp [Json.within]⟩
  | int64 n =>
    have hlow:=n.le_toInt
    have hhigh:=n.toInt_lt
    have hread:=JsonFloat.parseFloat_ofInt (n := n.toInt) (by omega)
    exact ⟨_,rfl,anyField_num hread,fun limit => by simp [integer,Json.within]⟩
  | string s | bool b => exact ⟨_,rfl,fun _ _ => rfl,fun limit => by simp [Json.within]⟩
  | _ => cases hwire

theorem finite_of_encodeField {j : Json} (h : encodeField encodeOther v=.ok j) : finite v := by
  cases v with
  | float64 x =>
    rw [encodeField] at h
    split at h
    next k hk => exact (JsonFloat.encodeFloat_eq_some hk).1
    next => cases h
  | _ => rfl

def Writable (es : List (GoString × Value)) : Prop :=
  ∀ e∈es, (fieldToProto e.2).isSome ∧ finite e.2

theorem encodeMembers_wire (encodeOther : Encoder) (h : Writable es) : ∃ ms, encodeMembers encodeOther es=.ok ms ∧
      (∀ place, ms.map (fun e => (e.1,anyField place e.2 (.other "<nil>"))) =
        (es.map fun e => (text e.1,reread e.2)).map fun e => (e.1,(e.2,none))) ∧
      ∀ limit, Json.withinMembers ms limit := by
  induction es with
  | nil => exact ⟨[],rfl,fun _ => rfl,fun _ => by rw [Json.withinMembers]⟩
  | cons e es ih =>
    obtain ⟨hv,hes⟩ := forall_mem_cons.mp h
    obtain ⟨j,hj,hread,hdepth⟩ := encodeField_wire encodeOther hv.1 hv.2
    obtain ⟨ms,hms,hreads,hdepths⟩ := ih hes
    refine ⟨(text e.1,j)::ms,?_,fun place => ?_,fun limit => ?_⟩
    · simp only [encodeMembers,hj,hms]
    · rw [map_cons,hread,hreads,map_cons,map_cons]
    · rw [Json.withinMembers,hdepth,hdepths,Bool.and_self]

theorem finite_of_encodeMembers {ms : List (String × Json)}
    (h : encodeMembers encodeOther es=.ok ms) : ∀ e∈es, finite e.2 := by
  induction es generalizing ms with
  | nil => exact fun e he => absurd he not_mem_nil
  | cons e es ih =>
    rw [encodeMembers] at h
    split at h
    next => cases h
    next j hj =>
      split at h
      next => cases h
      next ms' hms => exact forall_mem_cons.mpr ⟨finite_of_encodeField hj,ih hms⟩

end

/-- A map as it is written: its keys are texts. -/
def rewritten {V W : Type} (m : StringMap V GoString) (g : V → W) : StringMap W :=
  ((sortedEntries m).map fun e => (text e.1,g e.2)).foldl (fun t e => t.insert e.1 e.2) ∅

def persisted (m : TimedMetric GoString) : PersistedMetric :=
  ⟨text m.name,some (rewritten m.tags text),some (rewritten m.fields reread),
    metricTypeString m.metricType,unixMilli m.timestamp⟩

variable {m : TimedMetric GoString}
  {k : GoString} {ms : List (String × Json)}

theorem struct_metricJson (hms : ∀ place, ms.map (fun e => (e.1,anyField place e.2 (.other "<nil>"))) =
      ((sortedEntries m.fields).map fun e => (text e.1,reread e.2)).map fun e => (e.1,(e.2,none)))
    (place : Place) :
    GoJson.struct "grpcclient" "persistedMetric" persistedMetricFields place (metricJson m ms) .zero =
      (persisted m,none) := by
  have htags : ∀ place : Place, mapOf "map[string]string" "" GoJson.string place
      (.obj ((sortedEntries m.tags).map fun t => (text t.1,.str (text t.2)))) none =
        ((persisted m).tags,none) := by
    intro place
    refine mapOf_obj ?_
    rw [List.map_map,List.map_map]
    rfl
  have hfields : ∀ place : Place, mapOf "map[string]interface \x7b\x7d" (.other "<nil>")
      anyField place (.obj ms) none=((persisted m).fields,none) :=
    fun place => mapOf_obj (hms place)
  rw [metricJson,GoJson.struct]
  rw [decodeMembers_field ⟨text m.name,none,none,"",0⟩ rfl fun _ => rfl]
  rw [decodeMembers_field ⟨text m.name,(persisted m).tags,none,"",0⟩ rfl fun p => ?_]
  rw [decodeMembers_field ⟨text m.name,(persisted m).tags,(persisted m).fields,"",0⟩ rfl
    fun p => ?_]
  rw [decodeMembers_field ⟨text m.name,(persisted m).tags,(persisted m).fields,
    metricTypeString m.metricType,0⟩ rfl fun _ => rfl]
  rw [decodeMembers_field (persisted m) rfl fun p => ?_]
  · rfl
  · simp only [StructField.of,integer,int64_ofInt]
    rfl
  · simp only [StructField.of,hfields]
  · simp only [StructField.of,htags]

theorem withinMembers_tags (tags : List (GoString × GoString)) (limit : Nat) :
    Json.withinMembers (tags.map fun t => (text t.1,Json.str (text t.2))) limit=true := by
  induction tags with
  | nil => rw [map_nil,Json.withinMembers]
  | cons t tags ih =>
    rw [map_cons,Json.withinMembers,ih]
    simp [Json.within]

theorem within_metricJson (hms : ∀ limit, Json.withinMembers ms limit) (limit : Nat) :
    (metricJson m ms).within (limit+2) := by
  simp [metricJson,integer,Json.within,Json.withinMembers,hms,withinMembers_tags]

section
variable {encodeOther : Encoder} {metrics : List (TimedMetric GoString)}

theorem encodeMetrics_wire (encodeOther : Encoder)
    (h : ∀ m∈metrics, Writable (sortedEntries m.fields)) :
    ∃ js, encodeMetrics encodeOther metrics=.ok js ∧ js.length=metrics.length ∧
      (∀ place, js.map (fun j => GoJson.struct "grpcclient" "persistedMetric" persistedMetricFields
        place j .zero)=(metrics.map persisted).map fun pm => (pm,none)) ∧
      ∀ limit, Json.withinElems js (limit+2) := by
  induction metrics with
  | nil => exact ⟨[],rfl,rfl,fun _ => rfl,fun _ => by rw [Json.withinElems]⟩
  | cons m ms ih =>
    obtain ⟨hm,hms⟩ := forall_mem_cons.mp h
    obtain ⟨fields,hfields,hreads,hdepth⟩ := encodeMembers_wire encodeOther hm
    obtain ⟨js,hjs,hlength,hstructs,hdepths⟩ := ih hms
    refine ⟨metricJson m fields::js,?_,?_,fun place => ?_,fun limit => ?_⟩
    · simp only [encodeMetrics,hfields,hjs]
    · rw [length_cons,length_cons,hlength]
    · rw [map_cons,struct_metricJson hreads,hstructs,map_cons,map_cons]
    · rw [Json.withinElems,within_metricJson hdepth,hdepths,Bool.and_self]

variable {js : List Json}

theorem finite_of_encodeMetrics (h : encodeMetrics encodeOther metrics=.ok js) :
    ∀ m∈metrics, ∀ e∈sortedEntries m.fields, finite e.2 := by
  induction metrics generalizing js with
  | nil => exact fun m hm => absurd hm not_mem_nil
  | cons m ms ih =>
    rw [encodeMetrics] at h
    split at h
    next => cases h
    next fields hfields =>
      split at h
      next => cases h
      next js' hjs => exact forall_mem_cons.mpr ⟨finite_of_encodeMembers hfields,ih hjs⟩

theorem decode_metricsJson (hlength : js.length=metrics.length)
    (hstructs : ∀ place, js.map (fun j => GoJson.struct "grpcclient" "persistedMetric"
      persistedMetricFields place j .zero)=(metrics.map persisted).map fun pm => (pm,none)) :
    ∃ decoded, decodeMetrics ⟨"",[]⟩ (metricsJson js) none=(decoded,none) ∧
      decoded.getD []=metrics.map persisted := by
  cases js with
  | nil =>
    rw [length_eq_zero_iff.mp hlength.symm]
    exact ⟨none,rfl,rfl⟩
  | cons j js => exact ⟨some (metrics.map persisted),slice_arr (hstructs _),rfl⟩

theorem within_metricsJson (h : ∀ limit, Json.withinElems js (limit+2)) :
    (metricsJson js).within maxNestingDepth := by
  cases js with
  | nil => simp [metricsJson,Json.within]
  | cons j js =>
    show Json.within (.arr (j::js)) (9999+1)
    rw [Json.within]
    exact h 9997

theorem load_persisted (encodeOther : Encoder)
    (h : ∀ m∈metrics, Writable (sortedEntries m.fields)) (fs : Files String GoString) (path : String) :
    ∃ fs', persistMetrics encodeOther none fs metrics path=.ok fs' ∧
      loadMetrics none fs' path=.ok (metrics.map fun m => (persisted m).metric) := by
  obtain ⟨js,hjs,hlength,hstructs,hdepths⟩ := encodeMetrics_wire encodeOther h
  obtain ⟨decoded,hdecode,hvalue⟩ := decode_metricsJson hlength hstructs
  have hread:=unmarshal_print (within_metricsJson hdepths) hdecode
  refine ⟨write fs path (TextLines.encode (metricsJson js).print),?_,?_⟩
  · simp only [persistMetrics,hjs]
  · simp only [loadMetrics,FileStore.write_self,TextLines.runes_encode,hread,hvalue,List.map_map]
    rfl

end

structure Same (m m' : TimedMetric GoString) : Prop where
  name : m'.name=m.name
  tags : ∀ k, m'.tags.lookup k=m.tags.lookup k
  fields : ∀ k, m'.fields.lookup k=m.fields.lookup k
  metricType : m'.metricType=m.metricType
  millis : unixMilli m'.timestamp=unixMilli m.timestamp

theorem unixMilli_timeOfUnixMilli (ms : Int64) : unixMilli (timeOfUnixMilli ms)=ms := by
  have hdiv : timeOfUnixMilli ms / 1000000-62135596800000=ms.toInt := by
    change ((ms.toInt+62135596800000)*1000000 : Int) / 1000000-62135596800000=ms.toInt
    omega
  rw [unixMilli,hdiv,Int64.ofInt_toInt]

theorem metricTypeFromString_metricTypeString (t : MetricType) :
    metricTypeFromString (metricTypeString t)=t := by cases t <;> decide

section
variable {V W : Type}

theorem rekey_lookup (f : V → W) (m : StringMap V) (s : String) :
    (rekey f m).lookup (bytes s)=(m.lookup s).map f := by
  refine Option.ext fun w => ?_
  rw [map_eq_some_iff,← mem_def,AList.mem_lookup_iff,rekey,List.mem_map]
  simp only [← mem_def,AList.mem_lookup_iff]
  constructor
  · rintro ⟨⟨t,v⟩,he,hs⟩
    obtain ⟨ht,hw⟩ := Sigma.mk.inj hs
    exact ⟨v,bytes_injective ht ▸ he,eq_of_heq hw⟩
  · rintro ⟨v,he,rfl⟩
    exact ⟨⟨s,v⟩,he,rfl⟩

theorem utf8_of_rekey {f : V → W} {m : StringMap V} {w : W} (h : (rekey f m).lookup k=some w) :
    Utf8 k := by
  have hmem:=AList.mem_lookup_iff.mp (mem_def.mpr h)
  obtain ⟨e,-,he⟩ := List.mem_map.mp hmem
  exact ⟨e.1,(Sigma.mk.inj he).1⟩

variable (m : StringMap V GoString) (g : V → W) {U : Type}

theorem text_inj {s t : GoString} (hs : Utf8 s) (ht : Utf8 t) : text s=text t ↔ s=t := by
  constructor
  · intro h
    rw [← bytes_text_iff.mpr hs,h,bytes_text_iff.mpr ht]
  · exact congrArg text

theorem lookup_map_text (es : List (GoString × V)) (hes : ∀ e∈es, Utf8 e.1) (hk : Utf8 k) :
    (es.map fun e => (text e.1,g e.2)).lookup (text k)=(es.lookup k).map g := by
  induction es with
  | nil => rfl
  | cons e es ih =>
    obtain ⟨he,hrest⟩ := forall_mem_cons.mp hes
    have hbeq : (text k==text e.1)=(k==e.1) := by
      rw [Bool.eq_iff_iff,beq_iff_eq,beq_iff_eq,text_inj hk he]
    rw [map_cons,lookup_cons,lookup_cons,ih hrest,hbeq]
    cases k==e.1 <;> rfl

variable {m} in
theorem rewritten_lookup (hkeys : ∀ k v, m.lookup k=some v → Utf8 k) (f : W → U) (k : GoString) :
    (rekey f (rewritten m g)).lookup k=(m.lookup k).map fun v => f (g v) := by
  have hes : ∀ e∈sortedEntries m, Utf8 e.1 :=
    fun e he => hkeys e.1 e.2 (lookup_of_mem_sortedEntries he)
  have hnodup : (((sortedEntries m).map fun e => (text e.1,g e.2)).map Prod.fst).Nodup := by
    have hmap : ((sortedEntries m).map fun e => (text e.1,g e.2)).map Prod.fst =
        ((sortedEntries m).map Prod.fst).map text := by rw [List.map_map,List.map_map]; rfl
    rw [hmap]
    refine (sortedEntries_nodup m).map_on fun s hs t ht h => ?_
    obtain ⟨e,he,rfl⟩ := List.mem_map.mp hs
    obtain ⟨f,hf,rfl⟩ := List.mem_map.mp ht
    exact (text_inj (hes e he) (hes f hf)).mp h
  by_cases hk : Utf8 k
  · obtain ⟨s,rfl⟩ := hk
    have hlookup:=lookup_foldl_insert _ hnodup ∅ s
    have hmap:=lookup_map_text g (sortedEntries m) hes ⟨s,rfl⟩
    rw [text_bytes,sortedEntries_lookup] at hmap
    rw [hmap,AList.lookup_empty,or_none] at hlookup
    rw [rekey_lookup,rewritten,hlookup,Option.map_map]
    rfl
  · cases hv : m.lookup k with
    | some v => exact absurd (hkeys k v hv) hk
    | none =>
      rw [map_none,eq_none_iff_forall_ne_some]
      exact fun w hw => hk (utf8_of_rekey hw)

theorem rewritten_same_iff (f : W → V) : (∀ k, (rekey f (rewritten m g)).lookup k=m.lookup k) ↔
    ∀ k v, m.lookup k=some v → Utf8 k ∧ f (g v)=v := by
  constructor
  · intro h
    have hkeys : ∀ k v, m.lookup k=some v → Utf8 k :=
      fun k v hv => utf8_of_rekey ((h k).trans hv)
    intro k v hv
    have hk:=h k
    rw [rewritten_lookup g hkeys,hv,map_some] at hk
    exact ⟨hkeys k v hv,some.inj hk⟩
  · intro h k
    rw [rewritten_lookup g fun k v hv => (h k v hv).1]
    cases hv : m.lookup k with
    | none => rfl
    | some v => rw [map_some,(h k v hv).2]

end

/-- Every text of the metric is UTF-8, apart from the values of fields. -/
structure Texts (m : TimedMetric GoString) : Prop where
  name : Utf8 m.name
  tags : ∀ k v, m.tags.lookup k=some v → Utf8 k ∧ Utf8 v
  keys : ∀ k v, m.fields.lookup k=some v → Utf8 k

theorem same_persisted_iff (m : TimedMetric GoString) : Same m (persisted m).metric ↔
    Texts m ∧ ∀ k v, m.fields.lookup k=some v → reread v=v := by
  have htags:=rewritten_same_iff m.tags text bytes
  have hfields:=rewritten_same_iff m.fields reread id
  simp only [bytes_text_iff] at htags
  constructor
  · intro h
    have hfield:=hfields.mp h.fields
    exact ⟨⟨bytes_text_iff.mp h.name,htags.mp h.tags,fun k v hv => (hfield k v hv).1⟩,
      fun k v hv => (hfield k v hv).2⟩
  · rintro ⟨ht,h⟩
    exact ⟨bytes_text_iff.mpr ht.name,htags.mpr ht.tags,hfields.mpr fun k v hv => ⟨ht.keys k v hv,h k v hv⟩,
      metricTypeFromString_metricTypeString m.metricType,unixMilli_timeOfUnixMilli _⟩

theorem writable_of_lookup (hwire : ∀ k v, m.fields.lookup k=some v → (fieldToProto v).isSome)
    (hfinite : ∀ k v, m.fields.lookup k=some v → finite v) : Writable (sortedEntries m.fields) := by
  intro e he
  have hlookup:=lookup_of_mem_sortedEntries he
  exact ⟨hwire e.1 e.2 hlookup,hfinite e.1 e.2 hlookup⟩

theorem mem_sortedEntries_of_lookup {v : Value}
    (h : m.fields.lookup k=some v) : (k,v)∈sortedEntries m.fields := by
  refine mem_filterMap.mpr ⟨k,mem_sortedKeys.mpr (by rw [h]; rfl),?_⟩
  rw [h,map_some]

/-- Metrics are persisted and read again as they were exactly if no field is an `int64`, no `float64` is
infinite or a NaN and every text is UTF-8. -/
theorem persist_roundtrip_iff (encodeOther : Encoder)
    (fs : Files String GoString) (path : String) (metrics : List (TimedMetric GoString))
    (hwire : ∀ m∈metrics, ∀ k v, m.fields.lookup k=some v → (fieldToProto v).isSome=true) :
    (∃ fs' loaded, persistMetrics encodeOther none fs metrics path=.ok fs' ∧
      loadMetrics none fs' path=.ok loaded ∧ List.Forall₂ Same metrics loaded) ↔
    ∀ m∈metrics, Texts m ∧ ∀ k v, m.fields.lookup k=some v → survives v := by
  have hsame : List.Forall₂ Same metrics (metrics.map fun m => (persisted m).metric) ↔
      ∀ m∈metrics, Texts m ∧ ∀ k v, m.fields.lookup k=some v → reread v=v := by
    rw [forall₂_map_right_iff,forall₂_same]
    exact forall₂_congr fun m _ => same_persisted_iff m
  constructor
  · rintro ⟨fs',loaded,hpersist,hload,hall⟩
    have hfinite : ∀ m∈metrics, ∀ k v, m.fields.lookup k=some v → finite v=true := by
      intro m hm k v hv
      rw [persistMetrics] at hpersist
      split at hpersist
      next => cases hpersist
      next js hjs => exact finite_of_encodeMetrics hjs m hm (k,v) (mem_sortedEntries_of_lookup hv)
    obtain ⟨fs'',hpersist',hload'⟩ := load_persisted encodeOther
      (fun m hm => writable_of_lookup (hwire m hm) (hfinite m hm)) fs path
    cases hpersist.symm.trans hpersist'
    cases hload.symm.trans hload'
    intro m hm
    obtain ⟨htexts,hreread⟩ := hsame.mp hall m hm
    exact ⟨htexts,fun k v hv => (survives_iff v).mpr ⟨hfinite m hm k v hv,hreread k v hv⟩⟩
  · intro h
    have hfinite : ∀ m∈metrics, ∀ k v, m.fields.lookup k=some v → finite v=true :=
      fun m hm k v hv => ((survives_iff v).mp ((h m hm).2 k v hv)).1
    obtain ⟨fs',hpersist,hload⟩ := load_persisted encodeOther
      (fun m hm => writable_of_lookup (hwire m hm) (hfinite m hm)) fs path
    refine ⟨fs',_,hpersist,hload,hsame.mpr fun m hm => ⟨(h m hm).1,fun k v hv => ?_⟩⟩
    exact ((survives_iff v).mp ((h m hm).2 k v hv)).2

def oneField (v : Value) : TimedMetric GoString :=
  ⟨⟨bytes "mem",(∅ : StringMap GoString GoString).insert (bytes "host") (bytes "a"),
    (∅ : StringMap Value GoString).insert (bytes "used") v,.gauge⟩,
    62135596800*1000000000⟩

theorem lookup_single {V : Type} {key : GoString} {v w : V}
    (h : ((∅ : StringMap V GoString).insert key v).lookup k=some w) : k=key ∧ w=v := by
  by_cases hk : k=key
  · rw [hk,AList.lookup_insert,some.injEq] at h
    exact ⟨hk,h.symm⟩
  · rw [AList.lookup_insert_ne hk,AList.lookup_empty] at h
    cases h

theorem texts_oneField (v : Value) : Texts (oneField v) := by
  refine ⟨⟨_,rfl⟩,fun k w hw => ?_,fun k w hw => ?_⟩
  · obtain ⟨rfl,rfl⟩ := lookup_single hw
    exact ⟨⟨_,rfl⟩,⟨_,rfl⟩⟩
  · obtain ⟨rfl,rfl⟩ := lookup_single hw
    exact ⟨_,rfl⟩

/-- A metric that is written where there are no files. -/
def persistOne (v : Value) : Except String (Files String GoString) :=
  persistMetrics (fun _ => .error "unsupported") none (fun _ => none) [oneField v] "/cache"

theorem sortedEntries_oneField (v : Value) :
    sortedEntries (oneField v).fields=[(bytes "used",v)] := rfl

theorem persist_roundtrip_text :
    ∃ fs' loaded, persistOne (.string (bytes "a"))=.ok fs' ∧ loadMetrics none fs' "/cache" = .ok loaded ∧
      List.Forall₂ Same [oneField (.string (bytes "a"))] loaded := by
  refine (persist_roundtrip_iff (fun _ => .error "unsupported") (fun _ => none) "/cache"
    [oneField (.string (bytes "a"))] ?_).mpr ?_
  · intro m hm k v hv
    rw [mem_singleton.mp hm] at hv
    rw [(lookup_single hv).2]
    rfl
  · intro m hm
    rw [mem_singleton.mp hm]
    refine ⟨texts_oneField _,fun k v hv => ?_⟩
    rw [(lookup_single hv).2]
    exact ⟨_,rfl⟩

/-- The `int64` 2^53 + 1 comes back as the `float64` 2^53, a NaN is not written at all, and the byte
255 comes back as U+FFFD. -/
theorem persist_changes_integer :
    (∃ fs' loaded, persistOne (.int64 9007199254740993)=.ok fs' ∧ loadMetrics none fs' "/cache" = .ok loaded ∧
      loaded.map (fun m => m.fields.lookup (bytes "used"))=[some (.float64 ⟨0x4340000000000000#64⟩)]) ∧
    persistOne (.float64 Float64.nan)=.error "json: unsupported value: NaN" ∧
    (∃ fs' loaded, persistOne (.string [255])=.ok fs' ∧ loadMetrics none fs' "/cache" = .ok loaded ∧
      loaded.map (fun m => m.fields.lookup (bytes "used"))=[some (.string [0xEF,0xBF,0xBD])]) := by
  have hload : ∀ v, (fieldToProto v).isSome → finite v → ∃ fs' loaded,
      persistOne v=.ok fs' ∧ loadMetrics none fs' "/cache" = .ok loaded ∧
      loaded.map (fun m => m.fields.lookup (bytes "used"))=[some (reread v)] := by
    intro v hwire hfinite
    have hwritable : ∀ m∈[oneField v], Writable (sortedEntries m.fields) := by
      intro m hm
      rw [mem_singleton.mp hm]
      refine writable_of_lookup (fun k w hw => ?_) fun k w hw => ?_
      · rwa [(lookup_single hw).2]
      · rwa [(lookup_single hw).2]
    obtain ⟨fs',hpersist,hload⟩ := load_persisted (fun _ => .error "unsupported")
      hwritable (fun _ => none) "/cache"
    have hfield:=rewritten_lookup reread (texts_oneField v).keys id (bytes "used")
    refine ⟨fs',_,hpersist,hload,?_⟩
    rw [map_cons,map_nil,map_cons,map_nil]
    exact congrArg (fun x => [x]) (hfield.trans (by rw [oneField,AList.lookup_insert]; rfl))
  have hnumber : Float64.ofInt (9007199254740993 : Int64).toInt=⟨0x4340000000000000#64⟩ := by
    decide +kernel
  have hnan : JsonFloat.encodeFloat Float64.nan=none := dif_neg (by decide)
  have hbyte : bytes (text [255])=[0xEF,0xBF,0xBD] := by decide +kernel
  refine ⟨?_,?_,?_⟩
  · have hint:=hload (.int64 9007199254740993) rfl rfl
    rwa [reread,hnumber] at hint
  · simp only [persistOne,persistMetrics,encodeMetrics,sortedEntries_oneField,encodeMembers,encodeField,hnan]
    rfl
  · have hstring:=hload (.string [255]) rfl rfl
    rwa [reread,hbyte] at hstring

end OpsAgent.GrpcClient
