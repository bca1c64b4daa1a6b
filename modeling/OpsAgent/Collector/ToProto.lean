import OpsAgent.Collector.Metric

/-!
# Metrics on the wire (`collector/metric.go`, `collector/util.go`, `inputs/snmp/snmp.go`)

The value of a field is a `oneof` that may be unset.
-/

namespace OpsAgent.Collector
open Lib.GoTime (Time unixMilli)
open Lib.GoValue (Float64)

def toFloat64 : FieldValue → Option Float64
  | .float64 x => some x
  | .float32 x => some (Float64.ofFloat32 x)
  | .int n => some (Float64.ofInt n.toInt)
  | .int32 n => some (Float64.ofInt n.toInt)
  | .int64 n => some (Float64.ofInt n.toInt)
  | .uint n => some (Float64.ofInt n.toNat)
  | .uint32 n => some (Float64.ofInt n.toNat)
  | .uint64 n => some (Float64.ofInt n.toNat)
  | _ => none

/- The `oneof value` of `pb.Field`. -/
inductive PbValue (S : Type := String) where
  | doubleValue (x : Float64)
  | intValue (n : Int64)
  | stringValue (s : S)
  | boolValue (b : Bool)

structure PbField where
  key : String
  value : Option PbValue

structure PbMetric where
  name : String
  tags : StringMap String
  fields : List PbField
  timestampMs : Int64
  type : MetricType

def fieldToProto {S : Type} : FieldValue S → Option (PbValue S)
  | .float64 val => some (.doubleValue val)
  | .int64 val => some (.intValue val)
  | .string val => some (.stringValue val)
  | .bool val => some (.boolValue val)
  | _ => none

def TimedMetric.toProto (m : TimedMetric) : PbMetric where
  name := m.name
  tags := m.tags
  fields := m.fields.entries.map fun e => ⟨e.1,fieldToProto e.2⟩
  timestampMs := unixMilli m.timestamp
  type := m.metricType

def PbValue.number : PbValue → Option Float64
  | .doubleValue x => some x
  | .intValue n => some (Float64.ofInt n.toInt)
  | _ => none
def PbMetric.field? (p : PbMetric) (key : String) : Option PbField :=
  p.fields.find? fun f => f.key=key
def PbMetric.number (p : PbMetric) (key : String) : Option Float64 :=
  ((p.field? key).bind PbField.value).bind PbValue.number

theorem find?_map_fields (es : List (Sigma fun _ : String => FieldValue)) (key : String) :
    (es.map fun e => PbField.mk e.1 (fieldToProto e.2)).find? (fun f => f.key=key) =
      (es.dlookup key).map fun v => ⟨key,fieldToProto v⟩ := by
  induction es with
  | nil => rfl
  | cons e es ih =>
    obtain ⟨k,v⟩ := e
    by_cases hk : k=key
    · subst hk
      simp
    · rw [List.map_cons,List.find?_cons_of_neg (by simpa using hk),ih,
        List.dlookup_cons_ne es ⟨k,v⟩ (Ne.symm hk)]

variable {v : FieldValue}
  {key : String}
  {m : TimedMetric} {x : Float64}

theorem TimedMetric.toProto_field?
    (h : m.fields.lookup key=some v) : m.toProto.field? key=some ⟨key,fieldToProto v⟩ := by
  have hlook : m.fields.entries.dlookup key=some v := h
  rw [PbMetric.field?,toProto,find?_map_fields,hlook]
  rfl

/- The two numeric types that the switch of `ToProto` has a case for. -/
def FieldValue.isWide : FieldValue → Bool
  | .float64 _ => true
  | .int64 _ => true
  | _ => false

theorem fieldToProto_wide (h : v.isWide) : (fieldToProto v).bind PbValue.number=toFloat64 v := by
  cases v with
  | float64 y | int64 n => rfl
  | _ => cases h

theorem fieldToProto_narrow (hx : toFloat64 v=some x) (h : v.isWide=false) : fieldToProto v=none := by
  cases v with
  | float64 y | int64 n => cases h
  | string s | bool b => cases hx
  | _ => rfl

/-- A number arrives if its type is `float64` or `int64`, and arrives empty otherwise. -/
theorem TimedMetric.toProto_number_iff (m : TimedMetric) (key : String) (v : FieldValue) (x : Float64)
    (hv : m.fields.lookup key=some v) (hx : toFloat64 v=some x) :
    (m.toProto.number key=some x ↔ v.isWide=true) ∧
      (v.isWide=false → m.toProto.field? key=some ⟨key,none⟩) := by
  have hfield:=m.toProto_field? hv
  have hempty : v.isWide=false → m.toProto.field? key=some ⟨key,none⟩ := by
    intro hn
    rw [hfield,fieldToProto_narrow hx hn]
  refine ⟨⟨fun h => ?_,fun hw => ?_⟩,hempty⟩
  · cases hw : v.isWide with
    | true => rfl
    | false =>
      rw [PbMetric.number,hempty hw] at h
      cases h
  · rw [PbMetric.number,hfield,← hx]
    exact fieldToProto_wide hw

/- A variable of an SNMP reply: its type and a value of the Go type that `snmpValue` asserts. -/
inductive SnmpPdu where
  | octetString (value : String)
  | integer (value : Int64)
  | counter32 (value : UInt64)
  | gauge32 (value : UInt64)
  | timeTicks (value : UInt32)
  | counter64 (value : UInt64)
  | uinteger32 (value : UInt32)
  | objectIdentifier (value : String)
  | other (value : Option FieldValue)

def snmpValue : SnmpPdu → Option FieldValue
  | .octetString s => some (.string s)
  | .integer n => some (.int n)
  | .counter32 n => some (.uint n)
  | .gauge32 n => some (.uint n)
  | .timeTicks n => some (.uint32 n)
  | .counter64 n => some (.uint64 n)
  | .uinteger32 n => some (.uint32 n)
  | .objectIdentifier s => some (.string s)
  | .other value => value

def snmpMetric (agentAddr : String) (now : Time) (pdus : List (String × SnmpPdu)) : Option TimedMetric :=
  let fields:=pdus.foldl (fun (fields : StringMap FieldValue) pdu =>
    match snmpValue pdu.2 with
    | some value => fields.insert pdu.1 value
    | none => fields) ∅
  if fields.keys.length > 0 then
    some ⟨⟨"snmp",(∅ : StringMap String).insert "agent" agentAddr,fields,.gauge⟩,now⟩
  else none

theorem gauge_reading_encoded :
    (⟨⟨"cpu",∅,(∅ : StringMap FieldValue).insert "cores" (.int64 8),.gauge⟩,0⟩ : TimedMetric).toProto.number
      "cores"=some (Float64.ofInt 8) :=
  ((TimedMetric.toProto_number_iff _ "cores" (.int64 8) _ (by decide) rfl).1).mpr rfl
theorem snmp_counter_empty : ∃ m, snmpMetric "10.0.0.1:161" 0 [("ifInOctets",.counter32 42)]=some m ∧
      (m.fields.lookup "ifInOctets").bind toFloat64=some (Float64.ofInt 42) ∧
      m.toProto.fields=[⟨"ifInOctets",none⟩] ∧ m.toProto.number "ifInOctets"=none :=
  ⟨_,rfl,rfl,rfl,rfl⟩

end OpsAgent.Collector
