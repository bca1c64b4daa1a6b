import OpsAgent.Lib.GoJson
import OpsAgent.Lib.RustText
import OpsAgent.PluginRuntime.Chunking

/-!
# The messages between the plugin gateway and a plugin

Sources: `pluginruntime/types.go`, `sdk/plugin/protocol.go`, `sdk/opsagent-plugin/src/protocol.rs`.
-/

namespace OpsAgent.PluginRuntime
open Lib GoJson
open Lib.GoJson (StringMap StructField)

def number (n : Int) : Json := .num (JsonNumber.ofInt n)
def mapMembers (m : StringMap) : List (String × Json) :=
  (m.entries.map fun e => (e.1,e.2)).mergeSort fun a b => decide (a.1≤b.1)
def mapJson : Option StringMap → Json
  | none => .null
  | some m => .obj (mapMembers m)
def line (j : Json) : List Char := j.print++['\n']

structure TaskRequest where
  (taskID type : String)
  deadlineMS : Int64
  payload : Option StringMap
  chunking : ChunkingRequest

def TaskRequest.json (r : TaskRequest) : Json :=
  .obj [("task_id",.str r.taskID),("type",.str r.type),
    ("deadline_ms",number r.deadlineMS.toInt),("payload",mapJson r.payload),
    ("chunking",.obj [("enabled",.bool r.chunking.enabled),
      ("max_chunk_bytes",number r.chunking.maxChunkBytes),
      ("max_total_bytes",number r.chunking.maxTotalBytes)])]

def TaskRequest.line (r : TaskRequest) : List Char :=
  PluginRuntime.line (.obj [("id",.str r.taskID),("method",.str "execute_task"),
    ("params",r.json)])

structure ResponseChunk where
  seq : Int64
  eof : Bool
  dataB64 : String

structure TaskStats where
  (durationMS cpuMS memPeakBytes : Int64)

structure TaskResponse where
  (taskID status error : String)
  summary : Option StringMap
  chunks : Option (List ResponseChunk)
  stats : TaskStats

structure RpcError where
  code : Int64
  message : String

structure RpcResponse where
  id : Option Json
  result : Option TaskResponse
  error : Option RpcError

def responseChunkFields : List (StructField ResponseChunk) :=
  [.of "seq" (·.seq) (fun c x => {c with seq := x}) (GoJson.int64 "int"),
   .of "eof" (·.eof) (fun c x => {c with eof := x}) GoJson.bool,
   .of "data_b64" (·.dataB64) (fun c x => {c with dataB64 := x}) GoJson.string]

def taskStatsFields : List (StructField TaskStats) :=
  [.of "duration_ms" (·.durationMS) (fun t x => {t with durationMS := x}) (GoJson.int64 "int64"),
   .of "cpu_ms" (·.cpuMS) (fun t x => {t with cpuMS := x}) (GoJson.int64 "int64"),
   .of "mem_peak_bytes" (·.memPeakBytes) (fun t x => {t with memPeakBytes := x})
     (GoJson.int64 "int64")]

def taskResponseFields : List (StructField TaskResponse) :=
  [.of "task_id" (·.taskID) (fun t x => {t with taskID := x}) GoJson.string,
   .of "status" (·.status) (fun t x => {t with status := x}) GoJson.string,
   .of "error" (·.error) (fun t x => {t with error := x}) GoJson.string,
   .of "summary" (·.summary) (fun t x => {t with summary := x}) GoJson.map,
   .of "chunks" (·.chunks) (fun t x => {t with chunks := x})
     (GoJson.slice "[]pluginruntime.Chunk" ⟨0,false,""⟩
       (GoJson.struct "pluginruntime" "Chunk" responseChunkFields)),
   .of "stats" (·.stats) (fun t x => {t with stats := x})
     (GoJson.struct "pluginruntime" "TaskStats" taskStatsFields)]

def TaskResponse.zero : TaskResponse := ⟨"","","",none,none,⟨0,0,0⟩⟩
def rpcErrorFields : List (StructField RpcError) :=
  [.of "code" (·.code) (fun e x => {e with code := x}) (GoJson.int64 "int"),
   .of "message" (·.message) (fun e x => {e with message := x}) GoJson.string]

def rpcResponseFields : List (StructField RpcResponse) :=
  [.of "id" (·.id) (fun r x => {r with id := x}) GoJson.any,
   .of "result" (·.result) (fun r x => {r with result := x})
     (GoJson.pointer .zero (GoJson.struct "pluginruntime" "TaskResponse" taskResponseFields)),
   .of "error" (·.error) (fun r x => {r with error := x})
     (GoJson.pointer ⟨0,""⟩ (GoJson.struct "pluginruntime" "rpcError" rpcErrorFields))]

def decodeResponse (line : List Char) : Except GoJson.DecodeError RpcResponse :=
  GoJson.unmarshal ⟨none,none,none⟩ (GoJson.struct "pluginruntime" "rpcResponse" rpcResponseFields)
    line

inductive CallError where
  | decode (err : GoJson.DecodeError)
  | rpc (code : Int64) (message : String)
  | empty

def pingResult (line : List Char) : Except CallError Unit :=
  match decodeResponse line with
  | .error err => .error (.decode err)
  | .ok resp => match resp.error with
    | some e => .error (.rpc e.code e.message)
    | none => .ok ()

def executeResult (line : List Char) : Except CallError TaskResponse :=
  match decodeResponse line with
  | .error err => .error (.decode err)
  | .ok resp => match resp.error with
    | some e => .error (.rpc e.code e.message)
    | none => match resp.result with
      | none => .error .empty
      | some result => .ok result

namespace GoSdk

structure TaskRequest where
  (taskID taskType : String)
  params : Option StringMap
  deadline : Int64

structure RpcRequest where
  id : Option Json
  method : String
  params : TaskRequest

def taskRequestFields : List (StructField TaskRequest) :=
  [.of "task_id" (·.taskID) (fun t x => {t with taskID := x}) GoJson.string,
   .of "task_type" (·.taskType) (fun t x => {t with taskType := x}) GoJson.string,
   .of "params" (·.params) (fun t x => {t with params := x}) GoJson.map,
   .of "deadline_ms" (·.deadline) (fun t x => {t with deadline := x}) (GoJson.int64 "int64")]

def rpcRequestFields : List (StructField RpcRequest) :=
  [.of "id" (·.id) (fun r x => {r with id := x}) GoJson.any,
   .of "method" (·.method) (fun r x => {r with method := x}) GoJson.string,
   .of "params" (·.params) (fun r x => {r with params := x})
     (GoJson.struct "plugin" "TaskRequest" taskRequestFields)]

def decodeRequest (line : List Char) : Except GoJson.DecodeError RpcRequest :=
  GoJson.unmarshal ⟨none,"",⟨"","",none,0⟩⟩
    (GoJson.struct "plugin" "rpcRequest" rpcRequestFields) line

structure TaskResponse where
  (taskID status : String)
  data : Option Json
  error : String

/-- The fields tagged `omitzero` are left out when they are nil or empty. -/
def TaskResponse.json (r : TaskResponse) : Json :=
  .obj ([("task_id",.str r.taskID),("status",.str r.status)] ++
    (r.data.map fun d => ("data",d)).toList ++
    (if r.error="" then [] else [("error",.str r.error)]))

/-- What `handleConnection` writes with `writeResult`. The identifier is that of the
request, which is a string. -/
inductive Reply where
  | ping (id : String)
  | task (id : String) (resp : TaskResponse)

def Reply.result : Reply → Json
  | .ping _ => .str "pong"
  | .task _ resp => resp.json
def Reply.id : Reply → String
  | .ping id => id
  | .task id _ => id
def Reply.line (r : Reply) : List Char :=
  PluginRuntime.line (.obj [("id",.str r.id),("result",r.result)])

end GoSdk

namespace RustSdk

structure TaskRequest where
  (taskId taskType : String)
  params : Json
  deadlineMs : Int64

structure RpcRequest where
  id : Int64
  method : String
  params : TaskRequest

/-- `fromStr` is `serde_json::from_str`, which is given the trimmed line. -/
def decodeRequest (fromStr : List Char → Except String RpcRequest) (line : List Char) :
    Except String RpcRequest :=
  fromStr (RustText.trim line)

/-- A reader of requests that do not need their parameters. -/
def readRequest (text : List Char) : Except String RpcRequest :=
  match Json.parse text.length text with
  | some (.obj members) => match members.lookup "id", members.lookup "method" with
    | some (.num n), some (.str method) => match n.toInt? with
      | some v => .ok ⟨Int64.ofInt v,method,⟨"","",.null,0⟩⟩
      | none => .error "invalid type: floating point, expected i64"
    | _, _ => .error "invalid type, expected i64"
  | _ => .error "expected value"

end RustSdk

theorem parse_line (j : Json) (limit : Nat) :
    Json.parse limit (line j) = if j.within limit then some j else none :=
  Json.parse_print j limit rfl fun c hc => by
    cases hc
    rfl

theorem unmarshal_line {α : Type} {zero v : α} {d : GoJson.Decoder α} {j : Json}
    (hd : d ⟨"",[]⟩ j zero=(v,none)) : GoJson.unmarshal zero d (line j) =
      if j.within GoJson.maxNestingDepth then .ok v else .error .syntaxError := by
  rw [GoJson.unmarshal,parse_line]
  by_cases hdeep : j.within GoJson.maxNestingDepth
  · simp only [if_pos hdeep,hd]
  · simp only [if_neg hdeep]

theorem int64_number (type : String) (place : GoJson.Place) (n old : Int64) :
    GoJson.int64 type place (number n.toInt) old=(n,none) := int64_ofInt type place n old

variable (r : TaskRequest) (id : String)

theorem struct_taskRequest (place : GoJson.Place) :
    GoJson.struct "plugin" "TaskRequest" GoSdk.taskRequestFields place r.json ⟨"","",none,0⟩ =
      (⟨r.taskID,"",none,r.deadlineMS⟩,none) := by
  rw [TaskRequest.json,GoJson.struct]
  rw [decodeMembers_field ⟨r.taskID,"",none,0⟩ rfl fun _ => rfl,
    decodeMembers_skip rfl]
  rw [decodeMembers_field ⟨r.taskID,"",none,r.deadlineMS⟩ rfl fun p => ?_,
    decodeMembers_skip rfl,decodeMembers_skip rfl]
  · rfl
  · simp only [GoJson.StructField.of,int64_number]

theorem struct_rpcRequest : GoJson.struct "plugin" "rpcRequest" GoSdk.rpcRequestFields ⟨"",[]⟩
        (.obj [("id",.str r.taskID),("method",.str "execute_task"),("params",r.json)])
        ⟨none,"",⟨"","",none,0⟩⟩ =
      (⟨some (.str r.taskID),"execute_task",⟨r.taskID,"",none,r.deadlineMS⟩⟩,none) := by
  rw [GoJson.struct]
  rw [decodeMembers_field ⟨some (.str r.taskID),"",⟨"","",none,0⟩⟩ rfl
      fun _ => rfl,
    decodeMembers_field ⟨some (.str r.taskID),"execute_task",⟨"","",none,0⟩⟩ rfl
      fun _ => rfl]
  rw [decodeMembers_field
    ⟨some (.str r.taskID),"execute_task",⟨r.taskID,"",none,r.deadlineMS⟩⟩ rfl
    fun p => ?_]
  · rfl
  · simp only [GoJson.StructField.of,struct_taskRequest]

theorem goSdk_decodeRequest {req : GoSdk.RpcRequest}
    (h : GoSdk.decodeRequest r.line=.ok req) : req.params=⟨r.taskID,"",none,r.deadlineMS⟩ := by
  rw [GoSdk.decodeRequest,TaskRequest.line,unmarshal_line (struct_rpcRequest r)] at h
  split at h
  next =>
    cases h
    rfl
  next => cases h

theorem trim_line (members : List (String × Json)) :
    RustText.trim (line (.obj members))=(Json.obj members).print := by
  rw [line,RustText.trim_blank (by decide),Json.print]
  exact RustText.trim_enclosed (by decide) (by decide) _

section
variable (fromStr : List Char → Except String RustSdk.RpcRequest)

def Preserved (r : TaskRequest) : Prop :=
  (∃ req, GoSdk.decodeRequest r.line=.ok req ∧ req.params.taskID=r.taskID ∧
    req.params.taskType=r.type ∧ req.params.params=r.payload ∧
    req.params.deadline=r.deadlineMS) ∧
  (∃ req, RustSdk.decodeRequest fromStr r.line=.ok req ∧ req.params.taskId=r.taskID ∧
    req.params.taskType=r.type ∧ req.params.params=mapJson r.payload ∧
    req.params.deadlineMs=r.deadlineMS)

/-- A string is not taken for the field `id`, which is an `i64`. -/
def RefusesStringId : Prop :=
  ∀ members s, members.lookup "id"=some (.str s) → ∀ req, fromStr (Json.obj members).print ≠ .ok req

theorem rustSdk_decodeRequest (h : RefusesStringId fromStr) (req : RustSdk.RpcRequest) :
    RustSdk.decodeRequest fromStr r.line ≠ .ok req := by
  rw [RustSdk.decodeRequest,TaskRequest.line,trim_line]
  exact h _ r.taskID rfl req

end

/-- The library for Rust refuses every request, and the one for Go drops its type and payload. -/
theorem request_never_preserved (fromStr : List Char → Except String RustSdk.RpcRequest)
    (h : RefusesStringId fromStr) (r : TaskRequest) :
    (∀ req, RustSdk.decodeRequest fromStr r.line ≠ .ok req) ∧
    (∀ req, GoSdk.decodeRequest r.line=.ok req → req.params=⟨r.taskID,"",none,r.deadlineMS⟩) ∧
    ¬ Preserved fromStr r := by
  refine ⟨rustSdk_decodeRequest r fromStr h,fun req => goSdk_decodeRequest r,?_⟩
  rintro ⟨-,req,hreq,-⟩
  exact rustSdk_decodeRequest r fromStr h req hreq

theorem readRequest_refusesStringId : RefusesStringId RustSdk.readRequest := by
  intro members s hid req
  have hparse:=@Json.parse_print [] (.obj members) (Json.obj members).print.length rfl
    fun c hc => by cases hc
  rw [List.append_nil] at hparse
  rw [RustSdk.readRequest,hparse]
  by_cases hwithin : (Json.obj members).within (Json.obj members).print.length
  · simp [if_pos hwithin,hid]
  · simp [if_neg hwithin]

def echoRequest : TaskRequest := ⟨"t1","echo",5000,none,⟨false,0,0⟩⟩

theorem echoRequest_never_preserved : RefusesStringId RustSdk.readRequest ∧
    (∀ req, RustSdk.decodeRequest RustSdk.readRequest echoRequest.line ≠ .ok req) ∧
    (∀ req, GoSdk.decodeRequest echoRequest.line=.ok req → req.params=⟨"t1","",none,5000⟩) := by
  obtain ⟨hrust,hgo,-⟩ := request_never_preserved _ readRequest_refusesStringId echoRequest
  exact ⟨readRequest_refusesStringId,hrust,hgo⟩

theorem echoRequest_not_preserved : ¬ Preserved RustSdk.readRequest echoRequest ∧
      (GoSdk.decodeRequest echoRequest.line).toOption.map
        (fun req => (req.params.taskID,req.params.taskType,req.params.deadline)) =
        some ("t1","",5000) := by
  refine ⟨?_,by decide +kernel⟩
  rintro ⟨-,req,hreq,-⟩
  exact rustSdk_decodeRequest echoRequest _ readRequest_refusesStringId req hreq

def TaskResponse.data (r : TaskResponse) : Option Json := r.summary.map fun m => .obj (mapMembers m)
def Delivered : GoSdk.Reply → Prop
  | .ping id => pingResult (GoSdk.Reply.ping id).line=.ok ()
  | .task id resp => ∃ out, executeResult (GoSdk.Reply.task id resp).line=.ok out ∧
      out.taskID=resp.taskID ∧ out.status=resp.status ∧ out.data=resp.data

variable (resp : GoSdk.TaskResponse)

theorem struct_taskResponse (place : GoJson.Place) :
    GoJson.struct "pluginruntime" "TaskResponse" taskResponseFields place resp.json .zero =
      (⟨resp.taskID,resp.status,resp.error,none,none,⟨0,0,0⟩⟩,none) := by
  obtain ⟨taskID,status,data,error⟩ := resp
  by_cases herr : error=""
  · subst herr
    cases data <;> rfl
  · simp only [GoSdk.TaskResponse.json,if_neg herr]
    cases data <;> rfl

theorem decodeResponse_ping : decodeResponse (GoSdk.Reply.ping id).line=.error (.type
      ("json: cannot unmarshal string into Go struct field rpcResponse.result of type " ++
        "pluginruntime.TaskResponse")) := by
  rw [decodeResponse,GoJson.unmarshal,GoSdk.Reply.line,parse_line]
  rfl

theorem struct_rpcResponse : GoJson.struct "pluginruntime" "rpcResponse" rpcResponseFields ⟨"",[]⟩
        (.obj [("id",.str id),("result",resp.json)]) ⟨none,none,none⟩ =
      (⟨some (.str id),some ⟨resp.taskID,resp.status,resp.error,none,none,⟨0,0,0⟩⟩,none⟩, none) := by
  rw [GoJson.struct]
  rw [decodeMembers_field ⟨some (.str id),none,none⟩ rfl fun _ => rfl]
  rw [decodeMembers_field ⟨some (.str id),
    some ⟨resp.taskID,resp.status,resp.error,none,none,⟨0,0,0⟩⟩,none⟩ rfl fun p => ?_]
  · rfl
  · have hresult:=struct_taskResponse resp p
    rw [GoSdk.TaskResponse.json] at hresult ⊢
    simp only [GoJson.StructField.of,GoJson.pointer,Option.getD_none,hresult]

theorem decodeResponse_task : decodeResponse (GoSdk.Reply.task id resp).line =
      if (Json.obj [("id",.str id),("result",resp.json)]).within GoJson.maxNestingDepth then
        .ok ⟨some (.str id), some ⟨resp.taskID,resp.status,resp.error,none,none,⟨0,0,0⟩⟩,none⟩
      else .error .syntaxError :=
  unmarshal_line (struct_rpcResponse id resp)

theorem executeResult_task {id : String} {resp : GoSdk.TaskResponse} {out : TaskResponse}
    (h : executeResult (GoSdk.Reply.task id resp).line=.ok out) :
    out=⟨resp.taskID,resp.status,resp.error,none,none,⟨0,0,0⟩⟩ := by
  rw [executeResult,decodeResponse_task] at h
  by_cases hdeep : (Json.obj [("id",.str id),("result",resp.json)]).within
      GoJson.maxNestingDepth
  · rw [if_pos hdeep] at h
    cases h
    rfl
  · rw [if_neg hdeep] at h
    cases h

theorem executeResult_of_no_data {resp : GoSdk.TaskResponse} (h : resp.data=none) :
    executeResult (GoSdk.Reply.task id resp).line =
      .ok ⟨resp.taskID,resp.status,resp.error,none,none,⟨0,0,0⟩⟩ := by
  have hdeep : (Json.obj [("id",.str id),("result",resp.json)]).within
      GoJson.maxNestingDepth := by
    rw [GoSdk.TaskResponse.json,h]
    by_cases herr : resp.error="" <;>
      simp [herr,GoJson.maxNestingDepth,Json.within,Json.withinMembers]
  rw [executeResult,decodeResponse_task,if_pos hdeep]

/-- The client takes a reply and its data exactly if it answers a task and there
are no data. -/
theorem reply_delivered_iff (r : GoSdk.Reply) :
    Delivered r ↔ ∃ id resp, r=.task id resp ∧ resp.data=none := by
  constructor
  · intro h
    cases r with
    | ping id =>
      simp only [Delivered,pingResult,decodeResponse_ping] at h
      cases h
    | task id resp =>
      obtain ⟨out,hout,-,-,hdata⟩ := h
      rw [executeResult_task hout] at hdata
      exact ⟨id,resp,rfl,hdata.symm⟩
  · rintro ⟨id,resp,rfl,hdata⟩
    exact ⟨_,executeResult_of_no_data id hdata,rfl,rfl,hdata.symm⟩

theorem reply_not_delivered :
    ¬ Delivered (.ping "ping") ∧ ¬ Delivered (.task "t1" ⟨"t1","ok",some (.bool true),""⟩) := by
  constructor
  · intro h
    simp only [Delivered,pingResult,decodeResponse_ping] at h
    cases h
  · rintro ⟨out,hout,-,-,hdata⟩
    rw [executeResult_task hout] at hdata
    cases hdata

end OpsAgent.PluginRuntime
