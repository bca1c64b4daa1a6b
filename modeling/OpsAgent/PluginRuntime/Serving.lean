import OpsAgent.Lib.JsonFloat
import OpsAgent.Lib.TextLines
import OpsAgent.PluginRuntime.Protocol

/-!
# One connection to a plugin

`handleConnection` of `sdk/plugin/serve.go` and `handle_connection` of `sdk/opsagent-plugin/src/lib.rs`.
Input and output are bytes. The results of a handler may depend on anything, so they are indexed by the
lines.
-/

namespace OpsAgent.PluginRuntime
open Lib List Option JsonFloat TextLines
open Lib.GoStrings (GoString whiteSpace)
open Lib.TextLines (encode frame)

def resultResponse (id result : Json) : Json := .obj [("id",id),("result",result)]
def errorResponse (id : Json) (code : Int) (message : String) : Json :=
  .obj [("id",id),("error",.obj [("code",number code),("message",.str message)])]

namespace GoSdk

/-- What a call of `Execute` ends with. A response that is nil is encoded as a null. -/
inductive Execution where
  | failed (message : String)
  | returned (resp : Option TaskResponse)
  | unencodable

mutual

/-- The encoding of what an `any` was decoded into: numbers are of type `float64`, and the
last one of several members with a name is kept. -/
def encodeAny : Json → Option Json
  | .null => some .null
  | .bool b => some (.bool b)
  | .str s => some (.str s)
  | .num n => match FloatText.parseFloat n.text with
    | .ok x => (JsonFloat.encodeFloat x).map .num
    | .error _ => none
  | .arr elems => (encodeElems elems).map .arr
  | .obj members => (encodeMembers members).map fun ms =>
      .obj (mapMembers (ms.foldl (fun m e => m.insert e.1 e.2) ∅))

def encodeElems : List Json → Option (List Json)
  | [] => some []
  | j::js => do
    let j ← encodeAny j
    let js ← encodeElems js
    some (j::js)

def encodeMembers : List (String × Json) → Option (List (String × Json))
  | [] => some []
  | (key,j)::ms => do
    let j ← encodeAny j
    let ms ← encodeMembers ms
    some ((key,j)::ms)

end

def encodeID : Option Json → Option Json
  | none => some .null
  | some id => encodeAny id
def writeJSON (v : Option Json) : GoString :=
  match v with
  | some j => encode (line j)
  | none => []

def writeResult (id result : Option Json) : GoString :=
  writeJSON (do
    let id ← id
    let result ← result
    some (resultResponse id result))

def writeError (id : Option Json) (code : Int) (msg : String) : GoString :=
  writeJSON (id.map fun id => errorResponse id code msg)

/-- `err.Error()`. The texts of syntax errors are not modelled. -/
def errorText (syntaxText : List Char → String) (text : List Char) : GoJson.DecodeError → String
  | .syntaxError => syntaxText text
  | .type message => message

def respond (execute : TaskRequest → Execution) (req : RpcRequest) : GoString :=
  if req.method="ping" then writeResult (encodeID req.id) (some (.str "pong"))
  else if req.method="execute_task" then
    match execute req.params with
    | .failed message => writeError (encodeID req.id) (-32000) message
    | .returned resp => writeResult (encodeID req.id) (some ((resp.map TaskResponse.json).getD .null))
    | .unencodable => writeResult (encodeID req.id) none
  else writeError (encodeID req.id) (-32601) ("method not found: "++req.method)

def handleLine (syntaxText : List Char → String) (execute : TaskRequest → Execution) (bs : GoString) :
    GoString :=
  if bs=[] then []
  else match decodeRequest (TextLines.runes bs) with
    | .error err =>
      writeError (some (number 0)) (-32700)
        ("parse error: "++errorText syntaxText (TextLines.runes bs) err)
    | .ok req => respond execute req

def handleConnection (syntaxText : List Char → String) (execute : Nat → TaskRequest → Execution)
    (input : GoString) : GoString :=
  ((LineScanner.scan (1024*1024) input).lines.zipIdx).flatMap fun l =>
    handleLine syntaxText (execute l.2) l.1

end GoSdk

namespace RustSdk
open List Option JsonFloat TextLines

structure TaskResponse where
  (taskId status : String)
  data : Option Json
  error : Option String

/-- The crate `serde_json`. The text of a value is compact: it has no line feed. -/
structure Serde where
  fromStr : List Char → Except String RpcRequest
  toValue : TaskResponse → Except String Json
  toVec : Json → Option (List Char)
  toVec_text : ∀ j, ∃ text, toVec j=some text ∧ '\n' ∉ text ∧ Json.Reads text j

/-- The errors of a plugin, with the texts of the errors of other crates. -/
inductive PluginError where
  | config (msg : String)
  | execution (msg : String)
  | io (text : String)
  | json (text : String)

structure RpcResponse where
  id : Int64
  result : Option Json
  error : Option (Int × String)

namespace RpcResponse

def success (id : Int64) (result : Json) : RpcResponse := ⟨id,some result,none⟩
def failure (id : Int64) (code : Int) (message : String) : RpcResponse := ⟨id,none,some (code,message)⟩
def json (r : RpcResponse) : Json :=
  .obj ([("id",number r.id.toInt)]++(r.result.map fun v => ("result",v)).toList ++
    (r.error.map fun e => ("error",.obj [("code",number e.1),("message",.str e.2)])).toList)
def toJsonLine (serde : Serde) (r : RpcResponse) : GoString :=
  encode ((serde.toVec r.json).getD [])++[10]

end RpcResponse

def dispatchRequest (serde : Serde) (execute : TaskRequest → Except PluginError TaskResponse)
    (req : RpcRequest) : RpcResponse :=
  if req.method="ping" then .success req.id (.str "pong")
  else if req.method="execute_task" then
    match execute req.params with
    | .ok resp => match serde.toValue resp with
      | .ok val => .success req.id val
      | .error e => .failure req.id (-32603) ("serialize error: "++e)
    | .error (.config msg) => .failure req.id (-32602) msg
    | .error (.execution msg) => .failure req.id (-32000) msg
    | .error (.io e) => .failure req.id (-32603) ("IO error: "++e)
    | .error (.json e) => .failure req.id (-32700) ("JSON error: "++e)
  else .failure req.id (-32601) ("method not found: "++req.method)

def handleText (serde : Serde) (execute : TaskRequest → Except PluginError TaskResponse)
    (text : List Char) : GoString :=
  if RustText.trim text=[] then []
  else
    let response := match serde.fromStr (RustText.trim text) with
      | .ok req => dispatchRequest serde execute req
      | .error e => .failure 0 (-32700) ("parse error: "++e)
    response.toJsonLine serde

/-- The loop; `read_line` fails at a line that is not UTF-8, which ends the connection. -/
def handleLines (serde : Serde) (execute : Nat → TaskRequest → Except PluginError TaskResponse) :
    Nat → List GoString → GoString
  | _, [] => []
  | i, bs::lines => match TextLines.decode? bs with
    | none => []
    | some text => handleText serde (execute i) text++handleLines serde execute (i+1) lines

def handleConnection (serde : Serde) (execute : Nat → TaskRequest → Except PluginError TaskResponse)
    (input : GoString) : GoString :=
  handleLines serde execute 0 (TextLines.readLines [] input)

end RustSdk

namespace GoSdk
open List Option JsonFloat TextLines

mutual

theorem encodeAny_of_badNumber {j : Json} (h : GoJson.badNumber j=none) : ∃ j', encodeAny j=some j' := by
  match j with
  | .null => exact ⟨.null,rfl⟩
  | .bool b => exact ⟨.bool b,rfl⟩
  | .str s => exact ⟨.str s,rfl⟩
  | .num n =>
    rw [GoJson.badNumber] at h
    split at h
    next x hx =>
      refine ⟨.num ⟨JsonFloat.floatText x,takeNumber_floatText (isFinite_of_parseFloat hx)⟩,?_⟩
      simp only [encodeAny,hx,JsonFloat.encodeFloat,isFinite_of_parseFloat hx,dif_pos,map_some]
    next => cases h
  | .arr elems =>
    obtain ⟨js,hjs⟩ := encodeElems_of_badElem h
    exact ⟨.arr js,by rw [encodeAny,hjs,map_some]⟩
  | .obj members =>
    obtain ⟨ms,hms⟩ := encodeMembers_of_badMember h
    exact ⟨_,by rw [encodeAny,hms,map_some]⟩

theorem encodeElems_of_badElem {js : List Json} (h : GoJson.badElem js=none) :
    ∃ js', encodeElems js=some js' := by
  match js with
  | [] => exact ⟨[],rfl⟩
  | j::js =>
    rw [GoJson.badElem,or_eq_none_iff] at h
    obtain ⟨j',hj⟩ := encodeAny_of_badNumber h.1
    obtain ⟨js',hjs⟩ := encodeElems_of_badElem h.2
    exact ⟨j' :: js',by simp only [encodeElems,hj,hjs,bind_eq_bind,bind_some]⟩

theorem encodeMembers_of_badMember {ms : List (String × Json)} (h : GoJson.badMember ms=none) :
    ∃ ms', encodeMembers ms=some ms' := by
  match ms with
  | [] => exact ⟨[],rfl⟩
  | (key,j)::ms =>
    rw [GoJson.badMember,or_eq_none_iff] at h
    obtain ⟨j',hj⟩ := encodeAny_of_badNumber h.1
    obtain ⟨ms',hms⟩ := encodeMembers_of_badMember h.2
    exact ⟨(key,j')::ms',by simp only [encodeMembers,hj,hms,bind_eq_bind,bind_some]⟩

end

theorem encodeAny_integer {k : JsonNumber} {n : ℤ} (h : JsonFloat.Denotes k n) (hn : n.natAbs≤2^53) :
    ∃ k', encodeAny (.num k)=some (.num k') ∧ k'.toInt?=some n := by
  obtain ⟨x,hx,hden⟩ := parseFloat_of_denotes h (GoValue.Float64.fits_intCast hn)
  obtain ⟨k',hk,hint⟩ := encodeFloat_of_denotes hden hn
  exact ⟨k',by simp only [encodeAny,hx,hk,map_some],hint⟩

def IdOk (req : RpcRequest) : Prop := ∀ j, req.id=some j → GoJson.badNumber j=none

theorem idOk_field : ∀ f∈rpcRequestFields, ∀ p j old new, IdOk old →
    f.decode p j old=(new,none) → IdOk new := by
  intro f hf p j old new hold h
  simp only [rpcRequestFields,mem_cons,not_mem_nil,or_false] at hf
  rcases hf with rfl | rfl | rfl
  · obtain ⟨rfl,hnone⟩ := Prod.mk.inj h
    exact fun id hid => GoJson.any_badNumber hnone hid
  · obtain ⟨rfl,-⟩ := Prod.mk.inj h
    exact hold
  · obtain ⟨rfl,-⟩ := Prod.mk.inj h
    exact hold

theorem idOk_of_decodeRequest {text : List Char} {req : RpcRequest} (h : decodeRequest text=.ok req) :
    IdOk req := by
  have hzero : IdOk ⟨none,"",⟨"","",none,0⟩⟩ := nofun
  rw [decodeRequest,GoJson.unmarshal] at h
  split at h
  next => cases h
  next j hj =>
    split at h
    next v hv =>
      cases h
      cases j with
      | null =>
        cases hv
        exact hzero
      | obj members => exact GoJson.decodeMembers_invariant idOk_field hv hzero
      | _ => cases hv
    next => cases h

theorem encodeID_of_decodeRequest {text : List Char} {req : RpcRequest} (h : decodeRequest text=.ok req) :
    ∃ id, encodeID req.id=some id := by
  have hok:=idOk_of_decodeRequest h
  cases hid : req.id with
  | none => exact ⟨.null,rfl⟩
  | some j => exact encodeAny_of_badNumber (hok j hid)

end GoSdk

/-- A line that is served: shorter than the buffer of the scanner, and not of white space only. -/
structure Sendable (line : List Char) : Prop where
  newline : '\n' ∉ line
  short : (encode line).length<1024*1024
  visible : line≠[] → ∃ c∈line, c∉whiteSpace

structure Decoding where
  undecodable : List Char → Prop
  integerId : List Char → ℤ → Prop

def Responds (id resp : Json) : Prop :=
  (∃ result, resp=resultResponse id result) ∨ ∃ code message, resp=errorResponse id code message

structure Answers (d : Decoding) (line text : List Char) : Prop where
  newline : '\n' ∉ text
  response : ∃ id resp, Json.Reads text resp ∧ Responds id resp ∧
    (d.undecodable line →
      ∃ message, resp=errorResponse (number 0) (-32700) ("parse error: "++message)) ∧
    ∀ n : ℤ, d.integerId line n → n.natAbs≤2^53 → ∃ k, id=.num k ∧ k.toInt?=some n

def ServesLines (d : Decoding) (run : GoString → GoString) : Prop :=
  ∀ lines, (∀ line∈lines, Sendable line) → ∃ texts, run (frame lines)=frame texts ∧
    List.Forall₂ (Answers d) (lines.filter (· ≠ [])) texts
def ServesLine (d : Decoding) (out : List Char → GoString) : Prop :=
  ∀ line, Sendable line → line≠[] → ∃ text, out line=encode text++[10] ∧ Answers d line text

theorem frame_of_steps {d : Decoding} {out : Nat → List Char → GoString} (hempty : ∀ i, out i []=[])
    (hstep : ∀ i, ServesLine d (out i)) {lines : List (List Char)} (h : ∀ line∈lines, Sendable line)
    (i : Nat) : ∃ texts, ((lines.zipIdx i).flatMap fun l => out l.2 l.1)=frame texts ∧
      List.Forall₂ (Answers d) (lines.filter (· ≠ [])) texts := by
  induction lines generalizing i with
  | nil => exact ⟨[],rfl,.nil⟩
  | cons line lines ih =>
    rw [forall_mem_cons] at h
    obtain ⟨texts,hrun,hans⟩ := ih h.2 (i+1)
    rw [zipIdx_cons,flatMap_cons,hrun]
    by_cases hnil : line=[]
    · subst hnil
      exact ⟨texts,by rw [hempty,nil_append],hans⟩
    · obtain ⟨text,hout,htext⟩ := hstep i line h.1 hnil
      refine ⟨text::texts,?_,?_⟩
      · rw [hout,frame_cons,append_assoc,singleton_append]
      · rw [filter_cons_of_pos (by simpa using hnil)]
        exact .cons htext hans

namespace GoSdk
open List Option JsonFloat TextLines

def decoding : Decoding where
  undecodable line := ∃ err, decodeRequest (RustText.stripCr line)=.error err
  integerId line n := ∃ req k, decodeRequest (RustText.stripCr line)=.ok req ∧
    req.id=some (.num k) ∧ JsonFloat.Denotes k n

theorem integerId_of_toInt? {line : List Char} {req : RpcRequest} {k : JsonNumber} {n : ℤ}
    (hdec : decodeRequest (RustText.stripCr line)=.ok req) (hid : req.id=some (.num k))
    (hk : k.toInt?=some n) : decoding.integerId line n :=
  ⟨req,k,hdec,hid,denotes_of_toInt? hk⟩
theorem writeJSON_some (j : Json) : writeJSON (some j)=encode j.print++[10] := by
  have hnl : encode ['\n']=[10] := by decide
  rw [writeJSON,line,encode_append,hnl]

theorem respond_eq {execute : TaskRequest → Execution} (hex : ∀ req, execute req ≠ .unencodable)
    {req : RpcRequest} {id : Json} (hid : encodeID req.id=some id) :
    ∃ resp, respond execute req=encode resp.print++[10] ∧ Responds id resp := by
  have hresult : ∀ result, writeResult (some id) (some result) =
      encode (resultResponse id result).print++[10] := fun result => writeJSON_some _
  have herror : ∀ code msg, writeError (some id) code msg =
      encode (errorResponse id code msg).print++[10] := fun code msg => writeJSON_some _
  rw [respond,hid]
  split
  next => exact ⟨_,hresult _,.inl ⟨_,rfl⟩⟩
  next =>
    split
    next =>
      split
      next => exact ⟨_,herror _ _,.inr ⟨_,_,rfl⟩⟩
      next => exact ⟨_,hresult _,.inl ⟨_,rfl⟩⟩
      next hun => exact absurd hun (hex req.params)
    next => exact ⟨_,herror _ _,.inr ⟨_,_,rfl⟩⟩

theorem servesLine {syntaxText : List Char → String} {execute : TaskRequest → Execution}
    (hex : ∀ req, execute req ≠ .unencodable) :
    ServesLine decoding fun line => handleLine syntaxText execute (encode (RustText.stripCr line)) := by
  intro line hline hne
  obtain ⟨c,hc,hvisible⟩ := hline.visible hne
  have hstrip : RustText.stripCr line≠[] := by
    refine RustText.stripCr_ne_nil hc ?_
    rintro rfl
    exact hvisible (by decide)
  simp only [handleLine,if_neg (encode_ne_nil hstrip),runes_encode]
  cases hdec : decodeRequest (RustText.stripCr line) with
  | error err =>
    refine ⟨_,writeJSON_some _,Json.newline_notMem_print _,_,_,Json.reads_print _,
      .inr ⟨_,_,rfl⟩,fun _ => ⟨_,rfl⟩,?_⟩
    rintro n ⟨req,k,hreq,-⟩
    cases hdec.symm.trans hreq
  | ok req =>
    obtain ⟨id,hid⟩ := encodeID_of_decodeRequest hdec
    obtain ⟨resp,hout,hresp⟩ := respond_eq hex hid
    refine ⟨_,hout,Json.newline_notMem_print _,id,resp,Json.reads_print _,hresp,?_,?_⟩
    · rintro ⟨err,herr⟩
      cases hdec.symm.trans herr
    · rintro n ⟨req',k,hreq,hk,hden⟩ hn
      cases hdec.symm.trans hreq
      obtain ⟨k',henc,hint⟩ := encodeAny_integer hden hn
      rw [hk,encodeID,henc] at hid
      exact ⟨k',(some.inj hid).symm,hint⟩

theorem servesLines {syntaxText : List Char → String} {execute : Nat → TaskRequest → Execution}
    (hex : ∀ i req, execute i req ≠ .unencodable) :
    ServesLines decoding (handleConnection syntaxText execute) := by
  intro lines h
  rw [handleConnection,scan_frame (fun line hl => (h line hl).newline)
    fun line hl => (h line hl).short,zipIdx_map,flatMap_map]
  exact frame_of_steps (fun i => rfl) (fun i => servesLine (hex i)) h 0

end GoSdk

namespace RustSdk
open List Option JsonFloat TextLines

def decoding (serde : Serde) : Decoding where
  undecodable line := ∃ e, serde.fromStr (RustText.trim line)=.error e
  integerId line n := ∃ req, serde.fromStr (RustText.trim line)=.ok req ∧ req.id.toInt=n

theorem responds_failure (id : Int64) (code : Int) (message : String) :
    Responds (number id.toInt) (RpcResponse.failure id code message).json := .inr ⟨code,message,rfl⟩
theorem responds_success (id : Int64) (result : Json) :
    Responds (number id.toInt) (RpcResponse.success id result).json := .inl ⟨result,rfl⟩

variable (serde : Serde) (execute : Nat → TaskRequest → Except PluginError TaskResponse)

theorem responds_dispatchRequest (execute : TaskRequest → Except PluginError TaskResponse)
    (req : RpcRequest) : Responds (number req.id.toInt) (dispatchRequest serde execute req).json := by
  rw [dispatchRequest]
  split
  next => exact responds_success _ _
  next =>
    split
    next =>
      split
      next =>
        split
        next => exact responds_success _ _
        next => exact responds_failure _ _ _
      next => exact responds_failure _ _ _
      next => exact responds_failure _ _ _
      next => exact responds_failure _ _ _
      next => exact responds_failure _ _ _
    next => exact responds_failure _ _ _

theorem toJsonLine_eq (r : RpcResponse) :
    ∃ text, r.toJsonLine serde=encode text++[10] ∧ '\n' ∉ text ∧ Json.Reads text r.json := by
  obtain ⟨text,hvec,hnl,hreads⟩ := serde.toVec_text r.json
  exact ⟨text,by rw [RpcResponse.toJsonLine,hvec,getD_some],hnl,hreads⟩

theorem servesLine (execute : TaskRequest → Except PluginError TaskResponse) :
    ServesLine (decoding serde) fun line => handleText serde execute (line++['\n']) := by
  intro line hline hne
  obtain ⟨c,hc,hvisible⟩ := hline.visible hne
  simp only [handleText,RustText.trim_blank (by decide : whiteSpace.contains '\n' = true),
    if_neg (RustText.trim_ne_nil hc hvisible)]
  cases hdec : serde.fromStr (RustText.trim line) with
  | error e =>
    obtain ⟨text,hout,hnl,hreads⟩ := toJsonLine_eq serde (.failure 0 (-32700) ("parse error: "++e))
    refine ⟨text,hout,hnl,_,_,hreads,responds_failure _ _ _,fun _ => ⟨e,rfl⟩,?_⟩
    rintro n ⟨req,hreq,-⟩
    cases hdec.symm.trans hreq
  | ok req =>
    obtain ⟨text,hout,hnl,hreads⟩ := toJsonLine_eq serde (dispatchRequest serde execute req)
    refine ⟨text,hout,hnl,_,_,hreads,responds_dispatchRequest serde execute req,?_,?_⟩
    · rintro ⟨e,he⟩
      cases hdec.symm.trans he
    · rintro n ⟨req',hreq,hid⟩ -
      cases hdec.symm.trans hreq
      exact ⟨_,rfl,by rw [JsonNumber.toInt?_ofInt,hid]⟩

theorem handleLines_encode
    (texts : List (List Char)) (i : Nat) : handleLines serde execute i (texts.map encode) =
      (texts.zipIdx i).flatMap fun l => handleText serde (execute l.2) l.1 := by
  induction texts generalizing i with
  | nil => rfl
  | cons text texts ih =>
    rw [map_cons,handleLines,TextLines.decode?_encode,ih,zipIdx_cons,flatMap_cons]

theorem servesLines : ServesLines (decoding serde) (handleConnection serde execute) := by
  intro lines h
  have hmap : (lines.map fun line => encode (line++['\n'])) =
      (lines.map fun line => line++['\n']).map encode := by rw [List.map_map]; rfl
  rw [handleConnection,readLines_frame fun line hl => (h line hl).newline,hmap,
    handleLines_encode,zipIdx_map,flatMap_map]
  exact frame_of_steps (fun i => rfl) (fun i => servesLine serde (execute i)) h 0

end RustSdk

/-- Both servers write one line for each line that is not empty, in order, with the identifier of the
request or a parse error. -/
theorem connections_serve_lines (syntaxText : List Char → String)
    (execute : Nat → GoSdk.TaskRequest → GoSdk.Execution)
    (hex : ∀ i req, execute i req ≠ .unencodable) (serde : RustSdk.Serde)
    (plugin : Nat → RustSdk.TaskRequest → Except RustSdk.PluginError RustSdk.TaskResponse) :
    ServesLines GoSdk.decoding (GoSdk.handleConnection syntaxText execute) ∧
      ServesLines (RustSdk.decoding serde) (RustSdk.handleConnection serde plugin) :=
  ⟨GoSdk.servesLines hex,RustSdk.servesLines serde plugin⟩

/-! A ping, an empty line and a line that is no request. -/

def pingLine : List Char := "\x7b\"id\":7,\"method\":\"ping\"\x7d".toList
def pingLines : List (List Char) := [pingLine,[],"hello\r".toList]

def printSerde : RustSdk.Serde where
  fromStr := RustSdk.readRequest
  toValue resp := .ok (.str resp.status)
  toVec j := some j.print
  toVec_text j := ⟨j.print,rfl,Json.newline_notMem_print j,Json.reads_print j⟩

theorem pingLines_sendable : ∀ line∈pingLines, Sendable line := by
  intro line hline
  simp only [pingLines,mem_cons,not_mem_nil,or_false] at hline
  rcases hline with rfl | rfl | rfl
  · exact ⟨by decide,by decide,fun _ => ⟨'i',by decide,by decide⟩⟩
  · exact ⟨by decide,by decide,fun h => absurd rfl h⟩
  · exact ⟨by decide,by decide,fun _ => ⟨'h',by decide,by decide⟩⟩

def writtenAs (n : ℤ) : Option Json → Bool
  | some (.num k) => k.toInt? == some n
  | _ => false

theorem eq_of_writtenAs {n : ℤ} {id : Option Json} (h : writtenAs n id) :
    ∃ k, id=some (.num k) ∧ k.toInt?=some n := by
  unfold writtenAs at h
  split at h
  next k => exact ⟨k,rfl,eq_of_beq h⟩
  next => cases h

theorem pingLine_goId : GoSdk.decoding.integerId pingLine 7 := by
  have hrun : ((GoSdk.decodeRequest (RustText.stripCr pingLine)).toOption.any
      fun req => writtenAs 7 req.id)=true := by decide +kernel
  cases hdec : GoSdk.decodeRequest (RustText.stripCr pingLine) with
  | error err =>
    rw [hdec] at hrun
    cases hrun
  | ok req =>
    rw [hdec] at hrun
    obtain ⟨k,hid,hk⟩ := eq_of_writtenAs hrun
    exact GoSdk.integerId_of_toInt? hdec hid hk

theorem pingLine_rustId : (RustSdk.decoding printSerde).integerId pingLine 7 := by
  have hrun : ((printSerde.fromStr (RustText.trim pingLine)).toOption.any
      fun req => req.id.toInt == 7)=true := by decide +kernel
  cases hdec : printSerde.fromStr (RustText.trim pingLine) with
  | error e =>
    rw [hdec] at hrun
    cases hrun
  | ok req =>
    rw [hdec] at hrun
    exact ⟨req,hdec,eq_of_beq hrun⟩

def PingAnswered (run : GoString → GoString) : Prop :=
  ∃ text text' id resp k, run (frame pingLines)=frame [text,text'] ∧ Json.Reads text resp ∧
    Responds id resp ∧ id=.num k ∧ k.toInt?=some 7

theorem pingAnswered {d : Decoding} {run : GoString → GoString} (h : ServesLines d run)
    (hid : d.integerId pingLine 7) : PingAnswered run := by
  obtain ⟨texts,hrun,hans⟩ := h pingLines pingLines_sendable
  have hlines : pingLines.filter (· ≠ [])=[pingLine,"hello\r".toList] := by decide
  rw [hlines] at hans
  cases hans with
  | @cons _ text _ _ hfirst hrest =>
    cases hrest with
    | @cons _ text' _ _ _ hnil =>
      cases hnil
      obtain ⟨id,resp,hreads,hresp,-,hint⟩ := hfirst.response
      obtain ⟨k,hk,hseven⟩ := hint 7 hid (by decide)
      exact ⟨text,text',id,resp,k,hrun,hreads,hresp,hk,hseven⟩

theorem connections_serve_pingLines :
    PingAnswered (GoSdk.handleConnection (fun _ => "not a request") fun _ _ => .failed "") ∧
      PingAnswered (RustSdk.handleConnection printSerde fun _ _ => .error (.config "")) := by
  obtain ⟨hgo,hrust⟩ := connections_serve_lines (fun _ => "not a request") (fun _ _ => .failed "")
    (fun _ _ => nofun) printSerde fun _ _ => .error (.config "")
  exact ⟨pingAnswered hgo pingLine_goId,pingAnswered hrust pingLine_rustId⟩

end OpsAgent.PluginRuntime
