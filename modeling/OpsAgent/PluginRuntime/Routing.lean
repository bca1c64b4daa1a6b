import OpsAgent.PluginRuntime.Protocol
import OpsAgent.PluginRuntime.TaskTypes

/-!
# Tasks on their way to a plugin

Any steps of the gateway may lie between its two locks.
-/

namespace OpsAgent.PluginRuntime
open Lib
open Lib.Exec

def cut (s : String) (sep : Char) : Option (String × String) :=
  match s.toList.dropWhile (· != sep) with
  | [] => none
  | _::after => some (String.ofList (s.toList.takeWhile (· != sep)),String.ofList after)

def PluginStatus.text : PluginStatus → String
  | .starting => "starting"
  | .running => "running"
  | .stopped => "stopped"
  | .error => "error"
  | .disabled => "disabled"

structure Routed where
  sent : List (Nat × TaskRequest)
  result : Except String TaskResponse

def Routed.fail (err : String) : Routed := ⟨[],.error err⟩

structure Surroundings where
  -- the verb `%q` of `fmt`
  quote : String → String
  -- `RPCClient.ExecuteTask` of the client of an entry
  execute : Nat → TaskRequest → Except String TaskResponse
  unixNano : Int
  -- `time.Now().Add(n * time.Second).UnixMilli()`
  deadlineAfter : Int → Int64

section
variable (w : Surroundings)

def parseFullTaskType (fullType : String) : Except String (String × String) :=
  match cut fullType '/' with
  | none => .error ("invalid task type format "++w.quote fullType ++
      ": expected 'plugin-name/task-type'")
  | some (pluginName,taskType) =>
    if pluginName="" ∨ taskType="" then
      .error ("invalid task type format "++w.quote fullType ++
        ": plugin name and task type must not be empty")
    else .ok (pluginName,taskType)

def Gateway.callPlugin (g : Gateway) (pluginName : String) (e : Nat) (req : TaskRequest) : Routed :=
  match g.entries[e]? with
  | none => .fail ("plugin not found: "++pluginName)
  | some p =>
    if p.status ≠ .running then
      .fail ("plugin "++pluginName++" is not running (status: "++p.status.text++")")
    else if !p.client then .fail ("plugin "++pluginName++" has no RPC client")
    else match w.execute e req with
      | .ok resp => ⟨[(e,req)],.ok resp⟩
      | .error err => ⟨[(e,req)],.error ("plugin "++pluginName++" execute task: "++err)⟩

/-- `ExecuteTask`, with the gateway as it is under the first lock and under the second. -/
def Gateway.executeTask (g g' : Gateway) (req : TaskRequest) : Routed :=
  match parseFullTaskType w req.type with
  | .error err => .fail err
  | .ok (pluginName,taskType) =>
    match g.plugins pluginName with
    | none => .fail ("plugin not found: "++pluginName)
    | some e => g'.callPlugin w pluginName e {req with type := taskType}

structure AgentTask where
  (taskID type : String)
  payload : Option GoJson.StringMap

structure Agent where
  shuttingDown : Bool
  (requestTimeoutSeconds chunkSizeBytes maxResultBytes : Int)

def Agent.request (a : Agent) (t : AgentTask) : TaskRequest where
  taskID := if t.taskID="" then "gw-"++toString w.unixNano else t.taskID
  type := t.type
  deadlineMS := w.deadlineAfter (if a.requestTimeoutSeconds≤0 then 30 else a.requestTimeoutSeconds)
  payload := t.payload
  chunking := ⟨true,a.chunkSizeBytes,a.maxResultBytes⟩

/-- `executeGatewayTask`, which both the middleware and the function itself keep from running while
the agent shuts down. -/
def Agent.executeGatewayTask (a : Agent) (g g' : Gateway) (t : AgentTask) : Routed :=
  if a.shuttingDown then .fail "agent is shutting down" else g.executeTask w g' (a.request w t)

/-- `Dispatch`; `others` are the handlers of the types that are not of the gateway's plugins. -/
def Agent.dispatch (a : Agent) (others : String → Option (AgentTask → Routed)) (g g' : Gateway)
    (t : AgentTask) : Routed :=
  if t.type∈registered g.calls then a.executeGatewayTask w g g' t
  else match others t.type with
    | some handler => handler t
    | none => .fail ("unsupported task type: "++t.type)

end

theorem cut_fullTaskType {name : String} (h : validPluginName name) (taskType : String) :
    cut (fullTaskType name taskType) '/' = some (name,taskType) := by
  have hname : ∀ c∈name.toList, (c != '/')=true := by
    intro c hc
    rw [bne_iff_ne]
    rintro rfl
    exact slash_notMem_of_valid h hc
  have hdrop : (fullTaskType name taskType).toList.dropWhile (· != '/') = '/' :: taskType.toList := by
    rw [fullTaskType,String.toList_append,String.toList_append,List.append_assoc,
      List.dropWhile_append_of_pos hname]
    rfl
  rw [cut,hdrop,takeWhile_fullTaskType h]
  simp

theorem name_ne_empty {name : String} (h : validPluginName name) : name≠"" := by
  rintro rfl
  cases h

theorem parse_fullTaskType (w : Surroundings) {name taskType : String}
    (h : validPluginName name) (ht : taskType≠"") :
    parseFullTaskType w (fullTaskType name taskType)=.ok (name,taskType) := by
  simp only [parseFullTaskType,cut_fullTaskType h]
  rw [if_neg (not_or.mpr ⟨name_ne_empty h,ht⟩)]

structure Sanitized (s : System) : Prop where
  keys : ∀ name e, s.g.plugins name=some e → validPluginName name
  awaited : ∀ pc∈s.threads, ∀ name pid, pc.awaits=some (name,pid) → validPluginName name

def System.sanitizes (s : System) : Label → Bool
  | .run i a => s.threads[i]?.all fun pc => pc.accepts a
  | _ => true

section
variable {g g' : Gateway} {pc pc' : Pc} {a : Answer}

theorem Turns.sanitized (ht : Turns g pc a g' pc') (hacc : pc.accepts a)
    (hkeys : ∀ name e, g.plugins name=some e → validPluginName name)
    (hawaited : ∀ name pid, pc.awaits=some (name,pid) → validPluginName name) :
    (∀ name e, g'.plugins name=some e → validPluginName name) ∧
      ∀ name pid, pc'.awaits=some (name,pid) → validPluginName name := by
  cases ht with
  | started =>
    refine ⟨hkeys,?_⟩
    rintro name pid ⟨⟩
    exact hacc
  | @publish m pid k =>
    refine ⟨?_,nofun⟩
    intro name e hcur
    rcases plugins_publish hcur with ⟨rfl,-⟩ | ⟨-,hcur⟩
    · exact hawaited m.name pid rfl
    · exact hkeys name e hcur
  | waitFailed => exact ⟨hkeys,hawaited⟩
  | delete => exact ⟨fun name e hcur => hkeys name e (current_delete hcur),nofun⟩
  | stopClear => exact ⟨nofun,nofun⟩
  | @killed name e pid taskTypes k =>
    refine ⟨?_,?_⟩
    · cases pid with
      | none | some pid => exact hkeys
    · rw [k.awaits_next name e]
      nofun
  | @stopAgain name e k =>
    rw [k.awaits_next name e]
    exact ⟨hkeys,nofun⟩
  | @loadFailed m k | @aborted m pid k =>
    rw [k.awaits_failed m]
    exact ⟨hkeys,nofun⟩
  | @loaded m k =>
    rw [k.awaits_next]
    exact ⟨hkeys,nofun⟩
  | _ => exact ⟨hkeys,nofun⟩

end

theorem Operation.awaits_pc (op : Operation) : op.pc.awaits=none := by cases op <;> rfl
theorem Change.awaits_pc (c : Change) (name : String) : (c.pc name).awaits=none := by
  cases c <;> rfl

theorem sanitized_start (maxRestarts : Int) (manifests : Option (List PluginManifest)) :
    Sanitized (System.start maxRestarts manifests) := by
  refine ⟨nofun,?_⟩
  intro pc hpc
  cases manifests with
  | none => cases hpc
  | some rest =>
    rw [List.mem_singleton.mp hpc]
    nofun

theorem sanitized_step (s : System) (l : Label) (t : System) (h : Sanitized s)
    (hl : s.sanitizes l) (hs : s.step l=some t) : Sanitized t := by
  have hm:=moves_of_step hs
  cases hm with
  | @call op =>
    refine ⟨h.keys,Pool.forall_mem_push h.awaited ?_⟩
    rw [op.awaits_pc]
    nofun
  | @fire name timers c =>
    refine ⟨h.keys,Pool.forall_mem_push h.awaited ?_⟩
    rw [c.awaits_pc]
    nofun
  | @run i a pc g' pc' hi ht =>
    have hacc : pc.accepts a := by simpa [System.sanitizes,hi] using hl
    obtain ⟨hkeys,hawaited⟩ := ht.sanitized hacc h.keys (h.awaited pc (List.mem_of_getElem? hi))
    exact ⟨hkeys,Pool.forall_mem_set h.awaited hawaited i⟩
  | flags | exit => exact ⟨h.keys,h.awaited⟩

theorem manifest_step {e : Nat} {m : PluginManifest} (s : System) (l : Label) (t : System)
    (h : ∃ p : ManagedPlugin, s.g.entries[e]?=some p ∧ p.manifest=m) (hs : s.step l=some t) :
    ∃ p : ManagedPlugin, t.g.entries[e]?=some p ∧ p.manifest=m := by
  obtain ⟨p,hp,hm⟩ := h
  have hgrows : Grows s.g t.g := by
    have hmoves:=moves_of_step hs
    cases hmoves with
    | call | fire | flags => exact .of_eq rfl rfl
    | run hi ht => exact ht.grows
    | @exit pid => exact grows_killProcess pid
  obtain ⟨p',hp',hm',-⟩ := hgrows.entry e p hp
  exact ⟨p',hp',hm'.trans hm⟩

section
variable (w : Surroundings) {e : Nat}

theorem sent_callPlugin (g : Gateway) (pluginName : String) (e : Nat) (req : TaskRequest) :
    (g.callPlugin w pluginName e req).sent=[] ∨ (g.callPlugin w pluginName e req).sent=[(e,req)] := by
  unfold Gateway.callPlugin
  split
  · exact .inl rfl
  · split
    · exact .inl rfl
    · split
      · exact .inl rfl
      · split
        · exact .inr rfl
        · exact .inr rfl

theorem sent_callPlugin_running {g : Gateway} {p : ManagedPlugin}
    (hp : g.entries[e]?=some p) (hstatus : p.status=.running) (hclient : p.client)
    (pluginName : String) (req : TaskRequest) : (g.callPlugin w pluginName e req).sent=[(e,req)] := by
  simp only [Gateway.callPlugin,hp,hstatus,hclient,ne_eq,not_true_eq_false,if_false,
    Bool.not_true,Bool.false_eq_true]
  split
  · rfl
  · rfl

theorem executeTask_eq {g : Gateway} {name taskType : String}
    (hname : validPluginName name) (ht : taskType≠"") (hcur : g.plugins name=some e)
    (g' : Gateway) {req : TaskRequest} (hreq : req.type=fullTaskType name taskType) :
    g.executeTask w g' req=g'.callPlugin w name e {req with type := taskType} := by
  simp only [Gateway.executeTask,hreq,parse_fullTaskType w hname ht,hcur]

/-- A task goes to the plugin under whose name its type is registered, if anywhere, under the type of the
plugin; and it does if the plugin runs. The gateway may go on between the lookups. -/
theorem dispatch_sent (maxRestarts : Int) (manifests : Option (List PluginManifest))
    {ls ls' : List Label} {s s' : System}
    (hnames : guarded System.step System.sanitizes (.start maxRestarts manifests) ls=true)
    (hr : exec System.step (.start maxRestarts manifests) ls=some s)
    (hr' : exec System.step s ls' = some s') {p : ManagedPlugin} {e : Nat} {taskType : String}
    (hp : s.g.entries[e]?=some p) (hcur : s.g.plugins p.manifest.name=some e)
    (ht : taskType≠"") (hreg : fullTaskType p.manifest.name taskType∈registered s.g.calls)
    (a : Agent) (ha : a.shuttingDown=false) (others : String → Option (AgentTask → Routed))
    (task : AgentTask) (htask : task.type=fullTaskType p.manifest.name taskType) :
    ((a.dispatch w others s.g s'.g task).sent=[] ∨
      (a.dispatch w others s.g s'.g task).sent=[(e,{a.request w task with type := taskType})]) ∧
    ∃ p', s'.g.entries[e]?=some p' ∧ p'.manifest=p.manifest ∧
      (p'.status=.running → p'.client=true →
        (a.dispatch w others s.g s'.g task).sent=[(e,{a.request w task with type := taskType})]) := by
  have hsan : Sanitized s := exec_invariant sanitized_step (sanitized_start _ _) hnames hr
  have hname:=hsan.keys _ _ hcur
  have hdispatch : a.dispatch w others s.g s'.g task =
      s'.g.callPlugin w p.manifest.name e {a.request w task with type := taskType} := by
    rw [Agent.dispatch,htask,if_pos hreg,Agent.executeGatewayTask,ha,if_neg (by nofun)]
    exact executeTask_eq w hname ht hcur s'.g htask
  obtain ⟨p',hp',hm⟩ := exec_stable manifest_step ⟨p,hp,rfl⟩ hr'
  rw [hdispatch]
  exact ⟨sent_callPlugin w s'.g _ e _,p',hp',hm,fun hstatus hclient =>
    sent_callPlugin_running w hp' hstatus hclient _ _⟩

end

def scanner : PluginManifest := ⟨"scan",["tcp","scan-2/tcp"]⟩
def scanner2 : PluginManifest := ⟨"scan-2",["tcp"]⟩
def loadScanners : List Label :=
  [.run 0 .ok,.run 0 .ok,.run 0 .ok,.run 0 .ok,.run 0 .ok,.run 0 .ok,.run 0 .ok,.run 0 .ok]
def quietSurroundings : Surroundings := ⟨id,fun _ _ => .error "",0,fun n => Int64.ofInt n⟩

theorem dispatch_sent_scanner :
    ∃ s, exec System.step (.start 3 (some [scanner,scanner2])) loadScanners=some s ∧
      (Agent.dispatch quietSurroundings ⟨false,0,0,0⟩ (fun _ => none) s.g s.g
        ⟨"t","scan/scan-2/tcp",none⟩).sent = [(0,⟨"t","scan-2/tcp",30,none,⟨true,0,0⟩⟩)] := by
  obtain ⟨s,hr,hp,hcur,hreg⟩ := exists_exec System.step (.start 3 (some [scanner,scanner2]))
    loadScanners (fun s => s.g.entries[0]?=some ⟨scanner,some 0,true,.running,0⟩ ∧
      s.g.plugins "scan"=some 0 ∧ fullTaskType "scan" "scan-2/tcp" ∈ registered s.g.calls)
    (by decide +kernel)
  have hnames : guarded System.step System.sanitizes (.start 3 (some [scanner,scanner2]))
      loadScanners=true := by decide +kernel
  have htype : "scan/scan-2/tcp"=fullTaskType "scan" "scan-2/tcp" := by decide
  have hstay : exec System.step s []=some s := rfl
  obtain ⟨-,p',hp',-,hsent⟩ := dispatch_sent quietSurroundings 3 _ hnames hr hstay hp hcur
    (by decide) hreg ⟨false,0,0,0⟩ rfl (fun _ => none) ⟨"t","scan/scan-2/tcp",none⟩ htype
  cases hp.symm.trans hp'
  exact ⟨s,hr,hsent rfl rfl⟩

end OpsAgent.PluginRuntime
