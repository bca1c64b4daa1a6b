import OpsAgent.Collector.Scheduler
import OpsAgent.Config.Reload
import OpsAgent.Server.Http

/-!
# The reloaders of the agent (`app/agent.go`, `collector/reload.go`, `server/reload.go`,
`reporter/reload.go`)

A reload can reach the pipeline of the collector and the options of the server; the routes and the
other subsystems stay as they were built.
-/

namespace OpsAgent.App
open OpsAgent.Collector (Plugins ReloadConfig rebuild smallPlugins)
open Lib.GoValue

structure Running where
  base : Config
  server : Server
  -- what the pipeline that runs was built from
  pipeline : Option ReloadConfig

def toReloadConfig (cc : CollectorConfig) : ReloadConfig :=
  let plugins (cs : Option (List PluginInstanceConfig)) : List Collector.PluginConfig :=
    (cs.getD []).map fun c => ⟨c.type,c.config⟩
  ⟨plugins cc.inputs,plugins cc.processors,plugins cc.aggregators,plugins cc.outputs⟩

namespace Running

def updateAuth (w : Running) (auth : AuthConfig) : Running :=
  {w with server := {w.server with auth := auth} }
def updatePrometheus (w : Running) (prometheus : PrometheusConfig) : Running :=
  {w with server := {w.server with prometheus := prometheus} }

def reloadCollector (P : Plugins) (interval : Int) (cfg : Config) (w : Running) :
    Option String × Running :=
  match rebuild P interval (toReloadConfig cfg.collector) with
  | .error err => (some err,{w with pipeline := none})
  | .ok _ => (none,{w with pipeline := some (toReloadConfig cfg.collector)})

end Running

def collectorReloader (P : Plugins) (interval : Int) : Reloader Running where
  canReload cs := cs.collectorChanged
  apply cfg w := w.reloadCollector P interval cfg
  rollback cfg w := w.reloadCollector P interval cfg

def authReloader : Reloader Running where
  canReload cs := cs.authChanged
  apply cfg w :=
    if !cfg.auth.enabled then
      (some "auth cannot be disabled via hot-reload (restart required)",w)
    else if cfg.auth.bearerToken="" then (some "bearer_token cannot be empty",w)
    else if cfg.auth.bearerToken.utf8ByteSize<32 then
      (some "bearer_token must be at least 32 characters",w)
    else (none,w.updateAuth cfg.auth)
  rollback cfg w := (none,w.updateAuth cfg.auth)

def prometheusReloader : Reloader Running where
  canReload cs := cs.prometheusChanged
  apply cfg w := (none,w.updatePrometheus cfg.prometheus)
  rollback cfg w := (none,w.updatePrometheus cfg.prometheus)
def reporterReloader : Reloader Running where
  canReload cs := cs.reporterChanged
  apply _ w := (none,w)
  rollback _ w := (none,w)
def agentReloaders (P : Plugins) (interval : Int) : List (Reloader Running) :=
  [collectorReloader P interval,authReloader,prometheusReloader,reporterReloader]

/-- The part of `NewAgent` that a reload can reach; it fails if the pipeline or the server
cannot be made. Without inputs there is no scheduler, and `Run` panics. -/
def newAgent (P : Plugins) (interval : Int) (cfg : Config) :
    Option (ConfigReloader Running × Running) :=
  match rebuild P interval (toReloadConfig cfg.collector) with
  | .error _ => none
  | .ok pipe =>
    if pipe.inputs.isEmpty then none
    else (Server.new cfg.auth cfg.prometheus).map fun server =>
      (⟨cfg,agentReloaders P interval⟩,⟨cfg,server,some (toReloadConfig cfg.collector)⟩)

variable {P : Plugins} {interval : Int} {r : ConfigReloader Running} {w : Running} {cfg : Config}

theorem newAgent_spec (h : newAgent P interval cfg=some (r,w)) :
    r=⟨cfg,agentReloaders P interval⟩ ∧ w.base=cfg ∧
      Server.new cfg.auth cfg.prometheus=some w.server := by
  unfold newAgent at h
  split at h
  · cases h
  · split at h
    · cases h
    · obtain ⟨server,hserver,heq⟩ := Option.map_eq_some_iff.mp h
      cases heq
      exact ⟨rfl,rfl,hserver⟩

theorem authReloader_apply (cfg : Config) (w : Running) :
    (∃ err, authReloader.apply cfg w=(some err,w)) ∨
      authReloader.apply cfg w=(none,w.updateAuth cfg.auth) := by
  unfold authReloader
  dsimp only
  split
  · exact .inl ⟨_,rfl⟩
  · split
    · exact .inl ⟨_,rfl⟩
    · split
      · exact .inl ⟨_,rfl⟩
      · exact .inr rfl

theorem server_reloadCollector (P : Plugins) (interval : Int) (cfg : Config) (w : Running) :
    (w.reloadCollector P interval cfg).2.base=w.base ∧
      (w.reloadCollector P interval cfg).2.server=w.server := by
  unfold Running.reloadCollector
  split <;> exact ⟨rfl,rfl⟩

theorem pipeline_reloadCollector {w' : Running} (h : w.reloadCollector P interval cfg=(none,w')) :
    w'.pipeline=some (toReloadConfig cfg.collector) := by
  unfold Running.reloadCollector at h
  split at h
  · cases h
  · cases h
    rfl

def Running.updateServer (cs : ChangeSet) (new : Config) (w : Running) : Running :=
  { w with server := { w.server with
      auth := if cs.authChanged then new.auth else w.server.auth
      prometheus := if cs.prometheusChanged then new.prometheus else w.server.prometheus} }

theorem applyLoop_server (cs : ChangeSet) (old new : Config) (applied : List (Reloader Running))
    (w : Running) : (∃ err, ConfigReloader.applyLoop cs old new
      [authReloader,prometheusReloader,reporterReloader] applied w =
        (some err,ConfigReloader.rollbackAll old applied w)) ∨ ConfigReloader.applyLoop cs old new
      [authReloader,prometheusReloader,reporterReloader] applied w = (none,w.updateServer cs new) := by
  have hrest : ∀ (applied : List (Reloader Running)) (w : Running),
      ConfigReloader.applyLoop cs old new [prometheusReloader,reporterReloader] applied w =
        (none,if cs.prometheusChanged then w.updatePrometheus new.prometheus else w) := by
    intro applied w
    cases hp : cs.prometheusChanged <;> cases hr : cs.reporterChanged <;>
      simp [ConfigReloader.applyLoop,prometheusReloader,reporterReloader,hp,hr]
  rw [ConfigReloader.applyLoop]
  cases hc : cs.authChanged with
  | false =>
    refine .inr ?_
    rw [if_neg (by simp [authReloader,hc]),hrest,Running.updateServer,hc]
    cases cs.prometheusChanged <;> rfl
  | true =>
    rw [if_pos (by simp [authReloader,hc])]
    rcases authReloader_apply new w with ⟨err,ha⟩ | ha
    · exact .inl ⟨_,by rw [ha]⟩
    · refine .inr ?_
      rw [ha]
      dsimp only
      rw [hrest,Running.updateServer,hc]
      cases cs.prometheusChanged <;> rfl

structure Applied (cs : ChangeSet) (new : Config) (w w' : Running) : Prop where
  base : w'.base=w.base
  exporter : w'.server.exporter=w.server.exporter
  auth : w'.server.auth = if cs.authChanged then new.auth else w.server.auth
  prometheus : w'.server.prometheus =
    if cs.prometheusChanged then new.prometheus else w.server.prometheus
  pipeline : w'.pipeline =
    if cs.collectorChanged then some (toReloadConfig new.collector) else w.pipeline

namespace Applied

variable {old new : Config} {w w' : Running}

theorem auth_eq (h : Applied (Config.changeSet old new) new w w')
    (hold : w.server.auth=old.auth) : w'.server.auth=new.auth := by
  rw [h.auth]
  split
  · rfl
  next hc =>
    rw [hold]
    simpa [Config.changeSet,Config.diffAuth] using hc

theorem prometheus_cases (h : Applied (Config.changeSet old new) new w w') :
    w'.server.prometheus=new.prometheus ∨
      old.prometheus=new.prometheus ∧ w'.server.prometheus=w.server.prometheus := by
  rw [h.prometheus]
  split
  · exact .inl rfl
  next hc => exact .inr ⟨by simpa [Config.changeSet,Config.diffPrometheus] using hc,rfl⟩

end Applied

theorem applyLoop_agent (P : Plugins) (interval : Int) (cs : ChangeSet) (old new : Config)
    (w : Running) : (∃ err w', ConfigReloader.applyLoop cs old new (agentReloaders P interval) [] w =
        (some err,w') ∧ w'.base=w.base ∧ w'.server=w.server) ∨
    ∃ w', ConfigReloader.applyLoop cs old new (agentReloaders P interval) [] w=(none,w') ∧
      Applied cs new w w' := by
  rw [agentReloaders,ConfigReloader.applyLoop]
  cases hc : cs.collectorChanged with
  | false =>
    rw [if_neg (by simp [collectorReloader,hc])]
    rcases applyLoop_server cs old new [] w with ⟨err,h⟩ | h
    · exact .inl ⟨err,w,h,rfl,rfl⟩
    · exact .inr ⟨_,h,rfl,rfl,rfl,rfl,by rw [hc]; rfl⟩
  | true =>
    rw [if_pos (by simp [collectorReloader,hc])]
    cases ha : (collectorReloader P interval).apply new w with
    | mk err w₁ =>
      obtain ⟨hbase,hserver⟩ := server_reloadCollector P interval new w
      rw [show w.reloadCollector P interval new=(err,w₁) from ha] at hbase hserver
      dsimp only at hbase hserver
      cases err with
      | some err => exact .inl ⟨_,w₁,rfl,hbase,hserver⟩
      | none =>
        have hpipe : w₁.pipeline=some (toReloadConfig new.collector) :=
          pipeline_reloadCollector ha
        rcases applyLoop_server cs old new [collectorReloader P interval] w₁ with ⟨err,h⟩ | h
        · -- the rollback of the collector is a reload too
          obtain ⟨hbase',hserver'⟩ := server_reloadCollector P interval old w₁
          exact .inl ⟨err,_,h,hbase'.trans hbase,hserver'.trans hserver⟩
        · refine .inr ⟨_,h,hbase,?_,?_,?_,?_⟩
          · rw [← hserver]
            rfl
          · rw [← hserver]
            rfl
          · rw [← hserver]
            rfl
          · rw [hc]
            exact hpipe

theorem apply_agent (V : Viper)
    (hr : r.reloaders=agentReloaders P interval) (newYAML : List UInt8) (w : Running) :
    (∃ err w', r.apply V newYAML w=(some err,r,w') ∧ w'.base=w.base ∧
      w'.server=w.server) ∨
    ∃ newCfg w', parseYAMLConfig V newYAML=.ok newCfg ∧
      r.apply V newYAML w=(none,{r with current := newCfg},w') ∧
      Applied (Config.changeSet r.current newCfg) newCfg w w' := by
  rcases ConfigReloader.apply_cases V r newYAML w with ⟨err,he⟩ | ⟨newCfg,-,hparse,happly⟩
  · exact .inl ⟨err,w,he,rfl,rfl⟩
  rcases ConfigReloader.applyConfig_cases r newCfg w with ⟨err,he⟩ | ⟨cs,hdiff,hend⟩
  · exact .inl ⟨err,w,happly.trans he,rfl,rfl⟩
  have hcs : Config.changeSet r.current newCfg=cs := by
    unfold Config.diff at hdiff
    split at hdiff
    · cases hdiff
    · exact (Prod.mk.inj (Except.ok.inj hdiff)).1
  have hloop:=applyLoop_agent P interval cs r.current newCfg w
  rw [← hr] at hloop
  rcases hend with ⟨err,w₁,he,ha⟩ | ⟨w₁,he,ha⟩ <;> rw [he] at hloop
  · rcases hloop with ⟨err',w',heq,hkeep⟩ | ⟨w',heq,-⟩
    · cases heq
      exact .inl ⟨err,w₁,happly.trans ha,hkeep⟩
    · cases heq
  · rcases hloop with ⟨err',w',heq,-⟩ | ⟨w',heq,happlied⟩
    · cases heq
    · cases heq
      exact .inr ⟨newCfg,w₁,hparse,happly.trans ha,hcs ▸ happlied⟩

theorem apply_accepted {V : Viper} {r' : ConfigReloader Running}
    {newYAML : List UInt8} {w' : Running} (hr : r.reloaders=agentReloaders P interval)
    (h : r.apply V newYAML w=(none,r',w')) :
    ∃ newCfg, parseYAMLConfig V newYAML=.ok newCfg ∧ r' = {r with current := newCfg} ∧
      Applied (Config.changeSet r.current newCfg) newCfg w w' := by
  rcases apply_agent V hr newYAML w with ⟨err,w₁,he,-⟩ | ⟨newCfg,w₁,hparse,he,happlied⟩
  · cases he.symm.trans h
  · cases he.symm.trans h
    exact ⟨newCfg,hparse,rfl,happlied⟩

inductive Section where
  | agent | server | executor | reporter | auth | prometheus | plugin | grpc | sandbox | collector
  | pluginGateway | checker | gateway | tracing | alerting | discovery | updater | wasm | federation
  deriving DecidableEq

namespace Section

def same : Section → Config → Config → Bool
  | .agent, a, b => a.agent == b.agent
  | .server, a, b => a.server == b.server
  | .executor, a, b => a.executor == b.executor
  | .reporter, a, b => a.reporter == b.reporter
  | .auth, a, b => a.auth == b.auth
  | .prometheus, a, b => a.prometheus == b.prometheus
  | .plugin, a, b => a.plugin == b.plugin
  | .grpc, a, b => a.grpc == b.grpc
  | .sandbox, a, b => a.sandbox == b.sandbox
  | .collector, a, b => a.collector.deepEqual b.collector
  | .pluginGateway, a, b => a.pluginGateway.deepEqual b.pluginGateway
  | .checker, a, b => a.checker == b.checker
  | .gateway, a, b => a.gateway == b.gateway
  | .tracing, a, b => a.tracing == b.tracing
  | .alerting, a, b => a.alerting.deepEqual b.alerting
  | .discovery, a, b => a.discovery == b.discovery
  | .updater, a, b => a.updater == b.updater
  | .wasm, a, b => a.wasm == b.wasm
  | .federation, a, b => a.federation.deepEqual b.federation

def exported (p : PrometheusConfig) : Option String := if p.enabled then some p.path else none

def inEffect : Section → Config → Running → Prop
  | .collector, cfg, w => w.pipeline=some (toReloadConfig cfg.collector)
  | .auth, cfg, w => w.server.auth=cfg.auth
  | .prometheus, cfg, w =>
    w.server.prometheus=cfg.prometheus ∧ w.server.exporter=exported cfg.prometheus
  -- every other subsystem is as it was built
  | sec, cfg, w => sec.same w.base cfg

/-- A change of the section to the values of `cfg` can take effect: the exporter needs its route, and the
subsystems after it have to have been built with these values. -/
def ready : Section → Config → Running → Prop
  | .collector, _, _ => True
  | .auth, _, _ => True
  | .prometheus, cfg, w => w.server.exporter=exported cfg.prometheus
  | sec, cfg, w => sec.same w.base cfg

theorem inEffect_iff_ready {sec : Section} {old new : Config} {w w' : Running}
    (h : Applied (Config.changeSet old new) new w w') (hdiff : sec.same old new=false) :
    sec.inEffect new w' ↔ sec.ready new w := by
  cases sec with
  | collector =>
    refine iff_of_true ?_ trivial
    have hc : (Config.changeSet old new).collectorChanged := by
      rw [same] at hdiff
      rw [Config.changeSet,hdiff]
      rfl
    rw [inEffect,h.pipeline,if_pos hc]
  | auth =>
    refine iff_of_true ?_ trivial
    have hc : (Config.changeSet old new).authChanged := by
      rw [same] at hdiff
      simp [Config.changeSet,Config.diffAuth,bne,hdiff]
    rw [inEffect,h.auth,if_pos hc]
  | prometheus =>
    have hc : (Config.changeSet old new).prometheusChanged := by
      rw [same] at hdiff
      simp [Config.changeSet,Config.diffPrometheus,bne,hdiff]
    rw [inEffect,ready,h.prometheus,if_pos hc,h.exporter]
    exact and_iff_right rfl
  | _ =>
    change same _ w'.base new ↔ same _ w.base new
    rw [h.base]

end Section

/-- The sections that an accepted change differs in are in effect exactly if each could take effect. -/
theorem changed_inEffect_iff {V : Viper} {P : Plugins} {interval : Int}
    {r r' : ConfigReloader Running} {newYAML : List UInt8} {w w' : Running}
    (hr : r.reloaders=agentReloaders P interval) (h : r.apply V newYAML w=(none,r',w')) :
    (∀ sec : Section, sec.same r.current r'.current=false → sec.inEffect r'.current w') ↔
      ∃ newCfg, parseYAMLConfig V newYAML=.ok newCfg ∧
        ∀ sec : Section, sec.same r.current newCfg=false → sec.ready newCfg w := by
  obtain ⟨newCfg,hparse,rfl,happlied⟩ := apply_accepted hr h
  have hiff : ∀ sec : Section, (sec.same r.current newCfg=false → sec.inEffect newCfg w') ↔
      (sec.same r.current newCfg=false → sec.ready newCfg w) :=
    fun sec => imp_congr_right fun hdiff => Section.inEffect_iff_ready happlied hdiff
  constructor
  · intro heffect
    exact ⟨newCfg,hparse,fun sec => (hiff sec).mp (heffect sec)⟩
  · rintro ⟨newCfg',hparse',hready⟩ sec
    cases hparse.symm.trans hparse'
    exact (hiff sec).mpr (hready sec)

def secured (k : Key) : Option Val := match k with
  | .authEnabled => some (.bool true)
  | .authBearerToken => some (.str "0123456789abcdef0123456789abcdef")
  | .prometheusProtectWithAuth => some (.bool true)
  | .collectorInputs => some (.seq [.map [("type",.str "cpu")]])
  | .prometheusEnabled | .prometheusPath | .checkerMaxConcurrent | .checkerDefaultTimeoutSeconds
  | .checkerEnabled => k.default
  | _ => validKeys k

def securedConfig : Config := configOf secured
def newToken : Key → Option Val
  | .authBearerToken => some (.str "fedcba9876543210fedcba9876543210")
  | k => secured k

theorem parse_newToken :
    parseYAMLConfig (Viper.ofDocument newToken) (yamlText newToken)=.ok (configOf newToken) :=
  parse_yamlText (by decide +kernel)

theorem apply_newToken (r : ConfigReloader Running) (w : Running) :
    r.apply (Viper.ofDocument newToken) (yamlText newToken) w=r.applyConfig (configOf newToken) w :=
  ConfigReloader.apply_yamlText _ (by decide +kernel) (by decide +kernel) r w

theorem changed_inEffect_newToken : ∃ r w r' w', newAgent smallPlugins 10 securedConfig=some (r,w) ∧
      r.apply (Viper.ofDocument newToken) (yamlText newToken) w=(none,r',w') ∧
      Section.auth.same r.current r'.current=false ∧ ∀ sec : Section, sec.same r.current r'.current=false → sec.inEffect r'.current w' := by
  have hrun : ((newAgent smallPlugins 10 securedConfig).any fun a =>
      decide ((a.1.applyConfig (configOf newToken) a.2).1=none ∧
        Section.auth.same a.1.current (a.1.applyConfig (configOf newToken) a.2).2.1.current =
          false))=true := by decide +kernel
  obtain ⟨⟨r,w⟩,hnew,hd⟩ := (Option.any_eq_true _ _).mp hrun
  rw [← apply_newToken] at hd
  generalize happly : r.apply (Viper.ofDocument newToken) (yamlText newToken) w=out at hd
  obtain ⟨err,r',w'⟩ := out
  obtain ⟨rfl,hauth⟩ := of_decide_eq_true hd
  obtain ⟨rfl,-⟩ := newAgent_spec hnew
  have hsame : ∀ sec : Section, sec.same securedConfig (configOf newToken)=false →
      sec=.auth := by
    intro sec
    cases sec <;> decide +kernel
  refine ⟨_,w,r',w',hnew,happly,hauth,?_⟩
  refine (changed_inEffect_iff rfl happly).mpr ⟨configOf newToken,parse_newToken,?_⟩
  intro sec hdiff
  rw [hsame sec hdiff]
  trivial

def checkerAndPath : Key → Option Val
  | .checkerEnabled => some (.bool false)
  | .prometheusPath => some (.str "/stats")
  | k => secured k

theorem checkerAndPath_not_inEffect : ∃ r w r' w', newAgent smallPlugins 10 securedConfig=some (r,w) ∧
      r.apply (Viper.ofDocument checkerAndPath) (yamlText checkerAndPath) w=(none,r',w') ∧
      ∀ sec∈[Section.checker,.prometheus], sec.same r.current r'.current=false ∧ ¬ sec.inEffect r'.current w' := by
  have hrun : ((newAgent smallPlugins 10 securedConfig).any fun a =>
      decide ((a.1.applyConfig (configOf checkerAndPath) a.2).1=none ∧
        a.2.server.exporter=some "/metrics"))=true := by decide +kernel
  obtain ⟨⟨r,w⟩,hnew,hd⟩ := (Option.any_eq_true _ _).mp hrun
  have herr : (⟨checkerAndPath,[]⟩ : Settings).fieldErrors (Viper.ofDocument checkerAndPath)=[] := by
    decide +kernel
  rw [← ConfigReloader.apply_yamlText _ (by decide +kernel) herr] at hd
  generalize happly : r.apply (Viper.ofDocument checkerAndPath) (yamlText checkerAndPath) w=out at hd
  obtain ⟨err,r',w'⟩ := out
  obtain ⟨rfl,hexp⟩ := of_decide_eq_true hd
  obtain ⟨rfl,hbase,-⟩ := newAgent_spec hnew
  obtain ⟨newCfg,hparse,rfl,happlied⟩ := apply_accepted rfl happly
  rw [parse_yamlText herr] at hparse
  obtain rfl : configOf checkerAndPath=newCfg := Except.ok.inj hparse
  refine ⟨_,w,_,w',hnew,happly,?_⟩
  have hchanged : ∀ sec∈[Section.checker,.prometheus],
      sec.same securedConfig (configOf checkerAndPath)=false := by decide +kernel
  intro sec hsec
  have hdiff:=hchanged sec hsec
  refine ⟨hdiff,?_⟩
  rw [Section.inEffect_iff_ready happlied hdiff]
  simp only [List.mem_cons,List.not_mem_nil,or_false] at hsec
  rcases hsec with rfl | rfl
  · change ¬ Section.checker.same w.base (configOf checkerAndPath)=true
    rw [hbase,hdiff]
    decide
  · rw [Section.ready,hexp]
    decide +kernel

end OpsAgent.App
