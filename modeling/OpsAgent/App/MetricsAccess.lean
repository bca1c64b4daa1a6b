import OpsAgent.App.Reloaders

/-!
# Who gets to the metrics, over all reloads (`app/agent.go`, `server/middleware.go`)
-/

namespace OpsAgent.App
open OpsAgent.Collector (Plugins smallPlugins)
open Lib.Exec Lib.GoStrings Lib.GoValue Lib.ServeMux Option

structure Live where
  reloader : ConfigReloader Running
  running : Running

namespace Live

def start (P : Plugins) (interval : Int) (cfg : Config) : Option Live :=
  (newAgent P interval cfg).map fun a => ⟨a.1,a.2⟩
def reload (V : Viper) (s : Live) (newYAML : List UInt8) : Option Live :=
  let out:=s.reloader.apply V newYAML s.running
  some ⟨out.2.1,out.2.2⟩
def hasToken (s : Live) (r : Request) : Bool :=
  trimSpaces r.authorization == utf8 "Bearer "++utf8 s.reloader.current.auth.bearerToken

/-- A request without the token gets to the metrics only if the current configuration
leaves them open. -/
def Protects (s : Live) : Prop :=
  ∀ r : Request, s.running.server.servesMetrics r → s.hasToken r=false →
    s.reloader.current.auth.enabled=false ∨
      s.reloader.current.prometheus.protectWithAuth=false

/-- The options leave the exporter open, or it has no route, or its route matches one path,
which is that of the options or one of the protected interface. -/
def fits (exporter : Option String) (auth : AuthConfig) (prometheus : PrometheusConfig) : Bool :=
  !auth.enabled||!prometheus.protectWithAuth ||
    exporter.all fun path => plainPath (utf8 path) &&
      (hasPrefix (utf8 path) (utf8 "/api/v1/")||prometheus.enabled&&prometheus.path == path)
def startsFit (s : Live) : Bool :=
  fits s.running.server.exporter s.running.server.auth s.running.server.prometheus
def permits (V : Viper) (s : Live) (newYAML : List UInt8) : Bool :=
  match parseYAMLConfig V newYAML with
  | .error _ => true
  | .ok cfg => fits s.running.server.exporter cfg.auth cfg.prometheus

/-- The server has the current options, and they fit its route. The exception is a path
that the server has replaced by its default. -/
structure Fitted (P : Plugins) (interval : Int) (s : Live) : Prop where
  reloaders : s.reloader.reloaders=agentReloaders P interval
  auth : s.running.server.auth=s.reloader.current.auth
  prometheus : s.running.server.prometheus=s.reloader.current.prometheus ∨
    s.reloader.current.prometheus.path="" ∧
      s.running.server.prometheus = {s.reloader.current.prometheus with path := "/metrics" }
  fits : s.startsFit

variable {P : Plugins} {interval : Int} {s : Live}

theorem fitted_start {cfg : Config}
    (hs : start P interval cfg=some s) (hfits : s.startsFit) : Fitted P interval s := by
  obtain ⟨⟨r,w⟩,hnew,rfl⟩ := map_eq_some_iff.mp hs
  obtain ⟨rfl,-,hserver⟩ := newAgent_spec hnew
  obtain ⟨hauth,hprom⟩ := Server.new_spec hserver
  refine ⟨rfl,hauth,?_,hfits⟩
  by_cases hpath : cfg.prometheus.path=""
  · rw [if_pos hpath] at hprom
    exact .inr ⟨hpath,hprom⟩
  · rw [if_neg hpath] at hprom
    exact .inl hprom

theorem fits_path {exporter : Option String} {auth : AuthConfig} {prometheus : PrometheusConfig}
    (h : fits exporter auth prometheus) (hpath : prometheus.path="") (path : String) :
    fits exporter auth {prometheus with path := path} = true := by
  unfold fits at h ⊢
  cases exporter with
  | none => simp
  | some route =>
    rw [Bool.or_eq_true] at h ⊢
    refine h.imp_right ?_
    rw [all_some,all_some,hpath,Bool.and_eq_true,Bool.and_eq_true,Bool.or_eq_true,Bool.or_eq_true]
    rintro ⟨hplain,hapi | hempty⟩
    · exact ⟨hplain,.inl hapi⟩
    · rw [Bool.and_eq_true,beq_iff_eq] at hempty
      rw [← hempty.2] at hplain
      cases hplain

theorem fitted_reload {V : Viper} {t : Live}
    {newYAML : List UInt8} (h : Fitted P interval s) (hg : s.permits V newYAML)
    (hs : s.reload V newYAML=some t) : Fitted P interval t := by
  obtain ⟨r,w⟩ := s
  rw [reload,some.injEq] at hs
  subst hs
  rcases apply_agent V h.reloaders newYAML w with
    ⟨err,w',happly,-,hserver⟩ | ⟨newCfg,w',hparse,happly,happlied⟩
  · dsimp only
    rw [happly]
    refine ⟨h.reloaders,?_,?_,?_⟩
    · exact (congrArg Server.auth hserver).trans h.auth
    · dsimp only
      rw [hserver]
      exact h.prometheus
    · have hf:=h.fits
      unfold startsFit at hf ⊢
      dsimp only at hf ⊢
      rw [hserver]
      exact hf
  · dsimp only
    rw [happly]
    rw [permits,hparse] at hg
    have hauth : w'.server.auth=newCfg.auth := happlied.auth_eq h.auth
    have hprom : w'.server.prometheus=newCfg.prometheus ∨ newCfg.prometheus.path="" ∧
        w'.server.prometheus = {newCfg.prometheus with path := "/metrics" } := by
      rcases happlied.prometheus_cases with hnew | ⟨hsame,hkeep⟩
      · exact .inl hnew
      · rw [← hsame,hkeep]
        exact h.prometheus
    refine ⟨h.reloaders,hauth,hprom,?_⟩
    unfold startsFit
    dsimp only
    rw [happlied.exporter,hauth]
    rcases hprom with heq | ⟨hpath,heq⟩ <;> rw [heq]
    · exact hg
    · exact fits_path hg hpath "/metrics"

theorem protects_of_fitted (h : Fitted P interval s) : s.Protects := by
  intro r hserves htoken
  have hprotect : s.running.server.prometheus.protectWithAuth =
      s.reloader.current.prometheus.protectWithAuth := by
    rcases h.prometheus with heq | ⟨-,heq⟩ <;> rw [heq]
  have hunauthorized : s.running.server.authorized r=false := by
    rw [Server.authorized,h.auth]
    exact htoken
  rw [← h.auth,← hprotect]
  have hfits:=h.fits
  obtain ⟨path,hexp⟩ := Server.exporter_of_servesMetrics hserves
  simp only [startsFit,fits,hexp,all_some,Bool.or_eq_true,Bool.not_eq_true',
    Bool.and_eq_true,beq_iff_eq] at hfits
  rcases hfits with hopen | ⟨hplain,hguarded⟩
  · exact hopen
  · by_contra hclosed
    rw [not_or,Bool.not_eq_false,Bool.not_eq_false] at hclosed
    have hreq : s.running.server.requiresAuth (utf8 path) := by
      rw [Server.requiresAuth,hclosed.1,hclosed.2]
      rcases hguarded with hapi | ⟨henabled,hpath⟩
      · simp [hapi]
      · simp [henabled,hpath]
    have hauthorized:=Server.authorized_of_servesMetrics hserves hexp hplain hreq
    cases hunauthorized.symm.trans hauthorized

/-- The metrics stay behind the token in every run of reloads that keep the options at the route. -/
theorem protects_of_permitted {V : Viper} {P : Plugins} {interval : Int} {cfg : Config} {s t : Live}
    {updates : List (List UInt8)} (hs : start P interval cfg=some s)
    (hfits : s.startsFit=true) (hg : guarded (reload V) (permits V) s updates=true)
    (hr : exec (reload V) s updates=some t) : t.Protects := by
  have hinv : Fitted P interval t :=
    exec_invariant (fun _ _ _ h hl hstep => fitted_reload h hl hstep)
      (fitted_start hs hfits) hg hr
  exact protects_of_fitted hinv

theorem protects_newToken : ∃ s t, start smallPlugins 10 securedConfig=some s ∧
      exec (reload (Viper.ofDocument newToken)) s [yamlText newToken]=some t ∧
      t.reloader.current.auth≠s.reloader.current.auth ∧ t.Protects := by
  have hrun : ((start smallPlugins 10 securedConfig).any fun s =>
      s.startsFit&&guarded (reload (Viper.ofDocument newToken)) (permits (Viper.ofDocument newToken)) s
        [yamlText newToken] &&
      (exec (reload (Viper.ofDocument newToken)) s [yamlText newToken]).any fun t =>
        decide (t.reloader.current.auth≠s.reloader.current.auth))=true := by
    simp only [guarded,exec,permits,reload,apply_newToken,parse_newToken]
    decide +kernel
  obtain ⟨s,hs,hd⟩ := (any_eq_true _ _).mp hrun
  rw [Bool.and_eq_true,Bool.and_eq_true] at hd
  obtain ⟨⟨hfits,hg⟩,hd⟩ := hd
  obtain ⟨t,hr,hne⟩ := (any_eq_true _ _).mp hd
  exact ⟨s,t,hs,hr,of_decide_eq_true hne,protects_of_permitted hs hfits hg hr⟩

theorem not_protects {r : Request} (hserves : s.running.server.servesMetrics r)
    (htoken : s.hasToken r=false) (henabled : s.reloader.current.auth.enabled)
    (hprotect : s.reloader.current.prometheus.protectWithAuth) : ¬ s.Protects := by
  intro hprotects
  rcases hprotects r hserves htoken with hopen | hopen
  · cases henabled.symm.trans hopen
  · cases hprotect.symm.trans hopen

def movedPath : Key → Option Val
  | .prometheusPath => some (.str "/stats")
  | k => secured k

def metricsRequest : Request where
  connect := false
  escapedPath := utf8 "/metrics"
  path := utf8 "/metrics"
  authorization := []
  decoded := by decide +kernel
  rooted := nofun

theorem movedPath_not_protects : ∃ s t, start smallPlugins 10 securedConfig=some s ∧
      exec (reload (Viper.ofDocument movedPath)) s [yamlText movedPath]=some t ∧ s.Protects ∧
      ¬ t.Protects := by
  have happly:=ConfigReloader.apply_yamlText (W := Running) movedPath (by decide +kernel)
    (by decide +kernel)
  have hrun : ((start smallPlugins 10 securedConfig).any fun s => s.startsFit &&
      (exec (reload (Viper.ofDocument movedPath)) s [yamlText movedPath]).any fun t =>
        decide (t.running.server.servesMetrics metricsRequest=true ∧
          t.hasToken metricsRequest=false ∧ t.reloader.current.auth.enabled=true ∧
          t.reloader.current.prometheus.protectWithAuth=true))=true := by
    simp only [exec,reload,happly]
    decide +kernel
  obtain ⟨s,hs,hd⟩ := (any_eq_true _ _).mp hrun
  rw [Bool.and_eq_true] at hd
  obtain ⟨t,hr,hd'⟩ := (any_eq_true _ _).mp hd.2
  obtain ⟨hserves,htoken,henabled,hprotect⟩ := of_decide_eq_true hd'
  exact ⟨s,t,hs,hr,protects_of_fitted (fitted_start hs hd.1),
    not_protects hserves htoken henabled hprotect⟩

end Live
end OpsAgent.App
