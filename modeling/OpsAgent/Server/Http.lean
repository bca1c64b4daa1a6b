import OpsAgent.Config.Types
import OpsAgent.Lib.ServeMux

/-!
# The local HTTP server (`server/server.go`, `server/handlers.go`, `server/middleware.go`)

The middleware decides by the decoded path whether a token is needed; the routes look at the path as
it was sent.
-/

namespace OpsAgent
open Lib.GoStrings Lib.GoPath Lib.ServeMux

inductive Route where
  | healthz | readyz | latestMetrics | exec | task | detailedHealth | config | logs | ui
  | prometheusMetrics
  deriving DecidableEq

def fixedRoutes : List (GoString × Route) :=
  [(utf8 "/healthz",.healthz),(utf8 "/readyz",.readyz),
    (utf8 "/api/v1/metrics/latest",.latestMetrics),(utf8 "/api/v1/exec",.exec),
    (utf8 "/api/v1/tasks",.task),(utf8 "/api/v1/health/detailed",.detailedHealth),
    (utf8 "/api/v1/config",.config),(utf8 "/api/v1/logs",.logs),(utf8 "/ui/",.ui)]

def registerRoutes (exporter : Option String) : Option (Mux Route) :=
  Mux.handleAll [] (fixedRoutes++exporter.toList.map fun path => (utf8 path,.prometheusMetrics))

structure Server where
  auth : AuthConfig
  prometheus : PrometheusConfig
  exporter : Option String
  mux : Mux Route
  registered : registerRoutes exporter=some mux

/-- A request as `net/http` gives it to the handlers: `r.URL.EscapedPath()` and
`r.URL.Path`. -/
structure Request where
  connect : Bool
  (escapedPath path authorization : GoString)
  decoded : unescape escapedPath=some path
  rooted : connect → escapedPath=[] ∨ isAbs escapedPath

inductive Response where
  | unauthorized
  | routed (o : Outcome Route)
  deriving DecidableEq

namespace Server

/-- `New`, which panics if the path of the exporter cannot be registered. -/
def new (auth : AuthConfig) (prometheus : PrometheusConfig) : Option Server :=
  let prometheus :=
    if prometheus.path="" then {prometheus with path := "/metrics" } else prometheus
  let exporter := if prometheus.enabled then some prometheus.path else none
  match h : registerRoutes exporter with
  | none => none
  | some mux => some ⟨auth,prometheus,exporter,mux,h⟩

def requiresAuth (s : Server) (path : GoString) : Bool :=
  if !s.auth.enabled then false
  else if hasPrefix path (utf8 "/api/v1/") then true
  else s.prometheus.enabled&&s.prometheus.protectWithAuth&&path == utf8 s.prometheus.path
def authorized (s : Server) (r : Request) : Bool :=
  trimSpaces r.authorization == utf8 "Bearer "++utf8 s.auth.bearerToken
def serve (s : Server) (r : Request) : Response :=
  if s.requiresAuth r.path&&!s.authorized r then .unauthorized
  else .routed (s.mux.findHandler r.connect r.escapedPath)
def servesMetrics (s : Server) (r : Request) : Bool :=
  s.serve r == .routed (.handler .prometheusMetrics)

variable {s : Server}

theorem new_spec {auth : AuthConfig} {prometheus : PrometheusConfig}
    (h : new auth prometheus=some s) :
    s.auth=auth ∧
      s.prometheus=(if prometheus.path="" then {prometheus with path := "/metrics" }
        else prometheus) := by
  unfold new at h
  dsimp only at h
  split at h
  · cases h
  · cases h
    exact ⟨rfl,rfl⟩

theorem exporter_of_mem {e : Entry Route} (he : e∈s.mux) (hh : e.handler=.prometheusMetrics) :
    ∃ path, s.exporter=some path ∧ parsePattern (utf8 path)=some e.segments := by
  rcases Mux.mem_handleAll s.registered he with hnil | ⟨r,hr,hparse,hr2⟩
  · cases hnil
  · rw [hh] at hr2
    rcases List.mem_append.mp hr with hfixed | hexp
    · have hnot : ∀ q∈fixedRoutes, q.2 ≠ .prometheusMetrics := by decide
      exact absurd hr2.symm (hnot r hfixed)
    · obtain ⟨path,hpath,rfl⟩ := List.mem_map.mp hexp
      exact ⟨path,Option.mem_toList.mp hpath,hparse⟩

variable {r : Request} {path : String}

theorem routed_of_servesMetrics (h : s.servesMetrics r) :
    s.mux.findHandler r.connect r.escapedPath=.handler .prometheusMetrics := by
  rw [servesMetrics,beq_iff_eq,serve] at h
  split at h
  · cases h
  · exact Response.routed.inj h

theorem exporter_of_servesMetrics (h : s.servesMetrics r) : ∃ path, s.exporter=some path := by
  obtain ⟨-,e,he,hh,-⟩ := findHandler_eq_handler (routed_of_servesMetrics h)
  obtain ⟨path,hexp,-⟩ := exporter_of_mem he hh
  exact ⟨path,hexp⟩

theorem path_of_servesMetrics (h : s.servesMetrics r) (hexp : s.exporter=some path)
    (hplain : plainPath (utf8 path)) : r.path=utf8 path := by
  obtain ⟨hclean,e,he,hh,hlit⟩ := findHandler_eq_handler (routed_of_servesMetrics h)
  obtain ⟨path',hexp',hparse⟩ := exporter_of_mem he hh
  cases hexp.symm.trans hexp'
  have habs : isAbs r.escapedPath := by
    cases hc : r.connect with
    | false =>
      rw [← hclean hc]
      exact isAbs_cleanPath r.escapedPath
    | true =>
      refine (r.rooted hc).resolve_left ?_
      intro hnil
      obtain ⟨rest,hp⟩ := exists_of_plainPath hplain
      rw [hp] at hparse hplain
      obtain ⟨hl,hmap⟩ := parsePattern_plain hplain hparse
      have hsegs:=hlit hl
      rw [hnil,hmap] at hsegs
      exact List.splitOn_ne_nil slash rest hsegs.symm
  exact path_eq_of_plain hplain hparse habs r.decoded hlit

theorem authorized_of_servesMetrics (h : s.servesMetrics r) (hexp : s.exporter=some path)
    (hplain : plainPath (utf8 path)) (hreq : s.requiresAuth (utf8 path)) : s.authorized r := by
  have hpath:=path_of_servesMetrics h hexp hplain
  rw [servesMetrics,beq_iff_eq,serve,hpath,hreq] at h
  cases ha : s.authorized r with
  | true => rfl
  | false =>
    rw [ha] at h
    cases h

end Server
end OpsAgent
