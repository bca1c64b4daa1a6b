import OpsAgent.App.MetricsAccess
import OpsAgent.Lib.TextTrim

/-!
# The bearer token from the configuration to the requests
(`config/config.go`, `server/reload.go`, `server/middleware.go`)
-/

namespace OpsAgent.App
open List Bool
open OpsAgent.Collector (Plugins smallPlugins)
open Lib Lib.Exec Lib.GoStrings Lib.GoValue Lib.ServeMux
open Lib.TextLines (encode encode_append)

theorem isSpace_eq (c : Char) : isSpace c=TextTrim.isSpace c := by
  have hinj : Function.Injective Char.toNat := fun _ _ h => Char.toNat_inj.mp h
  have hcodes : ([0x09,0x0a,0x0b,0x0c,0x0d,0x20,0x85,0xa0,0x1680,0x2028,0x2029,0x202f,
      0x205f,0x3000]++range' 0x2000 11).Perm (whiteSpace.map Char.toNat) := by decide
  have hrange : c.toNat∈range' 0x2000 11 ↔ 0x2000≤c.toNat ∧ c.toNat≤0x200a := by
    rw [mem_range'_1]
    omega
  rw [Bool.eq_iff_iff,TextTrim.isSpace,contains_iff_mem,← mem_map_of_injective hinj,
    ← hcodes.mem_iff,mem_append,hrange,isSpace,or_eq_true,contains_iff_mem,
    and_eq_true,decide_eq_true_iff,decide_eq_true_iff]

theorem trimSpaces_utf8 (s : String) : trimSpaces (utf8 s)=utf8 (trimSpace s) := by
  have hspace : isSpace=TextTrim.isSpace := funext isSpace_eq
  rw [TextTrim.utf8_eq_encode,TextTrim.utf8_eq_encode,TextTrim.trimSpaces_encode,trimSpace,
    String.toList_ofList,TextTrim.trim,hspace]

theorem validate_of_diff {old new : Config} {out : ChangeSet × List NonReloadableChange}
    (h : old.diff new=.ok out) : new.validate=none := by
  unfold Config.diff at h
  cases hvalid : new.validate with
  | some err =>
    rw [hvalid] at h
    cases h
  | none => rfl

theorem valid_apply (V : Viper) (r : ConfigReloader Running) (newYAML : List UInt8) (w : Running)
    (h : r.current.validate=none) : (r.apply V newYAML w).2.1.current.validate=none := by
  rcases ConfigReloader.apply_cases V r newYAML w with ⟨err,ha⟩ | ⟨newCfg,-,-,ha⟩
  · rw [ha]
    exact h
  · rw [ha]
    rcases ConfigReloader.applyConfig_cases r newCfg w with ⟨err,hc⟩ | ⟨cs,hdiff,hend⟩
    · rw [hc]
      exact h
    · rcases hend with ⟨err,w',-,hc⟩ | ⟨w',-,hc⟩ <;> rw [hc]
      · exact h
      · exact validate_of_diff hdiff

namespace Live

structure Settled (P : Plugins) (interval : Int) (s : Live) : Prop where
  reloaders : s.reloader.reloaders=agentReloaders P interval
  auth : s.running.server.auth=s.reloader.current.auth
  valid : s.reloader.current.validate=none

variable {interval : Int} {P : Plugins} {s : Live}

theorem settled_start {cfg : Config}
    (hs : start P interval cfg=some s) (hvalid : cfg.validate=none) : Settled P interval s := by
  obtain ⟨⟨r,w⟩,hnew,rfl⟩ := Option.map_eq_some_iff.mp hs
  obtain ⟨rfl,-,hserver⟩ := newAgent_spec hnew
  exact ⟨rfl,(Server.new_spec hserver).1,hvalid⟩

theorem settled_reload {V : Viper} {t : Live}
    {newYAML : List UInt8} (h : Settled P interval s) (hs : s.reload V newYAML=some t) :
    Settled P interval t := by
  obtain ⟨r,w⟩ := s
  rw [reload,Option.some.injEq] at hs
  subst hs
  have hvalid:=valid_apply V r newYAML w h.valid
  rcases apply_agent V h.reloaders newYAML w with
    ⟨err,w',happly,-,hserver⟩ | ⟨newCfg,w',-,happly,happlied⟩ <;>
    rw [happly] at hvalid <;> dsimp only <;> rw [happly]
  · exact ⟨h.reloaders,(congrArg Server.auth hserver).trans h.auth,hvalid⟩
  · exact ⟨h.reloaders,happlied.auth_eq h.auth,hvalid⟩

/- The header values that `net/http` lets pass: no control characters except the tab. -/
def sendable (h : GoString) : Bool := h.all fun b => b == 9||(decide (32≤b)&&b != 127)
def bearer (token : String) : GoString := utf8 "Bearer "++utf8 token
def token (s : Live) : String := s.reloader.current.auth.bearerToken
def admits (s : Live) (r : Request) : Bool := s.running.server.serve r != .unauthorized
def guards (s : Live) (r : Request) : Bool := s.running.server.requiresAuth r.path

/- A request for a protected path is admitted exactly if its header, without the white space
around it, has the token without the white space around it; and there is such a header. -/
structure AdmitsToken (s : Live) : Prop where
  exactly : ∀ r : Request, sendable r.authorization → s.guards r →
    (s.admits r ↔
      trimSpaces r.authorization=bearer (trimSpace s.token))
  someone : ∃ r : Request, sendable r.authorization ∧ s.guards r ∧
    s.admits r

theorem admits_iff (h : Settled P interval s) {r : Request} (hr : s.guards r) :
    s.admits r ↔ trimSpaces r.authorization=bearer s.token := by
  rw [guards] at hr
  rw [admits,bearer,Server.serve,hr,Bool.true_and,token,← h.auth]
  cases hauth : s.running.server.authorized r with
  | true | false => simpa [Server.authorized] using hauth

theorem sendable_of_infix {x y : GoString} (hwithin : x <:+: y) (hy : sendable y) : sendable x := by
  rw [sendable,all_eq_true] at hy ⊢
  exact fun b hb => hy b (hwithin.subset hb)
theorem trimSpaces_within (x : GoString) : trimSpaces x <:+: x :=
  (trimRight_initial _).isInfix.trans (strip_suffix spaces x.length x).isInfix
theorem sendable_append (x y : GoString) : sendable (x++y)=(sendable x&&sendable y) :=
  all_append

theorem trimSpaces_bearer {tok : String} (hblank : isBlank tok=false) :
    trimSpaces (bearer (trimSpace tok))=bearer (trimSpace tok) := by
  have hspace : isSpace=TextTrim.isSpace := funext isSpace_eq
  have htrim : (trimSpace tok).toList=TextTrim.trim tok.toList := by
    rw [trimSpace,String.toList_ofList,TextTrim.trim,hspace]
  have hne : TextTrim.trim tok.toList≠[] := by
    intro hnil
    rw [isBlank,beq_eq_false_iff_ne] at hblank
    rw [hnil] at htrim
    exact hblank (String.toList_inj.mp htrim)
  have hlast : ("Bearer ".toList++TextTrim.trim tok.toList).getLast? =
      (TextTrim.trim tok.toList).getLast? := getLast?_append_of_ne_nil _ hne
  have hself : TextTrim.trim ("Bearer ".toList++TextTrim.trim tok.toList) =
      "Bearer ".toList++TextTrim.trim tok.toList := by
    refine TextTrim.trim_eq_self ?_ ?_
    · intro c hc
      have hb : 'B' = c := by simpa using hc
      rw [← hb]
      decide
    · rw [hlast]
      exact TextTrim.getLast?_trim _
  rw [bearer,TextTrim.utf8_eq_encode,TextTrim.utf8_eq_encode,htrim,← encode_append,
    TextTrim.trimSpaces_encode,hself]

theorem sendable_bearer : sendable (utf8 "Bearer ") := by decide +kernel

def configRequest (authorization : GoString) : Request where
  connect := false
  escapedPath := utf8 "/api/v1/config"
  path := utf8 "/api/v1/config"
  authorization := authorization
  decoded := by decide +kernel
  rooted := fun h => absurd h Bool.false_ne_true

theorem guards_configRequest (h : Settled P interval s)
    (henabled : s.reloader.current.auth.enabled) (authorization : GoString) :
    s.guards (configRequest authorization) := by
  have hapi : hasPrefix (utf8 "/api/v1/config") (utf8 "/api/v1/") := by decide +kernel
  simp [guards,Server.requiresAuth,h.auth,henabled,configRequest,hapi]

theorem not_isBlank_token (h : Settled P interval s)
    (henabled : s.reloader.current.auth.enabled) : isBlank s.token=false := by
  have hmem : ⟨isBlank s.token,"auth.bearer_token is required when auth.enabled=true"⟩ ∈
      s.reloader.current.checks := by
    simp only [Config.checks,Config.checkAuth,henabled,if_true,mem_append,token]
    simp
  have hpassed:=(Config.validate_eq_none _).mp h.valid _ hmem
  exact hpassed

/- After every run of reloads the token decides as it should exactly if there is no white space
around it, and no control characters are in it. -/
theorem admitsToken_iff (V : Viper) (P : Plugins) (interval : Int) (cfg : Config) (s t : Live)
    (updates : List (List UInt8)) (hs : start P interval cfg=some s)
    (hvalid : cfg.validate=none) (hr : exec (reload V) s updates=some t)
    (henabled : t.reloader.current.auth.enabled=true) :
    t.AdmitsToken ↔ trimSpace t.token=t.token ∧ sendable (utf8 t.token)=true := by
  have hsettled : Settled P interval t :=
    exec_stable (I := Settled P interval) (fun _ _ _ h hstep => settled_reload h hstep)
      (settled_start hs hvalid) hr
  have hblank:=not_isBlank_token hsettled henabled
  constructor
  · intro h
    obtain ⟨r,hsend,hguards,hadmits⟩ := h.someone
    have htoken : sendable (utf8 t.token)=true := by
      have htrimmed:= sendable_of_infix (trimSpaces_within _) hsend
      rw [(admits_iff hsettled hguards).mp hadmits,bearer,sendable_append,and_eq_true] at htrimmed
      exact htrimmed.2
    refine ⟨?_,htoken⟩
    -- the header with the trimmed token is admitted, so it is the header with the token
    have hheader : sendable (configRequest (bearer (trimSpace t.token))).authorization=true := by
      change sendable (bearer (trimSpace t.token))=true
      rw [bearer,sendable_append,sendable_bearer,Bool.true_and,← trimSpaces_utf8]
      exact sendable_of_infix (trimSpaces_within _) htoken
    have hguarded:=guards_configRequest hsettled henabled (bearer (trimSpace t.token))
    have hself : trimSpaces (configRequest (bearer (trimSpace t.token))).authorization =
        bearer (trimSpace t.token) := trimSpaces_bearer hblank
    have hexactly:=h.exactly (configRequest (bearer (trimSpace t.token))) hheader hguarded
    have hequal:=(admits_iff hsettled hguarded).mp (hexactly.mpr hself)
    rw [hself,bearer,bearer,append_cancel_left_eq,TextTrim.utf8_eq_encode,
      TextTrim.utf8_eq_encode] at hequal
    have hdecode:=congrArg TextLines.decode? hequal
    rw [TextLines.decode?_encode,TextLines.decode?_encode,Option.some.injEq] at hdecode
    exact String.toList_inj.mp hdecode
  · rintro ⟨htrim,hsend⟩
    refine ⟨fun r _ hguards => ?_,configRequest (bearer t.token),?_,?_,?_⟩
    · rw [htrim]
      exact admits_iff hsettled hguards
    · change sendable (bearer t.token)=true
      rw [bearer,sendable_append,sendable_bearer,hsend]
      rfl
    · exact guards_configRequest hsettled henabled _
    · have hself:=trimSpaces_bearer hblank
      rw [htrim] at hself
      exact (admits_iff hsettled (guards_configRequest hsettled henabled _)).mpr hself

theorem admitsToken_newToken : ∃ s t, start smallPlugins 10 securedConfig=some s ∧
      exec (reload (Viper.ofDocument newToken)) s [yamlText newToken]=some t ∧
      t.token="fedcba9876543210fedcba9876543210" ∧ t.AdmitsToken := by
  have hrun : ((start smallPlugins 10 securedConfig).any fun s =>
      (exec (reload (Viper.ofDocument newToken)) s [yamlText newToken]).any fun t =>
        decide (t.reloader.current.auth=⟨true,"fedcba9876543210fedcba9876543210"⟩))=true := by
    simp only [exec,reload,apply_newToken]
    decide +kernel
  obtain ⟨s,hs,hd⟩ := (Option.any_eq_true _ _).mp hrun
  obtain ⟨t,hr,hauth⟩ := (Option.any_eq_true _ _).mp hd
  have hauth:=of_decide_eq_true hauth
  have htoken : t.token="fedcba9876543210fedcba9876543210" := congrArg AuthConfig.bearerToken hauth
  have henabled : t.reloader.current.auth.enabled=true := congrArg AuthConfig.enabled hauth
  have hvalid : securedConfig.validate=none := by decide +kernel
  have hplain : trimSpace t.token=t.token ∧ sendable (utf8 t.token)=true := by
    rw [htoken]
    decide +kernel
  have hiff:=admitsToken_iff (Viper.ofDocument newToken) smallPlugins 10 securedConfig s t
    [yamlText newToken] hs hvalid hr henabled
  exact ⟨s,t,hs,hr,htoken,hiff.mpr hplain⟩

def spacedToken : Key → Option Val
  | .authBearerToken => some (.str "0123456789abcdef0123456789abcdef ")
  | k => secured k

/- A valid configuration with a space after the token: no request for a protected path is
admitted. -/
theorem spacedToken_admits_nobody : (configOf spacedToken).validate=none ∧
      ∃ s, start smallPlugins 10 (configOf spacedToken)=some s ∧ s.reloader.current.auth.enabled=true ∧
        ∀ r, s.guards r=true → s.admits r=false := by
  refine ⟨by decide +kernel,?_⟩
  have hrun : ((start smallPlugins 10 (configOf spacedToken)).any fun s =>
      decide (s.reloader.current.auth=⟨true,"0123456789abcdef0123456789abcdef "⟩))=true := by
    decide +kernel
  obtain ⟨s,hs,hd⟩ := (Option.any_eq_true _ _).mp hrun
  have hauth:=of_decide_eq_true hd
  have hsettled:=settled_start hs (by decide +kernel)
  have htoken : s.token="0123456789abcdef0123456789abcdef " := congrArg AuthConfig.bearerToken hauth
  refine ⟨s,hs,congrArg AuthConfig.enabled hauth,fun r hguards => ?_⟩
  rw [← not_eq_true,admits_iff hsettled hguards,htoken]
  intro heq
  have htwice:=congrArg trimSpaces heq
  rw [trimSpaces_trimSpaces,heq] at htwice
  revert htwice
  decide +kernel

end Live
end OpsAgent.App
