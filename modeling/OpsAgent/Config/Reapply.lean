import OpsAgent.Config.Reload

/-!
# Reloading the file the agent was started with
-/

namespace OpsAgent
open Lib.GoValue

def isZeroVal : Val → Bool
  | .str s => s == ""
  | .int n => n == 0
  | .bool b => !b
  | _ => false

def hasKind : Kind → Val → Bool
  | .string, .str _ => true
  | .int, .int _ => true
  | .bool, .bool _ => true
  | _, _ => false

theorem default_hasKind (k : Key) (d : Val) (h : k.default=some d) : hasKind k.kind d := by
  have hall : Key.all.all (fun k => k.default.all (hasKind k.kind)) := by decide +kernel
  have hk:=List.all_eq_true.mp hall k (Key.mem_all k)
  rwa [h] at hk

theorem decode_own (V : Viper) (k : Kind) (d : Val) (h : hasKind k d) :
    ∃ x, V.decode k d=.ok (x,[]) ∧ (x=k.zero ↔ isZeroVal d) := by
  cases k <;> cases d <;> simp only [hasKind,Bool.false_eq_true] at h
  case string.str s => exact ⟨s,V.decode_string s,by simp [Kind.zero,isZeroVal]⟩
  case int.int n => exact ⟨n,V.decode_int n,by simp [Kind.zero,isZeroVal]⟩
  case bool.bool b => exact ⟨b,V.decode_bool b,by simp [Kind.zero,isZeroVal]⟩

namespace Settings

variable (s : Settings)

theorem withDefaults_get_of_set (k : Key) (v : Val) (h : s.get k=some v) :
    s.withDefaults.get k=some v := by simp [withDefaults,h]

variable (V : Viper)

theorem fieldErrors_eq_nil :
    s.fieldErrors V=[] ↔ ∀ k v, s.get k=some v → ∃ out, V.decode k.kind v=.ok out := by
  simp only [fieldErrors,List.filterMap_eq_nil_iff]
  constructor
  · intro h k v hv
    have hk:=h k (Key.mem_all k)
    rw [hv] at hk
    cases hd : V.decode k.kind v with
    | ok out => exact ⟨out,rfl⟩
    | error err => simp only [hd,reduceCtorEq] at hk
  · intro h k _
    cases hv : s.get k with
    | none => rfl
    | some v =>
      obtain ⟨out,hd⟩ := h k v hv
      simp only [hd]

theorem fieldErrors_of_withDefaults (h : s.withDefaults.fieldErrors V=[]) : s.fieldErrors V=[] := by
  rw [fieldErrors_eq_nil] at h ⊢
  intro k v hv
  exact h k v (s.withDefaults_get_of_set k v hv)

theorem read_withDefaults_iff (k : Key) : s.withDefaults.read V k=s.read V k ↔
      ∀ d, k.default=some d → isZeroVal d=false → (s.get k).isSome := by
  cases hv : s.get k with
  | some v => simp [read,hv,s.withDefaults_get_of_set k v hv]
  | none =>
    have hget : s.withDefaults.get k=k.default := by simp [withDefaults,hv]
    cases hd : k.default with
    | none => simp [read,hv,hget,hd]
    | some d =>
      obtain ⟨x,hx,hz⟩ := decode_own V k.kind d (default_hasKind k d hd)
      simp [read,hget,hv,hd,hx,Option.some.injEq,hz]

theorem unmarshal_eq_ok (exact : Bool) (s : Settings) (cfg : Config) :
    s.unmarshal V exact=.ok cfg ↔ s.fieldErrors V=[] ∧
      (if exact then s.unused V else [])=[] ∧ Config.build (s.read V)=cfg := by
  unfold unmarshal
  by_cases h : s.fieldErrors V=[] ∧ (if exact then s.unused V else [])=[]
  · simp [h,Except.ok.injEq]
  · simp only [if_neg h,reduceCtorEq,false_iff]
    exact fun hc => h ⟨hc.1,hc.2.1⟩

end Settings

/- What a successful `Load` says about the document. -/
theorem load_eq_ok {V : Viper} {data : List UInt8} {cfg : Config} (h : load V (.ok data)=.ok cfg) :
    ∃ s, V.readConfig data=.ok s ∧ s.withDefaults.fieldErrors V=[] ∧
      Config.build (s.withDefaults.read V)=cfg ∧ cfg.validate=none := by
  unfold load at h
  cases hs : V.readConfig data with
  | error err => simp only [Except.bind,hs,reduceCtorEq] at h
  | ok s =>
    simp only [Except.bind,hs] at h
    cases hu : s.withDefaults.unmarshal V true with
    | error err => simp only [hu,reduceCtorEq] at h
    | ok cfg' =>
      cases hv : cfg'.validate with
      | some err => simp only [hu,hv,reduceCtorEq] at h
      | none =>
        simp only [hu,hv,Except.ok.injEq] at h
        subst h
        obtain ⟨herr,-,hb⟩ := (s.withDefaults.unmarshal_eq_ok V true cfg').mp hu
        exact ⟨s,rfl,herr,hb,hv⟩

theorem parseYAMLConfig_of_loaded {V : Viper} {data : List UInt8} {s : Settings}
    (hs : V.readConfig data=.ok s) (herr : s.withDefaults.fieldErrors V=[]) :
    parseYAMLConfig V data=.ok (Config.build (s.read V)) := by
  have hu : s.unmarshal V false=.ok (Config.build (s.read V)) :=
    (s.unmarshal_eq_ok V false _).mpr ⟨s.fieldErrors_of_withDefaults V herr,rfl,rfl⟩
  simp only [parseYAMLConfig,hs,hu]

def documentSets (V : Viper) (data : List UInt8) (k : Key) : Bool :=
  match V.readConfig data with
  | .ok s => (s.get k).isSome
  | .error _ => false

theorem build_withDefaults_iff (V : Viper) (s : Settings) :
    Config.build (s.withDefaults.read V)=Config.build (s.read V) ↔
      ∀ k d, k.default=some d → isZeroVal d=false → (s.get k).isSome := by
  constructor
  · intro h k
    have hk:=congrArg k.get h
    rw [Key.get_build,Key.get_build] at hk
    exact (s.read_withDefaults_iff V k).mp hk
  · intro h
    have hrd : s.withDefaults.read V=s.read V :=
      funext fun k => (s.read_withDefaults_iff V k).mpr (h k)
    rw [hrd]

def Config.nanFree (c : Config) : Bool :=
  c.collector.nanFree&&c.pluginGateway.nanFree&&c.alerting.nanFree

theorem Config.silent_self (c : Config) (hv : c.validate=none) : Silent c c ↔ c.nanFree := by
  rw [silent_iff_comparedEqual c c hv]
  simp only [nanFree,Bool.and_eq_true]
  constructor
  · intro h
    have hc:=h.collector
    have hp:=h.pluginGateway
    have ha:=h.alerting
    rw [collector_deepEqual_self] at hc
    rw [pluginGateway_deepEqual_self] at hp
    rw [alerting_deepEqual_self] at ha
    exact ⟨⟨hc,hp⟩,ha⟩
  · rintro ⟨⟨hc,hp⟩,ha⟩
    exact ⟨by rw [collector_deepEqual_self,hc],rfl,rfl,rfl,
      by rw [pluginGateway_deepEqual_self,hp],rfl,by rw [alerting_deepEqual_self,ha],
      ⟨rfl,rfl,rfl,rfl⟩,rfl,rfl,rfl,rfl,rfl,rfl⟩

namespace ConfigReloader

variable {W : Type}

theorem applyLoop_unaccepted (cs : ChangeSet) (old new : Config) (rels done : List (Reloader W))
    (w : W) (h : ∀ rel∈rels, rel.canReload cs=false) : applyLoop cs old new rels done w=(none,w) := by
  induction rels with
  | nil => rfl
  | cons rel rels ih =>
    have hr:=h rel List.mem_cons_self
    simp only [applyLoop,hr,Bool.false_eq_true,if_false]
    exact ih fun rel' hmem => h rel' (List.mem_cons_of_mem rel hmem)

def AppliesNothing (V : Viper) (r : ConfigReloader W) (data : List UInt8) (w : W) : Prop :=
  r.apply V data w=(none,r,w) ∧
  ∃ newCfg, parseYAMLConfig V data=.ok newCfg ∧ r.current.Silent newCfg

theorem apply_of_silent (V : Viper) (r : ConfigReloader W) (data : List UInt8) (w : W)
    (hrel : ∀ rel∈r.reloaders, rel.canReload ChangeSet.empty=false)
    (hsize : data.length ≤ maxConfigYAMLSize)
    (hparse : parseYAMLConfig V data=.ok r.current) (hs : r.current.Silent r.current) :
    r.apply V data w=(none,r,w) := by
  have hd : r.current.diff r.current=.ok (ChangeSet.empty,[]) := hs
  rw [apply,if_neg (Nat.not_lt.mpr hsize)]
  simp only [hparse,applyConfig,hd,
    applyLoop_unaccepted ChangeSet.empty r.current r.current r.reloaders [] w hrel]

theorem apply_unchanged (V : Viper) (r : ConfigReloader W) (data : List UInt8) (w : W)
    (h : r.apply V data w=(none,r,w)) :
    data.length ≤ maxConfigYAMLSize ∧ parseYAMLConfig V data=.ok r.current := by
  rcases apply_cases V r data w with ⟨err,he⟩ | ⟨newCfg,hsize,hp,he⟩
  · simp only [h,Prod.mk.injEq,reduceCtorEq,false_and] at he
  · rw [h] at he
    rcases applyConfig_cases r newCfg w with ⟨err,ha⟩ | ⟨cs,-,⟨err,w',-,ha⟩ | ⟨w',-,ha⟩⟩ <;>
      simp only [ha,Prod.mk.injEq,reduceCtorEq,false_and,true_and] at he
    have hc : r.current=newCfg := congrArg ConfigReloader.current he.1
    rw [hc]
    exact ⟨hsize,hp⟩

/-- `Load` registers defaults and `parseYAMLConfig` does not, so the file of the running configuration
changes nothing exactly if it spells out every default that is not zero. -/
theorem reapply_loaded_iff (V : Viper) (data : List UInt8) (cfg : Config)
    (hload : load V (.ok data)=.ok cfg) (r : ConfigReloader W) (hcur : r.current=cfg)
    (hrel : ∀ rel∈r.reloaders, rel.canReload ChangeSet.empty=false) (w : W) : r.AppliesNothing V data w ↔
      data.length ≤ maxConfigYAMLSize ∧
      (∀ k d, Key.default k=some d → isZeroVal d=false → documentSets V data k=true) ∧
      cfg.nanFree=true := by
  obtain ⟨s,hs,herr,hb,hv⟩ := load_eq_ok hload
  have hparse:=parseYAMLConfig_of_loaded hs herr
  have hsets : ∀ k, documentSets V data k=(s.get k).isSome := by
    intro k
    simp only [documentSets,hs]
  have hsame:=build_withDefaults_iff V s
  simp only [← hsets] at hsame
  constructor
  · rintro ⟨hap,newCfg,hp,hsil⟩
    obtain ⟨hsize,hcfg⟩ := apply_unchanged V r data w hap
    rw [hparse,Except.ok.injEq] at hcfg hp
    subst hp
    rw [hcfg,hcur] at hsil
    refine ⟨hsize,hsame.mp ?_,(Config.silent_self cfg hv).mp hsil⟩
    rw [hb,hcfg,hcur]
  · rintro ⟨hsize,hset,hnan⟩
    have hbuild:=hsame.mpr hset
    rw [← hbuild,hb,← hcur] at hparse
    rw [hcur.symm] at hv hnan
    have hsil:=(Config.silent_self r.current hv).mpr hnan
    exact ⟨apply_of_silent V r data w hrel hsize hparse hsil,r.current,hparse,hsil⟩

def loaded (get : Key → Option Val) : Config :=
  Config.build ((Settings.withDefaults ⟨get,[]⟩).read (Viper.ofDocument get))

theorem load_yamlText (get : Key → Option Val)
    (herr : (Settings.withDefaults ⟨get,[]⟩).fieldErrors (Viper.ofDocument get)=[])
    (hunused : (Settings.withDefaults ⟨get,[]⟩).unused (Viper.ofDocument get)=[])
    (hv : (loaded get).validate=none) :
    load (Viper.ofDocument get) (.ok (yamlText get))=.ok (loaded get) := by
  have hall:=(Settings.unmarshal_eq_ok _ true _ (loaded get)).mpr ⟨herr,hunused,rfl⟩
  simp only [load,Except.bind,readConfig_yamlText,hall,hv]

theorem reapply_loaded_spelledOut :
    ∃ cfg, load (Viper.ofDocument spelledOut) (.ok (yamlText spelledOut))=.ok cfg ∧
      (⟨cfg,[]⟩ : ConfigReloader Unit).AppliesNothing (Viper.ofDocument spelledOut)
        (yamlText spelledOut) () := by
  have hload:=load_yamlText spelledOut (by decide +kernel) (by decide +kernel)
    (by decide +kernel)
  have hsets : ∀ k d, Key.default k=some d →
      documentSets (Viper.ofDocument spelledOut) (yamlText spelledOut) k=true := by
    intro k d hd
    simp only [documentSets,readConfig_yamlText,spelledOut,hd]
    rw [Option.isSome_or]
    exact Bool.or_true _
  refine ⟨_,hload,(reapply_loaded_iff _ _ _ hload ⟨_,[]⟩ rfl nofun ()).mpr ⟨?_,?_,?_⟩⟩
  · decide +kernel
  · exact fun k d hd _ => hsets k d hd
  · decide +kernel

theorem reapply_required_keys_refused :
    ¬ ∀ (V : Viper) (data : List UInt8) (cfg : Config), load V (.ok data)=.ok cfg →
      ∀ (r : ConfigReloader Unit), r.current=cfg →
      (∀ rel∈r.reloaders, rel.canReload ChangeSet.empty=false) → ∀ w, r.AppliesNothing V data w := by
  intro h
  have hload:=load_yamlText requiredKeys (by decide +kernel) (by decide +kernel)
    (by decide +kernel)
  have ha:=(h _ _ _ hload ⟨_,[]⟩ rfl nofun ()).1
  rw [apply_yamlText _ (by decide +kernel) (by decide +kernel)] at ha
  have hr:=congrArg Prod.fst ha
  change some "diff config: invalid new config: agent.interval_seconds must be > 0"=none at hr
  cases hr

end ConfigReloader
end OpsAgent
