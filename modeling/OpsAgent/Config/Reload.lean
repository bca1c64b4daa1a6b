import OpsAgent.Config.Diff
import OpsAgent.Config.Load

/-!
# `ConfigReloader.Apply` (`config/reload.go`)

The state that they change is a type `W`.
-/

namespace OpsAgent
open List

structure Reloader (W : Type) where
  canReload : ChangeSet → Bool
  -- the error, if any, and the state left behind
  (apply rollback : Config → W → Option String × W)

structure ConfigReloader (W : Type) where
  current : Config
  reloaders : List (Reloader W)

def maxConfigYAMLSize : Nat := 1 <<< 20

namespace ConfigReloader

variable {W : Type}

/- `applied` is newest first, the order in which `Apply` undoes it; an error of
`Rollback` is only logged. -/
def rollbackAll (old : Config) : List (Reloader W) → W → W
  | [], w => w
  | rel::applied, w => rollbackAll old applied (rel.rollback old w).2

def applyLoop (cs : ChangeSet) (old new : Config) :
    List (Reloader W) → List (Reloader W) → W → Option String × W
  | [], _, w => (none,w)
  | rel::rels, applied, w =>
    if rel.canReload cs then
      match rel.apply new w with
      | (some err,w) => (some ("apply reloader failed: "++err),rollbackAll old applied w)
      | (none,w) => applyLoop cs old new rels (rel::applied) w
    else applyLoop cs old new rels applied w

/- `Apply` once the document is parsed. -/
def applyConfig (r : ConfigReloader W) (newCfg : Config) (w : W) :
    Option String × ConfigReloader W × W :=
  match r.current.diff newCfg with
  | .error err => (some ("diff config: "++err),r,w)
  | .ok (_,c::cs) =>
    let fields := " ".intercalate ((c::cs).map NonReloadableChange.field)
    (some s!"non-reloadable changes rejected (restart required): [{fields}]",r,w)
  | .ok (cs,[]) => match applyLoop cs r.current newCfg r.reloaders [] w with
    | (some err,w) => (some err,r,w)
    | (none,w) => (none,{r with current := newCfg},w)

def apply (V : Viper) (r : ConfigReloader W) (newYAML : List UInt8) (w : W) :
    Option String × ConfigReloader W × W :=
  let n:=newYAML.length
  if maxConfigYAMLSize<n then
    (some s!"config YAML too large: {n} bytes (max {maxConfigYAMLSize})",r,w)
  else match parseYAMLConfig V newYAML with
    | .error err => (some err,r,w)
    | .ok newCfg => r.applyConfig newCfg w

theorem apply_cases (V : Viper) (r : ConfigReloader W) (newYAML : List UInt8) (w : W) :
    (∃ err, r.apply V newYAML w=(some err,r,w)) ∨
    ∃ newCfg, newYAML.length ≤ maxConfigYAMLSize ∧ parseYAMLConfig V newYAML=.ok newCfg ∧
      r.apply V newYAML w=r.applyConfig newCfg w := by
  by_cases hsize : maxConfigYAMLSize<newYAML.length
  · exact .inl ⟨_,if_pos hsize⟩
  · rw [apply,if_neg hsize]
    cases parseYAMLConfig V newYAML with
    | error err => exact .inl ⟨err,rfl⟩
    | ok newCfg => exact .inr ⟨newCfg,Nat.le_of_not_lt hsize,rfl,rfl⟩

theorem apply_yamlText (get : Key → Option Lib.GoValue.Val)
    (hsize : (yamlText get).length ≤ maxConfigYAMLSize)
    (h : (⟨get,[]⟩ : Settings).fieldErrors (Viper.ofDocument get)=[]) (r : ConfigReloader W) (w : W) :
    r.apply (Viper.ofDocument get) (yamlText get) w=r.applyConfig (configOf get) w := by
  simp only [apply,if_neg (Nat.not_lt.mpr hsize),parse_yamlText h]

theorem applyConfig_cases (r : ConfigReloader W) (newCfg : Config) (w : W) :
    (∃ err, r.applyConfig newCfg w=(some err,r,w)) ∨ ∃ cs, r.current.diff newCfg=.ok (cs,[]) ∧
      ((∃ err w', applyLoop cs r.current newCfg r.reloaders [] w=(some err,w') ∧
        r.applyConfig newCfg w=(some err,r,w')) ∨
      ∃ w', applyLoop cs r.current newCfg r.reloaders [] w=(none,w') ∧
        r.applyConfig newCfg w=(none,{r with current := newCfg},w')) := by
  unfold applyConfig
  cases r.current.diff newCfg with
  | error err => exact .inl ⟨_,rfl⟩
  | ok out =>
    obtain ⟨cs,changes⟩ := out
    cases changes with
    | cons c rest => exact .inl ⟨_,rfl⟩
    | nil =>
      refine .inr ⟨cs,rfl,?_⟩
      cases hloop : applyLoop cs r.current newCfg r.reloaders [] w with
      | mk err w' =>
        cases err with
        | some err => exact .inl ⟨err,w',rfl,by simp only [hloop]⟩
        | none => exact .inr ⟨w',rfl,by simp only [hloop]⟩

end ConfigReloader

section Transaction

variable {ι : Type} [DecidableEq ι] {S : ι → Type}
  (configured : (i : ι) → Config → S i) (own : Reloader ((i : ι) → S i) → ι)
  (old : Config) (before : (i : ι) → S i)

/-- A successful `Apply` puts the reloader's own subsystem at the new configuration,
a failed one changes nothing, and `Rollback` puts it back where it was. -/
structure Transactional (rel : Reloader ((i : ι) → S i)) : Prop where
  applied : ∀ cfg w w', rel.apply cfg w=(none,w') →
    w' = Function.update w (own rel) (configured (own rel) cfg)
  failed : ∀ cfg w w' err, rel.apply cfg w=(some err,w') → w' = w
  restored : ∀ w, (rel.rollback old w).2=Function.update w (own rel) (before (own rel))

namespace ConfigReloader

def Moved (new : Config) (done : List (Reloader ((i : ι) → S i))) (w : (i : ι) → S i) : Prop :=
  (∀ rel∈done, w (own rel)=configured (own rel) new) ∧
  ∀ i, (∀ rel∈done, own rel≠i) → w i=before i

variable {configured own old before}

theorem moved_cons {new : Config} {done : List (Reloader ((i : ι) → S i))} {w : (i : ι) → S i}
    (rel : Reloader ((i : ι) → S i)) (h : Moved configured own before new done w) :
    Moved configured own before new (rel::done)
      (Function.update w (own rel) (configured (own rel) new)) := by
  refine ⟨?_,?_⟩
  · intro rel' hmem
    by_cases he : own rel' = own rel
    · rw [he,Function.update_self]
    · rw [Function.update_of_ne he]
      rcases mem_cons.mp hmem with rfl | hmem
      · exact absurd rfl he
      · exact h.1 rel' hmem
  · intro i hi
    have hne : i≠own rel := fun he => hi rel mem_cons_self he.symm
    rw [Function.update_of_ne hne]
    exact h.2 i fun rel' hmem => hi rel' (mem_cons_of_mem rel hmem)

theorem rollbackAll_restores (done : List (Reloader ((i : ι) → S i))) (w : (i : ι) → S i)
    (ht : ∀ rel∈done, Transactional configured own old before rel)
    (h : ∀ i, (∀ rel∈done, own rel≠i) → w i=before i) : rollbackAll old done w=before := by
  induction done generalizing w with
  | nil =>
    funext i
    exact h i fun rel hmem => nomatch hmem
  | cons rel done ih =>
    unfold rollbackAll
    refine ih _ (fun rel' hmem => ht rel' (mem_cons_of_mem rel hmem)) ?_
    intro i hi
    rw [(ht rel mem_cons_self).restored]
    by_cases he : i=own rel
    · rw [he,Function.update_self]
    · rw [Function.update_of_ne he]
      refine h i ?_
      intro rel' hmem
      rcases mem_cons.mp hmem with rfl | hmem
      · exact fun hr => he hr.symm
      · exact hi rel' hmem

theorem applyLoop_spec (cs : ChangeSet) (new : Config) (rels done : List (Reloader ((i : ι) → S i)))
    (w : (i : ι) → S i) (hr : ∀ rel∈rels, Transactional configured own old before rel)
    (hd : ∀ rel∈done, Transactional configured own old before rel)
    (hm : Moved configured own before new done w) :
    (∃ err, applyLoop cs old new rels done w=(some err,before)) ∨
    ∃ w', applyLoop cs old new rels done w=(none,w') ∧
      Moved configured own before new ((rels.filter (·.canReload cs)).reverse++done) w' := by
  induction rels generalizing done w with
  | nil => exact .inr ⟨w,rfl,hm⟩
  | cons rel rels ih =>
    have hrel:=hr rel mem_cons_self
    have hrest : ∀ rel' ∈ rels, Transactional configured own old before rel' :=
      fun rel' hmem => hr rel' (mem_cons_of_mem rel hmem)
    unfold applyLoop
    cases hc : rel.canReload cs with
    | false =>
      have hf : (rel::rels).filter (·.canReload cs)=rels.filter (·.canReload cs) := by simp [hc]
      rw [hf]
      exact ih done w hrest hd hm
    | true =>
      have hf : ((rel::rels).filter (·.canReload cs)).reverse++done =
          (rels.filter (·.canReload cs)).reverse++rel::done := by simp [hc]
      rw [hf,if_pos rfl]
      cases ha : rel.apply new w with
      | mk err w' =>
        cases err with
        | some err =>
          refine .inl ⟨"apply reloader failed: "++err,?_⟩
          rw [hrel.failed new w w' err ha]
          dsimp only
          rw [rollbackAll_restores done w hd hm.2]
        | none =>
          have hw:=hrel.applied new w w' ha
          subst hw
          refine ih (rel::done) _ hrest ?_ (moved_cons rel hm)
          intro rel' hmem
          rcases mem_cons.mp hmem with rfl | hmem
          · exact hrel
          · exact hd rel' hmem

theorem apply_outcome (V : Viper) (r : ConfigReloader ((i : ι) → S i)) (newYAML : List UInt8)
    (w : (i : ι) → S i) (ht : ∀ rel∈r.reloaders, Transactional configured own r.current w rel) :
    (∃ err, r.apply V newYAML w=(some err,r,w)) ∨
    ∃ newCfg cs w', parseYAMLConfig V newYAML=.ok newCfg ∧
      r.current.diff newCfg=.ok (cs,[]) ∧
      r.apply V newYAML w=(none,{r with current := newCfg},w') ∧
      Moved configured own w newCfg ((r.reloaders.filter (·.canReload cs)).reverse++[]) w' := by
  rcases apply_cases V r newYAML w with ⟨err,h⟩ | ⟨newCfg,-,hparse,h⟩
  · exact .inl ⟨err,h⟩
  rcases applyConfig_cases r newCfg w with ⟨err,ha⟩ | ⟨cs,hdiff,hend⟩
  · exact .inl ⟨err,h.trans ha⟩
  have hspec:=applyLoop_spec cs newCfg r.reloaders [] w ht nofun ⟨nofun,fun _ _ => rfl⟩
  rcases hend with ⟨err,w',hloop,ha⟩ | ⟨w',hloop,ha⟩ <;>
    simp only [hloop,Prod.mk.injEq,reduceCtorEq,false_and,exists_false,false_or,or_false,
      exists_eq_left',true_and] at hspec
  · obtain ⟨-,-,rfl⟩ := hspec
    exact .inl ⟨err,h.trans ha⟩
  · exact .inr ⟨newCfg,cs,w',hparse,hdiff,h.trans ha,hspec⟩

/-- An error leaves every subsystem and the configuration as they were; otherwise the subsystems of the
accepting reloaders are at the new one, and no other has changed. -/
theorem apply_all_or_nothing (V : Viper) (r : ConfigReloader ((i : ι) → S i)) (newYAML : List UInt8)
    (w : (i : ι) → S i) (ht : ∀ rel∈r.reloaders, Transactional configured own r.current w rel) :
    (∀ err r' w', r.apply V newYAML w=(some err,r',w') → r' = r ∧ w' = w) ∧
    (∀ r' w', r.apply V newYAML w=(none,r',w') →
      ∃ newCfg cs, parseYAMLConfig V newYAML=.ok newCfg ∧
        r.current.diff newCfg=.ok (cs,[]) ∧ r' = {r with current := newCfg} ∧
        (∀ i, (∃ rel∈r.reloaders, rel.canReload cs=true ∧ own rel=i) →
          w' i=configured i newCfg) ∧
        (∀ i, (¬ ∃ rel∈r.reloaders, rel.canReload cs=true ∧ own rel=i) → w' i=w i)) := by
  rcases apply_outcome V r newYAML w ht with ⟨err,h⟩ | ⟨newCfg,cs,w₁,hparse,hdiff,h,hm⟩ <;>
    simp only [h,Prod.mk.injEq,reduceCtorEq,false_and,false_implies,implies_true,and_true,
      true_and,and_imp]
  · rintro err' r' w' - rfl rfl
    exact ⟨rfl,rfl⟩
  · rintro r' w' rfl rfl
    refine ⟨newCfg,cs,hparse,hdiff,rfl,?_,?_⟩
    · rintro i ⟨rel,hmem,hc,rfl⟩
      exact hm.1 rel (by simp [hmem,hc])
    · intro i hi
      refine hm.2 i ?_
      intro rel hmem he
      simp only [append_nil,mem_reverse,mem_filter] at hmem
      exact hi ⟨rel,hmem.1,hmem.2,he⟩

end ConfigReloader
end Transaction

namespace ConfigReloader

def modeReloader (auth refuses : Bool) : Reloader (Bool → String) where
  canReload cs := if auth then cs.authChanged else cs.reporterChanged
  apply cfg w := if refuses then (some "refused",w)
    else (none,Function.update w auth cfg.reporter.mode)
  rollback cfg w := (none,Function.update w auth cfg.reporter.mode)

def modeOwner (rel : Reloader (Bool → String)) : Bool :=
  rel.canReload {ChangeSet.empty with authChanged := true}

theorem modeReloader_transactional (auth refuses : Bool) (old : Config) :
    Transactional (fun _ cfg => cfg.reporter.mode) modeOwner old (fun _ => old.reporter.mode)
      (modeReloader auth refuses) := by
  have hown : modeOwner (modeReloader auth refuses)=auth := by cases auth <;> rfl
  refine ⟨?_,?_,?_⟩
  · rw [hown]
    cases refuses <;> simp [modeReloader,eq_comm]
  · cases refuses <;> simp [modeReloader,eq_comm]
  · rw [hown]
    intro w
    rfl

def started : Config := configOf validKeys

def twoChanges : Key → Option Lib.GoValue.Val
  | .reporterMode => some (.str "http")
  | .reporterEndpoint => some (.str "http://collector/ingest")
  | .authBearerToken => some (.str "0123456789abcdef0123456789abcdef")
  | k => validKeys k

def twoReloaders : ConfigReloader (Bool → String) :=
  ⟨started,[modeReloader false false,modeReloader true true]⟩

theorem apply_all_or_nothing_refused :
    ∃ err r' w', apply (Viper.ofDocument twoChanges) twoReloaders (yamlText twoChanges)
        (fun _ => started.reporter.mode)=(some err,r',w') ∧
      r' = twoReloaders ∧ w' = fun _ => started.reporter.mode := by
  have happly:=apply_yamlText twoChanges (by decide +kernel) (by decide +kernel) twoReloaders
    (fun _ => started.reporter.mode)
  have hrefused : (applyConfig twoReloaders (configOf twoChanges) fun _ => started.reporter.mode).1 =
      some "apply reloader failed: refused" := by decide +kernel
  generalize applyConfig twoReloaders (configOf twoChanges) _=out at happly hrefused
  obtain ⟨err,r',w'⟩ := out
  obtain rfl : err=some "apply reloader failed: refused" := hrefused
  have htransactional : ∀ rel∈twoReloaders.reloaders, Transactional (fun _ cfg => cfg.reporter.mode)
      modeOwner started (fun _ => started.reporter.mode) rel := by
    intro rel hmem
    simp only [twoReloaders,mem_cons,not_mem_nil,or_false] at hmem
    rcases hmem with rfl | rfl
    · exact modeReloader_transactional false false started
    · exact modeReloader_transactional true true started
  exact ⟨_,r',w',happly,(apply_all_or_nothing (Viper.ofDocument twoChanges) twoReloaders
    (yamlText twoChanges) _ htransactional).1 _ _ _ happly⟩

end ConfigReloader
end OpsAgent
