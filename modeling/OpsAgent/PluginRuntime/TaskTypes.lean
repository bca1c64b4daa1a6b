import Mathlib.Data.List.Nodup
import Mathlib.Data.List.Perm.Basic
import OpsAgent.PluginRuntime.Ownership

/-!
# Task types of plugins in the dispatcher
-/

namespace OpsAgent.PluginRuntime
open Lib List Option AfterLoad
open Lib.Exec

/-- `FullTaskType` -/
def fullTaskType (pluginName taskType : String) : String := pluginName++"/"++taskType

/-- The two functions that `registerTaskHandlers` gives to the gateway, on the types
that the dispatcher has for plugins of the gateway. -/
def Callback.apply (handlers : List String) : Callback → List String
  | .loaded name taskTypes => taskTypes.foldl (fun d tt => d.insert (fullTaskType name tt)) handlers
  | .unloaded name taskTypes =>
    taskTypes.foldl (fun d tt => d.filter (· != fullTaskType name tt)) handlers
def registered (calls : List Callback) : List String := calls.foldr (fun c d => c.apply d) []

namespace Gateway

def running (g : Gateway) (p : ManagedPlugin) : Bool :=
  p.process.any fun pid => g.processes[pid]?.any fun q => q.alive
def runningTaskTypes (g : Gateway) : List String :=
  g.current.flatMap fun r => (g.entries[r.2]?.toList.filter g.running).flatMap fun p =>
    p.manifest.taskTypes.map (fullTaskType r.1)

end Gateway

inductive GatewayOp where
  | load (m : PluginManifest)
  | reload (name : String)
  | enable (name : String)
  | disable (name : String)
  | remove (name : String)
  | check

def GatewayOp.pc : GatewayOp → Pc
  | .load m => .loadPlugin m .caller
  | .reload name => .reload name
  | .enable name => .enable name
  | .disable name => .disable name
  | .remove name => .remove name
  | .check => .idle

def Pc.atRest : Pc → Bool
  | .done | .idle => true
  | _ => false

inductive SessionEvent where
  | call (op : GatewayOp)
  | turn (a : Answer)
  | parentDone
  -- a process exits by itself
  | exit (pid : Nat)

structure Session where
  g : Gateway
  pc : Pc

/-- `loadPlugin` starts no process under a name that `sanitizePluginName` refuses. -/
def Pc.accepts : Pc → Answer → Bool
  | .loadPlugin m _, .ok => validPluginName m.name
  | _, _ => true

namespace Session

def start (maxRestarts : Int) : Session := ⟨(System.start maxRestarts none).g,.done⟩

def step (s : Session) : SessionEvent → Option Session
  | .call op => if s.pc.atRest then some {s with pc := op.pc} else none
  | .turn a =>
    if s.pc.accepts a then (s.g.turn s.pc a).map fun r => ⟨r.1,r.2⟩ else none
  | .parentDone => some {s with g := {s.g with cancelled := true} }
  | .exit pid => some {s with g := s.g.killProcess pid}

def Agrees (s : Session) : Prop :=
  s.pc.atRest → ∀ t, t∈registered s.g.calls ↔ t∈s.g.runningTaskTypes

/-- A load replaces no plugin that has a process, or one all of whose task types it
declares again, and no process that runs exits by itself. -/
def keeps (s : Session) : SessionEvent → Bool
  | .turn .ok =>
    match s.pc with
    | .waitForPlugin m _ _ => (s.g.lookup m.name).all fun found =>
        found.2.process.isNone||found.2.manifest.taskTypes.all fun tt => m.taskTypes.contains tt
    | _ => true
  | .exit pid => !s.g.processes[pid]?.any fun q => q.alive
  | _ => true

inductive Goes (s : Session) : SessionEvent → Session → Prop where
  | call {op} (h : s.pc.atRest) : Goes s (.call op) {s with pc := op.pc}
  | turn {a g' pc'} (h : s.pc.accepts a) (ht : Turns s.g s.pc a g' pc') : Goes s (.turn a) ⟨g',pc'⟩
  | parentDone : Goes s .parentDone {s with g := {s.g with cancelled := true} }
  | exit {pid} : Goes s (.exit pid) {s with g := s.g.killProcess pid}

theorem goes_of_step {s t : Session} {l : SessionEvent} (h : s.step l=some t) : Goes s l t := by
  unfold step at h
  split at h
  case _ =>
    split at h
    · cases h
      exact .call ‹_›
    · cases h
  case _ =>
    split at h
    · obtain ⟨r,ht,hr⟩ := map_eq_some_iff.mp h
      cases hr
      exact .turn ‹_› (Gateway.turns_of_turn ht)
    · cases h
  case _ =>
    cases h
    exact .parentDone
  case _ =>
    cases h
    exact .exit

end Session

variable {name t : String}
  {s : Session} {taskTypes handlers : List String}

theorem slash_notMem_of_valid (h : validPluginName name) : '/' ∉ name.toList := by
  unfold validPluginName at h
  split at h
  · cases h
  · rename_i c cs hname
    rw [Bool.and_eq_true,List.all_eq_true] at h
    rw [hname,mem_cons,not_or]
    refine ⟨?_,?_⟩
    · rintro rfl
      exact absurd h.1 (by decide)
    · intro hmem
      exact absurd (h.2 _ hmem) (by decide)

theorem takeWhile_fullTaskType (h : validPluginName name) (taskType : String) :
    (fullTaskType name taskType).toList.takeWhile (· != '/')=name.toList := by
  have hname : ∀ c∈name.toList, (c != '/')=true := by
    intro c hc
    rw [bne_iff_ne]
    rintro rfl
    exact slash_notMem_of_valid h hc
  rw [fullTaskType,String.toList_append,String.toList_append,append_assoc,
    takeWhile_append_of_pos hname]
  exact append_nil _

theorem fullTaskType_name {n n' t' : String} (hn : validPluginName n)
    (hn' : validPluginName n' = true) (h : fullTaskType n t=fullTaskType n' t') : n=n' := by
  have hl:=takeWhile_fullTaskType hn t
  rw [h,takeWhile_fullTaskType hn' t'] at hl
  exact String.toList_inj.mp hl.symm

theorem mem_apply_loaded : t∈(Callback.loaded name taskTypes).apply handlers ↔
      t∈handlers ∨ t∈taskTypes.map (fullTaskType name) := by
  induction taskTypes generalizing handlers with
  | nil => simp [Callback.apply]
  | cons tt tts ih =>
    have hstep : t∈(Callback.loaded name (tt::tts)).apply handlers ↔
        t∈(Callback.loaded name tts).apply (handlers.insert (fullTaskType name tt)) := Iff.rfl
    rw [hstep,ih,mem_insert_iff,map_cons,mem_cons]
    tauto

theorem mem_apply_unloaded : t∈(Callback.unloaded name taskTypes).apply handlers ↔
      t∈handlers ∧ t∉taskTypes.map (fullTaskType name) := by
  induction taskTypes generalizing handlers with
  | nil => simp [Callback.apply]
  | cons tt tts ih =>
    have hstep : t∈(Callback.unloaded name (tt::tts)).apply handlers ↔
        t∈(Callback.unloaded name tts).apply
          (handlers.filter (· != fullTaskType name tt)) := Iff.rfl
    rw [hstep,ih,mem_filter,map_cons,mem_cons,bne_iff_ne]
    tauto

def Pc.names : Pc → List String
  | .stopPlugin name _ k | .killing name _ _ _ k => name::k.rest.map Prod.fst
  | .loadPlugin m k | .waitForPlugin m _ k | .abort m _ k | .loaded m k =>
    m.name::k.rest.map Prod.fst
  | .backoff m rest => m.name::rest.map Prod.fst
  | .ping name _ rest | .markError name rest | .setError name _ rest => name::rest.map Prod.fst
  | .checkNext rest => rest.map Prod.fst
  | _ => []

def Pc.restartOf : Pc → Option (String × String)
  | .stopPlugin name _ (.restart m _) | .killing name _ _ _ (.restart m _) => some (name,m.name)
  | _ => none
def Pc.stops : Pc → Bool
  | .stop | .stopCopy | .stopNext _ | .stopWait | .stopClear | .stopped => true
  | .stopPlugin _ _ (.stop _) | .killing _ _ _ _ (.stop _) => true
  | _ => false

structure Placed (g : Gateway) (pc : Pc) : Prop where
  current : ∀ r∈pc.refs, g.plugins r.1=some r.2
  distinct : pc.names.Nodup
  restarts : ∀ r, pc.restartOf=some r → r.2=r.1
  runs : pc.stops=false

theorem current_names_nodup (g : Gateway) : (g.current.map Prod.fst).Nodup := by
  have hcurrent : g.current.Nodup := by
    refine List.Nodup.filterMap ?_ nodup_range
    intro e e' r he he'
    obtain ⟨p,-,hp⟩ := bind_eq_some_iff.mp he
    obtain ⟨p',-,hp'⟩ := bind_eq_some_iff.mp he'
    split at hp
    · split at hp'
      · have h:=some.inj hp
        have h' := some.inj hp'
        exact congrArg Prod.snd (h.trans h'.symm)
      · cases hp'
    · cases hp
  refine hcurrent.map_on ?_
  intro r hr r' hr' hname
  have h:=(mem_current hr).1
  rw [hname,(mem_current hr').1] at h
  exact Prod.ext hname (Option.some.inj h).symm

theorem names_eraseIdx {rest : List (String × Nat)} {k : Nat} {r : String × Nat}
    (hk : rest[k]?=some r) (h : (rest.map Prod.fst).Nodup) :
    (r.1::(rest.eraseIdx k).map Prod.fst).Nodup := by
  obtain ⟨hlt,rfl⟩ := List.getElem?_eq_some_iff.mp hk
  exact ((getElem_cons_eraseIdx_perm hlt).map Prod.fst).nodup_iff.mpr h

section
variable {g g' : Gateway} {pc pc' : Pc} {a : Answer}

theorem Placed.of_rest {rest : List (String × Nat)} (hcur : ∀ r∈rest, g.plugins r.1=some r.2)
    (hr : pc.refs=rest) (hn : pc.names.Nodup) (hm : pc.restartOf=none) (hs : pc.stops=false) :
    Placed g pc := by
  refine ⟨hr ▸ hcur,hn,?_,hs⟩
  intro r h
  cases hm.symm.trans h

theorem Placed.of_nil (hr : pc.refs=[]) : pc.names.Nodup → pc.restartOf=none → pc.stops=false →
    Placed g pc := .of_rest (forall_mem_nil _) hr

variable {e pid : Nat} {name : String} {k : AfterLoad} {m : PluginManifest} {p' p : ManagedPlugin}

theorem Placed.of_ref (hcur : g.plugins name=some e) (hr : pc.refs=[(name,e)]) : pc.names.Nodup →
    pc.restartOf=none → pc.stops=false → Placed g pc := .of_rest (forall_mem_singleton.mpr hcur) hr

theorem placed_next {k : AfterStop}
    (h : Placed g (.stopPlugin name e k)) : Placed g (k.next name e) := by
  have hcur : g.plugins name=some e := h.current (name,e) mem_cons_self
  have hrest : ∀ r∈k.rest, g.plugins r.1=some r.2 :=
    fun r hr => h.current r (mem_cons_of_mem _ hr)
  cases k with
  | reload m => exact .of_nil rfl (nodup_singleton m.name) rfl rfl
  | disable | remove => exact .of_ref hcur rfl nodup_nil rfl rfl
  | stop rest => exact absurd h.runs Bool.true_eq_false.mp
  | restart m rest =>
    have hname : m.name=name := h.restarts (name,m.name) rfl
    refine .of_rest hrest rfl ?_ rfl rfl
    change (m.name::rest.map Prod.fst).Nodup
    rw [hname]
    exact h.distinct

theorem AfterLoad.placed_next (hcur : ∀ r∈k.rest, g.plugins r.1=some r.2)
    (hn : (k.rest.map Prod.fst).Nodup) : Placed g k.next := by
  cases k with
  | caller | start rest => exact .of_nil rfl nodup_nil rfl rfl
  | health rest => exact .of_rest hcur rfl hn rfl rfl

theorem AfterLoad.placed_failed (hcur : ∀ r∈k.rest, g.plugins r.1=some r.2)
    (hn : (m.name::k.rest.map Prod.fst).Nodup) : Placed g (k.failed m) := by
  cases k with
  | caller | start rest => exact .of_nil rfl nodup_nil rfl rfl
  | health rest => exact .of_rest hcur rfl hn rfl rfl

theorem Turns.placed (ht : Turns g pc a g' pc') (htidy : Tidy g) (h : Placed g pc) : Placed g' pc' := by
  cases ht with
  | finish | setDisabled | delete | startDone | healthDone | roundEnd | backoffDone =>
    exact .of_nil rfl nodup_nil rfl rfl
  | reload hfree hl | disable hfree hl | remove hfree hl =>
    exact .of_ref (lookup_eq_some hl).1 rfl (nodup_singleton _) rfl rfl
  | enable hfree hl => exact .of_ref (lookup_eq_some hl).1 rfl nodup_nil rfl rfl
  | enabled | startNext => exact .of_nil rfl (nodup_singleton _) rfl rfl
  | stopAgain => exact placed_next h
  | @stopPlugin name e k p he hs =>
    exact ⟨h.current,h.distinct,by cases k <;> exact h.restarts,by cases k <;> exact h.runs⟩
  | @killed name e pid taskTypes k =>
    have hstop : Placed g (.stopPlugin name e k) :=
      ⟨h.current,h.distinct,by cases k <;> exact h.restarts,by cases k <;> exact h.runs⟩
    have hnext:=placed_next hstop
    refine ⟨?_,hnext.distinct,hnext.restarts,hnext.runs⟩
    cases pid <;> exact hnext.current
  | started | waitFailed | backoff => exact .of_rest h.current rfl h.distinct rfl rfl
  | loadFailed | aborted => exact placed_failed h.current h.distinct
  | @publish m pid k hfree =>
    refine .of_rest ?_ rfl h.distinct rfl rfl
    intro r hr
    have hne : r.1≠m.name := by
      intro heq
      exact (nodup_cons.mp h.distinct).1 (heq ▸ mem_map_of_mem hr)
    exact (if_neg hne).trans (h.current r hr)
  | loaded => exact AfterLoad.placed_next h.current (nodup_cons.mp h.distinct).2
  | stop | stopCopy | stopNext | stopEnd | stopWait | stopClear =>
    exact absurd h.runs Bool.true_eq_false.mp
  | tick => exact .of_rest (fun r hr => (mem_current hr).1) rfl (current_names_nodup g) rfl rfl
  | @check rest k name e p hk =>
    refine .of_rest ?_ rfl (names_eraseIdx hk h.distinct) rfl rfl
    intro r hr
    rcases mem_cons.mp hr with rfl | hr
    · exact h.current _ (mem_of_getElem? hk)
    · exact h.current r (mem_of_mem_eraseIdx hr)
  | @skip rest k =>
    exact .of_rest (fun r hr => h.current r (mem_of_mem_eraseIdx hr)) rfl
      (((eraseIdx_sublist rest k).map Prod.fst).nodup h.distinct) rfl rfl
  | answered | setError =>
    exact .of_rest (forall_mem_of_forall_mem_cons h.current) rfl
      (nodup_cons.mp h.distinct).2 rfl rfl
  | @restart name e rest p he hr =>
    have hname : p.manifest.name=name :=
      (htidy.keyed name e (h.current (name,e) mem_cons_self)).name_eq he
    refine ⟨h.current,h.distinct,?_,rfl⟩
    intro r hr
    cases hr
    exact hname
  | giveUp => exact .of_rest (forall_mem_of_forall_mem_cons h.current) rfl h.distinct rfl rfl
  | markError hfree hl =>
    exact .of_rest (forall_mem_cons.mpr ⟨(lookup_eq_some hl).1,h.current⟩) rfl h.distinct rfl rfl
  | markMissing => exact .of_rest h.current rfl (nodup_cons.mp h.distinct).2 rfl rfl

def Pc.awaits : Pc → Option (String × Nat)
  | .waitForPlugin m pid _ | .abort m pid _ => some (m.name,pid)
  | _ => none

structure Lively (g : Gateway) (pc : Pc) : Prop where
  valid : ∀ name e, g.plugins name=some e → validPluginName name
  runs : ∀ (name : String) (e : Nat) (p : ManagedPlugin) (pid : Nat), g.plugins name=some e →
    g.entries[e]?=some p → p.process=some pid → Alive g name pid
  awaited : ∀ name pid, pc.awaits=some (name,pid) → validPluginName name ∧
    Alive g name pid ∧
      ∀ (e : Nat) (p : ManagedPlugin), g.entries[e]?=some p → p.process≠some pid

theorem Lively.frame (h : Lively g pc) (hk : g'.plugins=g.plugins) (he : g'.entries=g.entries)
    (hp : g'.processes=g.processes) (hw : pc'.awaits=none ∨ pc'.awaits=pc.awaits) : Lively g' pc' := by
  refine ⟨?_,?_,?_⟩
  · rw [hk]
    exact h.valid
  · rw [hk,he]
    simp only [Alive,hp]
    exact h.runs
  · intro name pid hpid
    rcases hw with hw | hw
    · cases hw.symm.trans hpid
    · rw [hw] at hpid
      simp only [Alive,hp,he]
      exact h.awaited name pid hpid

theorem alive_killProcess_of_ne {pid' : Nat} (h : Alive g name pid)
    (hne : pid≠pid') : Alive (g.killProcess pid') name pid := by
  rw [Alive,Gateway.killProcess,getElem?_modify,h,Option.map_eq_map,map_some,if_neg (Ne.symm hne)]

theorem Lively.kill (h : Lively g pc) (hk : g'.plugins=g.plugins)
    (he : g'.entries=g.entries) (hp : g'.processes=(g.killProcess pid).processes)
    (hne : ∀ (name : String) (e : Nat) (p : ManagedPlugin), g.plugins name=some e →
      g.entries[e]?=some p → p.process≠some pid) (hw : pc'.awaits=none) : Lively g' pc' := by
  refine ⟨?_,?_,?_⟩
  · rw [hk]
    exact h.valid
  · intro name e p pid' hcur hentry hproc
    rw [hk] at hcur
    rw [he] at hentry
    have halive:=h.runs name e p pid' hcur hentry hproc
    have hpid : pid' ≠ pid := fun heq => hne name e p hcur hentry (heq ▸ hproc)
    rw [Alive,hp]
    exact alive_killProcess_of_ne halive hpid
  · intro name pid' hpid
    cases hw.symm.trans hpid

theorem Lively.setEntry (h : Lively g pc)
    (hp : ∀ (p : ManagedPlugin) (pid : Nat), g.entries[e]?=some p → p'.process=some pid →
      p.process=some pid) (hw : pc'.awaits=none) : Lively (g.setEntry e p') pc' := by
  refine ⟨h.valid,?_,?_⟩
  · intro name e' q pid hcur hq hproc
    rcases entries_setEntry hq with ⟨rfl,rfl⟩ | ⟨-,hq⟩
    · have hlt : e' < g.entries.length := by
        have hlt:=(List.getElem?_eq_some_iff.mp hq).1
        rwa [Gateway.setEntry,length_set] at hlt
      obtain ⟨p,hentry⟩ : ∃ p, g.entries[e']?=some p := ⟨_,getElem?_eq_getElem hlt⟩
      exact h.runs name e' p pid hcur hentry (hp p pid hentry hproc)
    · exact h.runs name e' q pid hcur hq hproc
  · intro name pid hpid
    cases hw.symm.trans hpid

theorem Lively.setStatus (h : Lively g pc) (status : PluginStatus)
    (he : g.entries[e]?=some p) (hw : pc'.awaits=none) :
    Lively (g.setEntry e {p with status := status}) pc' := by
  refine h.setEntry ?_ hw
  intro q pid hq hproc
  cases he.symm.trans hq
  exact hproc

theorem AfterStop.awaits_next (k : AfterStop) (name : String) (e : Nat) :
    (k.next name e).awaits=none := by cases k <;> rfl
theorem AfterLoad.awaits_next (k : AfterLoad) : k.next.awaits=none := by cases k <;> rfl
theorem AfterLoad.awaits_failed (k : AfterLoad) (m : PluginManifest) : (k.failed m).awaits=none := by
  cases k <;> rfl
theorem alive_startProcess_of_alive (m : PluginManifest)
    (h : Alive g name pid) : Alive (g.startProcess m) name pid :=
  Pool.getElem?_push_of h _

theorem Lively.started (h : Lively g pc) (htidy : Tidy g) (hname : validPluginName m.name) :
    Lively (g.startProcess m) (.waitForPlugin m g.processes.length k) := by
  refine ⟨h.valid,?_,?_⟩
  · intro name e p pid hcur hentry hproc
    exact alive_startProcess_of_alive m (h.runs name e p pid hcur hentry hproc)
  · intro name pid hpid
    cases hpid
    refine ⟨hname,?_,?_⟩
    · rw [Alive,Gateway.startProcess,getElem?_append_right le_rfl,Nat.sub_self]
      rfl
    · intro e p hentry hproc
      obtain ⟨q,hq,-⟩ := htidy.named e p _ hentry hproc
      exact absurd (List.getElem?_eq_some_iff.mp hq).1 (Nat.lt_irrefl _)

theorem plugins_publish (h : (g.publish m pid).plugins name=some e) :
    name=m.name ∧ e=g.entries.length ∨ name≠m.name ∧ g.plugins name=some e := by
  change (if name=m.name then some g.entries.length else g.plugins name)=some e at h
  split at h
  · exact .inl ⟨‹_›,(some.inj h).symm⟩
  · exact .inr ⟨‹_›,h⟩

theorem current_publish (htidy : Tidy g) (hcur : (g.publish m pid).plugins name=some e)
    (hp : (g.publish m pid).entries[e]?=some p) : (name=m.name ∧ p.manifest=m ∧ p.process=some pid) ∨
      (name≠m.name ∧ g.plugins name=some e ∧ g.entries[e]?=some p) := by
  rcases plugins_publish hcur with ⟨hname,rfl⟩ | ⟨hname,hcur⟩
  · obtain ⟨p',hp',hm,hproc⟩ := entries_publish_new (g := g) m pid
    cases hp'.symm.trans hp
    exact .inl ⟨hname,hm,hproc⟩
  · obtain ⟨q,hq,-⟩ := htidy.keyed name e hcur
    rcases entries_publish hp with hold | ⟨rfl,-⟩
    · exact .inr ⟨hname,hcur,hold⟩
    · exact absurd (List.getElem?_eq_some_iff.mp hq).1 (Nat.lt_irrefl _)

theorem Lively.publish (h : Lively g (.waitForPlugin m pid k)) (htidy : Tidy g) :
    Lively (g.publish m pid) (.loaded m k) := by
  obtain ⟨hvalid,halive,-⟩ := h.awaited m.name pid rfl
  refine ⟨?_,?_,?_⟩
  · intro name e hcur
    rcases plugins_publish hcur with ⟨rfl,-⟩ | ⟨-,hcur⟩
    · exact hvalid
    · exact h.valid name e hcur
  · intro name e p pid' hcur hentry hproc
    rcases current_publish htidy hcur hentry with ⟨rfl,-,hnew⟩ | ⟨-,hcur,hold⟩
    · cases hnew.symm.trans hproc
      exact halive
    · exact h.runs name e p pid' hcur hold hproc
  · intro name pid' hpid
    cases hpid

theorem current_delete {name' : String}
    (h : (if name' = name then none else g.plugins name')=some e) : g.plugins name' = some e := by
  split at h
  · cases h
  · exact h

theorem Turns.lively (ht : Turns g pc a g' pc') (hacc : pc.accepts a) (htidy : Tidy g)
    (hs : Sound g pc) (hplaced : Placed g pc) (h : Lively g pc) : Lively g' pc' := by
  cases ht with
  | setDisabled he | setError he => exact h.setStatus _ he rfl
  | stopPlugin => exact h.setEntry (fun _ _ _ hproc => by cases hproc) rfl
  | @delete name e =>
    refine ⟨?_,?_,fun _ _ hpid => by cases hpid⟩
    · intro name' e' hcur
      exact h.valid name' e' (current_delete hcur)
    · intro name' e' p pid hcur
      exact h.runs name' e' p pid (current_delete hcur)
  | @killed name e pid taskTypes k =>
    cases pid with
    | none => exact h.frame rfl rfl rfl (.inl (k.awaits_next name e))
    | some pid =>
      refine h.kill rfl rfl rfl ?_ (k.awaits_next name e)
      intro name' e' p hcur hentry hproc
      obtain ⟨q,hq,hname⟩ := hs.holds name pid rfl
      have halive:=h.runs name' e' p pid hcur hentry hproc
      rw [Alive,hq] at halive
      cases halive
      have hsame:=hplaced.current (name,e) mem_cons_self
      rw [← hname,hcur] at hsame
      cases hsame
      have hnone:=hs.emptied e rfl p hentry
      cases hnone.symm.trans hproc
  | @aborted m pid k =>
    obtain ⟨-,-,hfree⟩ := h.awaited m.name pid rfl
    exact h.kill rfl rfl rfl (fun _ e p _ hentry => hfree e p hentry) (k.awaits_failed m)
  | started => exact h.started htidy hacc
  | publish => exact h.publish htidy
  | waitFailed => exact h.frame rfl rfl rfl (.inr rfl)
  | @stopAgain name e k => exact h.frame rfl rfl rfl (.inl (k.awaits_next name e))
  | @loadFailed m k => exact h.frame rfl rfl rfl (.inl (k.awaits_failed m))
  | @loaded m k => exact h.frame rfl rfl rfl (.inl k.awaits_next)
  | stopClear => exact absurd hplaced.runs Bool.true_eq_false.mp
  | _ => exact h.frame rfl rfl rfl (.inl rfl)

def Offers (g : Gateway) (t : String) : Prop :=
  ∃ (name : String) (e : Nat) (p : ManagedPlugin), g.plugins name=some e ∧
    g.entries[e]?=some p ∧ p.process≠none ∧ t∈p.manifest.taskTypes.map (fullTaskType name)
def Pc.leaving : Pc → List String
  | .killing name _ _ taskTypes _ => taskTypes.map (fullTaskType name)
  | _ => []
def Pc.arriving : Pc → List String
  | .loaded m _ => m.taskTypes.map (fullTaskType m.name)
  | _ => []

structure Tallied (g : Gateway) (pc : Pc) : Prop where
  offered : ∀ t, Offers g t → t∈registered g.calls ∨ t∈pc.arriving
  kept : ∀ t, t∈registered g.calls → Offers g t ∨ t∈pc.leaving
  arrived : ∀ t∈pc.arriving, Offers g t

theorem Tallied.of_exact (ha : pc.arriving=[])
    (h : ∀ t, t∈registered g.calls ↔ Offers g t) : Tallied g pc := by
  refine ⟨fun t ht => .inl ((h t).mpr ht),fun t ht => .inl ((h t).mp ht),?_⟩
  intro t ht
  rw [ha] at ht
  cases ht

theorem Tallied.exact (h : Tallied g pc) (ha : pc.arriving=[]) (hl : pc.leaving=[]) (t : String) :
    t∈registered g.calls ↔ Offers g t := by
  refine ⟨fun ht => (h.kept t ht).resolve_right ?_,fun ht => (h.offered t ht).resolve_right ?_⟩
  · rw [hl]
    exact not_mem_nil
  · rw [ha]
    exact not_mem_nil

theorem Tallied.frame (h : Tallied g pc) (hk : g'.plugins=g.plugins) (he : g'.entries=g.entries)
    (hc : g'.calls=g.calls) (ha : pc.arriving=[]) (hl : pc.leaving=[])
    (ha' : pc'.arriving=[]) : Tallied g' pc' := by
  refine .of_exact ha' ?_
  unfold Offers
  rw [hk,he,hc]
  exact h.exact ha hl

theorem Offers.of_setEntry {t : String} (he : g.entries[e]?=some p) (hm : p'.manifest=p.manifest)
    (hp : p'.process≠none → p.process≠none) (h : Offers (g.setEntry e p') t) : Offers g t := by
  obtain ⟨name,e',q,hcur,hq,hproc,ht⟩ := h
  rcases entries_setEntry hq with ⟨rfl,rfl⟩ | ⟨-,hq⟩
  · exact ⟨name,e',p,hcur,he,hp hproc,hm ▸ ht⟩
  · exact ⟨name,e',q,hcur,hq,hproc,ht⟩

theorem Offers.setEntry {t : String} (he : g.entries[e]?=some p) (hm : p'.manifest=p.manifest)
    (hp : p'.process=p.process) (h : Offers g t) : Offers (g.setEntry e p') t := by
  obtain ⟨name,e',q,hcur,hq,hproc,ht⟩ := h
  rcases entry_setEntry he hq p' with ⟨-,rfl,hnew⟩ | hold
  · exact ⟨name,e',p',hcur,hnew,hp ▸ hproc,hm ▸ ht⟩
  · exact ⟨name,e',q,hcur,hold,hproc,ht⟩

theorem Tallied.setStatus (h : Tallied g pc) (status : PluginStatus)
    (he : g.entries[e]?=some p) (ha : pc.arriving=[]) (hl : pc.leaving=[])
    (ha' : pc'.arriving=[]) : Tallied (g.setEntry e {p with status := status}) pc' := by
  refine .of_exact ha' ?_
  intro t
  refine (h.exact ha hl t).trans ⟨?_,?_⟩
  · exact Offers.setEntry he rfl rfl
  · exact Offers.of_setEntry he rfl id

theorem Tallied.stopPlugin {k : AfterStop} (h : Tallied g (.stopPlugin name e k))
    (he : g.entries[e]?=some p) (hkeyed : ∀ name', g.plugins name' = some e → name' = name) :
    Tallied (g.setEntry e {p with status := .stopped, client := false, process := none})
      (.killing name e p.process p.manifest.taskTypes k) := by
  refine ⟨?_,?_,fun t ht => by cases ht⟩
  · intro t ht
    refine .inl ((h.exact rfl rfl t).mpr (Offers.of_setEntry he ?_ ?_ ht))
    · rfl
    · exact fun hnone => absurd rfl hnone
  · intro t ht
    obtain ⟨name',e',q,hcur,hq,hproc,htt⟩ := (h.exact rfl rfl t).mp ht
    rcases entry_setEntry he hq {p with status := .stopped, client := false, process := none} with
      ⟨rfl,rfl,-⟩ | hold
    · rw [hkeyed name' hcur] at htt
      exact .inr htt
    · exact .inl ⟨name',e',q,hcur,hold,hproc,htt⟩

theorem Tallied.killed {pid : Option Nat} {taskTypes : List String}
    {k : AfterStop} (h : Tallied g (.killing name e pid taskTypes k)) (hl : Lively g pc)
    (hcur : g.plugins name=some e) (hnone : Emptied g e) (hk : g'.plugins=g.plugins)
    (he : g'.entries=g.entries) (hc : g'.calls=.unloaded name taskTypes::g.calls)
    (ha' : pc'.arriving=[]) : Tallied g' pc' := by
  refine .of_exact ha' ?_
  intro t
  have hstep : t∈registered g'.calls ↔
      t∈registered g.calls ∧ t∉taskTypes.map (fullTaskType name) := by
    rw [hc]
    exact mem_apply_unloaded
  have hoffers : Offers g' t ↔ Offers g t := by
    unfold Offers
    rw [hk,he]
  rw [hstep,hoffers]
  refine ⟨fun ht => (h.kept t ht.1).resolve_right ht.2,?_⟩
  intro ht
  refine ⟨(h.offered t ht).resolve_right not_mem_nil,?_⟩
  intro hmem
  obtain ⟨name',e',p,hcur',hp,hproc,htt⟩ := ht
  obtain ⟨tt,-,rfl⟩ := mem_map.mp hmem
  obtain ⟨tt',-,htt⟩ := List.mem_map.mp htt
  have hname:=fullTaskType_name (hl.valid name' e' hcur') (hl.valid name e hcur) htt
  rw [hname,hcur] at hcur'
  cases hcur'
  exact hproc (hnone p hp)

theorem Tallied.publish (h : Tallied g (.waitForPlugin m pid k)) (htidy : Tidy g)
    (hkeeps : ∀ (e : Nat) (p : ManagedPlugin), g.lookup m.name=some (e,p) → p.process≠none →
      p.manifest.taskTypes ⊆ m.taskTypes) : Tallied (g.publish m pid) (.loaded m k) := by
  have hnew : ∀ t∈m.taskTypes.map (fullTaskType m.name), Offers (g.publish m pid) t := by
    intro t ht
    obtain ⟨p,hp,hm,hproc⟩ := entries_publish_new (g := g) m pid
    refine ⟨m.name,g.entries.length,p,if_pos rfl,hp,?_,by rw [hm]; exact ht⟩
    rw [hproc]
    exact some_ne_none pid
  refine ⟨?_,?_,hnew⟩
  · intro t ht
    obtain ⟨name,e,p,hcur,hp,hproc,htt⟩ := ht
    rcases current_publish htidy hcur hp with ⟨rfl,hm,-⟩ | ⟨-,hcur,hold⟩
    · rw [hm] at htt
      exact .inr htt
    · exact .inl ((h.exact rfl rfl t).mpr ⟨name,e,p,hcur,hold,hproc,htt⟩)
  · intro t ht
    refine .inl ?_
    obtain ⟨name,e,p,hcur,hp,hproc,htt⟩ := (h.exact rfl rfl t).mp ht
    by_cases hname : name=m.name
    · subst hname
      have hlookup : g.lookup m.name=some (e,p) := by rw [Gateway.lookup,hcur,bind_some,hp,map_some]
      exact hnew t (map_subset _ (hkeeps e p hlookup hproc) htt)
    · exact ⟨name,e,p,(if_neg hname).trans hcur,Pool.getElem?_push_of hp _,hproc,htt⟩

theorem Tallied.loaded (h : Tallied g (.loaded m k))
    (ha' : pc'.arriving=[]) : Tallied (g.call (.loaded m.name m.taskTypes)) pc' := by
  refine .of_exact ha' ?_
  intro t
  have hstep : t∈registered (g.call (.loaded m.name m.taskTypes)).calls ↔
      t∈registered g.calls ∨ t∈m.taskTypes.map (fullTaskType m.name) := mem_apply_loaded
  refine hstep.trans ⟨?_,h.offered t⟩
  rintro (ht | ht)
  · exact (h.kept t ht).resolve_right not_mem_nil
  · exact h.arrived t ht

theorem AfterStop.arriving_next (k : AfterStop) (name : String) (e : Nat) :
    (k.next name e).arriving=[] := by cases k <;> rfl
theorem AfterLoad.arriving_next (k : AfterLoad) : k.next.arriving=[] := by cases k <;> rfl
theorem AfterLoad.arriving_failed (k : AfterLoad) (m : PluginManifest) : (k.failed m).arriving=[] := by
  cases k <;> rfl
theorem Pc.quiet_of_fresh {pc : Pc} (h : pc.fresh) : pc.arriving=[] ∧ pc.leaving=[] := by
  cases pc <;> first | exact ⟨rfl,rfl⟩ | cases h

theorem Turns.tallied (ht : Turns g pc a g' pc') (htidy : Tidy g) (hs : Sound g pc)
    (hplaced : Placed g pc) (hlively : Lively g pc)
    (hkeeps : ∀ m pid k, pc=.waitForPlugin m pid k → a=.ok →
      ∀ (e : Nat) (p : ManagedPlugin), g.lookup m.name=some (e,p) → p.process≠none →
        p.manifest.taskTypes ⊆ m.taskTypes) (h : Tallied g pc) : Tallied g' pc' := by
  cases ht with
  | finish hpc =>
    exact h.frame rfl rfl rfl (Pc.quiet_of_fresh hpc).1 (Pc.quiet_of_fresh hpc).2 rfl
  | setDisabled he | setError he => exact h.setStatus _ he rfl rfl rfl
  | @stopPlugin name e k p he =>
    refine h.stopPlugin he ?_
    intro name' hcur
    have hown:=(htidy.keyed name e (hplaced.current (name,e) mem_cons_self)).name_eq he
    exact ((htidy.keyed name' e hcur).name_eq he).symm.trans hown
  | @killed name e pid taskTypes k =>
    have hcur:=hplaced.current (name,e) mem_cons_self
    refine h.killed hlively hcur (hs.emptied e rfl) ?_ ?_ ?_ (k.arriving_next name e) <;>
      cases pid <;> rfl
  | @delete name e =>
    refine .of_exact rfl ?_
    intro t
    refine (h.exact rfl rfl t).trans ⟨?_,?_⟩
    · rintro ⟨name',e',p,hcur,hp,hproc,htt⟩
      refine ⟨name',e',p,(if_neg ?_).trans hcur,hp,hproc,htt⟩
      rintro rfl
      have hown:=hplaced.current (name',e) mem_cons_self
      cases hcur.symm.trans hown
      exact hproc (hs.emptied e rfl p hp)
    · rintro ⟨name',e',p,hcur,hrest⟩
      exact ⟨name',e',p,current_delete hcur,hrest⟩
  | publish => exact h.publish htidy (hkeeps _ _ _ rfl rfl)
  | @loaded m k => exact h.loaded k.arriving_next
  | @stopAgain name e k => exact h.frame rfl rfl rfl rfl rfl (k.arriving_next name e)
  | @loadFailed m k | @aborted m pid k => exact h.frame rfl rfl rfl rfl rfl (k.arriving_failed m)
  | stopClear => exact absurd hplaced.runs Bool.true_eq_false.mp
  | _ => exact h.frame rfl rfl rfl rfl rfl rfl

end

structure InStep (s : Session) : Prop where
  tidy : Tidy s.g
  sound : Sound s.g s.pc
  placed : Placed s.g s.pc
  lively : Lively s.g s.pc
  tallied : Tallied s.g s.pc

theorem inStep_start (maxRestarts : Int) : InStep (Session.start maxRestarts) := by
  have htidy:=(consistent_start maxRestarts none).valid.tidy
  refine ⟨htidy,.of_refs (forall_mem_nil _) rfl rfl,.of_nil rfl nodup_nil rfl rfl,?_,?_⟩
  · exact ⟨fun _ e hk => (some_ne_none e hk.symm).elim,
      fun _ e _ _ hk => (some_ne_none e hk.symm).elim,
      fun _ _ hpid => by cases hpid⟩
  · refine .of_exact rfl ?_
    intro t
    refine ⟨fun ht => absurd ht not_mem_nil,?_⟩
    rintro ⟨_,e,_,hk,-⟩
    exact (some_ne_none e hk.symm).elim

theorem Pc.atRest_quiet {pc : Pc} (h : pc.atRest) : pc.arriving=[] ∧ pc.leaving=[] := by
  cases pc <;> first | exact ⟨rfl,rfl⟩ | cases h

theorem InStep.call (h : InStep s) (hrest : s.pc.atRest) (op : GatewayOp) :
    InStep {s with pc := op.pc} := by
  obtain ⟨ha,hl⟩ := Pc.atRest_quiet hrest
  refine ⟨h.tidy,?_,?_,?_,?_⟩
  · cases op <;> exact .of_refs (forall_mem_nil _) rfl rfl
  · cases op <;> first
      | exact .of_nil rfl nodup_nil rfl rfl
      | exact .of_nil rfl (nodup_singleton _) rfl rfl
  · cases op <;> exact h.lively.frame rfl rfl rfl (.inl rfl)
  · cases op <;> exact h.tallied.frame rfl rfl rfl ha hl rfl

theorem killProcess_of_dead {g : Gateway} {pid : Nat}
    (h : g.processes[pid]?.any (fun q => q.alive)=false) : g.killProcess pid=g := by
  have hsame : g.processes.modify pid (fun q => {q with alive := false})=g.processes := by
    refine ext_getElem? fun i => ?_
    rw [getElem?_modify]
    cases hq : g.processes[i]? with
    | none => rfl
    | some q =>
      rw [Option.map_eq_map,map_some]
      split
      · rename_i hi
        subst hi
        rw [hq,any_some] at h
        rw [← h]
      · rfl
  rw [Gateway.killProcess,hsame]

theorem subset_of_keeps {m : PluginManifest} {pid : Nat} {k : AfterLoad}
    (h : s.keeps (.turn .ok)) (hpc : s.pc=.waitForPlugin m pid k) {e : Nat}
    {p : ManagedPlugin} (hl : s.g.lookup m.name=some (e,p)) (hproc : p.process≠none) :
    p.manifest.taskTypes ⊆ m.taskTypes := by
  simp only [Session.keeps,hpc,hl,all_some,Bool.or_eq_true,isNone_iff_eq_none,
    List.all_eq_true,contains_iff_mem] at h
  intro tt htt
  exact h.resolve_left hproc tt htt

theorem inStep_step (s : Session) (l : SessionEvent) (t : Session) (h : InStep s)
    (hk : s.keeps l) (hs : s.step l=some t) : InStep t := by
  cases Session.goes_of_step hs with
  | @call op hrest => exact h.call hrest op
  | @turn a g' pc' hacc ht =>
    refine ⟨ht.tidy h.tidy h.sound,ht.sound h.tidy h.sound,ht.placed h.tidy h.placed,
      ht.lively hacc h.tidy h.sound h.placed h.lively,
      ht.tallied h.tidy h.sound h.placed h.lively ?_ h.tallied⟩
    rintro m pid k hpc rfl e p hl hproc
    exact subset_of_keeps hk hpc hl hproc
  | parentDone =>
    have hgrows : Grows s.g {s.g with cancelled := true} := .of_eq rfl rfl
    exact ⟨h.tidy.of_grows hgrows rfl rfl,hgrows.sound h.sound,
      ⟨h.placed.current,h.placed.distinct,h.placed.restarts,h.placed.runs⟩,
      h.lively.frame rfl rfl rfl (.inr rfl),⟨h.tallied.offered,h.tallied.kept,h.tallied.arrived⟩⟩
  | @exit pid =>
    have hdead : s.g.processes[pid]?.any (fun q => q.alive)=false := by
      simpa only [Session.keeps,Bool.not_eq_true'] using hk
    rw [killProcess_of_dead hdead]
    exact h

theorem mem_current_of_known {g : Gateway} {e : Nat} {p : ManagedPlugin}
    (hcur : g.plugins name=some e) (hp : g.entries[e]?=some p) (hname : p.manifest.name=name) :
    (name,e)∈g.current := by
  refine mem_filterMap.mpr ⟨e,mem_range.mpr (List.getElem?_eq_some_iff.mp hp).1,?_⟩
  rw [hp,bind_some,hname,if_pos hcur]

theorem mem_runningTaskTypes {g : Gateway} {pc : Pc} (htidy : Tidy g) (hl : Lively g pc) (t : String) :
    t∈g.runningTaskTypes ↔ Offers g t := by
  simp only [Gateway.runningTaskTypes,mem_flatMap,mem_filter,mem_toList]
  refine ⟨?_,?_⟩
  · rintro ⟨r,hr,p,⟨hp,hrun⟩,ht⟩
    refine ⟨r.1,r.2,p,(mem_current hr).1,hp,?_,ht⟩
    intro hnone
    rw [Gateway.running,hnone] at hrun
    cases hrun
  · rintro ⟨name,e,p,hcur,hp,hproc,ht⟩
    have hname : p.manifest.name=name := (htidy.keyed name e hcur).name_eq hp
    refine ⟨(name,e),mem_current_of_known hcur hp hname,p,⟨hp,?_⟩,ht⟩
    obtain ⟨pid,hpid⟩ := ne_none_iff_exists'.mp hproc
    have halive:=hl.runs name e p pid hcur hp hpid
    rw [Alive] at halive
    rw [Gateway.running,hpid,any_some,halive]
    rfl

/-- Without a load that drops a type of a running plugin, the dispatcher has the types of the running
plugins whenever no operation is under way. -/
theorem agrees_of_keeps (maxRestarts : Int) (ls : List SessionEvent) (s : Session)
    (hk : guarded Session.step Session.keeps (.start maxRestarts) ls=true)
    (hr : exec Session.step (.start maxRestarts) ls=some s) : s.Agrees := by
  have h : InStep s := exec_invariant inStep_step (inStep_start maxRestarts) hk hr
  intro hrest t
  obtain ⟨ha,hl⟩ := Pc.atRest_quiet hrest
  rw [mem_runningTaskTypes h.tidy h.lively]
  exact h.tallied.exact ha hl t

def probeA : PluginManifest := ⟨"probe",["a"]⟩
def probeB : PluginManifest := ⟨"probe",["b"]⟩

def reloadAndDisable : List SessionEvent :=
  [.call (.load probeA),.turn .ok,.turn .ok,.turn .ok,
    .call (.reload "probe"),.turn .ok,.turn .ok,.turn .ok,.turn .ok,.turn .ok,.turn .ok,
    .call (.disable "probe"),.turn .ok,.turn .ok,.turn .ok,.turn .ok,
    .call (.enable "probe"),.turn .ok,.turn .ok,.turn .ok,.turn .ok,.turn .ok]

theorem agrees_reloadAndDisable :
    ∃ s, exec Session.step (.start 3) reloadAndDisable=some s ∧ s.pc.atRest=true ∧
      s.g.runningTaskTypes=["probe/a"] ∧ s.Agrees := by
  obtain ⟨s,hr,hrest,htypes⟩ := exists_exec Session.step (.start 3) reloadAndDisable
    (fun s => s.pc.atRest=true ∧ s.g.runningTaskTypes=["probe/a"]) (by decide +kernel)
  exact ⟨s,hr,hrest,htypes,agrees_of_keeps 3 reloadAndDisable s (by decide +kernel) hr⟩

def loadBoth : List SessionEvent :=
  [.call (.load probeA),.turn .ok,.turn .ok,.turn .ok,
    .call (.load probeB),.turn .ok,.turn .ok,.turn .ok]

theorem loadBoth_not_agrees : ∃ s, exec Session.step (.start 3) loadBoth=some s ∧ s.pc.atRest=true ∧
      "probe/a" ∈ registered s.g.calls ∧ s.g.runningTaskTypes=["probe/b"] ∧ ¬ s.Agrees := by
  obtain ⟨s,hr,hrest,hreg,htypes⟩ := exists_exec Session.step (.start 3) loadBoth
    (fun s => s.pc.atRest=true ∧ "probe/a" ∈ registered s.g.calls ∧
      s.g.runningTaskTypes=["probe/b"]) (by decide +kernel)
  refine ⟨s,hr,hrest,hreg,htypes,?_⟩
  intro h
  have hrun:=(h hrest "probe/a").mp hreg
  rw [htypes] at hrun
  exact absurd hrun (by decide)

end OpsAgent.PluginRuntime
