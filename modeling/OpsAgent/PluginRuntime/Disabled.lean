import OpsAgent.PluginRuntime.Ownership

/-!
# Disabled plugins
-/

namespace OpsAgent.PluginRuntime
open Lib List Option Bool
open Lib.Exec

def AfterLoad.starts (name : String) : AfterLoad → Bool
  | .start rest => rest.any fun m => m.name == name
  | _ => false
def AfterStop.loads (name : String) : AfterStop → Bool
  | .reload m | .restart m _ => m.name == name
  | _ => false

def Pc.busy (name : String) : Pc → Bool
  | .enable n | .enableCheck n _ | .ping n _ _ => n == name
  | .stopPlugin _ _ k => k.loads name
  | .killing n _ pid _ k => (n == name&&pid.isSome)||k.loads name
  | .loadPlugin m k | .waitForPlugin m _ k | .abort m _ k => m.name == name||k.starts name
  | .loaded _ k => k.starts name
  | .starting rest => rest.any fun m => m.name == name
  | .backoff m _ => m.name == name
  | _ => false

def Pc.disables (name : String) : Pc → Answer → Bool
  | .setDisabled n _, .ok => n == name
  | _, _ => false

/-- Whether `DisablePlugin` has returned and `EnablePlugin` has not been called since. -/
def disabledAfter (name : String) (s : System) (disabled : Bool) : Label → Bool
  | .call (.enable n) => disabled&&n != name
  | .run i a => disabled||s.threads[i]?.any fun pc => pc.disables name a
  | _ => disabled
def track (name : String) (x : System × Bool) (l : Label) : Option (System × Bool) :=
  (x.1.step l).map fun t => (t,disabledAfter name x.1 x.2 l)
def Gateway.vacant (g : Gateway) (name : String) : Bool :=
  (g.lookup name).all fun found => found.2.process.isNone

/-- An entry of the plugin that is replaced or dropped has no process, `DisablePlugin` returns while no other
thread is busy with the plugin, and no reload finds it disabled. -/
def permits (name : String) (x : System × Bool) (i : Nat) : Pc → Answer → Bool
  | .waitForPlugin m _ _, .ok => m.name != name||x.1.g.vacant name
  | .stopClear, .ok => x.1.g.vacant name
  | .setDisabled n e, .ok => n != name ||
      (x.1.g.plugins name == some e&&(x.1.threads.eraseIdx i).all fun pc => !pc.busy name)
  | .reload n, .ok => n != name||!x.2||(x.1.g.lookup name).isNone
  | _, _ => true

def undisturbed (name : String) (x : System × Bool) : Label → Bool
  | .run i a => x.1.threads[i]?.all fun pc => permits name x i pc a
  | _ => true
def Single (name : String) (g : Gateway) : Prop :=
  ∀ (e : Nat) (p : ManagedPlugin), g.entries[e]?=some p → p.manifest.name=name →
    p.process≠none → g.plugins name=some e

structure Idle (name : String) (s : System) : Prop where
  threads : ∀ pc∈s.threads, pc.busy name=false
  entries : ∀ (e : Nat) (p : ManagedPlugin), s.g.entries[e]?=some p → p.manifest.name=name →
    p.process=none

section
variable {g g' : Gateway} {pc pc' : Pc} {a : Answer} {name : String}
  {e : Nat}
  {k : AfterLoad} {p : ManagedPlugin}

theorem Turns.process (ht : Turns g pc a g' pc') (hp : g'.entries[e]?=some p) (hproc : p.process≠none) :
    (∃ q, g.entries[e]?=some q ∧ q.manifest=p.manifest ∧ q.process≠none) ∨
    ∃ m pid k, pc=.waitForPlugin m pid k ∧ a=.ok ∧ g' = g.publish m pid ∧ p.manifest=m ∧
      e=g.entries.length := by
  cases ht with
  | setDisabled he | setError he =>
    rcases entries_setEntry hp with ⟨rfl,rfl⟩ | ⟨-,hp⟩
    · exact .inl ⟨_,he,rfl,hproc⟩
    · exact .inl ⟨p,hp,rfl,hproc⟩
  | stopPlugin he =>
    rcases entries_setEntry hp with ⟨rfl,-⟩ | ⟨-,hp⟩
    · exact absurd rfl hproc
    · exact .inl ⟨p,hp,rfl,hproc⟩
  | @publish m pid k =>
    rcases entries_publish hp with hp | ⟨he,hm,-⟩
    · exact .inl ⟨p,hp,rfl,hproc⟩
    · exact .inr ⟨m,pid,k,rfl,rfl,rfl,hm,he⟩
  | @killed _ _ pid =>
    cases pid with
    | none | some pid => exact .inl ⟨p,hp,rfl,hproc⟩
  | _ => exact .inl ⟨p,hp,rfl,hproc⟩

theorem vacant_of_current (h : g.vacant name)
    (hk : g.plugins name=some e) (hp : g.entries[e]?=some p) : p.process=none := by
  rw [Gateway.vacant,Gateway.lookup,hk,bind_some,hp] at h
  exact isNone_iff_eq_none.mp h
theorem AfterStop.busy_next {k : AfterStop} (h : k.loads name=false) (n : String) (e : Nat) :
    (k.next n e).busy name=false := by
  cases k <;> first | rfl | simpa [AfterStop.next,AfterStop.loads,Pc.busy,AfterLoad.starts] using h
theorem AfterLoad.busy_next (h : k.starts name=false) : k.next.busy name=false := by
  cases k <;> first | rfl | exact h
theorem AfterLoad.busy_failed (h : k.starts name=false) (m : PluginManifest) :
    (k.failed m).busy name=false := by cases k <;> first | rfl | exact h

theorem Turns.busy (ht : Turns g pc a g' pc') (htidy : Tidy g) (hs : Sound g pc)
    (hentries : ∀ (e : Nat) (p : ManagedPlugin), g.entries[e]?=some p → p.manifest.name=name →
      p.process=none)
    (hreload : pc=.reload name → a=.ok → g.lookup name=none) (hb : pc.busy name=false) :
    pc'.busy name=false := by
  cases ht with
  | @reload n e p hfree hl =>
    have hn:=(htidy.known_of_lookup hl).name_eq (lookup_eq_some hl).2
    have hne : n≠name := by
      rintro rfl
      rw [hreload rfl rfl] at hl
      cases hl
    simpa [Pc.busy,AfterStop.loads,hn] using hne
  | enable | started | waitFailed => exact hb
  | @enabled n e p he hstatus =>
    have hn:=(hs.refs (n,e) mem_cons_self).name_eq he
    simpa [Pc.busy,AfterLoad.starts,hn] using hb
  | stopAgain => exact AfterStop.busy_next hb _ _
  | @stopPlugin n e k p he hstatus =>
    have hn:=(hs.refs (n,e) mem_cons_self).name_eq he
    have hnone : n=name → p.process=none := fun h => hentries e p he (hn.trans h)
    by_cases heq : n=name
    · simpa [Pc.busy,hnone heq] using hb
    · simpa [Pc.busy,heq] using hb
  | @killed n e pid taskTypes k =>
    rw [Pc.busy,or_eq_false_iff] at hb
    exact AfterStop.busy_next hb.2 n e
  | @loadFailed m k | @aborted m pid k =>
    rw [Pc.busy,or_eq_false_iff] at hb
    exact AfterLoad.busy_failed hb.2 m
  | @publish m pid k =>
    rw [Pc.busy,or_eq_false_iff] at hb
    exact hb.2
  | loaded => exact AfterLoad.busy_next hb
  | @startNext m rest =>
    rw [Pc.busy,any_cons] at hb
    exact hb
  | @check rest k n e p hk he hrun hclient =>
    have hn:=(hs.refs (n,e) (mem_of_getElem? hk)).name_eq he
    have hne : n≠name := by
      rintro rfl
      rw [htidy.client e p he,hentries e p he hn] at hclient
      cases hclient
    simpa [Pc.busy] using hne
  | @restart n e rest p he hr =>
    have hn:=(hs.refs (n,e) mem_cons_self).name_eq he
    simpa [Pc.busy,AfterStop.loads,hn] using hb
  | backoff => simpa [Pc.busy,AfterLoad.starts] using hb
  | _ => rfl

end

section
variable {s : System} {i : Nat} {a : Answer} {pc pc' : Pc} {g' : Gateway} {name : String} {d : Bool}

theorem Single.run (h : Single name s.g) (hc : Consistent s) (hi : s.threads[i]?=some pc)
    (ht : Turns s.g pc a g' pc') (hp : permits name (s,d) i pc a) : Single name g' := by
  intro e p he hname hproc
  rcases ht.process he hproc with ⟨q,hq,hqm,hqp⟩ | ⟨m,pid,k,rfl,rfl,rfl,hm,rfl⟩
  · have hcur:=h e q hq (hqm ▸ hname) hqp
    refine hc.stays_current hi ht hcur hq hqp ?_ ?_
    · rintro m pid k rfl rfl rfl
      rw [permits,bne_self_eq_false,Bool.false_or] at hp
      exact hqp (vacant_of_current hp hcur hq)
    · rintro rfl rfl
      exact hqp (vacant_of_current hp hcur hq)
  · rw [← hname,hm]
    exact if_pos rfl

theorem Idle.run (h : Idle name s) (hc : Consistent s) (hi : s.threads[i]?=some pc)
    (ht : Turns s.g pc a g' pc') (hp : permits name (s,true) i pc a) :
    Idle name {s with g := g', threads := s.threads.set i pc' } := by
  have hmem:=mem_of_getElem? hi
  have hb:=h.threads pc hmem
  refine ⟨Pool.forall_mem_set h.threads ?_ i,?_⟩
  · refine ht.busy hc.valid.tidy (hc.valid.sound pc hmem) h.entries ?_ hb
    rintro rfl rfl
    rw [permits,bne_self_eq_false,Bool.not_true,Bool.false_or,Bool.false_or] at hp
    exact isNone_iff_eq_none.mp hp
  · intro e p he hname
    by_contra hproc
    rcases ht.process he hproc with ⟨q,hq,hqm,hqp⟩ | ⟨m,pid,k,rfl,rfl,rfl,hm,rfl⟩
    · exact hqp (h.entries e q hq (hqm ▸ hname))
    · rw [Pc.busy,← hm,hname] at hb
      simp at hb

theorem idle_of_disables {e : Nat} (h : Single name s.g) (hc : Consistent s)
    (hi : s.threads[i]?=some (.setDisabled name e)) (ht : Turns s.g (.setDisabled name e) .ok g' pc')
    (hp : permits name (s,d) i (.setDisabled name e) .ok) :
    Idle name {s with g := g', threads := s.threads.set i pc' } := by
  rw [permits,bne_self_eq_false,Bool.false_or,and_eq_true,beq_iff_eq,List.all_eq_true] at hp
  obtain ⟨hcur,hothers⟩ := hp
  have hsound:=hc.valid.sound _ (mem_of_getElem? hi)
  refine ⟨?_,?_⟩
  · intro c hcm
    rcases Pool.eq_or_mem_eraseIdx hi hcm with rfl | hcm
    · cases ht with
      | setDisabled | finish hpc => rfl
    · simpa using hothers c hcm
  · intro e' p he' hname
    by_contra hproc
    rcases ht.process he' hproc with ⟨q,hq,hqm,hqp⟩ | ⟨m,pid,k,hpc,-⟩
    · have heq:=h e' q hq (hqm ▸ hname) hqp
      cases hcur.symm.trans heq
      exact hqp (hsound.emptied e rfl q hq)
    · cases hpc

end

variable {name : String} {op : Operation}

theorem Operation.busy_pc (h : op ≠ .enable name) : op.pc.busy name=false := by
  cases op with
  | enable n => simpa [Operation.pc,Pc.busy] using fun hn : n=name => h (hn ▸ rfl)
  | _ => rfl
theorem Change.busy_pc (c : Change) (n name : String) : (c.pc n).busy name=false := by
  cases c <;> rfl

variable {pc : Pc} {s : System} {d : Bool} {l : Label}

theorem Pc.disables_eq_true {a : Answer} (h : pc.disables name a) :
    ∃ e, pc=.setDisabled name e ∧ a=.ok := by
  unfold Pc.disables at h
  split at h
  next n e => exact ⟨e,by rw [eq_of_beq h],rfl⟩
  next => cases h

theorem disabledAfter_call (h : disabledAfter name s d (.call op)) : d ∧ op ≠ .enable name := by
  cases op with
  | enable n =>
    rw [disabledAfter,and_eq_true,bne_iff_ne] at h
    exact ⟨h.1,fun heq => h.2 (Operation.enable.inj heq)⟩
  | reload n | disable n | stop => exact ⟨h,fun heq => by cases heq⟩

theorem disabledAfter_quiet
    (h : l.quiet) : disabledAfter name s d l=d := by cases l <;> first | rfl | cases h

structure Tracked (name : String) (x : System × Bool) : Prop where
  consistent : Consistent x.1
  single : Single name x.1.g
  idle : x.2 → Idle name x.1

theorem tracked_start (name : String) (maxRestarts : Int) (manifests : Option (List PluginManifest)) :
    Tracked name (System.start maxRestarts manifests,false) :=
  ⟨consistent_start maxRestarts manifests,fun _ p hp => (some_ne_none p hp.symm).elim,
    fun h => by cases h⟩

theorem Tracked.run (h : Tracked name (s,d)) {i : Nat} {a : Answer}
    {pc' : Pc} {g' : Gateway} (hi : s.threads[i]?=some pc) (ht : Turns s.g pc a g' pc')
    (hp : permits name (s,d) i pc a=true) (hd : (d||pc.disables name a)=true) :
    Idle name {s with g := g', threads := s.threads.set i pc' } := by
  cases d with
  | true => exact (h.idle rfl).run h.consistent hi ht hp
  | false =>
    rw [Bool.false_or] at hd
    obtain ⟨e,rfl,rfl⟩ := Pc.disables_eq_true hd
    exact idle_of_disables h.single h.consistent hi ht hp

theorem track_tracked {x y : System × Bool} (h : Tracked name x)
    (hl : undisturbed name x l) (hs : track name x l=some y) : Tracked name y := by
  obtain ⟨s,d⟩ := x
  obtain ⟨t,hstep,rfl⟩ := map_eq_some_iff.mp hs
  have hc:=consistent_step h.consistent hstep
  cases moves_of_step hstep with
  | @call op =>
    refine ⟨hc,h.single,fun hd => ?_⟩
    obtain ⟨rfl,hop⟩ := disabledAfter_call hd
    exact ⟨Pool.forall_mem_push (h.idle rfl).threads (op.busy_pc hop),(h.idle rfl).entries⟩
  | @fire n timers c =>
    exact ⟨hc,h.single,fun hd => ⟨Pool.forall_mem_push (h.idle hd).threads (c.busy_pc n name),
      (h.idle hd).entries⟩⟩
  | @run i a pc g' pc' hi ht =>
    rw [undisturbed,hi,all_some] at hl
    refine ⟨hc,h.single.run h.consistent hi ht hl,fun hd => ?_⟩
    simp only [disabledAfter,hi,any_some] at hd
    exact h.run hi ht hl hd
  | @flags l watcher cancelled timers hq =>
    refine ⟨hc,h.single,fun hd => ?_⟩
    have hidle:=h.idle ((disabledAfter_quiet hq).symm.trans hd)
    exact ⟨hidle.threads,hidle.entries⟩
  | exit => exact ⟨hc,h.single,fun hd => ⟨(h.idle hd).threads,(h.idle hd).entries⟩⟩

theorem Pc.busy_of_holds {pid : Nat} (h : pc.holds=some (name,pid)) : pc.busy name := by
  unfold Pc.holds at h
  split at h
  next =>
    cases h
    simp [Pc.busy]
  next =>
    cases h
    simp [Pc.busy]
  next =>
    cases h
    simp [Pc.busy]
  next => cases h

theorem Idle.not_alive (h : Idle name s) (hc : Consistent s) (pid : Nat) : ¬ Alive s.g name pid := by
  intro halive
  rcases hc.owned name pid halive with ⟨c,hcm,hholds⟩ | ⟨e,p,hp,hproc,hname⟩
  · have hbusy:=h.threads c hcm
    rw [Pc.busy_of_holds hholds] at hbusy
    cases hbusy
  · rw [h.entries e p hp hname] at hproc
    cases hproc

/-- In an undisturbed run no process of a disabled plugin is alive. -/
theorem disabled_not_running (maxRestarts : Int) (manifests : Option (List PluginManifest))
    (name : String) (ls : List Label) (s : System)
    (hundisturbed : guarded (track name) (undisturbed name)
      (System.start maxRestarts manifests,false) ls=true)
    (hrun : exec (track name) (System.start maxRestarts manifests,false) ls=some (s,true)) :
    ∀ pid, ¬ Alive s.g name pid := by
  have htracked : Tracked name (s,true) :=
    exec_invariant (I := Tracked name) (fun _ _ _ => track_tracked)
      (tracked_start name maxRestarts manifests) hundisturbed hrun
  exact fun pid => (htracked.idle rfl).not_alive htracked.consistent pid

def sensor : PluginManifest := ⟨"sensor",["read"]⟩
def disableSensor : List Label :=
  flatten [replicate 5 (.run 0 .ok),[.call (.disable "sensor")],
    replicate 4 (.run 1 .ok)]
def checkDisabled : List Label := flatten [disableSensor,[.run 0 .ok,.run 0 (.pick 0)]]
def writeDisabled : List Label :=
  flatten [disableSensor,[.fsEvent "sensor" .written,.fire "sensor"],
    replicate 3 (.run 2 .ok)]
def disableInBackoff : List Label :=
  flatten [replicate 6 (.run 0 .ok),
    [.run 0 (.pick 0),.run 0 .failed,.run 0 .ok,.run 0 .ok,.call (.disable "sensor")],
    replicate 3 (.run 1 .ok),replicate 2 (.run 0 .ok)]

theorem exists_disabled (name : String) (x : System × Bool) (ls : List Label) (P : System → Prop)
    [DecidablePred P] (h : ((exec (track name) x ls).any fun y => decide (y.2 ∧ P y.1))) :
    ∃ s, exec (track name) x ls=some (s,true) ∧ P s := by
  obtain ⟨⟨s,d⟩,hs,hd,hp⟩ := exists_exec (track name) x ls (fun y => y.2=true ∧ P y.1) h
  cases hd
  exact ⟨s,hs,hp⟩

theorem disabled_not_running_sensor :
    ∃ s, exec (track "sensor") (System.start 3 (some [sensor]),false) checkDisabled = some (s,true) ∧
      s.g.processes=[⟨"sensor",false⟩] ∧ ∀ pid, ¬ Alive s.g "sensor" pid := by
  obtain ⟨s,hrun,hprocs⟩ := exists_disabled "sensor" (System.start 3 (some [sensor]),false)
    checkDisabled (fun s => s.g.processes=[⟨"sensor",false⟩]) (by decide +kernel)
  have hundisturbed : guarded (track "sensor") (undisturbed "sensor")
      (System.start 3 (some [sensor]),false) checkDisabled=true := by decide +kernel
  exact ⟨s,hrun,hprocs,
    disabled_not_running 3 (some [sensor]) "sensor" checkDisabled s hundisturbed hrun⟩

theorem disabled_started :
    (∃ s, exec (track "sensor") (System.start 3 (some [sensor]),false) writeDisabled =
      some (s,true) ∧ Alive s.g "sensor" 1) ∧
    (∃ s, exec (track "sensor") (System.start 3 (some [sensor]),false) disableInBackoff =
      some (s,true) ∧ Alive s.g "sensor" 1) :=
  ⟨exists_disabled _ _ _ (fun s => Alive s.g "sensor" 1) (by decide +kernel),
    exists_disabled _ _ _ (fun s => Alive s.g "sensor" 1) (by decide +kernel)⟩

end OpsAgent.PluginRuntime
