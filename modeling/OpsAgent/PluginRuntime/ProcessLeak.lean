import OpsAgent.PluginRuntime.Ownership

/-!
# Processes that nobody stops
-/

namespace OpsAgent.PluginRuntime
open Lib List Option
open Lib.Exec

def Pc.copied : Pc → Bool
  | .stopNext _ | .stopPlugin _ _ (.stop _) | .killing _ _ _ _ (.stop _) => true
  | .stopWait | .stopClear | .stopped => true
  | _ => false
def Pc.loading : Pc → Bool
  | .waitForPlugin _ _ _ => true
  | _ => false
def Gateway.alive (g : Gateway) (pid : Nat) : Bool := g.processes[pid]?.any ManagedProcess.alive

/-- No two loads of a plugin overlap, and none overlaps with `Stop`, which returns only when no process is
being killed. -/
def System.allows (s : System) : Pc → Answer → Bool
  | .waitForPlugin m _ _, .ok => (s.g.lookup m.name).all fun old =>
      old.2.process.all fun pid => !s.g.alive pid
  | .stopCopy, .ok => s.threads.all fun pc => !pc.loading
  | .loadPlugin _ _, .ok => s.threads.all fun pc => !pc.copied
  | .stopClear, .ok => s.threads.all fun pc => pc.holds.isNone
  | _, _ => true

def orderly (s : System) : Label → Bool
  | .run i a => s.threads[i]?.all fun pc => s.allows pc a
  | _ => true

/-- A process that is alive is with a thread that loads or kills it, or it is the
process of the current entry of its plugin, and none is alive once `Stop` has returned. -/
def Accounted (s : System) : Prop :=
  (∀ name pid, Alive s.g name pid → (∃ pc∈s.threads, pc.holds=some (name,pid)) ∨
    ∃ (e : Nat) (p : ManagedPlugin), s.g.plugins name=some e ∧ s.g.entries[e]?=some p ∧
      p.process=some pid) ∧
  (Pc.stopped∈s.threads → ∀ name pid, ¬ Alive s.g name pid)

def Active (g : Gateway) (name : String) (e : Nat) : Prop :=
  ∃ (p : ManagedPlugin) (pid : Nat), g.entries[e]?=some p ∧ p.manifest.name=name ∧
    p.process=some pid ∧ Alive g name pid

section
variable {g g' : Gateway} {pc pc' : Pc} {a : Answer} {name : String} {e : Nat} {pid : Nat}

theorem Active.not_emptied (h : Active g name e) (he : Emptied g e) : False := by
  obtain ⟨p,pid,hp,-,hproc,-⟩ := h
  rw [he p hp] at hproc
  cases hproc
theorem alive_eq_true (h : Alive g name pid) : g.alive pid := by
  rw [Gateway.alive,h]
  rfl

theorem active_setEntry {e₀ : Nat} {p p' : ManagedPlugin} (h : Active (g.setEntry e₀ p') name e)
    (he : g.entries[e₀]?=some p) (hm : p'.manifest=p.manifest)
    (hp : p'.process=none ∨ p'.process=p.process) : Active g name e := by
  obtain ⟨q,pid,hq,hname,hproc,halive⟩ := h
  rcases entries_setEntry hq with ⟨rfl,rfl⟩ | ⟨-,hq⟩
  · rcases hp with hp | hp
    · cases hp.symm.trans hproc
    · exact ⟨p,pid,he,hm ▸ hname,hp ▸ hproc,halive⟩
  · exact ⟨q,pid,hq,hname,hproc,halive⟩

theorem active_killProcess (h : Active (g.killProcess pid) name e) : Active g name e := by
  obtain ⟨p,pid',hp,hname,hproc,halive⟩ := h
  exact ⟨p,pid',hp,hname,hproc,(alive_killProcess halive).2⟩

theorem active_startProcess (ht : Tidy g) {m : PluginManifest} (h : Active (g.startProcess m) name e) :
    Active g name e := by
  obtain ⟨p,pid,hp,hname,hproc,halive⟩ := h
  rcases alive_startProcess halive with hold | ⟨-,rfl⟩
  · exact ⟨p,pid,hp,hname,hproc,hold⟩
  · obtain ⟨q,hq,-⟩ := ht.named e p _ hp hproc
    have hlt:=(List.getElem?_eq_some_iff.mp hq).1
    exact absurd hlt (Nat.lt_irrefl _)

theorem Turns.active (ht : Turns g pc a g' pc') (h : Tidy g) (hact : Active g' name e) :
    Active g name e ∨ pc.loading ∧ a=.ok ∧ g'.plugins name=some e := by
  cases ht with
  | stopPlugin he => exact .inl (active_setEntry hact he rfl (.inl rfl))
  | setDisabled he | setError he => exact .inl (active_setEntry hact he rfl (.inr rfl))
  | @killed _ _ pid =>
    cases pid with
    | none => exact .inl hact
    | some pid => exact .inl (active_killProcess hact)
  | aborted => exact .inl (active_killProcess hact)
  | started => exact .inl (active_startProcess h hact)
  | @publish m pid k hfree =>
    obtain ⟨p,pid',hp,hname,hproc,halive⟩ := hact
    rcases entries_publish hp with hp | ⟨rfl,hm,-⟩
    · exact .inl ⟨p,pid',hp,hname,hproc,halive⟩
    · refine .inr ⟨rfl,rfl,?_⟩
      rw [← hname,hm]
      exact if_pos rfl
  | _ => exact .inl hact

theorem Turns.starts (ht : Turns g pc a g' pc') (h : pc'.loading) :
    (∃ m k, pc=.loadPlugin m k) ∧ a=.ok := by
  cases ht with
  | @started m k => exact ⟨⟨m,k,rfl⟩,rfl⟩
  | @stopAgain _ _ k | @killed _ _ _ _ k | @loadFailed _ k | @aborted _ _ k | @loaded _ k =>
    cases k <;> cases h
  | _ => cases h

theorem Turns.alive (ht : Turns g pc a g' pc') (h : Alive g' name pid) :
    Alive g name pid ∨ (∃ m k, pc=.loadPlugin m k) ∧ a=.ok := by
  cases ht with
  | @started m k => exact .inr ⟨⟨m,k,rfl⟩,rfl⟩
  | @killed _ _ pid =>
    cases pid with
    | none => exact .inl h
    | some pid => exact .inl (alive_killProcess h).2
  | aborted => exact .inl (alive_killProcess h).2
  | _ => exact .inl h

theorem Turns.stopped (ht : Turns g pc a g' .stopped) :
    pc=.stopClear ∧ a=.ok ∧ g'.processes=g.processes := by
  generalize hpc : Pc.stopped=pc' at ht
  cases ht with
  | stopClear => exact ⟨rfl,rfl,rfl⟩
  | @stopAgain _ _ k | @killed _ _ _ _ k | @loadFailed _ k | @aborted _ _ k | @loaded _ k =>
    cases k <;> cases hpc
  | _ => cases hpc

theorem Pc.loading_of_copied {pc : Pc} (h : pc.copied) : pc.loading=false := by
  cases pc <;> first | rfl | cases h

theorem mem_current_of_active (h : Active g name e) (hk : g.plugins name=some e) :
    (name,e)∈g.current := by
  obtain ⟨p,pid,hp,hname,-,-⟩ := h
  refine mem_filterMap.mpr ⟨e,mem_range.mpr (List.getElem?_eq_some_iff.mp hp).1,?_⟩
  rw [hp,bind_some,hname,if_pos hk]

theorem mem_cons_eraseIdx {rest : List (String × Nat)} {k : Nat} {r x : String × Nat}
    (hk : rest[k]?=some r) (hx : x∈rest) : x∈r::rest.eraseIdx k := by
  obtain ⟨i,hi⟩ := getElem?_of_mem hx
  by_cases hik : i=k
  · subst hik
    cases hk.symm.trans hi
    exact mem_cons_self
  · exact mem_cons_of_mem r (mem_eraseIdx_iff_getElem?.mpr ⟨i,hik,hi⟩)

theorem Turns.copied (ht : Turns g pc a g' pc') (h : Tidy g) (hs : Sound g pc) (hc : pc'.copied) :
    (pc=.stopCopy ∧ a=.ok ∧ pc' = .stopNext g.current ∧ g' = g) ∨
    (pc.copied ∧ ∀ name e, (name,e)∈pc.refs → Active g name e → (name,e)∈pc'.refs) := by
  cases ht with
  | stopCopy => exact .inl ⟨rfl,rfl,rfl,rfl⟩
  | stopNext hk => exact .inr ⟨rfl,fun name e hr _ => mem_cons_eraseIdx hk hr⟩
  | @stopAgain name₀ e₀ k p he hstatus =>
    cases k with
    | stop rest =>
      refine .inr ⟨rfl,fun name e hr hact => ?_⟩
      rcases mem_cons.mp hr with heq | hr
      · cases heq
        refine (hact.not_emptied fun p' hp' => ?_).elim
        cases he.symm.trans hp'
        exact h.halted e₀ p he hstatus
      · exact hr
    | _ => cases hc
  | @stopPlugin name₀ e₀ k p he hstatus =>
    cases k with
    | stop rest => exact .inr ⟨rfl,fun name e hr _ => hr⟩
    | _ => cases hc
  | @killed name₀ e₀ pid taskTypes k =>
    cases k with
    | stop rest =>
      refine .inr ⟨rfl,fun name e hr hact => ?_⟩
      rcases mem_cons.mp hr with heq | hr
      · cases heq
        exact (hact.not_emptied (hs.emptied e₀ rfl)).elim
      · exact hr
    | _ => cases hc
  | stopEnd | stopWait | stopClear => exact .inr ⟨rfl,fun _ _ hr _ => hr⟩
  | @loadFailed _ k | @aborted _ _ k | @loaded _ k => cases k <;> cases hc
  | _ => cases hc

end

structure NoLeak (s : System) : Prop where
  current : ∀ name e, Active s.g name e → s.g.plugins name=some e
  stopping : ∀ pc∈s.threads, pc.copied → ∀ name e, Active s.g name e → (name,e)∈pc.refs
  loading : ∀ pc∈s.threads, pc.copied → ∀ c∈s.threads, c.loading=false
  ended : Pc.stopped∈s.threads → ∀ name pid, ¬ Alive s.g name pid

section
variable {s : System} {i : Nat} {a : Answer} {pc pc' : Pc} {g' : Gateway}
  {k : AfterLoad} {m : PluginManifest}

theorem not_copied_of_allows (h : s.allows (.loadPlugin m k) .ok) : ∀ c∈s.threads, c.copied=false := by
  intro c hc
  simpa using List.all_eq_true.mp h c hc
theorem not_loading_of_allows (h : s.allows .stopCopy .ok) : ∀ c∈s.threads, c.loading=false := by
  intro c hc
  simpa using List.all_eq_true.mp h c hc

variable {e : Nat} {name : String} {pid : Nat}

theorem not_active_of_allows
    (h : s.allows (.waitForPlugin m pid k) .ok) (hk : s.g.plugins m.name=some e) :
    ¬ Active s.g m.name e := by
  rintro ⟨p,pid',hp,-,hproc,halive⟩
  have hl : s.g.lookup m.name=some (e,p) := by rw [Gateway.lookup,hk,bind_some,hp]; rfl
  rw [System.allows,hl,all_some,hproc,all_some,alive_eq_true halive] at h
  cases h

theorem NoLeak.run_current (h : NoLeak s) (hc : Consistent s) (hi : s.threads[i]?=some pc)
    (ht : Turns s.g pc a g' pc') (hallow : s.allows pc a)
    (hact : Active g' name e) : g'.plugins name=some e := by
  have hmem:=mem_of_getElem? hi
  rcases ht.active hc.valid.tidy hact with hold | ⟨-,-,hnew⟩
  · have hcur:=h.current name e hold
    have ⟨p,pid,hp,_,hproc,_⟩ := hold
    refine hc.stays_current hi ht hcur hp (by rw [hproc]; exact some_ne_none pid) ?_ ?_
    · rintro m pid k rfl rfl rfl
      exact not_active_of_allows hallow hcur hold
    · rintro rfl -
      exact absurd (h.stopping _ hmem rfl name e hold) not_mem_nil
  · exact hnew

theorem NoLeak.run_stopping (h : NoLeak s) (hc : Consistent s) (hi : s.threads[i]?=some pc)
    (ht : Turns s.g pc a g' pc') {c : Pc} (hcm : c∈s.threads.set i pc')
    (hcc : c.copied) (hact : Active g' name e) : (name,e)∈c.refs := by
  have hmem:=mem_of_getElem? hi
  have hold : ∀ d∈s.threads, d.copied → Active s.g name e := by
    intro d hd hdc
    rcases ht.active hc.valid.tidy hact with hold | ⟨hl,-,-⟩
    · exact hold
    · rw [h.loading d hd hdc pc hmem] at hl
      cases hl
  rcases mem_or_eq_of_mem_set hcm with hcm | rfl
  · exact h.stopping c hcm hcc name e (hold c hcm hcc)
  · rcases ht.copied hc.valid.tidy (hc.valid.sound pc hmem) hcc with ⟨rfl,-,rfl,rfl⟩ | ⟨hpc,hkeep⟩
    · exact mem_current_of_active hact (h.current name e hact)
    · exact hkeep name e (h.stopping pc hmem hpc name e (hold pc hmem hpc)) (hold pc hmem hpc)

theorem NoLeak.run_loading (h : NoLeak s) (hc : Consistent s) (hi : s.threads[i]?=some pc)
    (ht : Turns s.g pc a g' pc') (hallow : s.allows pc a) {c d : Pc}
    (hcm : c∈s.threads.set i pc') (hcc : c.copied) (hdm : d∈s.threads.set i pc') : d.loading=false := by
  have hmem:=mem_of_getElem? hi
  cases hload : pc'.loading with
  | true =>
    obtain ⟨⟨m,k,rfl⟩,rfl⟩ := ht.starts hload
    rcases mem_or_eq_of_mem_set hcm with hcm | rfl
    · rw [not_copied_of_allows hallow c hcm] at hcc
      cases hcc
    · rw [Pc.loading_of_copied hcc] at hload
      cases hload
  | false =>
    rcases mem_or_eq_of_mem_set hdm with hd | rfl
    · rcases mem_or_eq_of_mem_set hcm with hcm | rfl
      · exact h.loading c hcm hcc d hd
      · rcases ht.copied hc.valid.tidy (hc.valid.sound pc hmem) hcc with ⟨rfl,rfl,-,-⟩ | ⟨hpc,-⟩
        · exact not_loading_of_allows hallow d hd
        · exact h.loading pc hmem hpc d hd
    · exact hload

theorem NoLeak.run_ended (h : NoLeak s) (hc : Consistent s) (hi : s.threads[i]?=some pc)
    (ht : Turns s.g pc a g' pc') (hallow : s.allows pc a)
    (hstop : Pc.stopped∈s.threads.set i pc') : ¬ Alive g' name pid := by
  intro halive
  have hmem:=mem_of_getElem? hi
  rcases mem_or_eq_of_mem_set hstop with hold | rfl
  · rcases ht.alive halive with halive | ⟨⟨m,k,rfl⟩,rfl⟩
    · exact h.ended hold name pid halive
    · have hno:=not_copied_of_allows hallow .stopped hold
      cases hno
  · -- no thread and no entry has a process when `Stop` clears the map
    obtain ⟨rfl,rfl,hprocs⟩ := ht.stopped
    rw [Alive,hprocs] at halive
    rcases hc.owned name pid halive with ⟨c,hcm,hholds⟩ | ⟨e,p,hp,hproc,hname⟩
    · have hnone:=all_eq_true.mp hallow c hcm
      rw [hholds] at hnone
      cases hnone
    · have hin:=h.stopping _ hmem rfl name e ⟨p,pid,hp,hname,hproc,halive⟩
      exact absurd hin not_mem_nil

end

theorem Operation.copied_pc (op : Operation) : op.pc.copied=false ∧ op.pc.loading=false := by
  cases op <;> exact ⟨rfl,rfl⟩
theorem Change.copied_pc (c : Change) (name : String) :
    (c.pc name).copied=false ∧ (c.pc name).loading=false := by cases c <;> exact ⟨rfl,rfl⟩

theorem NoLeak.push {s : System} (h : NoLeak s) {pc : Pc}
    (hpc : pc.copied=false ∧ pc.loading=false) (timers : List (String × Change)) :
    NoLeak {s with threads := s.threads++[pc], timers := timers} := by
  have hold : ∀ c∈s.threads++[pc], c.copied → c∈s.threads := by
    intro c hc hcc
    rcases mem_append.mp hc with hc | hc
    · exact hc
    · rw [mem_singleton.mp hc,hpc.1] at hcc
      cases hcc
  refine ⟨h.current,fun c hc hcc => h.stopping c (hold c hc hcc) hcc,?_,?_⟩
  · exact fun c hc hcc => Pool.forall_mem_push (h.loading c (hold c hc hcc) hcc) hpc.2
  · exact fun hstop => h.ended (hold .stopped hstop rfl)

theorem Moves.noLeak {s t : System} {l : Label} (hm : Moves s l t) (hc : Consistent s)
    (hallow : orderly s l) (h : NoLeak s) : NoLeak t := by
  cases hm with
  | @call op => exact h.push op.copied_pc s.timers
  | @fire name timers c => exact h.push (c.copied_pc name) timers
  | @run i a pc g' pc' hi ht =>
    rw [orderly,hi,all_some] at hallow
    refine ⟨?_,?_,?_,?_⟩
    · exact fun name e => h.run_current hc hi ht hallow
    · exact fun c hcm hcc name e => h.run_stopping hc hi ht hcm hcc
    · exact fun c hcm hcc d => h.run_loading hc hi ht hallow hcm hcc
    · exact fun hstop name pid => h.run_ended hc hi ht hallow hstop
  | flags => exact ⟨h.current,h.stopping,h.loading,h.ended⟩
  | @exit pid =>
    refine ⟨?_,?_,h.loading,?_⟩
    · exact fun name e hact => h.current name e (active_killProcess hact)
    · exact fun c hcm hcc name e hact => h.stopping c hcm hcc name e (active_killProcess hact)
    · exact fun hstop name pid' halive => h.ended hstop name pid' (alive_killProcess halive).2

theorem noLeak_start (maxRestarts : Int) (manifests : Option (List PluginManifest)) :
    NoLeak (System.start maxRestarts manifests) := by
  have hthreads : ∀ pc∈(System.start maxRestarts manifests).threads, pc.copied=false := by
    intro pc hpc
    cases manifests with
    | none => cases hpc
    | some rest =>
      rw [mem_singleton.mp hpc]
      rfl
  refine ⟨?_,?_,?_,?_⟩
  · rintro name e ⟨p,pid,hp,-⟩
    exact (some_ne_none p hp.symm).elim
  · intro pc hpc hcc
    rw [hthreads pc hpc] at hcc
    cases hcc
  · intro pc hpc hcc
    rw [hthreads pc hpc] at hcc
    cases hcc
  · exact fun _ name pid halive => (some_ne_none _ halive.symm).elim

theorem accounted_of_noLeak {s : System} (hc : Consistent s) (h : NoLeak s) : Accounted s := by
  refine ⟨?_,h.ended⟩
  intro name pid halive
  refine (hc.owned name pid halive).imp_right ?_
  rintro ⟨e,p,hp,hproc,hname⟩
  exact ⟨e,p,h.current name e ⟨p,pid,hp,hname,hproc,halive⟩,hp,hproc⟩

/-- In an orderly run no process leaks. -/
theorem orderly_run_accounted (maxRestarts : Int) (manifests : Option (List PluginManifest))
    (ls : List Label) (s : System)
    (horderly : guarded System.step orderly (System.start maxRestarts manifests) ls=true)
    (hrun : exec System.step (System.start maxRestarts manifests) ls=some s) : Accounted s := by
  have hinv : Consistent s ∧ NoLeak s := by
    refine exec_invariant (I := fun s => Consistent s ∧ NoLeak s) ?_
      ⟨consistent_start maxRestarts manifests,noLeak_start maxRestarts manifests⟩ horderly hrun
    intro s l t hs hl ht
    exact ⟨consistent_step hs.1 ht,(moves_of_step ht).noLeak hs.1 hl hs.2⟩
  exact accounted_of_noLeak hinv.1 hinv.2

def echo : PluginManifest := ⟨"echo",["echo"]⟩
def startEcho : List Label := replicate 5 (.run 0 .ok)
def orderlyRun : List Label :=
  flatten [startEcho,[.call (.reload "echo")],replicate 6 (.run 1 .ok),
    [.call .stop,.run 2 .ok,.run 2 .ok,.run 2 (.pick 0),.run 2 .ok,.run 2 .ok,.run 2 .ok,
      .run 0 .failed,.watcherDone,.run 2 .ok,.run 2 .ok]]

theorem orderlyRun_accounted : ∃ s, exec System.step (System.start 3 (some [echo])) orderlyRun=some s ∧
      Pc.stopped∈s.threads ∧ s.g.processes.length=2 ∧ Accounted s := by
  obtain ⟨s,hrun,hstopped,hprocs⟩ := exists_exec System.step (System.start 3 (some [echo]))
    orderlyRun (fun s => Pc.stopped∈s.threads ∧ s.g.processes.length=2) (by decide +kernel)
  have horderly : guarded System.step orderly (System.start 3 (some [echo])) orderlyRun=true := by
    decide +kernel
  exact ⟨s,hrun,hstopped,hprocs,orderly_run_accounted 3 (some [echo]) orderlyRun s horderly hrun⟩

theorem not_accounted {s : System} (name : String) (pid pid' : Nat) (halive : Alive s.g name pid)
    (hnone : ∀ pc∈s.threads, pc.holds=none)
    (hl : (s.g.lookup name).map (fun r => r.2.process)=some (some pid')) (hne : pid≠pid') :
    ¬ Accounted s := by
  intro h
  rcases h.1 name pid halive with ⟨pc,hpc,hholds⟩ | ⟨e,p,hk,hp,hproc⟩
  · rw [hnone pc hpc] at hholds
    cases hholds
  · rw [Gateway.lookup,hk,bind_some,hp,map_some,map_some,hproc] at hl
    cases hl
    exact hne rfl

def reloadTwice : List Label :=
  flatten [startEcho,
    [.call (.reload "echo"),.call (.reload "echo"),.run 1 .ok,.run 2 .ok],
    replicate 4 (.run 1 .ok),replicate 3 (.run 2 .ok)]
def reloadDuringStop : List Label :=
  flatten [startEcho,[.call (.reload "echo")],replicate 4 (.run 1 .ok),
    [.call .stop,.run 2 .ok,.run 2 .ok,.run 2 (.pick 0),.run 2 .ok,.run 2 .ok,
      .run 0 .failed,.watcherDone,.run 2 .ok,.run 2 .ok,.run 1 .ok]]

/-- Whatever overlaps, a live process is with a thread or in an entry of its name (maybe one that was replaced), a
stopped or disabled entry has none, and one thread at most removes, under the lock, a current entry. -/
theorem processes_held (maxRestarts : Int) (manifests : Option (List PluginManifest))
    (ls : List Label) (s : System)
    (hrun : exec System.step (System.start maxRestarts manifests) ls=some s) : Consistent s :=
  exec_stable (fun _ _ _ => consistent_step) (consistent_start maxRestarts manifests) hrun

theorem processes_held_reloadTwice :
    ∃ s, exec System.step (System.start 3 (some [echo])) reloadTwice=some s ∧ Alive s.g "echo" 1 ∧
      Consistent s := by
  obtain ⟨s,hrun,halive⟩ := exists_exec System.step (System.start 3 (some [echo])) reloadTwice
    (fun s => Alive s.g "echo" 1) (by decide +kernel)
  exact ⟨s,hrun,halive,processes_held 3 (some [echo]) reloadTwice s hrun⟩

theorem processes_not_accounted :
    (∃ s, exec System.step (System.start 3 (some [echo])) reloadTwice=some s ∧
      Alive s.g "echo" 1 ∧ (∀ pc∈s.threads, pc.holds=none) ∧
      (s.g.lookup "echo").map (fun r => r.2.process)=some (some 2) ∧ ¬ Accounted s) ∧
    (∃ s, exec System.step (System.start 3 (some [echo])) reloadDuringStop=some s ∧
      Pc.stopped∈s.threads ∧ Alive s.g "echo" 1 ∧ ¬ Accounted s) := by
  refine ⟨?_,?_⟩
  · obtain ⟨s,hrun,halive,hnone,hcurrent⟩ := exists_exec System.step
      (System.start 3 (some [echo])) reloadTwice
      (fun s => Alive s.g "echo" 1 ∧ (∀ pc∈s.threads, pc.holds=none) ∧
        (s.g.lookup "echo").map (fun r => r.2.process)=some (some 2)) (by decide +kernel)
    exact ⟨s,hrun,halive,hnone,hcurrent,
      not_accounted "echo" 1 2 halive hnone hcurrent (by decide)⟩
  · obtain ⟨s,hrun,hstopped,halive⟩ := exists_exec System.step
      (System.start 3 (some [echo])) reloadDuringStop
      (fun s => Pc.stopped∈s.threads ∧ Alive s.g "echo" 1) (by decide +kernel)
    exact ⟨s,hrun,hstopped,halive,fun h => h.2 hstopped "echo" 1 halive⟩

end OpsAgent.PluginRuntime
