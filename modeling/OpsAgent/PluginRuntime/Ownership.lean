import OpsAgent.PluginRuntime.Gateway

/-!
# Who has a process
-/

namespace OpsAgent.PluginRuntime
open Lib List Option Bool AfterLoad

def AfterStop.rest : AfterStop → List (String × Nat)
  | .stop rest | .restart _ rest => rest
  | _ => []
def AfterLoad.rest : AfterLoad → List (String × Nat)
  | .health rest => rest
  | _ => []

def Pc.refs : Pc → List (String × Nat)
  | .enableCheck name e | .setDisabled name e | .delete name e => [(name,e)]
  | .stopPlugin name e k | .killing name e _ _ k => (name,e)::k.rest
  | .loadPlugin _ k | .waitForPlugin _ _ k | .abort _ _ k | .loaded _ k => k.rest
  | .stopNext rest | .checkNext rest | .backoff _ rest | .markError _ rest => rest
  | .ping name e rest | .setError name e rest => (name,e)::rest
  | _ => []

def Pc.emptied : Pc → Option Nat
  | .setDisabled _ e | .delete _ e | .killing _ e _ _ _ => some e
  | _ => none
def Pc.holds : Pc → Option (String × Nat)
  | .killing name _ (some pid) _ _ => some (name,pid)
  | .waitForPlugin m pid _ | .abort m pid _ => some (m.name,pid)
  | _ => none
def Known (g : Gateway) (r : String × Nat) : Prop :=
  ∃ p : ManagedPlugin, g.entries[r.2]?=some p ∧ p.manifest.name=r.1
def Emptied (g : Gateway) (e : Nat) : Prop := ∀ p : ManagedPlugin, g.entries[e]?=some p → p.process=none
def Named (g : Gateway) (name : String) (pid : Nat) : Prop :=
  ∃ q : ManagedProcess, g.processes[pid]?=some q ∧ q.name=name

structure Sound (g : Gateway) (pc : Pc) : Prop where
  refs : ∀ r∈pc.refs, Known g r
  emptied : ∀ e, pc.emptied=some e → Emptied g e
  holds : ∀ name pid, pc.holds=some (name,pid) → Named g name pid

structure Tidy (g : Gateway) : Prop where
  keyed : ∀ name e, g.plugins name=some e → Known g (name,e)
  halted : ∀ (e : Nat) (p : ManagedPlugin), g.entries[e]?=some p →
    p.status=.stopped ∨ p.status=.disabled → p.process=none
  client : ∀ (e : Nat) (p : ManagedPlugin), g.entries[e]?=some p → p.client=p.process.isSome
  named : ∀ (e : Nat) (p : ManagedPlugin) (pid : Nat), g.entries[e]?=some p →
    p.process=some pid → Named g p.manifest.name pid

structure Grows (g g' : Gateway) : Prop where
  entry : ∀ (e : Nat) (p : ManagedPlugin), g.entries[e]?=some p → ∃ p', g'.entries[e]?=some p' ∧
    p'.manifest=p.manifest ∧ (p.process=none → p'.process=none)
  process : ∀ (pid : Nat) (q : ManagedProcess), g.processes[pid]?=some q → ∃ q', g'.processes[pid]?=some q' ∧
    q'.name=q.name

variable {g' : Gateway} {l : Label} {pc pc' : Pc} {i : Nat}
  (c : Change) (op : Operation)

theorem Grows.of_eq {g : Gateway} (he : g'.entries=g.entries) (hp : g'.processes=g.processes) :
    Grows g g' :=
  ⟨fun _ p hp' => ⟨p,he ▸ hp',rfl,id⟩,fun _ q hq => ⟨q,hp ▸ hq,rfl⟩⟩

section
variable {g g' : Gateway} {r : String × Nat} {name : String} {pid e e' : Nat} {p p' : ManagedPlugin}

theorem Grows.known (h : Grows g g') (hr : Known g r) : Known g' r := by
  obtain ⟨p,hp,hname⟩ := hr
  obtain ⟨p',hp',hm,-⟩ := h.entry r.2 p hp
  exact ⟨p',hp',hm ▸ hname⟩

theorem Grows.emptied (h : Grows g g') (hr : Known g r) (he : Emptied g r.2) : Emptied g' r.2 := by
  obtain ⟨p,hp,-⟩ := hr
  obtain ⟨p',hp',-,hnone⟩ := h.entry r.2 p hp
  intro p'' hp''
  cases hp'.symm.trans hp''
  exact hnone (he p hp)

theorem Grows.named (h : Grows g g') (hn : Named g name pid) : Named g' name pid := by
  obtain ⟨q,hq,hname⟩ := hn
  obtain ⟨q',hq',hn'⟩ := h.process pid q hq
  exact ⟨q',hq',hn'.trans hname⟩

variable {pc pc' : Pc} {a : Answer} {k : AfterStop}

theorem emptied_mem_refs (h : pc.emptied=some e) : ∃ name, (name,e)∈pc.refs := by
  cases pc <;> simp_all [Pc.emptied,Pc.refs]

theorem Grows.sound (h : Grows g g') (hs : Sound g pc) : Sound g' pc := by
  refine ⟨fun r hr => h.known (hs.refs r hr),?_,fun name pid hh => h.named (hs.holds name pid hh)⟩
  intro e he
  obtain ⟨name,hmem⟩ := emptied_mem_refs he
  exact h.emptied (hs.refs (name,e) hmem) (hs.emptied e he)

theorem Known.name_eq {n : String} (h : Known g (n,e))
    (he : g.entries[e]?=some p) : p.manifest.name=n := by
  obtain ⟨p',hp',hname⟩ := h
  cases he.symm.trans hp'
  exact hname

theorem entry_setEntry {q : ManagedPlugin} (he : g.entries[e]?=some p)
    (hq : g.entries[e']?=some q) (p' : ManagedPlugin) :
    (e' = e ∧ q=p ∧ (g.setEntry e p').entries[e']?=some p') ∨ (g.setEntry e p').entries[e']?=some q := by
  by_cases hee : e' = e
  · subst hee
    cases he.symm.trans hq
    exact .inl ⟨rfl,rfl,Pool.getElem?_set_of he p'⟩
  · exact .inr ((getElem?_set_ne (Ne.symm hee)).trans hq)

theorem grows_setEntry (he : g.entries[e]?=some p)
    (hm : p'.manifest=p.manifest) (hp : p.process=none → p'.process=none) :
    Grows g (g.setEntry e p') := by
  refine ⟨?_,fun _ q hq => ⟨q,hq,rfl⟩⟩
  intro e' p'' he'
  rcases entry_setEntry he he' p' with ⟨-,rfl,hnew⟩ | hold
  · exact ⟨p',hnew,hm,hp⟩
  · exact ⟨p'',hold,rfl,id⟩

theorem grows_killProcess (pid : Nat) : Grows g (g.killProcess pid) := by
  refine ⟨fun _ p hp => ⟨p,hp,rfl,id⟩,?_⟩
  intro pid' q hq
  simp only [Gateway.killProcess,getElem?_modify,hq]
  split
  · exact ⟨_,rfl,rfl⟩
  · exact ⟨_,rfl,rfl⟩

variable (m : PluginManifest)

theorem grows_startProcess : Grows g (g.startProcess m) := by
  refine ⟨fun _ p hp => ⟨p,hp,rfl,id⟩,?_⟩
  intro pid q hq
  exact ⟨q,Pool.getElem?_push_of hq _,rfl⟩
theorem grows_publish (pid : Nat) : Grows g (g.publish m pid) := by
  refine ⟨?_,fun _ q hq => ⟨q,hq,rfl⟩⟩
  intro e p hp
  exact ⟨p,Pool.getElem?_push_of hp _,rfl,id⟩

theorem Turns.grows (h : Turns g pc a g' pc') : Grows g g' := by
  cases h with
  | setDisabled he | setError he => exact grows_setEntry he rfl id
  | stopPlugin he hs => exact grows_setEntry he rfl fun _ => rfl
  | @killed _ _ pid =>
    cases pid with
    | none => exact .of_eq rfl rfl
    | some pid => exact ⟨(grows_killProcess pid).entry,(grows_killProcess pid).process⟩
  | aborted => exact grows_killProcess _
  | started => exact grows_startProcess _
  | publish hfree => exact grows_publish _ _
  | _ => exact .of_eq rfl rfl

theorem entries_setEntry (h : (g.setEntry e p').entries[e']?=some p) :
    p=p' ∧ e' = e ∨ e' ≠ e ∧ g.entries[e']?=some p := by
  rcases Pool.getElem?_set_or h with ⟨he,hp⟩ | hold
  · exact .inl ⟨hp,he⟩
  · exact .inr hold

theorem tidy_setEntry (h : Tidy g) (he : g.entries[e]?=some p)
    (hm : p'.manifest=p.manifest) (hp : p'.process=none ∨ p'.process=p.process)
    (hhalted : p'.status=.stopped ∨ p'.status=.disabled → p'.process=none)
    (hclient : p'.client=p'.process.isSome) : Tidy (g.setEntry e p') := by
  have hgrows : Grows g (g.setEntry e p') :=
    grows_setEntry he hm fun hnone => hp.elim id fun heq => heq.trans hnone
  refine ⟨fun name e' hk => hgrows.known (h.keyed name e' hk),?_,?_,?_⟩
  · intro e' q hq hs
    rcases entries_setEntry hq with ⟨rfl,-⟩ | ⟨-,hq⟩
    · exact hhalted hs
    · exact h.halted e' q hq hs
  · intro e' q hq
    rcases entries_setEntry hq with ⟨rfl,-⟩ | ⟨-,hq⟩
    · exact hclient
    · exact h.client e' q hq
  · intro e' q pid hq hpid
    rcases entries_setEntry hq with ⟨rfl,-⟩ | ⟨-,hq⟩
    · rcases hp with hp | hp
      · cases hp.symm.trans hpid
      · rw [hm]
        exact hgrows.named (h.named e p pid he (hp ▸ hpid))
    · exact hgrows.named (h.named e' q pid hq hpid)

theorem Tidy.of_grows (h : Tidy g) (hgrows : Grows g g') (hk : g'.plugins=g.plugins)
    (he : g'.entries=g.entries) : Tidy g' := by
  refine ⟨fun name e hn => hgrows.known (h.keyed name e (hk ▸ hn)),?_,?_,?_⟩
  · exact fun e p hp => h.halted e p (he ▸ hp)
  · exact fun e p hp => h.client e p (he ▸ hp)
  · exact fun e p pid hp hpid => hgrows.named (h.named e p pid (he ▸ hp) hpid)

theorem entries_publish {m : PluginManifest} (h : (g.publish m pid).entries[e]?=some p) :
    g.entries[e]?=some p ∨ e=g.entries.length ∧ p.manifest=m ∧ p.process=some pid ∧
      p.client ∧ p.status=.running ∧
      p.restartCount=(g.lookup m.name).elim 0 fun existing => existing.2.restartCount := by
  rcases Pool.getElem?_push_or h with hold | ⟨he,rfl⟩
  · exact .inl hold
  · exact .inr ⟨he,rfl,rfl,rfl,rfl,rfl⟩

theorem entries_publish_new (pid : Nat) :
    ∃ p, (g.publish m pid).entries[g.entries.length]?=some p ∧ p.manifest=m ∧ p.process=some pid := by
  rw [Gateway.publish,getElem?_append_right le_rfl,Nat.sub_self]
  exact ⟨_,rfl,rfl,rfl⟩

theorem tidy_publish (h : Tidy g) {m : PluginManifest} (hpid : Named g m.name pid) :
    Tidy (g.publish m pid) := by
  have hgrows : Grows g (g.publish m pid) := grows_publish m pid
  refine ⟨?_,?_,?_,?_⟩
  · intro name e hk
    change (if name=m.name then some g.entries.length else g.plugins name)=some e at hk
    split at hk
    · rename_i hname
      cases hk
      obtain ⟨p,hp,hm,-⟩ := entries_publish_new (g := g) m pid
      exact ⟨p,hp,by rw [hm,hname]⟩
    · exact hgrows.known (h.keyed name e hk)
  · intro e p hp hs
    rcases entries_publish hp with hp | ⟨-,-,-,-,hrun,-⟩
    · exact h.halted e p hp hs
    · rw [hrun] at hs
      rcases hs with hs | hs <;> cases hs
  · intro e p hp
    rcases entries_publish hp with hp | ⟨-,-,hproc,hclient,-⟩
    · exact h.client e p hp
    · rw [hproc,hclient,isSome_some]
  · intro e p pid' hp hpid'
    rcases entries_publish hp with hp | ⟨-,hm,hproc,-⟩
    · exact hgrows.named (h.named e p pid' hp hpid')
    · cases hproc.symm.trans hpid'
      rw [hm]
      exact hgrows.named hpid

theorem Turns.tidy (ht : Turns g pc a g' pc') (h : Tidy g) (hs : Sound g pc) : Tidy g' := by
  cases ht with
  | @setDisabled name e p he =>
    have hnone : p.process=none := hs.emptied e rfl p he
    have hclient : p.client=p.process.isSome := h.client e p he
    exact tidy_setEntry h he rfl (.inr rfl) (fun _ => hnone) hclient
  | stopPlugin he => exact tidy_setEntry h he rfl (.inl rfl) (fun _ => rfl) rfl
  | @setError name e rest p he =>
    have hclient : p.client=p.process.isSome := h.client e p he
    refine tidy_setEntry h he rfl (.inr rfl) ?_ hclient
    rintro (hs | hs) <;> cases hs
  | delete =>
    refine ⟨?_,h.halted,h.client,h.named⟩
    intro name e hk
    refine h.keyed name e ?_
    change (if name=_ then none else g.plugins name)=some e at hk
    split at hk
    · cases hk
    · exact hk
  | stopClear => exact ⟨fun _ e hk => (some_ne_none e hk.symm).elim,h.halted,h.client,h.named⟩
  | publish => exact tidy_publish h (hs.holds _ _ rfl)
  | @killed name e pid taskTypes k =>
    have hturn : Turns g (.killing name e pid taskTypes k) .ok _ (k.next name e) := .killed
    refine h.of_grows hturn.grows ?_ ?_ <;> cases pid <;> rfl
  | aborted => exact h.of_grows (grows_killProcess _) rfl rfl
  | started => exact h.of_grows (grows_startProcess _) rfl rfl
  | _ => exact ⟨h.keyed,h.halted,h.client,h.named⟩

theorem mem_current (h : r∈g.current) : g.plugins r.1=some r.2 ∧ Known g r := by
  obtain ⟨e,-,he⟩ := mem_filterMap.mp h
  obtain ⟨p,hp,hif⟩ := bind_eq_some_iff.mp he
  split at hif
  · rename_i hk
    cases hif
    exact ⟨hk,p,hp,rfl⟩
  · cases hif

theorem lookup_eq_some (h : g.lookup name=some (e,p)) :
    g.plugins name=some e ∧ g.entries[e]?=some p := by
  obtain ⟨e',hk,hp⟩ := bind_eq_some_iff.mp h
  obtain ⟨p',hp,heq⟩ := map_eq_some_iff.mp hp
  cases heq
  exact ⟨hk,hp⟩

theorem Tidy.known_of_lookup (h : Tidy g)
    (hl : g.lookup name=some (e,p)) : Known g (name,e) := h.keyed name e (lookup_eq_some hl).1
theorem Sound.of_refs (hr : ∀ r∈pc.refs, Known g r) (he : pc.emptied=none)
    (hh : pc.holds=none) : Sound g pc :=
  ⟨hr,fun e h => (some_ne_none e (h.symm.trans he)).elim,
    fun name pid h => (some_ne_none (name,pid) (h.symm.trans hh)).elim⟩
theorem AfterStop.refs_next (k : AfterStop) (name : String) (e : Nat) :
    (k.next name e).refs ⊆ (name,e)::k.rest := by
  cases k <;> simp [AfterStop.next,AfterStop.rest,Pc.refs,AfterLoad.rest]
theorem AfterStop.emptied_next (h : (k.next name e).emptied=some e') : e' = e := by
  cases k <;> simp_all [AfterStop.next,Pc.emptied]
theorem AfterStop.holds_next (k : AfterStop) (name : String) (e : Nat) : (k.next name e).holds=none := by
  cases k <;> rfl

theorem sound_next
    (hr : ∀ r∈(name,e)::k.rest, Known g r) (he : Emptied g e) : Sound g (k.next name e) := by
  refine ⟨fun r h => hr r (k.refs_next name e h),?_,?_⟩
  · intro e' h
    rw [AfterStop.emptied_next h]
    exact he
  · intro name' pid h
    rw [k.holds_next] at h
    cases h

theorem AfterLoad.sound_next {k : AfterLoad} (h : ∀ r∈k.rest, Known g r) : Sound g k.next := by
  cases k <;> exact .of_refs h rfl rfl
theorem AfterLoad.sound_failed {k : AfterLoad} (h : ∀ r∈k.rest, Known g r) :
    Sound g (k.failed m) := by cases k <;> exact .of_refs h rfl rfl

theorem forall_mem_erase {rest : List (String × Nat)} {k : Nat}
    (hk : rest[k]?=some r) (h : ∀ x∈rest, Known g x) : ∀ x∈r::rest.eraseIdx k, Known g x := by
  intro x hx
  rcases mem_cons.mp hx with rfl | hx
  · exact h x (mem_of_getElem? hk)
  · exact h x (mem_of_mem_eraseIdx hx)

theorem holds_killing {name' : String} {pid' : Nat} {pid : Option Nat} {taskTypes : List String} (h : (Pc.killing name e pid taskTypes k).holds=some (name',pid')) :
    pid=some pid' ∧ name=name' := by
  cases pid with
  | none => cases h
  | some pid =>
    cases h
    exact ⟨rfl,rfl⟩

theorem Turns.sound (ht : Turns g pc a g' pc') (h : Tidy g) (hs : Sound g pc) : Sound g' pc' := by
  have hgrows:=ht.grows
  have hrefs : ∀ r∈pc.refs, Known g' r := fun r hr => hgrows.known (hs.refs r hr)
  cases ht with
  | reload hfree hl | enable hfree hl | disable hfree hl | remove hfree hl =>
    exact .of_refs (forall_mem_singleton.mpr (h.known_of_lookup hl)) rfl rfl
  | markError hfree hl =>
    exact .of_refs (forall_mem_cons.mpr ⟨h.known_of_lookup hl,hs.refs⟩) rfl rfl
  | @stopAgain name e k p he hstatus =>
    refine sound_next hs.refs ?_
    intro p' hp'
    cases he.symm.trans hp'
    exact h.halted e p he hstatus
  | @stopPlugin name e k p he hstatus =>
    refine ⟨hrefs,?_,?_⟩
    · intro e' he' p' hp'
      cases he'
      rcases entries_setEntry hp' with ⟨rfl,-⟩ | ⟨hne,-⟩
      · rfl
      · exact absurd rfl hne
    · intro name' pid hh
      have hname:=(hs.refs (name,e) mem_cons_self).name_eq he
      obtain ⟨hproc,rfl⟩ := holds_killing hh
      exact hname ▸ hgrows.named (h.named e p pid he hproc)
  | @killed name e pid taskTypes k =>
    refine sound_next hrefs ?_
    exact hgrows.emptied (hs.refs (name,e) mem_cons_self) (hs.emptied e rfl)
  | @started m k =>
    refine ⟨hrefs,fun e he => (some_ne_none e he.symm).elim,?_⟩
    intro name pid hh
    cases hh
    refine ⟨⟨m.name,true⟩,?_,rfl⟩
    rw [Gateway.startProcess,getElem?_append_right le_rfl,Nat.sub_self]
    rfl
  | waitFailed => exact ⟨hs.refs,hs.emptied,hs.holds⟩
  | publish | restart | backoff | markMissing => exact .of_refs hrefs rfl rfl
  | loadFailed | aborted => exact sound_failed _ hrefs
  | loaded => exact AfterLoad.sound_next hrefs
  | stopCopy | tick => exact .of_refs (fun r hr => (mem_current hr).2) rfl rfl
  | stopNext hk | check hk => exact .of_refs (forall_mem_erase hk hs.refs) rfl rfl
  | skip => exact .of_refs (fun r hr => hs.refs r (mem_of_mem_eraseIdx hr)) rfl rfl
  | answered | giveUp | setError => exact .of_refs (forall_mem_of_forall_mem_cons hrefs) rfl rfl
  | _ => exact .of_refs (forall_mem_nil _) rfl rfl

end

structure Valid (s : System) : Prop where
  tidy : Tidy s.g
  sound : ∀ pc∈s.threads, Sound s.g pc

theorem Operation.sound_pc (g : Gateway) : Sound g op.pc := by
  cases op <;> exact .of_refs (forall_mem_nil _) rfl rfl
theorem Change.sound_pc (name : String) (g : Gateway) : Sound g (c.pc name) := by
  cases c <;> exact .of_refs (forall_mem_nil _) rfl rfl

variable {s t : System}

theorem Moves.valid (hm : Moves s l t) (h : Valid s) : Valid t := by
  cases hm with
  | @call op => exact ⟨h.tidy,Pool.forall_mem_push h.sound (op.sound_pc s.g)⟩
  | @fire name timers c => exact ⟨h.tidy,Pool.forall_mem_push h.sound (c.sound_pc name s.g)⟩
  | @run i a pc g' pc' hi ht =>
    have hs:=h.sound pc (mem_of_getElem? hi)
    exact ⟨ht.tidy h.tidy hs,
      Pool.forall_mem_set (fun c hc => ht.grows.sound (h.sound c hc)) (ht.sound h.tidy hs) i⟩
  | @flags l watcher cancelled =>
    have hgrows : Grows s.g {s.g with watcher := watcher, cancelled := cancelled} :=
      .of_eq rfl rfl
    exact ⟨h.tidy.of_grows hgrows rfl rfl,fun c hc => hgrows.sound (h.sound c hc)⟩
  | @exit pid =>
    exact ⟨h.tidy.of_grows (grows_killProcess pid) rfl rfl,
      fun c hc => (grows_killProcess pid).sound (h.sound c hc)⟩

def Pc.removing : Pc → Option (String × Nat)
  | .stopPlugin name e .remove | .killing name e _ _ .remove | .delete name e => some (name,e)
  | _ => none

structure Locking (s : System) : Prop where
  holder : s.threads.countP (fun pc => pc.removing.isSome)=s.g.locked.toNat
  current : ∀ pc∈s.threads, ∀ r, pc.removing=some r → s.g.plugins r.1=some r.2

theorem AfterStop.removing_next (k : AfterStop) (name : String) (e : Nat) :
    (k.next name e).removing=(Pc.stopPlugin name e k).removing := by cases k <;> rfl
theorem AfterStop.removing_killing (k : AfterStop) (name : String) (e : Nat) (pid : Option Nat)
    (taskTypes : List String) :
    (Pc.killing name e pid taskTypes k).removing=(Pc.stopPlugin name e k).removing := by
  cases k <;> rfl
theorem AfterLoad.removing_next (k : AfterLoad) : k.next.removing=none := by cases k <;> rfl
theorem AfterLoad.removing_failed (k : AfterLoad) (m : PluginManifest) : (k.failed m).removing=none := by
  cases k <;> rfl

section
variable {g g' : Gateway} {pc pc' : Pc} {a : Answer}

theorem Turns.lock (ht : Turns g pc a g' pc') : (g'.locked=g.locked ∧ pc'.removing=pc.removing ∧
      (g'.plugins=g.plugins ∨ g.locked=false)) ∨
    (g.locked=false ∧ g'.locked ∧ pc.removing=none ∧ g'.plugins=g.plugins ∧
      ∃ r, pc'.removing=some r ∧ g.plugins r.1=some r.2) ∨
    (pc.removing.isSome ∧ pc'.removing=none ∧ g'.locked=false) := by
  cases ht with
  | remove hfree hl =>
    exact .inr (.inl ⟨hfree,rfl,rfl,rfl,_,rfl,(lookup_eq_some hl).1⟩)
  | delete => exact .inr (.inr ⟨rfl,rfl,rfl⟩)
  | publish hfree | stopClear hfree => exact .inl ⟨rfl,rfl,.inr hfree⟩
  | @finish pc hpc => exact .inl ⟨rfl,by cases pc <;> first | rfl | (cases hpc),.inl rfl⟩
  | @stopAgain name e k => exact .inl ⟨rfl,k.removing_next name e,.inl rfl⟩
  | @stopPlugin name e k => exact .inl ⟨rfl,k.removing_killing ..,.inl rfl⟩
  | @killed name e pid taskTypes k =>
    refine .inl ⟨?_,(k.removing_next name e).trans (k.removing_killing ..).symm,.inl ?_⟩ <;>
      cases pid <;> rfl
  | @loadFailed m k | @aborted m pid k => exact .inl ⟨rfl,k.removing_failed m,.inl rfl⟩
  | @loaded m k => exact .inl ⟨rfl,k.removing_next,.inl rfl⟩
  | _ => exact .inl ⟨rfl,rfl,.inl rfl⟩

end

theorem Operation.removing_pc : op.pc.removing=none := by cases op <;> rfl
theorem Change.removing_pc (name : String) : (c.pc name).removing=none := by cases c <;> rfl

theorem Locking.push (h : Locking s) (hpc : pc.removing=none) (timers : List (String × Change)) :
    Locking {s with threads := s.threads++[pc], timers := timers} := by
  refine ⟨?_,Pool.forall_mem_push h.current ?_⟩
  · rw [countP_append,countP_singleton,hpc]
    exact h.holder
  · intro r hr
    cases hpc.symm.trans hr

theorem Locking.free (h : Locking s) (hfree : s.g.locked=false) : ∀ pc∈s.threads, pc.removing=none := by
  intro pc hpc
  have hzero:=h.holder
  rw [hfree,toNat_false,countP_eq_zero] at hzero
  exact not_isSome_iff_eq_none.mp (hzero pc hpc)

theorem Locking.run (h : Locking s) {a : Answer}
    (hi : s.threads[i]?=some pc) (ht : Turns s.g pc a g' pc') :
    Locking {s with g := g', threads := s.threads.set i pc' } := by
  have hmem:=mem_of_getElem? hi
  have hcount:=Pool.countP_set (fun pc => pc.removing.isSome) pc' hi
  have hholder:=h.holder
  rcases ht.lock with ⟨hlock,hrem,hmap⟩ | ⟨hfree,hlock,hnone,hmap,r,hr,hcur⟩ |
    ⟨hrem,hnone,hlock⟩
  · refine ⟨?_,?_⟩
    · simp only [hrem] at hcount
      simp only [hlock]
      omega
    · rcases hmap with hmap | hfree
      · simp only [hmap]
        exact Pool.forall_mem_set h.current (hrem ▸ h.current pc hmem) i
      · refine Pool.forall_mem_set ?_ ?_ i
        · intro c hc r hr
          rw [h.free hfree c hc] at hr
          cases hr
        · intro r hr
          rw [hrem,h.free hfree pc hmem] at hr
          cases hr
  · refine ⟨?_,?_⟩
    · simp only [hnone,hr,isSome_none,isSome_some,toNat_false,toNat_true,hfree] at hcount hholder
      simp only [hlock,toNat_true]
      omega
    · simp only [hmap]
      refine Pool.forall_mem_set h.current ?_ i
      intro r' hr'
      cases hr.symm.trans hr'
      exact hcur
  · have hzero : (s.threads.set i pc').countP (fun pc => pc.removing.isSome)=0 := by
      have hle : s.g.locked.toNat≤1 := toNat_le _
      simp only [hrem,hnone,isSome_none,toNat_false,toNat_true] at hcount
      omega
    refine ⟨?_,?_⟩
    · rw [hzero,hlock]
      rfl
    · intro c hc r hr
      have hc' := countP_eq_zero.mp hzero c hc
      rw [hr] at hc'
      exact absurd rfl hc'

theorem Moves.locking (hm : Moves s l t) (h : Locking s) : Locking t := by
  cases hm with
  | @call op => exact h.push op.removing_pc s.timers
  | @fire name timers c => exact h.push (c.removing_pc name) timers
  | run hi ht => exact h.run hi ht
  | flags | exit => exact ⟨h.holder,h.current⟩

def Alive (g : Gateway) (name : String) (pid : Nat) : Prop := g.processes[pid]?=some ⟨name,true⟩

instance (g : Gateway) (name : String) (pid : Nat) : Decidable (Alive g name pid) :=
  inferInstanceAs (Decidable (g.processes[pid]?=some ⟨name,true⟩))

def InEntry (g : Gateway) (name : String) (pid : Nat) : Prop :=
  ∃ (e : Nat) (p : ManagedPlugin), g.entries[e]?=some p ∧ p.process=some pid ∧
    p.manifest.name=name
def Owned (s : System) : Prop :=
  ∀ name pid, Alive s.g name pid →
    (∃ pc∈s.threads, pc.holds=some (name,pid)) ∨ InEntry s.g name pid

theorem Owned.run (h : Owned s) (hi : s.threads[i]?=some pc)
    (hnew : ∀ name pid, Alive g' name pid → Alive s.g name pid ∨ pc'.holds=some (name,pid))
    (hthread : ∀ name pid, pc.holds=some (name,pid) → Alive g' name pid →
      pc'.holds=some (name,pid) ∨ InEntry g' name pid) (hentry : ∀ name pid, InEntry s.g name pid →
      pc'.holds=some (name,pid) ∨ InEntry g' name pid) :
    Owned {s with g := g', threads := s.threads.set i pc' } := by
  intro name pid halive
  have hself : pc' ∈ s.threads.set i pc' := Pool.mem_set_self hi pc'
  rcases hnew name pid halive with hold | hown
  · rcases h name pid hold with ⟨c,hc,hholds⟩ | hin
    · rcases Pool.mem_set_or hi hc pc' with hc' | rfl
      · exact .inl ⟨c,hc',hholds⟩
      · exact (hthread name pid hholds halive).imp_left fun hh => ⟨pc',hself,hh⟩
    · exact (hentry name pid hin).imp_left fun hh => ⟨pc',hself,hh⟩
  · exact .inl ⟨pc',hself,hown⟩

section
variable {g : Gateway} {name : String} {pid : Nat} {pid' : Nat}

theorem alive_killProcess (h : Alive (g.killProcess pid') name pid) : pid≠pid' ∧ Alive g name pid := by
  rw [Alive,Gateway.killProcess,getElem?_modify] at h
  obtain ⟨q,hq,heq⟩ := map_eq_some_iff.mp h
  split at heq
  · cases heq
  · rename_i hne
    refine ⟨fun h => hne h.symm,?_⟩
    rw [Alive,hq]
    exact congrArg some heq

theorem alive_startProcess {m : PluginManifest} (h : Alive (g.startProcess m) name pid) :
    Alive g name pid ∨ name=m.name ∧ pid=g.processes.length := by
  rcases Pool.getElem?_push_or h with hold | ⟨hpid,heq⟩
  · exact .inl hold
  · cases heq
    exact .inr ⟨rfl,hpid⟩

theorem inEntry_setEntry {e : Nat} {p p' : ManagedPlugin} (he : g.entries[e]?=some p)
    (hm : p'.manifest=p.manifest) (hp : p'.process=p.process) (h : InEntry g name pid) :
    InEntry (g.setEntry e p') name pid := by
  obtain ⟨e',q,hq,hproc,hname⟩ := h
  rcases entry_setEntry he hq p' with ⟨-,rfl,hnew⟩ | hold
  · exact ⟨e',p',hnew,hp.trans hproc,hm ▸ hname⟩
  · exact ⟨e',q,hold,hproc,hname⟩

theorem inEntry_publish {m : PluginManifest} (h : InEntry g name pid) :
    InEntry (g.publish m pid') name pid := by
  obtain ⟨e,p,hp,hrest⟩ := h
  exact ⟨e,p,Pool.getElem?_push_of hp _,hrest⟩
theorem Pc.holds_of_fresh {pc : Pc} (h : pc.fresh) : pc.holds=none := by
  cases pc <;> first | rfl | cases h

end

section
variable {s : System} {i : Nat} {a : Answer} {pc pc' : Pc} {g' : Gateway}

theorem Owned.frame (h : Owned s) (hi : s.threads[i]?=some pc) (hh : pc.holds=none)
    (hp : g'.processes=s.g.processes) (he : ∀ name pid, InEntry s.g name pid → InEntry g' name pid) :
    Owned {s with g := g', threads := s.threads.set i pc' } := by
  refine h.run hi ?_ ?_ (fun name pid hin => .inr (he name pid hin))
  · intro name pid halive
    rw [Alive,hp] at halive
    exact .inl halive
  · intro name pid hholds
    cases hh.symm.trans hholds

theorem Owned.kill (h : Owned s) (hi : s.threads[i]?=some pc) {pid : Nat}
    (hh : ∀ name pid', pc.holds=some (name,pid') → pid' = pid)
    (hp : g'.processes=(s.g.killProcess pid).processes) (he : g'.entries=s.g.entries) :
    Owned {s with g := g', threads := s.threads.set i pc' } := by
  have halive' : ∀ name pid', Alive g' name pid' → pid' ≠ pid ∧ Alive s.g name pid' := by
    intro name pid' halive
    rw [Alive,hp] at halive
    exact alive_killProcess halive
  refine h.run hi ?_ ?_ ?_
  · exact fun name pid' halive => .inl (halive' name pid' halive).2
  · exact fun name pid' hholds halive => absurd (hh name pid' hholds) (halive' name pid' halive).1
  · intro name pid' hin
    rw [InEntry,← he] at hin
    exact .inr hin

theorem Turns.owned (ht : Turns s.g pc a g' pc') (hi : s.threads[i]?=some pc) (hv : Valid s)
    (h : Owned s) : Owned {s with g := g', threads := s.threads.set i pc' } := by
  have hs:=hv.sound pc (mem_of_getElem? hi)
  cases ht with
  | @stopPlugin name e k p he hstatus =>
    have hname:=(hs.refs (name,e) mem_cons_self).name_eq he
    refine h.run hi (fun _ _ halive => .inl halive) (fun _ _ hh => by cases hh) ?_
    rintro name' pid ⟨e',q,hq,hproc,hname'⟩
    rcases entry_setEntry he hq {p with status := .stopped, client := false, process := none} with
      ⟨-,rfl,-⟩ | hold
    · rw [hproc,Pc.holds,← hname',hname]
      exact .inl rfl
    · exact .inr ⟨e',q,hold,hproc,hname'⟩
  | setDisabled he | setError he => exact h.frame hi rfl rfl fun _ _ => inEntry_setEntry he rfl rfl
  | @killed name e pid taskTypes k =>
    cases pid with
    | none => exact h.frame hi rfl rfl fun _ _ => id
    | some pid => exact h.kill hi (fun _ _ hh => by cases hh; rfl) rfl rfl
  | aborted => exact h.kill hi (fun _ _ hh => by cases hh; rfl) rfl rfl
  | @started m k =>
    refine h.run hi ?_ (fun _ _ hh => by cases hh) fun _ _ hin => .inr hin
    intro name pid halive
    rcases alive_startProcess halive with hold | ⟨rfl,rfl⟩
    · exact .inl hold
    · exact .inr rfl
  | @publish m pid k hfree =>
    refine h.run hi (fun _ _ halive => .inl halive) ?_ fun _ _ hin => .inr (inEntry_publish hin)
    intro name pid' hh _
    cases hh
    obtain ⟨p,hp,hm,hproc⟩ := entries_publish_new (g := s.g) m pid
    exact .inr ⟨s.g.entries.length,p,hp,hproc,by rw [hm]⟩
  | waitFailed =>
    exact h.run hi (fun _ _ halive => .inl halive) (fun _ _ hh _ => .inl hh)
      fun _ _ hin => .inr hin
  | finish hpc => exact h.frame hi (Pc.holds_of_fresh hpc) rfl fun _ _ => id
  | _ => exact h.frame hi rfl rfl fun _ _ => id

theorem Owned.push (h : Owned s) (pc : Pc) (timers : List (String × Change)) :
    Owned {s with threads := s.threads++[pc], timers := timers} := by
  intro name pid halive
  refine (h name pid halive).imp_left ?_
  rintro ⟨c,hc,hholds⟩
  exact ⟨c,mem_append_left [pc] hc,hholds⟩

theorem Moves.owned {t : System} {l : Label} (hm : Moves s l t) (hv : Valid s) (h : Owned s) :
    Owned t := by
  cases hm with
  | @call op => exact h.push op.pc s.timers
  | @fire name timers c => exact h.push (c.pc name) timers
  | run hi ht => exact ht.owned hi hv h
  | flags => exact h
  | exit => exact fun name pid halive => h name pid (alive_killProcess halive).2

end

structure Consistent (s : System) : Prop where
  valid : Valid s
  locking : Locking s
  owned : Owned s

theorem consistent_start (maxRestarts : Int) (manifests : Option (List PluginManifest)) :
    Consistent (System.start maxRestarts manifests) := by
  have hthreads : ∀ pc∈(System.start maxRestarts manifests).threads, ∃ rest, pc=.starting rest := by
    intro pc hpc
    cases manifests with
    | none => cases hpc
    | some rest => exact ⟨rest,mem_singleton.mp hpc⟩
  refine ⟨⟨⟨?_,?_,?_,?_⟩,?_⟩,⟨?_,?_⟩,?_⟩
  · exact fun _ e hk => (some_ne_none e hk.symm).elim
  · exact fun _ p hp => (some_ne_none p hp.symm).elim
  · exact fun _ p hp => (some_ne_none p hp.symm).elim
  · exact fun _ p _ hp => (some_ne_none p hp.symm).elim
  · intro pc hpc
    obtain ⟨rest,rfl⟩ := hthreads pc hpc
    exact .of_refs (forall_mem_nil _) rfl rfl
  · rw [countP_eq_zero.mpr]
    · rfl
    · intro pc hpc
      obtain ⟨rest,rfl⟩ := hthreads pc hpc
      exact Bool.false_ne_true
  · intro pc hpc r hr
    obtain ⟨rest,rfl⟩ := hthreads pc hpc
    cases hr
  · exact fun name _ halive => (some_ne_none _ halive.symm).elim

theorem consistent_step (h : Consistent s) (hs : s.step l=some t) : Consistent t := by
  have hm:=moves_of_step hs
  exact ⟨hm.valid h.valid,hm.locking h.locking,hm.owned h.valid h.owned⟩

theorem Consistent.stays_current (hc : Consistent s) {e : Nat} {a : Answer} {name : String} {p : ManagedPlugin} (hi : s.threads[i]?=some pc)
    (ht : Turns s.g pc a g' pc') (hcur : s.g.plugins name=some e) (hp : s.g.entries[e]?=some p)
    (hproc : p.process≠none) (hload : ∀ m pid k, pc=.waitForPlugin m pid k → a=.ok → m.name≠name)
    (hclear : pc=.stopClear → a ≠ .ok) : g'.plugins name=some e := by
  have hmem:=mem_of_getElem? hi
  cases ht with
  | @publish m pid k => exact (if_neg (hload m pid k rfl rfl).symm).trans hcur
  | @delete name₀ e₀ =>
    refine (if_neg ?_).trans hcur
    rintro rfl
    have hlock:=hc.locking.current _ hmem (name,e₀) rfl
    cases hcur.symm.trans hlock
    exact hproc ((hc.valid.sound _ hmem).emptied e₀ rfl p hp)
  | stopClear => exact absurd rfl (hclear rfl)
  | @killed _ _ pid =>
    cases pid with
    | none | some pid => exact hcur
  | _ => exact hcur

end OpsAgent.PluginRuntime
