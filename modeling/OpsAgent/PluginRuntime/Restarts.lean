import OpsAgent.PluginRuntime.Ownership
import Mathlib.Data.List.Induction

/-!
# Automatic restarts
-/

namespace OpsAgent.PluginRuntime
open Lib List Option
open Lib.Exec

def System.takes (p : Pc → Answer → Bool) (s : System) : Label → Bool
  | .run i a => s.threads[i]?.any fun pc => p pc a
  | _ => false
def Pc.checkFails (name : String) : Pc → Answer → Bool
  | .ping n _ _, .failed => n == name
  | _, _ => false
def Pc.restarts (name : String) : Pc → Answer → Bool
  | .backoff m _, .ok => m.name == name
  | _, _ => false
def Pc.restarting (name : String) : Pc → Bool
  | .stopPlugin _ _ (.restart m _) | .killing _ _ _ _ (.restart m _) | .backoff m _ => m.name == name
  | _ => false
def Pc.marking (name : String) : Pc → Bool
  | .markError n _ | .setError n _ _ => n == name
  | _ => false

/-- The plugin is restarted at most `MaxRestarts` times; when more checks than that have failed, its status is
error, unless it has been stopped or disabled since. -/
def GivesUp (name : String) (s₀ : System) (ls : List Label) : Prop :=
  ∀ s, exec System.step s₀ ls=some s →
    (countSteps System.step (System.takes (Pc.restarts name)) s₀ ls : Int) ≤ s₀.g.maxRestarts ∧
    (s₀.g.maxRestarts<countSteps System.step (System.takes (Pc.checkFails name)) s₀ ls →
      s.threads.any (Pc.restarting name)=false ∧
      (s.threads.any (Pc.marking name) ∨
        ∀ e p, s.g.lookup name=some (e,p) →
          p.status=.error ∨ p.status=.stopped ∨ p.status=.disabled))

structure Uncounted (g : Gateway) : Prop where
  zero : ∀ (e : Nat) (p : ManagedPlugin), g.entries[e]?=some p → p.restartCount=0
  max_pos : 0<g.maxRestarts

section
variable {g g' : Gateway} {pc pc' : Pc} {a : Answer} {name : String} {e : Nat} (k : AfterStop)
  (n : String)

theorem uncounted_setEntry (h : Uncounted g) {p p' : ManagedPlugin}
    (he : g.entries[e]?=some p) (hc : p'.restartCount=p.restartCount) : Uncounted (g.setEntry e p') := by
  refine ⟨?_,h.max_pos⟩
  intro e' q hq
  rcases entries_setEntry hq with ⟨rfl,-⟩ | ⟨-,hq⟩
  · rw [hc]
    exact h.zero e p he
  · exact h.zero e' q hq

theorem uncounted_publish (h : Uncounted g) (m : PluginManifest) (pid : Nat) :
    Uncounted (g.publish m pid) := by
  refine ⟨?_,h.max_pos⟩
  intro e p hp
  rcases entries_publish hp with hp | ⟨-,-,-,-,-,hcount⟩
  · exact h.zero e p hp
  · rw [hcount]
    cases hl : g.lookup m.name with
    | none => rfl
    | some found => exact h.zero found.1 found.2 (lookup_eq_some hl).2

theorem Turns.uncounted (ht : Turns g pc a g' pc') (h : Uncounted g) : Uncounted g' := by
  cases ht with
  | setDisabled he | stopPlugin he | setError he => exact uncounted_setEntry h he rfl
  | publish => exact uncounted_publish h _ _
  | @killed _ _ pid =>
    cases pid with
    | none | some pid => exact ⟨h.zero,h.max_pos⟩
  | _ => exact ⟨h.zero,h.max_pos⟩

theorem Uncounted.shouldRestart (h : Uncounted g) {p : ManagedPlugin}
    (he : g.entries[e]?=some p) : g.shouldRestart p := by
  rw [Gateway.shouldRestart,h.zero e p he]
  exact decide_eq_true h.max_pos
theorem AfterStop.restarting_next (e : Nat) :
    (k.next n e).restarting name=(Pc.stopPlugin n e k).restarting name := by cases k <;> rfl
theorem AfterStop.restarting_killing (e : Nat) (pid : Option Nat) (taskTypes : List String) :
    (Pc.killing n e pid taskTypes k).restarting name=(Pc.stopPlugin n e k).restarting name := by
  cases k <;> rfl

theorem Turns.restarting_le (ht : Turns g pc a g' pc') (hs : Sound g pc) :
    (pc.restarts name a).toNat+(pc'.restarting name).toNat ≤
      (pc.checkFails name a).toNat+(pc.restarting name).toNat := by
  cases ht with
  | @restart n e rest p he hr =>
    have hname:=(hs.refs (n,e) mem_cons_self).name_eq he
    simp [Pc.restarts,Pc.checkFails,Pc.restarting,hname]
  | @stopAgain n e k =>
    rw [k.restarting_next]
    exact Nat.add_le_add_right (Nat.zero_le _) _
  | @stopPlugin n e k =>
    rw [k.restarting_killing]
    exact Nat.add_le_add_right (Nat.zero_le _) _
  | @killed n e pid taskTypes k =>
    rw [k.restarting_next,k.restarting_killing]
    exact Nat.add_le_add_right (Nat.zero_le _) _
  | backoff => exact Nat.le_add_left _ _
  | @loadFailed m k | @aborted m pid k | @loaded m k => cases k <;> exact Nat.zero_le _
  | @finish pc hpc => cases pc <;> first | exact Nat.zero_le _ | cases hpc
  | _ => exact Nat.zero_le _

end

theorem Operation.restarting_pc (op : Operation) (name : String) : op.pc.restarting name=false := by
  cases op <;> rfl
theorem Change.restarting_pc (c : Change) (n name : String) : (c.pc n).restarting name=false := by
  cases c <;> rfl

def System.restarting (name : String) (s : System) : Nat := s.threads.countP (Pc.restarting name)

variable {s t : System} {l : Label}

theorem Moves.restarting_le {name : String} (hm : Moves s l t)
    (hv : Valid s) : (s.takes (Pc.restarts name) l).toNat+t.restarting name ≤
      (s.takes (Pc.checkFails name) l).toNat+s.restarting name := by
  cases hm with
  | @call op =>
    simp [System.takes,System.restarting,op.restarting_pc]
  | @fire n timers c =>
    simp [System.takes,System.restarting,c.restarting_pc]
  | @run i a pc g' pc' hi ht =>
    have hcount:=Pool.countP_set (Pc.restarting name) pc' hi
    have hturn : (pc.restarts name a).toNat+(pc'.restarting name).toNat ≤
        (pc.checkFails name a).toNat+(pc.restarting name).toNat :=
      ht.restarting_le (hv.sound pc (mem_of_getElem? hi))
    simp only [System.takes,System.restarting,hi,any_some]
    omega
  | @flags l watcher cancelled timers hl =>
    have hnone : ∀ p, s.takes p l=false := by
      intro p
      cases l <;> first | rfl | cases hl
    rw [hnone,hnone]
    exact Nat.le_refl _
  | exit => exact Nat.le_refl _

theorem Moves.uncounted (hm : Moves s l t) (h : Uncounted s.g) : Uncounted t.g := by
  cases hm with
  | run hi ht => exact ht.uncounted h
  | _ => exact ⟨h.zero,h.max_pos⟩

theorem uncounted_start (maxRestarts : Int) (manifests : Option (List PluginManifest)) :
    Uncounted (System.start maxRestarts manifests).g := by
  refine ⟨fun _ p hp => (some_ne_none p hp.symm).elim,?_⟩
  change 0 < if maxRestarts≤0 then (3 : Int) else maxRestarts
  split <;> omega

theorem exec_uncounted {s₀ : System} {ls : List Label} (hu : Uncounted s₀.g)
    (hrun : exec System.step s₀ ls=some s) : Uncounted s.g :=
  exec_stable (I := fun s => Uncounted s.g) (fun _ _ _ h hs => (moves_of_step hs).uncounted h) hu hrun

theorem restarts_le_checkFails (name : String) {s₀ : System} {ls : List Label}
    (hc : Consistent s₀) (hrun : exec System.step s₀ ls=some s) :
    countSteps System.step (System.takes (Pc.restarts name)) s₀ ls+s.restarting name ≤
      countSteps System.step (System.takes (Pc.checkFails name)) s₀ ls+s₀.restarting name :=
  countSteps_le (System.restarting name) (fun _ _ _ => consistent_step)
    (fun _ _ _ hc hs => (moves_of_step hs).restarting_le hc.valid) hc hrun

theorem restarting_start (name : String) (maxRestarts : Int) (manifests : Option (List PluginManifest)) :
    (System.start maxRestarts manifests).restarting name=0 := by cases manifests <;> rfl

theorem restarting_of_checkFails {name : String}
    (hu : Uncounted s.g) (hv : Valid s) (hs : s.step l=some t)
    (hf : s.takes (Pc.checkFails name) l) : t.threads.any (Pc.restarting name) := by
  cases moves_of_step hs with
  | @run i a pc g' pc' hi ht =>
    rw [System.takes,hi,any_some] at hf
    refine any_eq_true.mpr ⟨pc',Pool.mem_set_self hi pc',?_⟩
    have hsound:=hv.sound pc (mem_of_getElem? hi)
    cases ht with
    | @restart n e rest p he hr =>
      have hname:=(hsound.refs (n,e) mem_cons_self).name_eq he
      change (p.manifest.name == name)
      rw [hname]
      exact hf
    | @giveUp n e rest p he hr =>
      rw [hu.shouldRestart he] at hr
      cases hr
    | @finish pc hpc => cases pc <;> cases hf
    | _ => cases hf
  | @flags l watcher cancelled timers hl => cases l <;> first | cases hf | cases hl
  | _ => cases hf

section
variable {name : String} {s₀ : System} {ls : List Label}

theorem checkFails_le_of_givesUp (hc : Consistent s₀) (hu : Uncounted s₀.g) {s : System}
    (hrun : exec System.step s₀ ls=some s) (h : ∀ pre post, ls=pre++post → GivesUp name s₀ pre) :
    (countSteps System.step (System.takes (Pc.checkFails name)) s₀ ls : Int) ≤ s₀.g.maxRestarts := by
  induction ls using List.reverseRecOn generalizing s with
  | nil =>
    have hpos:=hu.max_pos
    simp only [countSteps]
    omega
  | append_singleton ls l ih =>
    obtain ⟨t,ht,hs⟩ := exec_concat hrun
    have hbefore:=ih ht fun pre post hpre => h pre (post++[l]) (by rw [hpre,append_assoc])
    rw [countSteps_append _ ht,countSteps_singleton]
    cases hf : t.takes (Pc.checkFails name) l with
    | false => simpa using hbefore
    | true =>
      have hvalid:=(exec_stable (I := Consistent) (fun _ _ _ => consistent_step) hc ht).valid
      have hagain:=restarting_of_checkFails (exec_uncounted hu ht) hvalid hs hf
      have hgive:=(h (ls++[l]) [] (append_nil _).symm s hrun).2
      rw [countSteps_append _ ht,countSteps_singleton,hf] at hgive
      by_contra hmore
      have hnone:=(hgive (not_le.mp hmore)).1
      cases hagain.symm.trans hnone

theorem givesUp_of_checkFails_le (hc : Consistent s₀) (hzero : s₀.restarting name=0)
    (hle : (countSteps System.step (System.takes (Pc.checkFails name)) s₀ ls : Int) ≤
      s₀.g.maxRestarts) {pre post : List Label} (hpre : ls=pre++post) : GivesUp name s₀ pre := by
  intro t ht
  rw [hpre,countSteps_append _ ht] at hle
  have hbound:=restarts_le_checkFails name hc ht
  refine ⟨by omega,fun hmore => ?_⟩
  exact absurd hmore (by omega)

end

/-- The health loop gives up exactly if no more checks fail than there may be restarts. -/
theorem givesUp_iff (maxRestarts : Int) (manifests : Option (List PluginManifest)) (name : String)
    (ls : List Label) (s : System)
    (hrun : exec System.step (System.start maxRestarts manifests) ls=some s) :
    (∀ pre post, ls=pre++post → GivesUp name (System.start maxRestarts manifests) pre) ↔
      (countSteps System.step (System.takes (Pc.checkFails name))
        (System.start maxRestarts manifests) ls : Int) ≤
          (System.start maxRestarts manifests).g.maxRestarts := by
  have hc:=consistent_start maxRestarts manifests
  constructor
  · exact checkFails_le_of_givesUp hc (uncounted_start maxRestarts manifests) hrun
  · intro hle pre post hpre
    exact givesUp_of_checkFails_le hc (restarting_start name maxRestarts manifests) hle hpre

def failedRound : List Label :=
  flatten [[.run 0 .ok,.run 0 (.pick 0),.run 0 .failed],replicate 7 (.run 0 .ok)]
def failedRounds (n : Nat) : List Label :=
  flatten (replicate 5 (.run 0 .ok)::replicate n failedRound)
def Label.isCall : Label → Bool
  | .call _ => true
  | _ => false
def probe : PluginManifest := ⟨"probe",["probe"]⟩

theorem givesUp_three_rounds :
    ∃ s, exec System.step (System.start 3 (some [probe])) (failedRounds 3)=some s ∧
      ∀ pre post, failedRounds 3=pre++post → GivesUp "probe" (System.start 3 (some [probe])) pre :=
  ⟨_,rfl,(givesUp_iff 3 (some [probe]) "probe" (failedRounds 3) _ rfl).mpr (by decide)⟩

theorem restarted_again : ∃ s, exec System.step (System.start 3 (some [probe])) (failedRounds 4)=some s ∧
      (System.start 3 (some [probe])).g.maxRestarts=3 ∧ (failedRounds 4).any Label.isCall=false ∧
      countSteps System.step (System.takes (Pc.restarts "probe")) (System.start 3 (some [probe]))
        (failedRounds 4)=4 ∧ s.g.entries.map ManagedPlugin.restartCount=[0,0,0,0,0] ∧
      (s.g.lookup "probe").map (fun r => r.2.status)=some .running ∧
      ¬ GivesUp "probe" (System.start 3 (some [probe])) (failedRounds 4) := by
  refine ⟨_,rfl,rfl,rfl,rfl,rfl,rfl,?_⟩
  intro h
  have hle:=(h _ rfl).1
  revert hle
  decide

end OpsAgent.PluginRuntime
