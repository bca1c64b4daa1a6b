import OpsAgent.Collector.Scheduler

/-!
# Who waits for whom in the scheduler
-/

namespace OpsAgent.Collector
open List Option
namespace Scheduler

variable {P : Plugins}

/- `s.cancel` has been called, or its context's parent is done. -/
def Cancelled (s : Scheduler P) : Prop := ∀ ctx, s.cancel=some ctx → ctx∈s.doneContexts

def Held (s : Scheduler P) : Option (Holder P) → Prop
  | some (.start _) => s.cancel=some (s.contexts-1) ∧ s.outCh≠none
  | some (.reloadSpawn _) => s.cancel=some (s.contexts-1) ∧ s.outCh≠none
  | some (.reloadWait _) => s.Cancelled
  | some (.reloadPush _ _) => s.live=0
  | some (.reloadReset _ _) => s.live=0
  | some (.reloadBuild _) => s.live=0
  | _ => True

structure Wired (s : Scheduler P) : Prop where
  current : ∀ g∈s.pool, g.live → s.cancel=some g.ctx
  held : s.Held s.mu
  stopping : s.stop=.waiting → s.running=false ∧ s.Cancelled
  unmade : s.outCh=none → s.pool=[] ∧ s.stop=.notCalled ∧ s.running=false

variable (s : Scheduler P)

theorem cancelCurrent_cancelled : s.cancelCurrent.Cancelled := by
  intro ctx hc
  have hcancel : s.cancel=some ctx := hc
  simp [cancelCurrent,hcancel]
theorem none_live {s : Scheduler P} (h : s.live=0) : ∀ g∈s.pool, g.live=false :=
  fun g hg => Bool.eq_false_iff.mpr (countP_eq_zero.mp h g hg)
theorem cancelled_mono (s t : Scheduler P) (h : s.Cancelled) (hcancel : t.cancel=s.cancel)
    (hdone : s.doneContexts ⊆ t.doneContexts) : t.Cancelled := by
  intro ctx hc
  exact hdone (h ctx (hcancel ▸ hc))

theorem parentDone_wired (h : s.Wired) (ctx : Nat) :
    ({s with doneContexts := ctx::s.doneContexts} : Scheduler P).Wired := by
  have hdone : s.Cancelled →
      ({s with doneContexts := ctx::s.doneContexts} : Scheduler P).Cancelled :=
    fun hc => cancelled_mono s _ hc rfl (subset_cons_self ctx s.doneContexts)
  refine ⟨h.current,?_,fun hst => ⟨(h.stopping hst).1,hdone (h.stopping hst).2⟩,h.unmade⟩
  have hheld:=h.held
  change Held _ s.mu
  cases hm : s.mu with
  | none => trivial
  | some hd =>
    rw [hm] at hheld
    cases hd with
    | reloadWait cfg => exact hdone hheld
    | _ => exact hheld

theorem spawn_wired (h : s.Wired) (t : Task P) (m : Holder P)
    (hcancel : s.cancel=some (s.contexts-1)) (hout : s.outCh≠none)
    (hm : ({s.spawn t with mu := some m} : Scheduler P).Held (some m)) :
    ({s.spawn t with mu := some m} : Scheduler P).Wired := by
  refine ⟨?_,hm,h.stopping,fun ho => absurd ho hout⟩
  intro g hg hl
  rcases mem_append.mp hg with hg | hg
  · exact h.current g hg hl
  · rw [mem_singleton.mp hg]
    exact hcancel

theorem stepHolder_wired (s t : Scheduler P) (hd : Holder P) (hm : s.mu=some hd) (h : s.Wired)
    (hs : s.stepHolder hd=some t) : t.Wired := by
  have hheld:=h.held
  rw [hm] at hheld
  cases stepHolder_proceeds hs with
  | startSpawn task todo | spawn task todo => exact spawn_wired s h task _ hheld.1 hheld.2 hheld
  | cancel cfg =>
    have hc:=cancelCurrent_cancelled s
    exact ⟨h.current,hc,fun hst => ⟨(h.stopping hst).1,hc⟩,h.unmade⟩
  | waited cfg hl => exact ⟨h.current,hl,h.stopping,h.unmade⟩
  | push cfg k hk | pushedAll cfg k hk | reset cfg k => exact ⟨h.current,hheld,h.stopping,h.unmade⟩
  | restart cfg pipe hb hrun =>
    have hmade : s.outCh≠none := by
      intro ho
      rw [(h.unmade ho).2.2] at hrun
      cases hrun
    refine ⟨?_,⟨rfl,hmade⟩,?_,fun ho => absurd ho hmade⟩
    · intro g hg hl
      rw [none_live hheld g hg] at hl
      cases hl
    · intro hst
      have hoff:=(h.stopping hst).1
      cases hrun.symm.trans hoff
  | _ => exact ⟨h.current,trivial,h.stopping,h.unmade⟩

theorem stepGoroutine_wired (i : Nat) (g : Goroutine P) (a : Answer)
    (r : Goroutine P × Scheduler P) (hi : s.pool[i]?=some g) (h : s.Wired)
    (hs : s.stepGoroutine g a=some r) : ({r.2 with pool := r.2.pool.set i r.1}.wake).Wired := by
  obtain ⟨-,hctx,pipe,buffer,crashed,hr⟩ := stepGoroutine_frame hs
  have hg:=goroutine_not_finished hs
  have hlive:=live_pos hi hg
  have hmem:=mem_of_getElem? hi
  rw [hr]
  refine ⟨?_,?_,h.stopping,?_⟩
  · intro x hx hl
    rcases mem_or_eq_of_mem_set hx with hx | rfl
    · exact h.current x hx hl
    · exact (h.current g hmem hg).trans (congrArg some hctx.symm)
  · -- a goroutine is running, so `Reload` is not past its wait
    have hheld:=h.held
    change Held _ s.mu
    cases hm : s.mu with
    | none => trivial
    | some hd =>
      rw [hm] at hheld
      cases hd with
      | start todo | reloadSpawn todo | reloadWait cfg => exact hheld
      | reloadCancel cfg => trivial
      | _ => exact absurd hheld (Nat.pos_iff_ne_zero.mp hlive)
  · intro ho
    rw [(h.unmade ho).1] at hmem
    cases hmem

theorem step_wired (s t : Scheduler P) (l : Label) (h : s.Wired) (hs : s.step l=some t) : t.Wired := by
  have hcalled : s.stop ≠ .notCalled → s.outCh≠none := fun hst ho => hst (h.unmade ho).2.1
  cases step_moves hs with
  | start hm ho =>
    obtain ⟨hpool,hstop,-⟩ := h.unmade ho
    refine ⟨?_,⟨rfl,nofun⟩,?_,nofun⟩
    · intro g hg
      rw [show s.begin.pool=[] from hpool] at hg
      cases hg
    · intro hst
      rw [show s.begin.stop=.notCalled from hstop] at hst
      cases hst
  | lockReload i cfg hm hp => exact ⟨h.current,trivial,h.stopping,h.unmade⟩
  | callStop hst ho => exact ⟨h.current,h.held,nofun,fun hn => absurd hn ho⟩
  | lockStop hm hst =>
    refine ⟨h.current,?_,fun _ => ⟨rfl,cancelCurrent_cancelled s⟩,?_⟩
    · change Held _ s.mu
      rw [hm]
      trivial
    · exact fun ho => absurd ho (hcalled (by rw [hst]; nofun))
  | waitStop hst hl =>
    exact ⟨h.current,h.held,nofun,fun ho => absurd ho (hcalled (by rw [hst]; nofun))⟩
  | holder hd _ hm hstep => exact stepHolder_wired s t hd hm h hstep
  | goroutine i a g r hi hr => exact stepGoroutine_wired s i g a r hi h hr
  | closer _ hstep =>
    obtain ⟨closer,closes,crashed,hfr⟩ := stepCloser_frame hstep
    rw [hfr]
    exact ⟨h.current,h.held,h.stopping,h.unmade⟩
  | parentDone ctx hc => exact parentDone_wired s h ctx
  | _ => exact ⟨h.current,h.held,h.stopping,h.unmade⟩

theorem newScheduler_wired (pipe : Pipeline P) : (newScheduler pipe).Wired :=
  ⟨nofun,trivial,nofun,fun _ => ⟨rfl,rfl,rfl⟩⟩

end Scheduler
end OpsAgent.Collector
