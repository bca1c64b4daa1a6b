import OpsAgent.Collector.Drain
import OpsAgent.Collector.WaitOrder

/-!
# `Reload` and `Stop` run to completion
-/

namespace OpsAgent.Collector
open Lib.Exec List Option Bool

variable {P : Plugins}

/- From the lock to the return of `s.wg.Wait()`. -/
def Holder.drains : Holder P → Bool
  | .reloadCancel _ => true
  | .reloadWait _ => true
  | _ => false

def Holder.part : Holder P → Nat
  | .reloadCancel _ => 5
  | .reloadWait _ => 4
  | .reloadPush _ _ => 3
  | .reloadReset _ _ => 3
  | .reloadBuild _ => 2
  | .reloadSpawn _ => 1
  | .start _ => 1

def Holder.left (aggregators : Nat) : Holder P → Nat
  | .reloadPush _ k => pushLeft aggregators k
  | .reloadReset _ k => resetLeft aggregators k
  | .reloadSpawn todo => todo.length
  | .start todo => todo.length
  | _ => 0

namespace Scheduler

/-- `Reload` waits for goroutines with `s.mu` locked, and one of them has still to
lock `s.mu`. `Stop` has unlocked it by the time it waits. -/
def LockWait (s : Scheduler P) : Prop :=
  (∃ cfg, s.mu=some (.reloadWait cfg)) ∧ ∃ g∈s.pool, g.pc.needsLock

/- `Reload` is waiting, or about to, for a goroutine that needs the mutex. -/
def Blocked (s : Scheduler P) : Prop :=
  (∃ hd, s.mu=some hd ∧ hd.drains) ∧ ∃ g∈s.pool, g.pc.needsLock
def Completed (s : Scheduler P) : Prop :=
  s.mu=none ∧ s.pending=[] ∧ (s.stop=.notCalled ∨ s.stop=.returned)

def callsLeft (s : Scheduler P) : Nat :=
  s.pending.length + match s.stop with
    | .locking => 2
    | .waiting => 1
    | _ => 0

def holderPart (s : Scheduler P) : Nat := (s.mu.map Holder.part).getD 0
def holderLeft (s : Scheduler P) : Nat :=
  (s.mu.map (Holder.left s.pipe.aggregators.length)).getD 0
def rank (s : Scheduler P) : Nat × Nat × Nat × Nat × Nat :=
  (s.callsLeft,s.holderPart,s.holderLeft,s.poolParts,s.poolLeft)
def Below (t s : Scheduler P) : Prop :=
  (WellFoundedRelation.rel : (Nat × Nat × Nat × Nat × Nat) → _ → Prop) t.rank s.rank

variable {s t : Scheduler P}

theorem below_of_calls (h : t.callsLeft<s.callsLeft) : t.Below s :=
  Prod.Lex.left _ _ h

theorem below_of_holder (hc : t.callsLeft=s.callsLeft)
    (h : t.holderPart<s.holderPart ∨ t.holderPart=s.holderPart ∧ t.holderLeft<s.holderLeft) :
    t.Below s := by
  unfold Below rank
  rw [hc]
  apply Prod.Lex.right
  rcases h with h | ⟨he,h⟩
  · exact Prod.Lex.left _ _ h
  · rw [he]
    exact Prod.Lex.right _ (Prod.Lex.left _ _ h)

theorem below_of_pool (hc : t.callsLeft=s.callsLeft)
    (hp : t.holderPart=s.holderPart) (hl : t.holderLeft=s.holderLeft)
    (h : t.poolParts<s.poolParts ∨ t.poolParts=s.poolParts ∧ t.poolLeft<s.poolLeft) : t.Below s := by
  unfold Below rank
  rw [hc,hp,hl]
  apply Prod.Lex.right
  apply Prod.Lex.right
  apply Prod.Lex.right
  rcases h with h | ⟨he,h⟩
  · exact Prod.Lex.left _ _ h
  · rw [he]
    exact Prod.Lex.right _ h

structure Open (s : Scheduler P) : Prop where
  wired : s.Wired
  crashed : s.crashed=none
  clear : ¬ s.Blocked

def Advances (s : Scheduler P) : Prop := ∃ l t, s.step l=some t ∧ t.Open ∧ t.Below s

theorem advances_of (s t : Scheduler P) (l : Label) (h : s.Open) (hs : s.stepAlive l=some t)
    (hcrash : t.crashed=s.crashed) (hclear : ¬ t.Blocked) (hlow : t.Below s) : s.Advances := by
  have hstep : s.step l=some t := by
    simp only [step,h.crashed]
    exact hs
  exact ⟨l,t,hstep,⟨step_wired s t l h.wired hstep,hcrash.trans h.crashed,hclear⟩,hlow⟩

theorem unblocked_of_free (h : s.mu=none) : ¬ s.Blocked := by
  rintro ⟨⟨hd,hm,-⟩,-⟩
  cases h.symm.trans hm

theorem unblocked_of_past {hd : Holder P} (hm : s.mu=some hd) (h : hd.drains=false) : ¬ s.Blocked := by
  rintro ⟨⟨hd',hm',hdr⟩,-⟩
  cases hm.symm.trans hm'
  cases h.symm.trans hdr

structure Lowers (s t : Scheduler P) : Prop where
  calls : t.callsLeft=s.callsLeft
  crashed : t.crashed=s.crashed
  clear : t.Blocked → s.Blocked
  lower : t.holderPart<s.holderPart ∨ t.holderPart=s.holderPart ∧ t.holderLeft<s.holderLeft

theorem lowers_free (s t : Scheduler P) (hd : Holder P) (hm : s.mu=some hd) (ht : t.mu=none)
    (hc : t.callsLeft=s.callsLeft) (hcr : t.crashed=s.crashed) : s.Lowers t := by
  refine ⟨hc,hcr,fun hb => absurd hb (unblocked_of_free ht),.inl ?_⟩
  simp only [holderPart,hm,ht,map_some,map_none,getD_some,getD_none]
  cases hd <;> exact Nat.succ_pos _

theorem lowers_held (s t : Scheduler P) (hd hd' : Holder P) (hm : s.mu=some hd)
    (ht : t.mu=some hd') (hc : t.callsLeft=s.callsLeft) (hcr : t.crashed=s.crashed)
    (hpast : hd'.drains=false) (hlow : hd'.part<hd.part ∨ hd'.part=hd.part ∧
      hd'.left t.pipe.aggregators.length<hd.left s.pipe.aggregators.length) : s.Lowers t := by
  refine ⟨hc,hcr,fun hb => absurd hb (unblocked_of_past ht hpast),?_⟩
  simp only [holderPart,holderLeft,hm,ht,map_some,getD_some]
  exact hlow

theorem stepHolder_lowers (s t : Scheduler P) (hd : Holder P) (hm : s.mu=some hd)
    (hs : s.stepHolder hd=some t) : s.Lowers t := by
  cases stepHolder_proceeds hs with
  | startSpawn task todo =>
    exact lowers_held s _ _ (.start todo) hm rfl rfl rfl rfl
      (.inr ⟨rfl,Nat.lt_succ_self todo.length⟩)
  | spawn task todo =>
    exact lowers_held s _ _ (.reloadSpawn todo) hm rfl rfl rfl rfl
      (.inr ⟨rfl,Nat.lt_succ_self todo.length⟩)
  | cancel cfg =>
    -- the only step that leads to a part in which `Reload` still drains
    refine ⟨rfl,rfl,?_,.inl ?_⟩
    · rintro ⟨-,g,hg,hn⟩
      exact ⟨⟨_,hm,rfl⟩,g,hg,hn⟩
    · simp only [holderPart,hm,map_some,getD_some]
      exact Nat.lt_succ_self 4
  | waited cfg hl =>
    exact lowers_held s _ _ (.reloadPush cfg 0) hm rfl rfl rfl rfl (.inl (Nat.lt_succ_self 3))
  | push cfg k hk =>
    exact lowers_held s _ _ (.reloadReset cfg k) hm rfl rfl rfl rfl (.inr ⟨rfl,resetLeft_lt hk⟩)
  | pushedAll cfg k hk =>
    exact lowers_held s _ _ (.reloadBuild cfg) hm rfl rfl rfl rfl (.inl (Nat.lt_succ_self 2))
  | reset cfg k =>
    refine lowers_held s _ _ (.reloadPush cfg (k+1)) hm rfl rfl rfl rfl (.inr ⟨rfl,?_⟩)
    rw [show (s.pipe.aggregators.modify k P.reset).length=s.pipe.aggregators.length from
      length_modify ..]
    exact pushLeft_succ_lt _ k
  | restart cfg pipe hb hrun =>
    exact lowers_held s _ _ (.reloadSpawn _) hm rfl rfl rfl rfl (.inl (Nat.lt_succ_self 1))
  | _ => exact lowers_free s _ _ hm rfl rfl rfl

theorem stepHolder_enabled (s : Scheduler P) (hd : Holder P)
    (h : ∀ cfg, hd=.reloadWait cfg → s.live=0) : ∃ t, s.stepHolder hd=some t := by
  cases hd with
  | start todo | reloadSpawn todo => cases todo <;> exact ⟨_,rfl⟩
  | reloadWait cfg => exact ⟨_,if_pos (h cfg rfl)⟩
  | reloadBuild cfg =>
    simp only [stepHolder]
    split
    · exact ⟨_,rfl⟩
    · split <;> exact ⟨_,rfl⟩
  | _ => exact ⟨_,rfl⟩

theorem holder_advances (s : Scheduler P) (h : s.Open) (hd : Holder P) (hm : s.mu=some hd)
    (hready : ∀ cfg, hd=.reloadWait cfg → s.live=0) : s.Advances := by
  obtain ⟨t,ht⟩ := stepHolder_enabled s hd hready
  have hlow:=stepHolder_lowers s t hd hm ht
  have hs : s.stepAlive .holder=some t := by
    simp only [stepAlive,hm]
    exact ht
  exact advances_of s t .holder h hs hlow.crashed (fun hb => h.clear (hlow.clear hb))
    (below_of_holder hlow.calls hlow.lower)

theorem goroutine_advances (s : Scheduler P) (h : s.Open) (g : Goroutine P) (hg : g∈s.pool)
    (hl : g.live) (hctx : g.pc.needsLock=false → g.ctx∈s.doneContexts)
    (hmu : g.pc.needsLock → s.mu=none) : s.Advances := by
  obtain ⟨i,hi⟩ := mem_iff_getElem?.mp hg
  obtain ⟨r,hr⟩ := exit_enabled s g hl hctx hmu
  have hex:=exits_of_step s g r hr
  have hpool:=exits_pool s i g r hi hr
  obtain ⟨-,-,pipe,buffer,crashed,hfr⟩ := stepGoroutine_frame hr
  have hs : s.stepAlive (.goroutine i g.pc.exitAnswer) =
      some {r.2 with pool := r.2.pool.set i r.1}.wake := by simp only [stepAlive,hi,hr]
  refine advances_of s _ _ h hs hex.crashed ?_ (below_of_pool ?_ ?_ ?_ hpool)
  · rw [hfr]
    rintro ⟨hd,x,hx,hn⟩
    rcases mem_or_eq_of_mem_set hx with hx | rfl
    · exact h.clear ⟨hd,x,hx,hn⟩
    · exact h.clear ⟨hd,g,hg,hex.lock hn⟩
  · rw [hfr]
    rfl
  · rw [hfr]
    rfl
  · have hsize:=hex.sizes.aggregators
    rw [hfr] at hsize ⊢
    simp only [holderLeft,wake,hsize]

theorem drain_advances (s : Scheduler P) (h : s.Open) (hc : s.Cancelled) (hlive : s.live≠0)
    (hmu : ∀ g∈s.pool, g.pc.needsLock → s.mu=none) : s.Advances := by
  obtain ⟨g,hg,hl⟩ := countP_pos_iff.mp (Nat.pos_of_ne_zero hlive)
  exact goroutine_advances s h g hg hl (fun _ => hc g.ctx (h.wired.current g hg hl)) (hmu g hg)

variable {g : Goroutine P}
  {a : Answer} {r : Goroutine P × Scheduler P} (pipe : Pipeline P)

theorem live_of_needsLock (h : g.pc.needsLock) : g.live := by
  cases hp : g.pc with
  | finished =>
    rw [hp] at h
    cases h
  | _ => simp only [Goroutine.live,hp]

theorem pending_advances (s : Scheduler P) (h : s.Open) (hm : s.mu=none) (cfg : ReloadConfig)
    (rest : List ReloadConfig) (hp : s.pending=cfg::rest) : s.Advances := by
  by_cases hn : ∃ g∈s.pool, g.pc.needsLock
  · -- the mutex is free: let the gather through before `Reload` takes it
    obtain ⟨g,hg,hneed⟩ := hn
    refine goroutine_advances s h g hg (live_of_needsLock hneed) (fun hno => ?_) fun _ => hm
    cases hneed.symm.trans hno
  · have hs : s.stepAlive (.lockReload 0) =
        some {s with mu := some (.reloadCancel cfg), pending := rest} := by simp [stepAlive,hm,hp]
    refine advances_of s _ _ h hs rfl (fun hb => hn hb.2) (below_of_calls ?_)
    simp only [callsLeft,hp,length_cons]
    omega

theorem stop_advances (s : Scheduler P) (h : s.Open) (hm : s.mu=none)
    (hc : s.stop=.locking ∨ s.stop=.waiting) : s.Advances := by
  rcases hc with hst | hst
  · have hs : s.stepAlive .lockStop =
        some {s.cancelCurrent with running := false, stop := .waiting} := by
      simp only [stepAlive,hm,hst]
    refine advances_of s _ _ h hs rfl (unblocked_of_free hm) (below_of_calls ?_)
    simp only [callsLeft,cancelCurrent,hst]
    omega
  · by_cases hl : s.live=0
    · have hs : s.stepAlive .waitStop=some {s with stop := .returned} := by simp [stepAlive,hst,hl]
      refine advances_of s _ _ h hs rfl (unblocked_of_free hm) (below_of_calls ?_)
      simp only [callsLeft,hst]
      omega
    · exact drain_advances s h (h.wired.stopping hst).2 hl fun _ _ _ => hm

theorem open_advances (s : Scheduler P) (h : s.Open) (hn : ¬ s.Completed) : s.Advances := by
  cases hm : s.mu with
  | some hd =>
    by_cases hw : ∃ cfg, hd=.reloadWait cfg ∧ s.live≠0
    · obtain ⟨cfg,rfl,hl⟩ := hw
      have hc:=h.wired.held
      rw [hm] at hc
      refine drain_advances s h hc hl fun g hg hneed => ?_
      exact absurd ⟨⟨_,hm,rfl⟩,g,hg,hneed⟩ h.clear
    · refine holder_advances s h hd hm fun cfg he => ?_
      by_contra hl
      exact hw ⟨cfg,he,hl⟩
  | none =>
    cases hp : s.pending with
    | cons cfg rest => exact pending_advances s h hm cfg rest hp
    | nil =>
      refine stop_advances s h hm ?_
      cases hst : s.stop with
      | notCalled => exact absurd ⟨hm,hp,.inl hst⟩ hn
      | returned => exact absurd ⟨hm,hp,.inr hst⟩ hn
      | locking => exact .inl rfl
      | waiting => exact .inr rfl

theorem open_completes (s : Scheduler P) (h : s.Open) : CanReach step Completed s :=
  canReach_of_rank rank open_advances h

theorem needsLock_stays (h : s.stepGoroutine g a=some r) (hm : s.mu≠none)
    (hg : g.pc.needsLock) : r.1.pc.needsLock := by
  obtain ⟨pc',t,rfl,ht⟩ := stepGoroutine_turns h
  generalize g.pc=pc at ht hg
  cases ht with
  | lock ms hfree => exact absurd hfree hm
  | _ => first | rfl | cases hg

theorem step_blocked (s t : Scheduler P) (l : Label) (h : s.Blocked) (hs : s.step l=some t) :
    t.Blocked := by
  obtain ⟨⟨hd,hm,hdr⟩,g,hg,hn⟩ := h
  have hheld : s.mu≠none := by
    rw [hm]
    nofun
  cases step_moves hs with
  | start hfree ho | lockReload i cfg hfree hp | lockStop hfree hst => exact absurd hfree hheld
  | holder hd' _ hm' hstep =>
    cases hm.symm.trans hm'
    cases hd with
    | reloadCancel cfg =>
      cases hstep
      exact ⟨⟨_,rfl,rfl⟩,g,hg,hn⟩
    | reloadWait cfg =>
      obtain ⟨i,hi⟩ := mem_iff_getElem?.mp hg
      have hlive:=live_pos hi (live_of_needsLock hn)
      simp only [stepHolder,if_neg (Nat.pos_iff_ne_zero.mp hlive),reduceCtorEq] at hstep
    | _ => cases hdr
  | goroutine i a x r hi hr =>
    obtain ⟨-,-,pipe,buffer,crashed,hfr⟩ := stepGoroutine_frame hr
    rw [hfr]
    rcases Lib.Pool.mem_set_or hi hg r.1 with hkept | heq
    · exact ⟨⟨hd,hm,hdr⟩,g,hkept,hn⟩
    · subst heq
      exact ⟨⟨hd,hm,hdr⟩,r.1,Lib.Pool.mem_set_self hi r.1,needsLock_stays hr hheld hn⟩
  | closer _ hstep =>
    obtain ⟨closer,closes,crashed,hfr⟩ := stepCloser_frame hstep
    rw [hfr]
    exact ⟨⟨hd,hm,hdr⟩,g,hg,hn⟩
  | _ => exact ⟨⟨hd,hm,hdr⟩,g,hg,hn⟩

theorem blocked_stuck (s : Scheduler P) (h : s.Blocked) : ¬ CanReach step Completed s := by
  rintro ⟨ls,t,hr,hfree,-⟩
  have ht : t.Blocked := exec_stable (fun x l y hx hxy => step_blocked x y l hx hxy) h hr
  exact absurd ht (unblocked_of_free hfree)

/-- From a state that a run without a panic reaches, all calls can complete unless it is blocked. -/
theorem completes_iff (ls : List Label) (t : Scheduler P)
    (hr : exec step (newScheduler pipe) ls=some t) (hc : t.crashed=none) :
    CanReach step Completed t ↔ ¬ t.Blocked := by
  have hw : t.Wired :=
    exec_stable (fun x l y hx hxy => step_wired x y l hx hxy) (newScheduler_wired pipe) hr
  constructor
  · intro h hb
    exact blocked_stuck t hb h
  · intro hb
    exact open_completes t ⟨hw,hc,hb⟩

/-- `Reload` takes the mutex while no gather is on its way to it, no `Gather`
returns a batch before `Reload` has waited, and the step does not panic. -/
def uncontended (s : Scheduler P) : Label → Bool
  | .lockReload _ => s.pool.all fun g => !g.pc.needsLock
  | .goroutine _ (.gathered (_::_)) => match s.mu with
    | some hd => !hd.drains
    | none => true
  | .goroutine _ .send => decide (s.closes=0)
  | .closer => !(decide (s.closer=.woken)&&decide (0<s.live))
  | _ => true

theorem needsLock_of_step (h : s.stepGoroutine g a=some r) (hr : r.1.pc.needsLock) :
    g.pc.needsLock ∨ ∃ m metrics, a=.gathered (m::metrics) := by
  obtain ⟨pc',t,rfl,ht⟩ := stepGoroutine_turns h
  generalize g.pc=pc at ht ⊢
  cases ht with
  | gatheredSome m ms => exact .inr ⟨m,ms,rfl⟩
  | pushedNone final k hk | pushWritten final k acc hk =>
    rw [not_needsLock_pushed] at hr
    cases hr
  | _ => first | exact .inl rfl | cases hr

theorem step_calm (s t : Scheduler P) (l : Label) (h : s.crashed=none)
    (hg : s.uncontended l) (hs : s.step l=some t) : t.crashed=none := by
  cases step_moves hs with
  | holder hd _ hm hstep => exact (stepHolder_lowers s t hd hm hstep).crashed.trans h
  | goroutine i a g r hi hr =>
    have hsame : r.2.crashed=s.crashed := by
      rcases stepGoroutine_crashed hr with hc | ⟨hclosed,rfl,-⟩
      · exact hc
      · simp only [uncontended,decide_eq_true_eq] at hg
        omega
    exact hsame.trans h
  | closer _ hstep =>
    cases hk : s.closer <;> simp only [stepCloser,hk,reduceCtorEq] at hstep
    case woken =>
      cases hstep
      simp only [uncontended,hk,decide_true,Bool.true_and,not_eq_true',
        decide_eq_false_iff_not,Nat.not_lt,Nat.le_zero] at hg
      rw [if_pos hg]
      exact h
    all_goals
      cases hstep
      exact h
  | _ => exact h

theorem step_clear (s t : Scheduler P) (l : Label) (h : ¬ s.Blocked)
    (hg : s.uncontended l) (hs : s.step l=some t) : ¬ t.Blocked := by
  cases step_moves hs with
  | start hm ho => exact unblocked_of_past (show s.begin.mu=some (.start s.pipe.tasks) from rfl) rfl
  | lockReload i cfg hm hp =>
    rintro ⟨-,g,hmem,hn⟩
    have hno:=all_eq_true.mp hg g hmem
    rw [hn] at hno
    cases hno
  | lockStop hm hst => exact unblocked_of_free hm
  | holder hd _ hm hstep => exact fun hb => h ((stepHolder_lowers s t hd hm hstep).clear hb)
  | goroutine i a g r hi hr =>
    obtain ⟨-,-,pipe,buffer,crashed,hfr⟩ := stepGoroutine_frame hr
    rw [hfr]
    rintro ⟨⟨hd,hm,hdr⟩,x,hx,hn⟩
    rcases mem_or_eq_of_mem_set hx with hx | rfl
    · exact h ⟨⟨hd,hm,hdr⟩,x,hx,hn⟩
    · rcases needsLock_of_step hr hn with hneed | ⟨m,metrics,rfl⟩
      · exact h ⟨⟨hd,hm,hdr⟩,g,mem_of_getElem? hi,hneed⟩
      · -- a batch has come in while `Reload` drains
        simp only [uncontended,show s.mu=some hd from hm,hdr,Bool.not_true,false_eq_true] at hg
  | closer _ hstep =>
    obtain ⟨closer,closes,crashed,hfr⟩ := stepCloser_frame hstep
    rw [hfr]
    exact h
  | _ => exact h

theorem step_open (s t : Scheduler P) (l : Label) (h : s.Open) (hg : s.uncontended l)
    (hs : s.step l=some t) : t.Open :=
  ⟨step_wired s t l h.wired hs,step_calm s t l h.crashed hg hs,step_clear s t l h.clear hg hs⟩
theorem newScheduler_open : (newScheduler pipe).Open :=
  ⟨newScheduler_wired pipe,rfl,unblocked_of_free rfl⟩

/-- In uncontended runs `Reload` never waits for a goroutine that needs its mutex, and from every state
all calls can run to completion. -/
theorem reload_stop_complete (pipe : Pipeline P) (ls : List Label) (t : Scheduler P)
    (hg : guarded step uncontended (newScheduler pipe) ls=true)
    (hr : exec step (newScheduler pipe) ls=some t) : ¬ t.LockWait ∧ CanReach step Completed t := by
  have ht : t.Open := exec_invariant (fun s l u hs hl hu => step_open s u l hs hl hu)
    (newScheduler_open pipe) hg hr
  refine ⟨?_,open_completes t ht⟩
  rintro ⟨⟨cfg,hm⟩,hneed⟩
  exact ht.clear ⟨⟨_,hm,rfl⟩,hneed⟩

def reloadDuringGather : List Label :=
  [.start,.holder,.holder,.closer,.goroutine 0 .tick,.callReload cpuConfig,.lockReload 0,
    .callStop,.holder]

theorem reload_stop_complete_duringGather :
    ∃ t, exec step (newScheduler ⟨[cpuInput],[],[],[]⟩) reloadDuringGather=some t ∧
      t.mu=some (.reloadWait cpuConfig) ∧ t.live=1 ∧ t.stop=.locking ∧
      ¬ t.LockWait ∧ CanReach step Completed t :=
  ⟨_,rfl,rfl,rfl,rfl,
    reload_stop_complete ⟨[cpuInput],[],[],[]⟩ reloadDuringGather _ (by decide) rfl⟩

theorem completes_iff_duringGather : ∃ t, exec step (newScheduler ⟨[cpuInput],[],[],[]⟩) reloadDuringGather=some t ∧
    (CanReach step Completed t ↔ ¬ t.Blocked) :=
  ⟨_,rfl,completes_iff ⟨[cpuInput],[],[],[]⟩ reloadDuringGather _ rfl rfl⟩

/-- A gather has its batch when `Reload` takes the mutex: each waits for the other. -/
theorem reload_deadlocks : ∃ t, exec step (newScheduler ⟨[cpuInput],[],[],[]⟩)
        [.start,.holder,.holder,.goroutine 0 .tick,.callReload cpuConfig,
          .goroutine 0 (.gathered [cpuMetric]),.lockReload 0,.holder,.goroutine 0 .ok,
          .goroutine 0 .ok,.goroutine 0 .ok]=some t ∧
      t.crashed=none ∧ t.LockWait ∧ ¬ CanReach step Completed t := by
  refine ⟨_,rfl,rfl,⟨⟨cpuConfig,rfl⟩,_,mem_singleton_self _,rfl⟩,?_⟩
  exact blocked_stuck _ ⟨⟨.reloadWait cpuConfig,rfl,rfl⟩,_,mem_singleton_self _,rfl⟩

end Scheduler
end OpsAgent.Collector
