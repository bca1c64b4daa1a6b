import OpsAgent.Collector.Scheduler

/-!
# Nobody sends on the output channel after it is closed
-/

namespace OpsAgent.Collector
open Lib.Exec

variable {P : Plugins}

/- `runInput` and `gatherOnce`, which end with a send on the channel. -/
def Pc.gathers : Pc → Bool
  | .select => true
  | .gathering => true
  | .processing _ _ => true
  | .feeding _ _ => true
  | .writing _ _ => true
  | .locking _ => true
  | .sending _ => true
  | _ => false

theorem pushed_gathers (final : Bool) : (pushed final : Pc).gathers=false := by cases final <;> rfl

/- `Wait` will return or has returned. -/
def Closer.released : Closer → Bool
  | .woken => true
  | .closing => true
  | .exited => true
  | _ => false

namespace Scheduler

def spawnsBeforeRelease (s : Scheduler P) : Label → Bool
  | .holder => match s.mu with
    | some (.reloadSpawn (.input _::_)) => !s.closer.released
    | _ => true
  | _ => true

def ChannelSafe (s : Scheduler P) : Prop :=
  s.crashed≠some .sendOnClosedChannel ∧ s.closes≤1

structure ClosedQuietly (s : Scheduler P) : Prop where
  crashed : s.crashed≠some .sendOnClosedChannel
  closes : s.closes = if s.closer=.exited then 1 else 0
  quiet : s.closer.released → ∀ g∈s.pool, g.pc.gathers=false
  unmade : s.outCh=none → s.closer=.absent
  starting : ∀ todo, s.mu=some (.start todo) → s.closer=.absent ∧ s.outCh≠none

theorem closedQuietly_safe (s : Scheduler P) (h : s.ClosedQuietly) : s.ChannelSafe := by
  refine ⟨h.crashed,?_⟩
  rw [h.closes]
  split <;> omega

theorem quiet_of_live_zero (s : Scheduler P) (h : s.live=0) : ∀ g∈s.pool, g.pc.gathers=false := by
  intro g hg
  have hl:=List.countP_eq_zero.mp h g hg
  cases hp : g.pc <;> simp [Goroutine.live,hp] at hl
  rfl

theorem stepGoroutine_gathers {s : Scheduler P} {g : Goroutine P} {a : Answer}
    {r : Goroutine P × Scheduler P} (h : s.stepGoroutine g a=some r)
    (hg : g.pc.gathers=false) : r.1.pc.gathers=false := by
  obtain ⟨pc',t,rfl,ht⟩ := stepGoroutine_turns h
  generalize g.pc=pc at ht hg
  cases ht with
  | pushedNone final k hk | pushWritten final k acc hk => exact pushed_gathers final
  | _ => first | rfl | cases hg

variable (s t : Scheduler P)

theorem closedQuietly_of_same (h : s.ClosedQuietly)
    (hcrash : t.crashed=s.crashed) (hcloses : t.closes=s.closes) (hcloser : t.closer=s.closer)
    (hpool : t.pool=s.pool) (hout : t.outCh=s.outCh)
    (hmu : ∀ todo, t.mu=some (.start todo) → s.mu=some (.start todo)) : t.ClosedQuietly := by
  refine ⟨?_,?_,?_,?_,?_⟩
  · rw [hcrash]
    exact h.crashed
  · rw [hcloses,hcloser]
    exact h.closes
  · rw [hcloser,hpool]
    exact h.quiet
  · rw [hout,hcloser]
    exact h.unmade
  · intro todo hm
    rw [hcloser,hout]
    exact h.starting todo (hmu todo hm)

theorem spawn_quiet (s : Scheduler P) (t : Task P) (h : s.ClosedQuietly)
    (hr : t.entry.gathers → s.closer.released=false) :
    s.closer.released → ∀ g∈(s.spawn t).pool, g.pc.gathers=false := by
  intro hrel g hg
  rcases List.mem_append.mp hg with hg | hg
  · exact h.quiet hrel g hg
  · rw [List.mem_singleton.mp hg]
    refine Bool.eq_false_iff.mpr fun he => ?_
    rw [hr he] at hrel
    cases hrel

theorem stepHolder_closedQuietly (hd : Holder P) (hm : s.mu=some hd)
    (h : s.ClosedQuietly) (hg : s.spawnsBeforeRelease .holder)
    (hs : s.stepHolder hd=some t) : t.ClosedQuietly := by
  cases stepHolder_proceeds hs with
  | started =>
    obtain ⟨ha,hout⟩ := h.starting [] hm
    have hc:=h.closes
    rw [ha] at hc
    exact ⟨h.crashed,hc,nofun,fun ho => absurd ho hout,nofun⟩
  | startSpawn task todo =>
    obtain ⟨ha,hout⟩ := h.starting (task::todo) hm
    refine ⟨h.crashed,h.closes,spawn_quiet s task h ?_,h.unmade,fun _ _ => ⟨ha,hout⟩⟩
    intro _
    rw [ha]
    rfl
  | spawn task todo =>
    refine ⟨h.crashed,h.closes,spawn_quiet s task h ?_,h.unmade,nofun⟩
    intro he
    cases task with
    | input si =>
      simp only [spawnsBeforeRelease,hm,Bool.not_eq_true'] at hg
      exact hg
    | aggregatorPush => cases he
  | _ => exact closedQuietly_of_same s _ h rfl rfl rfl rfl rfl nofun

theorem stepGoroutine_closedQuietly (s : Scheduler P) (i : Nat) (g : Goroutine P) (a : Answer)
    (r : Goroutine P × Scheduler P) (hi : s.pool[i]?=some g) (h : s.ClosedQuietly)
    (hs : s.stepGoroutine g a=some r) : ({r.2 with pool := r.2.pool.set i r.1}.wake).ClosedQuietly := by
  obtain ⟨-,-,pipe,buffer,crashed,hr⟩ := stepGoroutine_frame hs
  have hmem : g∈s.pool := List.mem_of_getElem? hi
  have hcr : r.2.crashed≠some .sendOnClosedChannel := by
    rcases stepGoroutine_crashed hs with hc | ⟨hclosed,-,metrics,hp⟩
    · rw [hc]
      exact h.crashed
    · -- the channel is closed, so the closer is through and this is no input
      have hex : s.closer=.exited := by
        by_contra hne
        rw [h.closes,if_neg hne] at hclosed
        exact absurd hclosed (Nat.lt_irrefl 0)
      have hq:=h.quiet (by rw [hex]; rfl) g hmem
      rw [hp] at hq
      cases hq
  rw [hr] at hcr ⊢
  have hquiet : s.closer.released → ∀ x∈s.pool.set i r.1, x.pc.gathers=false := by
    intro hrel x hx
    rcases List.mem_or_eq_of_mem_set hx with hx | rfl
    · exact h.quiet hrel x hx
    · exact stepGoroutine_gathers hs (h.quiet hrel g hmem)
  unfold wake
  split
  next hw =>
    have hc:=h.closes
    rw [show s.closer=.waiting from hw.1] at hc
    refine ⟨hcr,hc,fun _ => quiet_of_live_zero _ hw.2,?_,?_⟩
    · intro ho
      have ha:=h.unmade ho
      rw [show s.closer=.waiting from hw.1] at ha
      cases ha
    · intro todo hm
      have ha:=(h.starting todo hm).1
      rw [show s.closer=.waiting from hw.1] at ha
      cases ha
  next => exact ⟨hcr,h.closes,hquiet,h.unmade,h.starting⟩

theorem stepCloser_closedQuietly (h : s.ClosedQuietly)
    (hs : s.stepCloser=some t) : t.ClosedQuietly := by
  have hpast : s.closer ≠ .absent → s.outCh≠none ∧ ∀ todo, s.mu≠some (.start todo) := by
    intro hne
    exact ⟨fun ho => hne (h.unmade ho),fun todo hm => hne (h.starting todo hm).1⟩
  have hc:=h.closes
  cases hk : s.closer <;> simp only [stepCloser,hk,reduceCtorEq] at hs <;> rw [hk] at hc
  case enter =>
    obtain ⟨ho,hm⟩ := hpast (by rw [hk]; nofun)
    cases hs
    by_cases hl : s.live=0
    · simp only [hl,if_true]
      exact ⟨h.crashed,hc,fun _ => quiet_of_live_zero s hl,fun he => absurd he ho,
        fun todo he => absurd he (hm todo)⟩
    · simp only [hl,if_false]
      exact ⟨h.crashed,hc,nofun,fun he => absurd he ho,fun todo he => absurd he (hm todo)⟩
  case woken =>
    obtain ⟨ho,hm⟩ := hpast (by rw [hk]; nofun)
    cases hs
    split
    next hl =>
      exact ⟨h.crashed,hc,fun _ => quiet_of_live_zero s hl,fun he => absurd he ho,
        fun todo he => absurd he (hm todo)⟩
    next => exact ⟨nofun,hc,fun _ => h.quiet (by rw [hk]; rfl),fun he => absurd he ho,
        fun todo he => absurd he (hm todo)⟩
  case closing =>
    obtain ⟨ho,hm⟩ := hpast (by rw [hk]; nofun)
    cases hs
    refine ⟨h.crashed,?_,fun _ => h.quiet (by rw [hk]; rfl),fun he => absurd he ho,
      fun todo he => absurd he (hm todo)⟩
    dsimp only
    rw [hc]
    rfl

theorem step_closedQuietly (l : Label) (h : s.ClosedQuietly)
    (hg : s.spawnsBeforeRelease l) (hs : s.step l=some t) : t.ClosedQuietly := by
  cases step_moves hs with
  | start hm ho =>
    have ha:=h.unmade ho
    exact ⟨h.crashed,h.closes,h.quiet,nofun,fun _ _ => ⟨ha,nofun⟩⟩
  | lockReload i cfg hm hp => exact closedQuietly_of_same s _ h rfl rfl rfl rfl rfl nofun
  | holder hd _ hm hstep => exact stepHolder_closedQuietly s t hd hm h hg hstep
  | goroutine i a g r hi hr => exact stepGoroutine_closedQuietly s i g a r hi h hr
  | closer _ hstep => exact stepCloser_closedQuietly s t h hstep
  | _ => exact closedQuietly_of_same s _ h rfl rfl rfl rfl rfl fun _ hm => hm

theorem newScheduler_closedQuietly (pipe : Pipeline P) : (newScheduler pipe).ClosedQuietly :=
  ⟨nofun,rfl,nofun,fun _ => rfl,nofun⟩

/-- If no `Reload` starts an input after the closer has been released, no goroutine sends on the closed
channel, which is closed at most once. -/
theorem no_send_after_close (pipe : Pipeline P) (ls : List Label) (t : Scheduler P)
    (hg : guarded step spawnsBeforeRelease (newScheduler pipe) ls=true)
    (hr : exec step (newScheduler pipe) ls=some t) : t.ChannelSafe :=
  closedQuietly_safe t (exec_invariant (fun s l u hs hl hu => step_closedQuietly s u l hs hl hu)
    (newScheduler_closedQuietly pipe) hg hr)

def reloadFirst : List Label :=
  [.start,.holder,.holder,.callReload cpuConfig,.lockReload 0,.holder,.goroutine 0 .ctxDone,
    .holder,.holder,.holder,.holder,.holder,.closer,.goroutine 1 .tick,
    .goroutine 1 (.gathered [cpuMetric]),.goroutine 1 .ok,.goroutine 1 .ok,.goroutine 1 .ok,
    .goroutine 1 .ok,.goroutine 1 .send,.callStop,.lockStop,.goroutine 1 .ctxDone,.waitStop,
    .closer,.closer]

theorem no_send_after_close_reloadFirst :
    ∃ t, exec step (newScheduler ⟨[cpuInput],[],[],[]⟩) reloadFirst=some t ∧
      t.closes=1 ∧ t.ChannelSafe :=
  ⟨_,rfl,rfl,no_send_after_close ⟨[cpuInput],[],[],[]⟩ reloadFirst _ (by decide) rfl⟩

/-- `Reload` drains the goroutines and lets the closer through; the input that it starts sends. -/
theorem reload_sends_on_closed_channel :
    ¬ ∀ (pipe : Pipeline smallPlugins) (ls : List Label) (t : Scheduler smallPlugins),
      exec step (newScheduler pipe) ls=some t → t.ChannelSafe := by
  intro h
  have ht:=h ⟨[cpuInput],[],[],[]⟩
    [.start,.holder,.holder,.closer,.callReload cpuConfig,.lockReload 0,.holder,
      .goroutine 0 .ctxDone,.holder,.closer,.closer,.holder,.holder,.holder,.holder,
      .goroutine 1 .tick,.goroutine 1 (.gathered [cpuMetric]),.goroutine 1 .ok,.goroutine 1 .ok,
      .goroutine 1 .ok,.goroutine 1 .ok,.goroutine 1 .send] _ rfl
  exact ht.1 rfl

end Scheduler
end OpsAgent.Collector
