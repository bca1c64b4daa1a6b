import OpsAgent.Collector.Scheduler

/-!
# What a failed `Reload` leaves behind
-/

namespace OpsAgent.Collector
open Lib.Exec List

variable {P : Plugins} (pipe : Pipeline P) (k : Nat)

def Pipeline.resetUpTo (pipe : Pipeline P) (k : Nat) : Pipeline P :=
  {pipe with aggregators := (pipe.aggregators.take k).map P.reset++pipe.aggregators.drop k}

theorem modify_resetUpTo {α : Type*} (f : α → α) (xs : List α) (k : Nat) (hk : k<xs.length) :
    ((xs.take k).map f++xs.drop k).modify k f=(xs.take (k+1)).map f++xs.drop (k+1) := by
  induction xs generalizing k with
  | nil => cases hk
  | cons x xs ih =>
    cases k with
    | zero => rfl
    | succ k =>
      have htail:=ih k (Nat.lt_of_succ_lt_succ hk)
      simpa only [take_succ_cons,drop_succ_cons,map_cons,cons_append,
        modify_succ_cons,cons.injEq,true_and] using htail

theorem resetUpTo_length : (pipe.resetUpTo k).aggregators.length=pipe.aggregators.length := by
  simp only [Pipeline.resetUpTo,length_append,length_map,length_take,length_drop]
  omega

theorem resetUpTo_all (hk : pipe.aggregators.length≤k) :
    pipe.resetUpTo k = {pipe with aggregators := pipe.aggregators.map P.reset} := by
  simp only [Pipeline.resetUpTo,take_of_length_le hk,drop_of_length_le hk,append_nil]

namespace Scheduler

def liveTasks (s : Scheduler P) : List (Task P) := (s.pool.filter Goroutine.live).map (·.task)
def Kept (s t : Scheduler P) : Prop := t.pipe=s.pipe ∧ t.liveTasks=s.liveTasks

theorem liveTasks_eq_nil (s : Scheduler P) : s.liveTasks=[] ↔ s.live=0 := by simp [liveTasks,live]

/- Where a call of `Reload` with `cfg` that took the mutex in `s` stands, and what
holds of the goroutines and the pipeline there. -/
def CallStage (s : Scheduler P) (cfg : ReloadConfig) (live : Nat) (pipe : Pipeline P) :
    Option (Holder P) → Prop
  | some (.reloadCancel c) => c=cfg ∧ (s.live=0 → live=0 ∧ pipe=s.pipe)
  | some (.reloadWait c) => c=cfg ∧ (s.live=0 → live=0 ∧ pipe=s.pipe)
  | some (.reloadPush c k) => c=cfg ∧ live=0 ∧ (s.live=0 → pipe=s.pipe.resetUpTo k)
  | some (.reloadReset c k) => c=cfg ∧ live=0 ∧ k<pipe.aggregators.length ∧
      (s.live=0 → pipe=s.pipe.resetUpTo k)
  | some (.reloadBuild c) => c=cfg ∧ live=0 ∧ (s.live=0 →
      pipe = {s.pipe with aggregators := s.pipe.aggregators.map P.reset})
  | some (.reloadSpawn _) => cfg.Valid P
  | _ => False

def InCall (s : Scheduler P) (cfg : ReloadConfig) (x : Scheduler P) : Prop :=
  x.results=s.results ∧ CallStage s cfg x.live x.pipe x.mu
def Returned (s : Scheduler P) (cfg : ReloadConfig) (y : Scheduler P) : Prop :=
  (y.results=s.results++[none] ∧ cfg.Valid P) ∨
  ∃ err, y.results=s.results++[some err] ∧ ¬ cfg.Valid P ∧ y.live=0 ∧
    (s.live=0 → y.pipe = {s.pipe with aggregators := s.pipe.aggregators.map P.reset})

variable (s x y : Scheduler P) (cfg : ReloadConfig)

theorem stepHolder_inCall (hd : Holder P)
    (hm : x.mu=some hd) (h : InCall s cfg x) (hs : x.stepHolder hd=some y) :
    InCall s cfg y ∨ Returned s cfg y := by
  obtain ⟨hres,hst⟩ := h
  rw [hm] at hst
  cases stepHolder_proceeds hs with
  | startSpawn task todo | started => exact hst.elim
  | cancel c | spawn task todo => exact .inl ⟨hres,hst⟩
  | waited c hl => exact .inl ⟨hres,hst.1,hl,fun h0 => (hst.2 h0).2⟩
  | push c k hk =>
    obtain ⟨hc,hl,hp⟩ := hst
    exact .inl ⟨hres,hc,hl,hk,hp⟩
  | pushedAll c k hk =>
    obtain ⟨hc,hl,hp⟩ := hst
    refine .inl ⟨hres,hc,hl,fun h0 => ?_⟩
    have hpipe:=hp h0
    rw [hpipe,resetUpTo_length] at hk
    exact hpipe.trans (resetUpTo_all s.pipe k hk)
  | reset c k =>
    obtain ⟨hc,hl,hk,hp⟩ := hst
    refine .inl ⟨hres,hc,hl,fun h0 => ?_⟩
    have hpipe:=hp h0
    rw [hpipe,resetUpTo_length] at hk
    dsimp only
    rw [hpipe]
    simp only [Pipeline.resetUpTo,modify_resetUpTo P.reset s.pipe.aggregators k hk]
  | refuse c err hb =>
    obtain ⟨rfl,hl,hp⟩ := hst
    have hinv : ¬ c.Valid P := by
      intro hv
      obtain ⟨pipe,hpipe⟩ := (rebuild_ok_iff P x.interval c).mpr hv
      cases hb.symm.trans hpipe
    exact .inr (.inr ⟨err,congrArg (· ++ [some err]) hres,hinv,hl,hp⟩)
  | restart c pipe hb hrun =>
    obtain ⟨rfl,-,-⟩ := hst
    exact .inl ⟨hres,(rebuild_ok_iff P x.interval c).mp ⟨pipe,hb⟩⟩
  | replace c pipe hb hrun =>
    obtain ⟨rfl,-,-⟩ := hst
    exact .inr (.inl ⟨congrArg (· ++ [none]) hres,(rebuild_ok_iff P x.interval c).mp ⟨pipe,hb⟩⟩)
  | restarted => exact .inr (.inl ⟨congrArg (· ++ [none]) hres,hst⟩)

theorem inCall_of_same (h : InCall s cfg x)
    (hmu : y.mu=x.mu) (hres : y.results=x.results) (hpool : y.pool=x.pool)
    (hpipe : y.pipe=x.pipe) : InCall s cfg y := by
  have hlive : y.live=x.live := congrArg (countP Goroutine.live) hpool
  unfold InCall
  rw [hres,hmu,hlive,hpipe]
  exact h

/- Goroutines move only up to the point where `Reload` has waited for them. -/
theorem goroutine_inCall (s x : Scheduler P) (cfg : ReloadConfig) (h : InCall s cfg x) (i : Nat)
    (g : Goroutine P) (a : Answer) (r : Goroutine P × Scheduler P) (hi : x.pool[i]?=some g)
    (hr : x.stepGoroutine g a=some r) : InCall s cfg {r.2 with pool := r.2.pool.set i r.1}.wake := by
  obtain ⟨-,-,pipe,buffer,crashed,hfr⟩ := stepGoroutine_frame hr
  have hlive:=live_pos hi (goroutine_not_finished hr)
  obtain ⟨hres,hst⟩ := h
  rw [hfr]
  refine ⟨hres,?_⟩
  change CallStage s cfg _ _ x.mu
  cases hm : x.mu with
  | none =>
    rw [hm] at hst
    exact hst
  | some hd =>
    rw [hm] at hst
    cases hd with
    | reloadCancel c | reloadWait c =>
      exact ⟨hst.1,fun h0 => absurd (hst.2 h0).1 (Nat.pos_iff_ne_zero.mp hlive)⟩
    | reloadSpawn todo | start todo => exact hst
    | _ => exact absurd hst.2.1 (Nat.pos_iff_ne_zero.mp hlive)

theorem inCall_held {s x : Scheduler P} {cfg : ReloadConfig} (h : InCall s cfg x) : x.mu≠none := by
  intro hm
  have hst:=h.2
  rw [hm] at hst
  exact hst

theorem step_inCall (l : Label) (h : InCall s cfg x)
    (hs : x.step l=some y) : InCall s cfg y ∨ Returned s cfg y := by
  have hheld:=inCall_held h
  cases step_moves hs with
  | start hm ho | lockReload i c hm hp | lockStop hm hst => exact absurd hm hheld
  | holder hd _ hm hstep => exact stepHolder_inCall s x y cfg hd hm h hstep
  | goroutine i a g r hi hr => exact .inl (goroutine_inCall s x cfg h i g a r hi hr)
  | closer _ hstep =>
    obtain ⟨closer,closes,crashed,hfr⟩ := stepCloser_frame hstep
    rw [hfr]
    exact .inl (inCall_of_same s x _ cfg h rfl rfl rfl rfl)
  | _ => exact .inl (inCall_of_same s x _ cfg h rfl rfl rfl rfl)

theorem stepHolder_results (s t : Scheduler P) (hd : Holder P) (h : s.stepHolder hd=some t) :
    s.results.length≤t.results.length := by
  have hret : ∀ (x : Scheduler P) r, x.results.length≤(x.returnReload r).results.length := by
    intro x r
    simp only [returnReload,length_append]
    omega
  cases stepHolder_proceeds h with
  | refuse cfg err hb | restarted => exact hret s _
  | replace cfg pipe hb hrun => exact hret _ _
  | _ => exact Nat.le_refl _

theorem step_results (s t : Scheduler P) (l : Label) (h : s.step l=some t) :
    s.results.length≤t.results.length := by
  cases step_moves h with
  | holder hd _ hm hstep => exact stepHolder_results s t hd hstep
  | goroutine i a g r hi hr =>
    obtain ⟨-,-,pipe,buffer,crashed,hfr⟩ := stepGoroutine_frame hr
    rw [hfr]
    exact Nat.le_refl _
  | closer _ hstep =>
    obtain ⟨closer,closes,crashed,hfr⟩ := stepCloser_frame hstep
    rw [hfr]
  | _ => exact Nat.le_refl _

theorem returned_results (s y : Scheduler P) (cfg : ReloadConfig) (h : Returned s cfg y) :
    s.results.length<y.results.length := by
  rcases h with ⟨hy,-⟩ | ⟨err,hy,-⟩ <;>
    rw [hy,length_append,length_singleton] <;> omega

theorem exec_inCall (s x u : Scheduler P) (cfg : ReloadConfig) (ls : List Label)
    (h : InCall s cfg x) (hr : exec step x ls=some u) (hres : u.results=s.results) : InCall s cfg u := by
  have hinv : InCall s cfg u ∨ s.results.length<u.results.length := by
    refine exec_stable (I := fun y => InCall s cfg y ∨ s.results.length<y.results.length) ?_
      (.inl h) hr
    intro y l z hy hstep
    rcases hy with hy | hy
    · rcases step_inCall s y z cfg l hy hstep with hz | hz
      · exact .inl hz
      · exact .inr (returned_results s z cfg hz)
    · exact .inr (Nat.lt_of_lt_of_le hy (step_results y z l hstep))
  rcases hinv with hin | hlt
  · exact hin
  · rw [hres] at hlt
    exact absurd hlt (Nat.lt_irrefl _)

theorem lockReload_inCall (s x : Scheduler P) (i : Nat) (cfg : ReloadConfig)
    (hp : s.pending[i]?=some cfg) (h : s.step (.lockReload i)=some x) : InCall s cfg x := by
  cases step_moves h with
  | lockReload _ c hm hc =>
    have he : c=cfg := Option.some.inj (hc.symm.trans hp)
    exact ⟨rfl,he,fun h0 => ⟨h0,rfl⟩⟩

theorem map_reset_iff (pipe : Pipeline P) :
    ({pipe with aggregators := pipe.aggregators.map P.reset} : Pipeline P)=pipe ↔
      ∀ agg∈pipe.aggregators, P.reset agg=agg := by
  have hid : pipe.aggregators.map P.reset=pipe.aggregators ↔
      ∀ agg∈pipe.aggregators, P.reset agg=agg := by
    conv_lhs => rhs; rw [← map_id pipe.aggregators]
    exact map_inj_left
  rw [← hid]
  constructor
  · intro h
    exact congrArg Pipeline.aggregators h
  · intro h
    rw [h]

/-- A call of `Reload` stops the goroutines and resets the aggregators before it can fail: an error leaves the
pipeline as it was only if nothing ran and there was nothing to reset. -/
theorem reload_error_keeps_pipeline_iff (s x u t : Scheduler P) (i : Nat) (cfg : ReloadConfig)
    (ls : List Label) (result : Option String) (hp : s.pending[i]?=some cfg)
    (hlock : s.step (.lockReload i)=some x) (hrun : exec step x ls=some u)
    (hopen : u.results=s.results) (hlast : u.step .holder=some t)
    (hresult : t.results=s.results++[result]) : (∀ err, result=some err → Kept s t) ↔
      (cfg.Valid P ∨ (s.live=0 ∧ ∀ agg∈s.pipe.aggregators, P.reset agg=agg)) := by
  have hin:=exec_inCall s x u cfg ls (lockReload_inCall s x i cfg hp hlock) hrun hopen
  have hret : Returned s cfg t := by
    rcases step_inCall s u t cfg .holder hin hlast with h | h
    · have hlen:=congrArg length (hresult.symm.trans h.1)
      rw [length_append,length_singleton] at hlen
      omega
    · exact h
  rcases hret with ⟨hres,hv⟩ | ⟨err,hres,hv,hl,hpipe⟩
  · rw [hresult] at hres
    have hnone : result=none := singleton_inj.mp (append_cancel_left hres)
    refine ⟨fun _ => .inl hv,fun _ err he => ?_⟩
    cases hnone.symm.trans he
  · rw [hresult] at hres
    have hsome : result=some err := singleton_inj.mp (append_cancel_left hres)
    have htasks : t.liveTasks=[] := (liveTasks_eq_nil t).mpr hl
    constructor
    · intro h
      obtain ⟨hkp,hkt⟩ := h err hsome
      have h0 : s.live=0 := (liveTasks_eq_nil s).mp (hkt.symm.trans htasks)
      exact .inr ⟨h0,(map_reset_iff s.pipe).mp ((hpipe h0).symm.trans hkp)⟩
    · rintro (hc | ⟨h0,hfix⟩) err' -
      · exact absurd hc hv
      · refine ⟨(hpipe h0).trans ((map_reset_iff s.pipe).mpr hfix),?_⟩
        rw [htasks,(liveTasks_eq_nil s).mpr h0]

def unknownInput : ReloadConfig := ⟨[⟨"gpu",none⟩],[],[],[]⟩
def unstarted : Scheduler smallPlugins :=
  {newScheduler ⟨[cpuInput],[],[],[]⟩ with pending := [unknownInput]}

/- Before `Start` there is nothing to disturb. -/
theorem reload_error_keeps_unstarted :
    ∃ x u t : Scheduler smallPlugins, unstarted.step (.lockReload 0)=some x ∧
      exec step x [.holder,.holder,.holder]=some u ∧ u.step .holder=some t ∧
      t.results=[some "unknown input type: \"gpu\""] ∧ Kept unstarted t :=
  ⟨_,_,_,rfl,rfl,rfl,rfl,
    (reload_error_keeps_pipeline_iff unstarted _ _ _ 0 unknownInput [.holder,.holder,.holder]
      _ rfl rfl rfl rfl rfl rfl).mpr (.inr ⟨rfl,nofun⟩) _ rfl⟩

theorem reload_error_stops_inputs : ¬ ∀ (pipe : Pipeline smallPlugins) (pre ls : List Label)
      (s x u t : Scheduler smallPlugins) (i : Nat) (err : String),
      exec step (newScheduler pipe) pre=some s → s.running=true →
      s.step (.lockReload i)=some x → exec step x ls=some u → u.results=s.results →
      u.step .holder=some t → t.results=s.results++[some err] → Kept s t := by
  intro h
  have hk:=h ⟨[cpuInput],[],[],[]⟩ [.start,.holder,.holder,.callReload unknownInput]
    [.holder,.goroutine 0 .ctxDone,.holder,.holder] _ _ _ _ 0 "unknown input type: \"gpu\""
    rfl rfl rfl rfl rfl rfl rfl
  exact absurd hk.2 nofun

end Scheduler
end OpsAgent.Collector
