import Mathlib.Data.List.Nodup
import OpsAgent.GrpcClient.MetricLedger

/-!
# What `FlushAndStop` sends
-/

namespace OpsAgent.GrpcClient
open Lib.Exec Lib.Pool List

variable {α : Type}

def LoopPc.started : LoopPc α → Bool
  | .notStarted => false
  | _ => true

namespace Client

/-- `Send` does not succeed on a stream whose context is cancelled; every stream has the context
of `connectLoop`. -/
def sendNeedsContext (s : Client α) : Label α → Bool
  | .loop .ok => match s.loop with
    | .register _ _ => !s.cancelled
    | .replaySend _ _ _ => !s.cancelled
    | _ => true
  | .call i .ok => match s.calls[i]? with
    | some (.sendBatch _ _) => !s.cancelled
    | some (.sendMessage _) => !s.cancelled
    | some (.flushSend _ _ _) => !s.cancelled
    | _ => true
  | _ => true

variable [Inhabited α] {s t : Client α}
  {a : Answer} {encodable : α → Bool} {c : Call α} {d : Call α}

section Count
variable [DecidableEq α]

/-- The loop, the goroutines `cs`, the stream, the cache and a hand with `q` in it have together
no more of a metric than was given to `SendMetrics`. -/
def Within (s : Client α) (q : List α) (cs : List (Call α)) : Prop :=
  ∀ x, q.count x+s.loop.held.count x+(cs.flatMap Call.held).count x+s.sent.count x +
    s.cache.contents.count x+s.evicted.count x ≤ s.submitted.count x

variable {s : Client α} {a : Answer} {c : Call α} {q : List α} {r : Call α × Client α} (x : α)

theorem stepLoop_count_le {t : Client α} (hv : s.CacheValid) (h : s.stepLoop a=some t) :
    t.loop.held.count x+t.settled.count x ≤ s.loop.held.count x+s.settled.count x := by
  by_cases hlost : ∃ site metrics, s.loop=.replayStream site metrics ∧ s.stream=none
  · obtain ⟨site,metrics,hl,hs⟩ := hlost
    have ht:=stepLoop_turns h
    rw [hl] at ht
    cases ht with
    | replayLost _ _ _ =>
      rw [connectReturned_held]
      exact Nat.add_le_add_right (Nat.zero_le _) _
    | replayStarted _ _ stream hsome =>
      cases hs.symm.trans hsome
  · have hg : ∀ site metrics, s.loop=.replayStream site metrics → s.stream≠none :=
      fun site metrics hl hs => hlost ⟨site,metrics,hl,hs⟩
    exact (stepLoop_count s t a x hv hg h).le

theorem stepCall_count_le {encodable : α → Bool} (hv : s.CacheValid) (h : s.stepCall encodable c a=some r) :
    r.1.held.count x+r.2.settled.count x≤c.held.count x+s.settled.count x := by
  by_cases hc : ∃ path metrics, c=.flushPersist path metrics
  · obtain ⟨path,metrics,rfl⟩ := hc
    obtain ⟨hclose,hsame | hsame⟩ := stepCall_persist encodable s a h <;>
      (rw [hclose,hsame]; exact Nat.add_le_add_right (Nat.zero_le _) _)
  · have hc' : ∀ path metrics, c ≠ .flushPersist path metrics :=
      fun path metrics he => hc ⟨path,metrics,he⟩
    exact (stepCall_count encodable s c a r x hv hc' h).1.le

variable {cs : List (Call α)}

theorem within_loop {t : Client α}
    (hv : s.CacheValid) (hw : s.Within q cs) (h : s.stepLoop a=some t) : t.Within q cs := by
  intro x
  have hx:=hw x
  have hstep:=stepLoop_count_le x hv h
  have hsub:=(stepLoop_frame s t a h).2.1
  simp only [settled,count_append] at hstep
  rw [hsub]
  omega

theorem within_call {encodable : α → Bool} {i : Nat} (hv : s.CacheValid)
    (hw : s.Within q cs) (hi : cs[i]?=some c) (h : s.stepCall encodable c a=some r) :
    r.2.Within q (cs.set i r.1) := by
  intro x
  have hx:=hw x
  have hstep:=stepCall_count_le x hv h
  have hset:=count_flatMap_set Call.held r.1 hi x
  obtain ⟨_,hloop,hsub,_⟩ := stepCall_frame encodable s c a r h
  simp only [settled,count_append] at hstep
  rw [hloop,hsub]
  omega

theorem within_enter (hw : s.Within q cs)
    (c : Call α) : Within {s with submitted := s.submitted++c.held} q (cs++[c]) := by
  intro x
  have hx:=hw x
  simp only [flatMap_append,flatMap_singleton,count_append]
  omega

theorem within_enter_empty (hw : s.Within q cs) (hc : c.held=[]) : s.Within q (cs++[c]) := by
  have henter:=within_enter hw c
  rwa [hc,append_nil] at henter

end Count

def flushPlace (q : List α) (cancelled : Bool) : Call α → Prop
  | .flushCancel _ metrics => metrics=q
  | .flushStream _ metrics => metrics=q ∧ cancelled
  | .flushSend _ _ metrics => metrics=q ∧ cancelled
  | .flushPersist _ metrics => metrics=q
  | .flushClose => True
  | .flushWait => True
  | .done => True
  | _ => False

structure Frame (s t : Client α) : Prop where
  loop : t.loop=s.loop
  calls : t.calls=s.calls
  sent : t.sent=s.sent
  cache : t.cache=s.cache
  evicted : t.evicted=s.evicted
  submitted : t.submitted=s.submitted

omit [Inhabited α] in
theorem cancel_cancelled (h : s.loop.started) : s.cancel.cancelled := by
  unfold cancel
  generalize s.loop=pc at h
  cases pc <;> first | rfl | cases h

theorem turn_flushPlace {q : List α} (h : CallTurns encodable s c a d t) (hc : flushPlace q s.cancelled c)
    (hstarted : s.loop.started)
    (hsend : ∀ path stream metrics, c=.flushSend path stream metrics → a=.ok → s.cancelled=false) :
    flushPlace q t.cancelled d ∧ Frame s t := by
  cases h
  case flushNothing => exact ⟨trivial,⟨rfl,rfl,rfl,rfl,rfl,rfl⟩⟩
  case flushCancelled path m metrics =>
    exact ⟨⟨hc,cancel_cancelled hstarted⟩,⟨rfl,rfl,rfl,rfl,rfl,rfl⟩⟩
  case flushStarted => exact ⟨hc,⟨rfl,rfl,rfl,rfl,rfl,rfl⟩⟩
  case flushOffline | flushFailed | flushTimedOut => exact ⟨hc.1,⟨rfl,rfl,rfl,rfl,rfl,rfl⟩⟩
  case flushedLast path stream metrics _ | flushedBatch path stream metrics _ =>
    have hoff:=hsend path stream metrics rfl rfl
    cases hc.2.symm.trans hoff
  case persisted | unpersisted | persistFailed | flushClosed | flushWaited =>
    exact ⟨trivial,⟨rfl,rfl,rfl,rfl,rfl,rfl⟩⟩
  all_goals cases hc

theorem stepLoop_running (h : s.stepLoop a=some t) : t.loop.started ∧ t.cancelled=s.cancelled := by
  have ht:=stepLoop_turns h
  generalize s.loop=pc at ht
  cases ht
  case dialFailed site | openFailed site _ | registerFailed site _ | recachedAll site |
      drainedNone site _ | replayLost site _ _ | replayedLast site _ _ _ =>
    cases site <;> exact ⟨rfl,rfl⟩
  case wasDown close _ | notifiedDown close => cases close <;> exact ⟨rfl,rfl⟩
  all_goals exact ⟨rfl,rfl⟩

theorem turn_running (h : CallTurns encodable s c a d t) : t.loop=s.loop ∧ (s.cancelled → t.cancelled) ∧
      (t.stream≠none → s.stream≠none) := by
  cases h
  case stopCancelled | flushNothing | flushCancelled =>
    refine ⟨rfl,fun hc => ?_,id⟩
    unfold cancel
    cases s.loop <;> first | exact hc | rfl
  case stopClosed | flushClosed => exact ⟨rfl,id,fun hn => absurd rfl hn⟩
  all_goals exact ⟨rfl,id,id⟩

section Runs
variable [DecidableEq α]

structure Counted (s : Client α) : Prop where
  valid : s.CacheValid
  within : s.Within [] s.calls
  started : s.stream≠none → s.loop.started

structure Flushing (q : List α) (k : Nat) (s : Client α) : Prop where
  valid : s.CacheValid
  started : s.loop.started
  within : s.Within q (s.calls.set k .done)
  place : ∃ c, s.calls[k]?=some c ∧ flushPlace q s.cancelled c

variable {q : List α} {l : Label α} {k : Nat}

omit [Inhabited α] [DecidableEq α] in
theorem flushPlace_mono {v w : Bool} {c : Call α} (h : flushPlace q v c)
    (hw : v → w) : flushPlace q w c := by cases c <;> first | exact h | exact ⟨h.1,hw h.2⟩

variable {encodable : α → Bool} {s t : Client α}

omit [DecidableEq α] in
theorem step_valid (hv : s.CacheValid) (h : s.step encodable l=some t) : t.CacheValid := by
  cases l with
  | start =>
    obtain ⟨_,rfl⟩ := step_start h
    exact hv
  | loop a => exact cacheMove_valid s t (stepLoop_frame s t a h).2.2.2 hv
  | call i a =>
    obtain ⟨c,r,_,hc,rfl⟩ := step_call h
    exact cacheMove_valid s r.2 (stepCall_frame encodable s c a r hc).2.2.2 hv
  | _ =>
    cases h
    exact hv

theorem step_counted (hs : s.Counted) (h : s.step encodable l=some t) : t.Counted := by
  have hvalid:=step_valid hs.valid h
  cases l with
  | start =>
    obtain ⟨hl,rfl⟩ := step_start h
    have hw:=hs.within
    simp only [Within,hl] at hw
    exact ⟨hvalid,hw,fun _ => rfl⟩
  | parentDone =>
    cases h
    exact ⟨hvalid,hs.within,hs.started⟩
  | enterSendMetrics metrics =>
    cases h
    exact ⟨hvalid,within_enter hs.within (.sendMetrics metrics),hs.started⟩
  | enterSendOther | enterStop | enterFlushAndStop path =>
    cases h
    exact ⟨hvalid,within_enter_empty hs.within rfl,hs.started⟩
  | loop a =>
    have hw:=within_loop hs.valid hs.within h
    rw [← (stepLoop_frame s t a h).1] at hw
    exact ⟨hvalid,hw,fun _ => (stepLoop_running h).1⟩
  | call i a =>
    obtain ⟨c,r,hi,hc,rfl⟩ := step_call h
    have hw:=within_call hs.valid hs.within hi hc
    rw [← (stepCall_frame encodable s c a r hc).1] at hw
    refine ⟨hvalid,hw,?_⟩
    intro hstream
    obtain ⟨hl,_,hst⟩ := turn_running (stepCall_turns hc)
    show r.2.loop.started
    rw [hl]
    exact hs.started (hst hstream)

theorem newClient_counted (cacheMaxSize : Int) (cb : Bool) :
    (newClient cacheMaxSize cb : Client α).Counted := by
  have hledger:=newClient_ledger (α := α) cacheMaxSize cb
  refine ⟨hledger.valid,?_,fun hn => absurd rfl hn⟩
  intro x
  have hx:=hledger.conserved.count_eq x
  simp only [inProgress,settled,count_append] at hx
  rw [count_nil]
  omega

omit [Inhabited α] [DecidableEq α] in
theorem set_push {cs : List (Call α)} {c d : Call α} (hk : cs[k]?=some c) :
    (cs++[d]).set k .done=cs.set k .done++[d] ∧ (cs++[d])[k]?=some c := by
  obtain ⟨hlt,_⟩ := List.getElem?_eq_some_iff.mp hk
  exact ⟨set_append_left k _ hlt,by rw [getElem?_append_left hlt,hk]⟩

theorem enter_flushing (hs : s.Flushing q k) (c : Call α) :
    Flushing q k {s.enter c with submitted := s.submitted++c.held} := by
  obtain ⟨d,hk,hplace⟩ := hs.place
  obtain ⟨hset,hget⟩ := set_push (d := c) hk
  refine ⟨hs.valid,hs.started,?_,d,hget,hplace⟩
  show Within _ q ((s.calls++[c]).set k .done)
  rw [hset]
  exact within_enter hs.within c

theorem call_flushing {i : Nat} {a : Answer} (hs : s.Flushing q k) (hg : s.sendNeedsContext (.call i a))
    (h : s.step encodable (.call i a)=some t) : t.Flushing q k := by
  have hvalid:=step_valid hs.valid h
  obtain ⟨c,r,hi,hc,rfl⟩ := step_call h
  obtain ⟨d,hk,hplace⟩ := hs.place
  obtain ⟨hl,hcancel,_⟩ := turn_running (stepCall_turns hc)
  have hstarted : r.2.loop.started := by
    rw [hl]
    exact hs.started
  by_cases hik : i=k
  · subst hik
    have hcd : d=c := Option.some.inj (hk.symm.trans hi)
    subst hcd
    obtain ⟨hlt,_⟩ := List.getElem?_eq_some_iff.mp hi
    obtain ⟨hnew,hframe⟩ := turn_flushPlace (stepCall_turns hc) hplace hs.started (by
      rintro path stream metrics rfl rfl
      simpa [sendNeedsContext,hi] using hg)
    refine ⟨hvalid,hstarted,?_,r.1,?_,hnew⟩
    · have hw:=hs.within
      simp only [Within,hframe.calls,set_set,hframe.loop,hframe.sent,hframe.cache,
        hframe.evicted,hframe.submitted] at hw ⊢
      exact hw
    · show (r.2.calls.set i r.1)[i]?=some r.1
      rw [hframe.calls]
      exact getElem?_set_self hlt
  · have hother : (s.calls.set k .done)[i]?=some c := by rw [getElem?_set_ne (Ne.symm hik),hi]
    have hcalls:=(stepCall_frame encodable s c a r hc).1
    refine ⟨hvalid,hstarted,?_,d,?_,flushPlace_mono hplace hcancel⟩
    · have hw:=within_call hs.valid hs.within hother hc
      show Within _ q ((r.2.calls.set i r.1).set k .done)
      rw [hcalls,set_comm _ _ hik]
      exact hw
    · show (r.2.calls.set i r.1)[k]?=some d
      rw [hcalls,getElem?_set_ne hik,hk]

theorem step_flushing
    (hs : s.Flushing q k) (hg : s.sendNeedsContext l) (h : s.step encodable l=some t) :
    t.Flushing q k := by
  cases l with
  | start =>
    have hstarted:=hs.started
    rw [(step_start h).1] at hstarted
    cases hstarted
  | parentDone =>
    cases h
    obtain ⟨c,hk,hplace⟩ := hs.place
    exact ⟨hs.valid,hs.started,hs.within,c,hk,flushPlace_mono hplace fun _ => rfl⟩
  | enterSendMetrics metrics =>
    cases h
    exact enter_flushing hs (.sendMetrics metrics)
  | enterSendOther =>
    cases h
    simpa only [Call.held,append_nil,enter] using enter_flushing hs .sendOther
  | enterStop =>
    cases h
    simpa only [Call.held,append_nil,enter] using enter_flushing hs .stopCancel
  | enterFlushAndStop path =>
    cases h
    simpa only [Call.held,append_nil,enter] using enter_flushing hs (.flushDrain path)
  | loop a =>
    obtain ⟨hcalls,_,_,_⟩ := stepLoop_frame s t a h
    obtain ⟨hstarted,hcancel⟩ := stepLoop_running h
    have hw:=within_loop hs.valid hs.within h
    have hplace:=hs.place
    rw [← hcalls] at hw hplace
    rw [← hcancel] at hplace
    exact ⟨step_valid hs.valid h,hstarted,hw,hplace⟩
  | call i a => exact call_flushing hs hg h

theorem drain_flushing {path : String}
    (hs : s.Counted) (hk : s.calls[k]?=some (.flushDrain path)) (hstream : s.stream≠none)
    (h : s.step encodable (.call k .ok)=some t) : t.Flushing s.cache.contents k := by
  have hvalid:=step_valid hs.valid h
  have hfst:=MetricCache.drain_fst _ _ hs.valid
  have hempty:=MetricCache.contents_eq _ _ (MetricCache.drain_rep _ _ hs.valid)
  obtain ⟨hlt,_⟩ := List.getElem?_eq_some_iff.mp hk
  simp only [step,hk,stepCall,Option.some.injEq] at h
  subst h
  refine ⟨hvalid,hs.started hstream,?_,_,getElem?_set_self hlt,hfst⟩
  intro x
  have hx:=hs.within x
  have hset:=count_flatMap_set Call.held .done hk x
  simp only [set_set,hempty,Call.held,count_nil] at hset hx ⊢
  omega

/-- If `Send` fails on a cancelled stream, what `FlushAndStop` finds in the cache is all sent only if it
is nothing. -/
theorem flush_sends_iff_empty (encodable : α → Bool) (cacheMaxSize : Int) (cb : Bool)
    (pre post : List (Label α)) (s t : Client α) (k : Nat) (path : String)
    (hpre : exec (step encodable) (newClient cacheMaxSize cb) pre=some s)
    (hk : s.calls[k]?=some (.flushDrain path)) (hstream : s.stream≠none)
    (hg : guarded (step encodable) sendNeedsContext s (.call k .ok::post)=true)
    (hpost : exec (step encodable) s (.call k .ok::post)=some t) (hdistinct : t.submitted.Nodup) :
    (∀ m∈s.cache.contents, m∈t.sent) ↔ s.cache.contents=[] := by
  constructor
  · intro hall
    have hcounted : s.Counted :=
      exec_stable (fun _ _ _ hs h => step_counted hs h) (newClient_counted cacheMaxSize cb) hpre
    obtain ⟨u,hu,hrest⟩ := (exec_cons _ _ _ _ _).mp hpost
    have hflushing:=exec_invariant (fun _ _ _ hs hl h => step_flushing hs hl h)
      (drain_flushing hcounted hk hstream hu) (guarded_cons hg hu).2 hrest
    rw [eq_nil_iff_forall_not_mem]
    intro m hm
    -- the copy that was drained and the one that was sent would be two
    have hdrained:=count_pos_iff.mpr hm
    have hsent:=count_pos_iff.mpr (hall m hm)
    have hone:=nodup_iff_count_le_one.mp hdistinct m
    have hwithin:=hflushing.within m
    omega
  · intro hnone m hm
    rw [hnone] at hm
    exact absurd hm not_mem_nil

end Runs

def cachedMetric : List (Label Nat) :=
  [.start,.loop .ok,.loop .ok,.loop .ok,.loop .ok,.loop .ok,.loop .ok,
    .enterSendMetrics [7],.call 0 .ok,.call 0 .fail,.call 0 .ok,.call 0 .ok]
def cachedThenFlush : List (Label Nat) := cachedMetric++[.enterFlushAndStop ""]
def flushReturns : List (Label Nat) :=
  [.call 1 .ok,.call 1 .ok,.call 1 .fail,.call 1 .ok,.call 1 .ok,.loop .ctxDone,.call 1 .ok]

theorem flush_sends_iff_empty_seven :
    ∃ s t, exec (step fun _ => true) (newClient 4 false) cachedThenFlush=some s ∧
      exec (step fun _ => true) s (.call 1 .ok::flushReturns)=some t ∧
      ((∀ m∈s.cache.contents, m∈t.sent) ↔ s.cache.contents=[]) :=
  ⟨_,_,rfl,rfl,flush_sends_iff_empty (fun _ => true) 4 false cachedThenFlush flushReturns _ _ 1
    "" rfl rfl (by decide) (by decide) rfl (by decide)⟩

theorem flush_leaves_metric_unsent :
    ¬ ∀ (pre post : List (Label Nat)) (s t : Client Nat) (k : Nat) (path : String),
      guarded (step fun _ => true) sendNeedsContext (newClient 4 false) (pre ++ .call k .ok::post)=true →
      exec (step fun _ => true) (newClient 4 false) pre=some s →
      s.calls[k]?=some (.flushDrain path) → s.connected=true → s.stream≠none →
      s.cancelled=false → .call k .ctxDone∉post →
      exec (step fun _ => true) s (.call k .ok::post)=some t → t.calls[k]?=some .done →
      ∀ m∈s.cache.contents, m∈t.sent := by
  intro h
  have hsent:=h cachedThenFlush flushReturns _ _ 1 "" (by decide) rfl rfl rfl (by decide) rfl
    (by simp [flushReturns]) rfl rfl 7 (by decide)
  exact absurd hsent (by decide)

end Client
end OpsAgent.GrpcClient
