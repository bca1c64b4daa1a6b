import Mathlib.Data.List.Flatten
import OpsAgent.Lib.Pool
import OpsAgent.GrpcClient.Client

/-!
# Where every metric is
-/

namespace OpsAgent.GrpcClient
open Lib.BoundedFifo Lib.Exec Lib.Pool List Option Bool MetricCache

variable {α : Type}

def LoopPc.held : LoopPc α → List α
  | .replayStream _ metrics => metrics
  | .replaySend _ _ metrics => metrics
  | .recache _ metrics => metrics
  | _ => []

def Call.held : Call α → List α
  | .sendMetrics metrics => metrics
  | .sendBatch _ metrics => metrics
  | .cacheRest metrics => metrics
  | .flushCancel _ metrics => metrics
  | .flushStream _ metrics => metrics
  | .flushSend _ _ metrics => metrics
  | .flushPersist _ metrics => metrics
  | _ => []

theorem connectReturned_held (site : Site) (v : Bool) :
    (Client.connectReturned site v : LoopPc α).held=[] := by cases site <;> cases v <;> rfl

namespace Client

def inProgress (s : Client α) : List α := s.loop.held++s.calls.flatMap Call.held
def settled [Inhabited α] (s : Client α) : List α := s.sent++s.cache.contents++s.evicted
def filed (s : Client α) : List α := s.persisted.flatMap Prod.snd
def Conserved [Inhabited α] (s : Client α) : Prop :=
  s.submitted.Perm (s.inProgress++s.settled++s.filed)

def persistWorks (s : Client α) : Label α → Bool
  | .call i a => match s.calls[i]? with
    | some (.flushPersist path _) => path != "" && a == .ok
    | _ => true
  | _ => true

/-- The step is not one of those that let go of metrics: `replayCache` finds a stream after its drain,
what `FlushAndStop` persists can be encoded, and it does not write over a file. -/
def keepsDrained (encodable : α → Bool) (s : Client α) : Label α → Bool
  | .loop _ => match s.loop with
    | .replayStream _ _ => s.stream.isSome
    | _ => true
  | .call i _ => match s.calls[i]? with
    | some (.flushPersist path metrics) =>
      metrics.all encodable&&s.persisted.all fun f => f.1 != path
    | _ => true
  | _ => true

variable [Inhabited α]

def CacheValid (s : Client α) : Prop := s.cache.Rep s.cache.contents
def CacheMove (s t : Client α) : Prop :=
  t.cache=s.cache ∨ t.cache=s.cache.drain.2 ∨ ∃ m, t.cache=s.cache.add m

variable (encodable : α → Bool) (s t : Client α) (a : Answer)

theorem cacheMove_valid (h : CacheMove s t) (hv : s.CacheValid) : t.CacheValid := by
  unfold CacheValid at hv ⊢
  rcases h with h | h | ⟨m,h⟩
  · rw [h]
    exact hv
  · have hr:=drain_rep s.cache _ hv
    rw [h,contents_eq _ _ hr]
    exact hr
  · have hr:=add_rep s.cache _ m hv
    rw [h,contents_eq _ _ hr]
    exact hr

theorem stepLoop_frame (h : s.stepLoop a=some t) :
    t.calls=s.calls ∧ t.submitted=s.submitted ∧ t.persisted=s.persisted ∧ CacheMove s t := by
  have ht:=stepLoop_turns h
  generalize s.loop=pc at ht
  cases ht
  case drainedNone | drainedSome => exact ⟨rfl,rfl,rfl,.inr (.inl rfl)⟩
  case recached site m metrics => exact ⟨rfl,rfl,rfl,.inr (.inr ⟨m,rfl⟩)⟩
  all_goals exact ⟨rfl,rfl,rfl,.inl rfl⟩

theorem stepCall_frame (s : Client α) (c : Call α) (a : Answer)
    (r : Call α × Client α) (h : s.stepCall encodable c a=some r) :
    r.2.calls=s.calls ∧ r.2.loop=s.loop ∧ r.2.submitted=s.submitted ∧ CacheMove s r.2 := by
  obtain ⟨c',t⟩ := r
  cases stepCall_turns h
  case cached m metrics => exact ⟨rfl,rfl,rfl,.inr (.inr ⟨m,rfl⟩)⟩
  case flushDrained => exact ⟨rfl,rfl,rfl,.inr (.inl rfl)⟩
  all_goals exact ⟨rfl,rfl,rfl,.inl rfl⟩

/-- `persistMetrics` lets go of the metrics, whether it writes the file or not. -/
theorem stepCall_persist {path : String} {metrics : List α} {r : Call α × Client α}
    (h : s.stepCall encodable (.flushPersist path metrics) a=some r) : r.1=.flushClose ∧
      (r.2=s ∨ r.2={s with persisted := writeFile s.persisted path metrics}) := by
  obtain ⟨c',t⟩ := r
  cases stepCall_turns h
  case persisted => exact ⟨rfl,.inr rfl⟩
  all_goals exact ⟨rfl,.inl rfl⟩

section Count
variable [DecidableEq α] (s : Client α) (metrics : List α) (x : α)

theorem cacheAdd_count (m : α) (metrics : List α) (x : α) (h : s.CacheValid) :
    metrics.count x+(s.cacheAdd m).settled.count x = (m::metrics).count x+s.settled.count x := by
  have hr:=add_rep s.cache _ m h
  have hp:=congrArg (count x) (dropped_append_push s.cache.maxSize s.cache.contents m)
  rw [← singleton_append]
  simp only [settled,cacheAdd,contents_eq _ _ hr,count_append] at hp ⊢
  omega

theorem drain_count (h : s.CacheValid) :
    ({s with cache := s.cache.drain.2} : Client α).settled.count x+s.cache.drain.1.count x =
      s.settled.count x := by
  simp only [settled,drain_fst _ _ h,contents_eq _ _ (drain_rep s.cache _ h),count_append,count_nil]
  omega

omit [Inhabited α] in
theorem batch_count :
    (metrics.take batchSize).count x+(metrics.drop batchSize).count x=metrics.count x := by
  rw [← count_append,take_append_drop]

theorem sendBatch_count :
    (metrics.drop batchSize).count x +
        ({s with sent := s.sent++metrics.take batchSize} : Client α).settled.count x =
      metrics.count x+s.settled.count x := by
  have hsplit:=batch_count metrics x
  simp only [settled,count_append]
  omega

theorem stepLoop_count (s t : Client α) (a : Answer) (x : α) (hv : s.CacheValid)
    (hg : ∀ site metrics, s.loop=.replayStream site metrics → s.stream≠none) (h : s.stepLoop a=some t) :
    t.loop.held.count x+t.settled.count x=s.loop.held.count x+s.settled.count x := by
  have ht:=stepLoop_turns h
  generalize hl : s.loop=pc at ht ⊢
  cases ht
  case drainedNone site he =>
    have hd:=drain_count s x hv
    rw [he,count_nil] at hd
    rw [connectReturned_held]
    exact congrArg _ hd
  case drainedSome site _ =>
    have hd:=drain_count s x hv
    simp only [LoopPc.held,count_nil]
    simp only [settled] at hd ⊢
    omega
  case replayLost site metrics hs => exact absurd hs (hg site metrics hl)
  case replayedLast site stream metrics he =>
    have hb:=sendBatch_count s metrics x
    rw [he] at hb
    rw [connectReturned_held]
    exact hb
  case replayedBatch site stream metrics _ => exact sendBatch_count s metrics x
  case recached site m metrics => exact cacheAdd_count s m metrics x hv
  case wasDown close _ | notifiedDown close => cases close <;> rfl
  case dialFailed | recachedAll =>
    rw [connectReturned_held]
    rfl
  case openFailed | registerFailed =>
    rw [abandon,connectReturned_held]
    rfl
  all_goals rfl

theorem stepCall_count (encodable : α → Bool) (s : Client α) (c : Call α) (a : Answer)
    (r : Call α × Client α) (x : α) (hv : s.CacheValid)
    (hc : ∀ path metrics, c ≠ .flushPersist path metrics) (h : s.stepCall encodable c a=some r) :
    r.1.held.count x+r.2.settled.count x=c.held.count x+s.settled.count x ∧
      r.2.persisted=s.persisted := by
  obtain ⟨c',t⟩ := r
  cases stepCall_turns h
  case sent stream metrics =>
    refine ⟨?_,rfl⟩
    simp only [Call.held,settled,count_append,count_nil]
    omega
  case cached m metrics => exact ⟨cacheAdd_count s m metrics x hv,rfl⟩
  case flushDrained path =>
    have hd:=drain_count s x hv
    refine ⟨?_,rfl⟩
    simp only [Call.held,count_nil]
    omega
  case flushedLast path stream metrics he =>
    have hb:=sendBatch_count s metrics x
    rw [he] at hb
    exact ⟨hb,rfl⟩
  case flushedBatch path stream metrics _ => exact ⟨sendBatch_count s metrics x,rfl⟩
  case persisted path metrics _ _ | unpersisted path metrics _ | persistFailed path metrics =>
    exact absurd rfl (hc path metrics)
  all_goals exact ⟨rfl,rfl⟩

omit [Inhabited α] in
theorem filed_writeFile (path : String) (metrics : List α) (x : α) :
    (Client.filed {s with persisted := writeFile s.persisted path metrics}).count x ≤
      metrics.count x+s.filed.count x := by
  have hle : ((s.persisted.filter fun f => f.1 != path).flatMap Prod.snd).count x ≤ s.filed.count x :=
    (filter_sublist.flatMap _).count_le x
  simp only [filed,writeFile,flatMap_cons,count_append] at hle ⊢
  omega

end Count

structure Ledger (s : Client α) : Prop where
  valid : s.CacheValid
  conserved : s.Conserved

theorem enter_ledger (s : Client α) (c : Call α) (hc : c.held=[]) (h : s.Ledger) :
    (s.enter c).Ledger := by
  refine ⟨h.valid,?_⟩
  have hp : (s.enter c).inProgress=s.inProgress := by simp [inProgress,enter,hc]
  change s.submitted.Perm ((s.enter c).inProgress++s.settled++s.filed)
  rw [hp]
  exact h.conserved

theorem enterSendMetrics_ledger (s : Client α) (metrics : List α) (h : s.Ledger) :
    Ledger {s.enter (.sendMetrics metrics) with submitted := s.submitted++metrics} := by
  refine ⟨h.valid,?_⟩
  classical
  rw [Conserved,perm_iff_count]
  intro x
  have hx:=h.conserved.count_eq x
  simp only [inProgress,settled,filed,enter,flatMap_append,flatMap_cons,flatMap_nil,
    Call.held,count_append,count_nil] at hx ⊢
  omega

theorem stepLoop_ledger (hl : s.Ledger)
    (hg : ∀ site metrics, s.loop=.replayStream site metrics → s.stream≠none)
    (h : s.stepLoop a=some t) : t.Ledger := by
  obtain ⟨hcalls,hsub,hfiles,hmove⟩ := stepLoop_frame s t a h
  refine ⟨cacheMove_valid s t hmove hl.valid,?_⟩
  classical
  rw [Conserved,perm_iff_count]
  intro x
  have hx:=hl.conserved.count_eq x
  have hstep:=stepLoop_count s t a x hl.valid hg h
  simp only [inProgress,filed,hcalls,hsub,hfiles,count_append] at hx ⊢
  omega

theorem stepCall_conserves [DecidableEq α] (s : Client α) (c : Call α) (a : Answer)
    (r : Call α × Client α) (x : α) (hv : s.CacheValid)
    (hg : ∀ path metrics, c=.flushPersist path metrics → path≠"" ∧ a=.ok ∧ metrics.all encodable ∧
      ∀ f∈s.persisted, f.1≠path) (h : s.stepCall encodable c a=some r) :
    r.1.held.count x+r.2.settled.count x+r.2.filed.count x =
      c.held.count x+s.settled.count x+s.filed.count x := by
  by_cases hc : ∃ path metrics, c=.flushPersist path metrics
  · obtain ⟨path,metrics,rfl⟩ := hc
    obtain ⟨hpath,rfl,hall,hnew⟩ := hg path metrics rfl
    have hkept : s.persisted.filter (fun f => f.1 != path)=s.persisted :=
      filter_eq_self.mpr fun f hf => bne_iff_ne.mpr (hnew f hf)
    rw [stepCall,if_pos ⟨hpath,hall⟩] at h
    cases h
    simp only [settled,filed,writeFile,hkept,Call.held,flatMap_cons,count_append,count_nil]
    omega
  · have hc' : ∀ path metrics, c ≠ .flushPersist path metrics :=
      fun path metrics he => hc ⟨path,metrics,he⟩
    obtain ⟨hcount,hfiles⟩ := stepCall_count encodable s c a r x hv hc' h
    simp only [filed,hfiles]
    omega

theorem stepCall_ledger (s : Client α) (i : Nat) (c : Call α) (a : Answer)
    (r : Call α × Client α) (hl : s.Ledger) (hi : s.calls[i]?=some c)
    (hg : ∀ path metrics, c=.flushPersist path metrics → path≠"" ∧ a=.ok ∧ metrics.all encodable ∧
      ∀ f∈s.persisted, f.1≠path)
    (h : s.stepCall encodable c a=some r) : Ledger {r.2 with calls := r.2.calls.set i r.1} := by
  obtain ⟨hcalls,hloop,hsub,hmove⟩ := stepCall_frame encodable s c a r h
  refine ⟨cacheMove_valid s r.2 hmove hl.valid,?_⟩
  classical
  rw [Conserved,perm_iff_count]
  intro x
  have hx:=hl.conserved.count_eq x
  have hstep:=stepCall_conserves encodable s c a r x hl.valid hg h
  have hset:=count_flatMap_set Call.held r.1 hi x
  have hsame : ({r.2 with calls := r.2.calls.set i r.1} : Client α).settled=r.2.settled := rfl
  have hfiled : ({r.2 with calls := r.2.calls.set i r.1} : Client α).filed=r.2.filed := rfl
  rw [hsame,hfiled]
  simp only [inProgress,hcalls,hloop,hsub,count_append] at hx ⊢
  omega

theorem step_ledger (s t : Client α) (l : Label α) (hs : s.Ledger)
    (hp : s.persistWorks l) (hk : s.keepsDrained encodable l)
    (h : s.step encodable l=some t) : t.Ledger := by
  cases l with
  | start =>
    obtain ⟨hl,rfl⟩ := step_start h
    refine ⟨hs.valid,?_⟩
    have hc:=hs.conserved
    simp only [Conserved,inProgress,hl] at hc
    exact hc
  | parentDone =>
    cases h
    exact ⟨hs.valid,hs.conserved⟩
  | enterSendMetrics metrics =>
    cases h
    exact enterSendMetrics_ledger s metrics hs
  | enterSendOther | enterStop | enterFlushAndStop path =>
    cases h
    exact enter_ledger s _ rfl hs
  | loop a =>
    refine stepLoop_ledger s t a hs ?_ h
    intro site metrics hl hn
    simp only [keepsDrained,hl,hn,isSome_none,false_eq_true] at hk
  | call i a =>
    obtain ⟨c,r,hi,hc,rfl⟩ := step_call h
    refine stepCall_ledger encodable s i c a r hs hi ?_ hc
    intro path metrics he
    subst he
    simp only [persistWorks,hi,and_eq_true,bne_iff_ne,beq_iff_eq] at hp
    simp only [keepsDrained,hi,and_eq_true] at hk
    exact ⟨hp.1,hp.2,hk.1,fun f hf => bne_iff_ne.mp (List.all_eq_true.mp hk.2 f hf)⟩

theorem newClient_ledger (cacheMaxSize : Int) (cb : Bool) :
    (newClient cacheMaxSize cb : Client α).Ledger := by
  have hr : (newMetricCache _ : MetricCache α).Rep [] :=
    rep_new (if cacheMaxSize≤0 then 10000 else cacheMaxSize)
  have hc:=contents_eq _ _ hr
  refine ⟨?_,?_⟩
  · unfold CacheValid
    change (newMetricCache _ : MetricCache α).Rep (newMetricCache _ : MetricCache α).contents
    rw [hc]
    exact hr
  · simp only [Conserved,inProgress,settled,filed,newClient,hc]
    rfl

/-- If files can be written and no step takes one of the branches that let go of metrics, every metric is
in exactly one of the five places. -/
theorem metrics_conserved (encodable : α → Bool) (cacheMaxSize : Int) (cb : Bool)
    (ls : List (Label α)) (t : Client α)
    (hg : guarded (step encodable) (fun s l => s.persistWorks l&&s.keepsDrained encodable l)
      (newClient cacheMaxSize cb) ls=true)
    (hr : exec (step encodable) (newClient cacheMaxSize cb) ls=some t) : t.Conserved := by
  refine (exec_invariant (I := Ledger) ?_ (newClient_ledger cacheMaxSize cb) hg hr).conserved
  intro s l u hs hl hu
  rw [and_eq_true] at hl
  exact step_ledger encodable s u l hs hl.1 hl.2 hu

def connectAndDrain : List (Label Nat) :=
  [.start,.enterSendMetrics [7],.call 0 .ok,.call 0 .ok,.call 0 .ok,
    .loop .ok,.loop .ok,.loop .ok,.loop .ok,.loop .ok,.loop .ok]

theorem metrics_conserved_replay :
    ∃ t, exec (step fun _ => true) (newClient 4 false) (connectAndDrain++[.loop .ok,.loop .ok]) =
      some t ∧ t.sent=[7] ∧ t.Conserved :=
  ⟨_,rfl,rfl,metrics_conserved (fun _ => true) 4 false
    (connectAndDrain++[.loop .ok,.loop .ok]) _ (by decide) rfl⟩

theorem replay_loses_metric : ¬ ∀ (ls : List (Label Nat)) (t : Client Nat),
      guarded (step fun _ => true) persistWorks (newClient 4 false) ls=true →
      exec (step fun _ => true) (newClient 4 false) ls=some t → t.Conserved := by
  intro h
  have hc:=h (connectAndDrain++[.enterFlushAndStop "cache.json",.call 1 .ok,.call 1 .ok,
    .call 1 .ok,.loop .ok]) _ (by decide) rfl
  exact absurd hc.length_eq (by decide)

end Client
end OpsAgent.GrpcClient
