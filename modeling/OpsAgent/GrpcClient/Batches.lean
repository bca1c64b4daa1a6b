import OpsAgent.GrpcClient.Client

/-!
# `replayCache` and `FlushAndStop` on their own (`grpcclient/client.go`)

Here each is one function of what the gRPC library, the context and the file system answer.
-/

namespace OpsAgent.GrpcClient
open Lib.BoundedFifo List Option
open Lib.Exec
open Client (batchSize)

variable {α : Type}

/-- One turn of a loop over batches: `Send` returns nil or an error, or, in
`FlushAndStop`, the caller's context is done before it. -/
inductive Turn where
  | sent | failed | expired
  deriving DecidableEq

/-- The loop from batch number `k` on, `metrics` being `metrics[i:]`: the messages that were
sent, and what is left. -/
def sendBatches (turn : Nat → Turn) (k : Nat) (metrics : List α) : List (List α) × List α :=
  if metrics=[] then ([],[])
  else match turn k with
    | .sent =>
      let out:=sendBatches turn (k+1) (metrics.drop batchSize)
      (metrics.take batchSize::out.1,out.2)
    | _ => ([],metrics)
termination_by metrics.length
decreasing_by
  have hpos : 0 < metrics.length := length_pos_iff.mpr ‹_›
  rw [length_drop,batchSize]
  omega

theorem sendBatches_nil (turn : Nat → Turn) (k : Nat) : sendBatches turn k ([] : List α)=([],[]) := by
  rw [sendBatches,if_pos rfl]

variable {metrics q : List α}
  {k : Nat} {turn : Nat → Turn}

theorem sendBatches_sent (hne : metrics≠[]) (hk : turn k=.sent) : sendBatches turn k metrics =
      (metrics.take batchSize::(sendBatches turn (k+1) (metrics.drop batchSize)).1,
        (sendBatches turn (k+1) (metrics.drop batchSize)).2) := by
  rw [sendBatches,if_neg hne]
  simp only [hk]

theorem sendBatches_stopped (hk : turn k ≠ .sent) : sendBatches turn k metrics=([],metrics) := by
  by_cases hne : metrics=[]
  · rw [hne,sendBatches_nil]
  · rw [sendBatches,if_neg hne]
    split
    · contradiction
    · rfl

theorem sendBatches_first {metrics : List α} (hne : metrics≠[]) (hzero : turn 0=.sent)
    (hone : turn 1 ≠ .sent) :
    sendBatches turn 0 metrics=([metrics.take batchSize],metrics.drop batchSize) := by
  rw [sendBatches_sent hne hzero,sendBatches_stopped hone]

/-- What the loop is for: the messages are the start of the metrics in order, the rest is what
follows, and the loop ends early only at a turn that did not send. -/
structure SendsStart (turn : Nat → Turn) (k : Nat) (metrics : List α)
    (out : List (List α) × List α) : Prop where
  split : out.1.flatten++out.2=metrics
  size : ∀ message∈out.1, message≠[] ∧ message.length≤100
  sent : ∀ j<out.1.length, turn (k+j)=.sent
  stopped : out.2≠[] → turn (k+out.1.length) ≠ .sent

theorem length_drop_batchSize (hne : metrics≠[]) : (metrics.drop batchSize).length < metrics.length := by
  have hpos : 0 < metrics.length := length_pos_iff.mpr hne
  rw [length_drop,batchSize]
  omega

theorem sendBatches_spec (turn : Nat → Turn) (k : Nat) (metrics : List α) :
    SendsStart turn k metrics (sendBatches turn k metrics) := by
  induction hn : metrics.length using Nat.strongRecOn generalizing k metrics with
  | ind n ih =>
    by_cases hne : metrics=[]
    · rw [hne,sendBatches_nil]
      exact ⟨rfl,by simp,by simp,by simp⟩
    by_cases hk : turn k=.sent
    · have hlen : (metrics.drop batchSize).length<n := hn ▸ length_drop_batchSize hne
      obtain ⟨hsplit,hsize,hsent,hstopped⟩ :=
        ih _ hlen (k+1) (metrics.drop batchSize) rfl
      rw [sendBatches_sent hne hk]
      refine ⟨?_,?_,?_,?_⟩
      · rw [flatten_cons,append_assoc,hsplit,take_append_drop]
      · intro message hmem
        rcases mem_cons.mp hmem with rfl | hmem
        · refine ⟨?_,length_take_le _ _⟩
          rw [← length_pos_iff,length_take,batchSize]
          omega
        · exact hsize message hmem
      · intro j hj
        cases j with
        | zero => exact hk
        | succ j =>
          rw [length_cons,Nat.succ_lt_succ_iff] at hj
          rw [← Nat.add_assoc,Nat.add_right_comm]
          exact hsent j hj
      · intro hrest
        rw [length_cons,← Nat.add_assoc,Nat.add_right_comm]
        exact hstopped hrest
    · rw [sendBatches_stopped hk]
      exact ⟨rfl,by simp,by simp,fun _ => hk⟩

variable [Inhabited α] {cache : MetricCache α} (stream : Option Nat)

/-- `replayCache`, with the error of the `k`-th `Send` given by `send k`. -/
def replayCache (cache : MetricCache α) (stream : Option Nat) (send : Nat → Bool) :
    List (List α) × MetricCache α :=
  let drained:=cache.drain
  if drained.1=[] then ([],drained.2)
  else match stream with
    | none => ([],drained.2)
    | some _ =>
      let out:=sendBatches (fun k => if send k then .sent else .failed) 0 drained.1
      (out.1,out.2.foldl MetricCache.add drained.2)

structure Flushed (α : Type) where
  messages : List (List α)
  -- what `persistMetrics` has written, if it was called and succeeded
  persisted : Option (List α)
  cache : MetricCache α

def flushBatches (stream : Option Nat) (turn : Nat → Turn) (metrics : List α) :
    List (List α) × List α :=
  match stream with
  | none => ([],metrics)
  | some _ => sendBatches turn 0 metrics

def persistRest (persistPath : String) (write : List α → Bool) (rest : List α) : Option (List α) :=
  if rest≠[] ∧ persistPath≠"" ∧ write rest then some rest else none

def flushAndStop (cache : MetricCache α) (stream : Option Nat) (turn : Nat → Turn)
    (persistPath : String) (write : List α → Bool) : Flushed α :=
  let out:=flushBatches stream turn cache.drain.1
  { messages := out.1
    persisted := persistRest persistPath write out.2
    cache := cache.drain.2}

theorem addAll_rep {c : MetricCache α} (metrics : List α) (h : c.Rep q)
    (hroom : q.length+metrics.length≤c.maxSize) :
    (metrics.foldl MetricCache.add c).Rep (q++metrics) := by
  induction metrics generalizing c q with
  | nil => simpa using h
  | cons m metrics ih =>
    rw [length_cons] at hroom
    have hpush : push c.maxSize q m=q++[m] := by rw [push,if_neg (by omega)]
    have hadd:=MetricCache.add_rep c q m h
    rw [hpush] at hadd
    have hall:=ih hadd (by rw [MetricCache.add_maxSize,length_append]; simp; omega)
    rwa [append_assoc] at hall

theorem replayCache_some (cache : MetricCache α) (stream : Nat) (send : Nat → Bool) :
    replayCache cache (some stream) send =
      let out:=sendBatches (fun k => if send k then .sent else .failed) 0 cache.drain.1
      (out.1,out.2.foldl MetricCache.add cache.drain.2) := by
  simp only [replayCache]
  split_ifs with hnone
  · rw [hnone,sendBatches_nil,foldl_nil]
  · rfl

theorem replayCache_spec (h : cache.Rep q) (stream : Nat)
    (send : Nat → Bool) :
    let r:=replayCache cache (some stream) send
    SendsStart (fun k => if send k then .sent else .failed) 0 q (r.1,r.2.contents) := by
  have hspec:=sendBatches_spec (fun k => if send k then .sent else .failed) 0 q
  have hempty:=MetricCache.drain_rep cache q h
  rw [replayCache_some,MetricCache.drain_fst cache q h]
  generalize sendBatches _ 0 q=out at hspec
  have hfits : out.2.length≤q.length := by
    rw [← hspec.split,length_append]
    exact Nat.le_add_left _ _
  have hrep:=addAll_rep out.2 hempty (by
    rw [MetricCache.drain_maxSize,length_nil,Nat.zero_add]
    exact hfits.trans h.bound)
  simp only [MetricCache.contents_eq _ _ hrep]
  exact hspec

omit [Inhabited α] in
theorem flushBatches_nil (turn : Nat → Turn) : flushBatches stream turn ([] : List α)=([],[]) := by
  cases stream with
  | none => rfl
  | some stream => exact sendBatches_nil turn 0

omit [Inhabited α] in
theorem flushBatches_spec (turn : Nat → Turn) (metrics : List α) :
    let out:=flushBatches stream turn metrics
    SendsStart (fun k => if stream.isSome then turn k else .failed) 0 metrics out := by
  cases stream with
  | none => exact ⟨rfl,by simp [flushBatches],by simp [flushBatches],by simp⟩
  | some stream => exact sendBatches_spec turn 0 metrics

omit [Inhabited α] in
theorem getD_persistRest {persistPath : String} {write : List α → Bool} (rest : List α)
    (hpath : persistPath≠"") (hwrite : ∀ metrics, write metrics) :
    (persistRest persistPath write rest).getD []=rest := by
  rw [persistRest]
  by_cases hnil : rest=[]
  · rw [if_neg (fun hc => hc.1 hnil),hnil,getD_none]
  · rw [if_pos ⟨hnil,hpath,hwrite rest⟩,getD_some]

theorem flushAndStop_spec (h : cache.Rep q)
    (stream : Option Nat) (turn : Nat → Turn) {persistPath : String} {write : List α → Bool}
    (hpath : persistPath≠"") (hwrite : ∀ metrics, write metrics) :
    let f:=flushAndStop cache stream turn persistPath write
    SendsStart (fun k => if stream.isSome then turn k else .failed) 0 q
      (f.messages,f.persisted.getD []) ∧ f.cache.contents=[] := by
  have hspec:=flushBatches_spec stream turn q
  have hempty:=MetricCache.contents_eq _ _ (MetricCache.drain_rep cache q h)
  simp only [flushAndStop,MetricCache.drain_fst cache q h,hempty]
  rw [getD_persistRest _ hpath hwrite]
  exact ⟨hspec,trivial⟩

/-- With a stream, `replayCache` sends a start of the cached metrics, up to the first `Send` that fails, and leaves
the others in the cache. `FlushAndStop` with a path that can be written sends the batches before the first turn
that does not send, none of them without a stream, and persists the rest. -/
theorem replay_and_flush_split (cache : MetricCache α) (q : List α) (h : cache.Rep q) :
    (∀ (stream : Nat) (send : Nat → Bool),
      let r:=replayCache cache (some stream) send
      r.1.flatten++r.2.contents=q ∧
        (∀ message∈r.1, message≠[] ∧ message.length≤100) ∧
        (∀ k<r.1.length, send k=true) ∧
        (r.2.contents≠[] → send r.1.length=false)) ∧
    (∀ (stream : Option Nat) (turn : Nat → Turn) (persistPath : String) (write : List α → Bool),
      persistPath≠"" → (∀ metrics, write metrics=true) →
        let f:=flushAndStop cache stream turn persistPath write
        f.messages.flatten++f.persisted.getD []=q ∧
          (∀ message∈f.messages, message≠[] ∧ message.length≤100) ∧
          (∀ k<f.messages.length, stream≠none ∧ turn k=.sent) ∧
          (f.persisted.getD []≠[] → stream=none ∨ turn f.messages.length ≠ .sent) ∧
          f.cache.contents=[]) := by
  refine ⟨?_,?_⟩
  · intro stream send
    obtain ⟨hsplit,hsize,hsent,hstopped⟩ := replayCache_spec h stream send
    refine ⟨hsplit,hsize,?_,?_⟩
    · intro k hk
      simpa using hsent k hk
    · intro hleft
      simpa using hstopped hleft
  · intro stream turn path write hpath hwrite
    obtain ⟨⟨hsplit,hsize,hsent,hstopped⟩,hempty⟩ := flushAndStop_spec h stream turn hpath hwrite
    refine ⟨hsplit,hsize,?_,?_,hempty⟩
    · intro k hk
      cases stream with
      | none => simpa using hsent k hk
      | some stream => simpa using hsent k hk
    · intro hleft
      cases stream with
      | none => exact .inl rfl
      | some stream => exact .inr (by simpa using hstopped hleft)

@[irreducible] def hundredOne : MetricCache Nat := (range 101).foldl MetricCache.add (newMetricCache 200)

def firstSent (k : Nat) : Turn := if k=0 then .sent else .expired

theorem hundredOne_rep : hundredOne.Rep (range 101) := by
  unfold hundredOne
  exact addAll_rep (range 101) (MetricCache.rep_new 200) (by decide)

theorem replay_and_flush_split_hundredOne :
    let r:=replayCache hundredOne (some 0) fun k => k == 0
    let f:=flushAndStop hundredOne (some 0) firstSent "p" fun _ => true
    r.1.flatten++r.2.contents=range 101 ∧ r.1=[range 100] ∧
      f.messages.flatten++f.persisted.getD []=range 101 ∧
      f.messages=[range 100] ∧ f.persisted=some [100] := by
  have hsplit:=replay_and_flush_split _ _ hundredOne_rep
  refine ⟨(hsplit.1 0 fun k => k == 0).1,?_,
    (hsplit.2 (some 0) firstSent "p" (fun _ => true) (by decide) fun _ => rfl).1,?_,?_⟩
  · rw [replayCache_some,MetricCache.drain_fst _ _ hundredOne_rep,
      sendBatches_first (by decide) (by simp) (by simp)]
    decide
  all_goals
    simp only [flushAndStop,flushBatches,MetricCache.drain_fst _ _ hundredOne_rep]
    rw [sendBatches_first (by decide) rfl (by decide)]
    decide

end OpsAgent.GrpcClient
