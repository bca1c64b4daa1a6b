import OpsAgent.GrpcClient.Batches
import OpsAgent.GrpcClient.FlushCancelled

/-!
# A new agent after `FlushAndStop` (`grpcclient/client.go`, `persist.go`, `app/agent.go`)

Nothing in the agent calls `loadPersistedCache`.
-/

namespace OpsAgent.GrpcClient
open Lib.Exec List

variable {α : Type}

inductive HostLabel (α : Type) where
  | client (l : Label α)
  -- a new process: `NewAgent` makes a client, which is then started; the files stay
  | restart

namespace Host
variable [Inhabited α]

def step (encodable : α → Bool) (cacheMaxSize : Int) (cb : Bool) (s : Client α) :
    HostLabel α → Option (Client α)
  | .client l => s.step encodable l
  | .restart => some {newClient cacheMaxSize cb with persisted := s.persisted}

theorem exec_client {encodable : α → Bool} {cacheMaxSize : Int} {cb : Bool} {s t : Client α}
    {ls : List (Label α)} (hr : exec (step encodable cacheMaxSize cb) s (ls.map .client)=some t) :
    exec (Client.step encodable) s ls=some t := by
  induction ls generalizing s with
  | nil => exact hr
  | cons l ls ih =>
    obtain ⟨u,hu,hrest⟩ := (exec_cons _ _ _ _ _).mp hr
    exact (exec_cons _ _ _ _ _).mpr ⟨u,hu,ih hrest⟩

end Host

theorem Client.Counted.known [Inhabited α] [DecidableEq α] {s : Client α} (hs : s.Counted) {m : α}
    (hm : m∈s.cache.contents ∨ m∈s.sent) : m∈s.submitted := by
  have hx:=hs.within m
  rw [← count_pos_iff]
  rcases hm with hm | hm
  · have hpos:=count_pos_iff.mpr hm
    omega
  · have hpos:=count_pos_iff.mpr hm
    omega

namespace Host
variable [Inhabited α]
  {s t : Client α} {encodable : α → Bool}

theorem stepCall_filed_le [DecidableEq α] {c : Call α} {a : Answer} {r : Call α × Client α} (x : α)
    (hv : s.CacheValid) (h : s.stepCall encodable c a=some r) :
    r.1.held.count x+r.2.settled.count x+r.2.filed.count x ≤
      c.held.count x+s.settled.count x+s.filed.count x := by
  by_cases hc : ∃ path metrics, c=.flushPersist path metrics
  · obtain ⟨path,metrics,rfl⟩ := hc
    have hwrite:=Client.filed_writeFile s path metrics x
    have hnone : (Call.flushClose : Call α).held.count x=0 := rfl
    obtain ⟨hclose,hsame | hsame⟩ := Client.stepCall_persist encodable s a h
    · rw [hclose,hsame,hnone]
      omega
    · rw [hclose,hsame,hnone]
      show 0+s.settled.count x+_ ≤ metrics.count x+_+_
      omega
  · have hc' : ∀ path metrics, c ≠ .flushPersist path metrics :=
      fun path metrics he => hc ⟨path,metrics,he⟩
    obtain ⟨hcount,hfiles⟩ := Client.stepCall_count encodable s c a r x hv hc' h
    rw [Client.filed,hfiles,hcount]
    rfl

theorem step_within_filed [DecidableEq α] {l : Label α} (hv : s.CacheValid)
    (hw : s.Within s.filed s.calls) (h : s.step encodable l=some t) : t.Within t.filed t.calls := by
  cases l with
  | start =>
    obtain ⟨hl,rfl⟩ := Client.step_start h
    simp only [Client.Within,hl] at hw
    exact hw
  | parentDone =>
    cases h
    exact hw
  | enterSendMetrics metrics =>
    cases h
    exact Client.within_enter hw (.sendMetrics metrics)
  | enterSendOther | enterStop | enterFlushAndStop path =>
    cases h
    exact Client.within_enter_empty hw rfl
  | loop a =>
    obtain ⟨hcalls,_,hfiles,_⟩ := Client.stepLoop_frame s t a h
    rw [Client.filed,hfiles,hcalls]
    exact Client.within_loop hv hw h
  | call i a =>
    obtain ⟨c,r,hi,hc,rfl⟩ := Client.step_call h
    obtain ⟨hcalls,hloop,hsub,-⟩ := Client.stepCall_frame encodable s c a r hc
    intro x
    have hx:=hw x
    have hstep:=stepCall_filed_le x hv hc
    have hset:=Lib.Pool.count_flatMap_set Call.held r.1 hi x
    have hfiled : ({r.2 with calls := r.2.calls.set i r.1} : Client α).filed=r.2.filed := rfl
    simp only [Client.settled,count_append] at hstep
    rw [hfiled]
    dsimp only
    rw [hcalls,hloop,hsub]
    omega

/-- In every run of a process the stream, the cache and the files have together no more of a metric than was
given to `SendMetrics`. -/
theorem copies_le_submitted [DecidableEq α] (encodable : α → Bool) (cacheMaxSize : Int) (cb : Bool)
    (ls : List (Label α)) (t : Client α)
    (hr : exec (Client.step encodable) (newClient cacheMaxSize cb) ls=some t) :
    ∀ m, t.filed.count m+t.sent.count m+t.cache.contents.count m≤t.submitted.count m := by
  have hnew:=Client.newClient_counted (α := α) cacheMaxSize cb
  have hwithin : t.CacheValid ∧ t.Within t.filed t.calls :=
    exec_stable (I := fun s : Client α => s.CacheValid ∧ s.Within s.filed s.calls)
      (fun _ _ _ hs hl => ⟨Client.step_valid hs.1 hl,step_within_filed hs.1 hs.2 hl⟩)
      ⟨hnew.valid,hnew.within⟩ hr
  intro m
  have hsum:=hwithin.2 m
  omega

/-- The metrics in the file are all in the next cache or sent only if there are none, unless they are
given to the client again. -/
theorem restart_restores_iff_empty [DecidableEq α] (encodable : α → Bool) (cacheMaxSize : Int)
    (cb : Bool) (s t : Client α) (post : List (Label α)) (path : String)
    (hpost : exec (step encodable cacheMaxSize cb) s (.restart::post.map .client)=some t)
    (hdistinct : ∀ m∈(s.persisted.lookup path).getD [], m∉t.submitted) :
    (∀ m∈(s.persisted.lookup path).getD [], m∈t.cache.contents ∨ m∈t.sent) ↔
      (s.persisted.lookup path).getD []=[] := by
  constructor
  · intro hall
    obtain ⟨u,hu,hrest⟩ := (exec_cons _ _ _ _ _).mp hpost
    cases hu
    have hnew:=Client.newClient_counted (α := α) cacheMaxSize cb
    have hstart : ({newClient cacheMaxSize cb with persisted := s.persisted} : Client α).Counted :=
      ⟨hnew.valid,hnew.within,hnew.started⟩
    have hcounted : t.Counted :=
      exec_stable (fun _ _ _ hs hl => Client.step_counted hs hl) hstart (exec_client hrest)
    rw [eq_nil_iff_forall_not_mem]
    intro m hm
    exact hdistinct m hm (hcounted.known (hall m hm))
  · intro hnone m hm
    rw [hnone] at hm
    exact absurd hm not_mem_nil

def flushToFile : List (Label Nat) :=
  .enterFlushAndStop "cache.json" :: .call 1 .ok::Client.flushReturns
def shutDown : List (Label Nat) := Client.cachedMetric++flushToFile
def connectAgain : List (Label Nat) :=
  [.start,.loop .ok,.loop .ok,.loop .ok,.loop .ok,.loop .ok,.loop .ok]

theorem restart_restores_iff_empty_seven : ∃ s t : Client Nat,
      exec (step (fun _ => true) 4 false) (newClient 4 false) (shutDown.map .client)=some s ∧
      exec (step (fun _ => true) 4 false) s (.restart::connectAgain.map .client)=some t ∧
      ((∀ m∈(s.persisted.lookup "cache.json").getD [], m∈t.cache.contents ∨ m∈t.sent) ↔
        (s.persisted.lookup "cache.json").getD []=[]) :=
  ⟨_,_,rfl,rfl,restart_restores_iff_empty (fun _ => true) 4 false _ _ connectAgain "cache.json"
    rfl (by decide)⟩

theorem copies_le_submitted_seven :
    ∃ t : Client Nat, exec (Client.step fun _ => true) (newClient 4 false) shutDown=some t ∧
      t.persisted=[("cache.json",[7])] ∧
      ∀ m, t.filed.count m+t.sent.count m+t.cache.contents.count m≤t.submitted.count m :=
  ⟨_,rfl,rfl,copies_le_submitted (fun _ => true) 4 false shutDown _ rfl⟩

/-- The next client is connected and has replayed its cache, but not the persisted metric. -/
theorem restart_forgets_metric :
    ¬ ∀ (pre : List (HostLabel Nat)) (post : List (Label Nat)) (s t : Client Nat) (path : String),
      exec (step (fun _ => true) 4 false) (newClient 4 false) pre=some s →
      exec (step (fun _ => true) 4 false) s (.restart::post.map .client)=some t →
      t.connected=true → t.loop.held=[] →
      ∀ m∈(s.persisted.lookup path).getD [], m∈t.cache.contents ∨ m∈t.sent := by
  intro hall
  have hm:=hall (shutDown.map .client) connectAgain _ _ "cache.json" rfl rfl rfl rfl 7 (by decide)
  exact absurd hm (by decide)

end Host
end OpsAgent.GrpcClient
