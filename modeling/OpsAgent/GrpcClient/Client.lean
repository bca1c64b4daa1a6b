import OpsAgent.Lib.Exec
import OpsAgent.GrpcClient.MetricCache

/-!
# The platform client as a system of goroutines (`grpcclient/client.go`)

A step is one critical section, one call of the gRPC library or one wait, with its answer. A connection
is named by the number of the `grpc.NewClient` call that made it.
-/

namespace OpsAgent.GrpcClient
open Lib.BoundedFifo

inductive Site where
  | top | retry
  deriving DecidableEq

inductive LoopPc (α : Type) where
  | notStarted
  | dial (site : Site)
  | openStream (site : Site) (conn : Nat)
  | register (site : Site) (conn : Nat)
  -- the critical section that sets `c.conn`, `c.stream` and `c.connected`
  | store (site : Site) (conn : Nat)
  | notifyUp (site : Site)
  | replayDrain (site : Site)
  -- `replayCache` has drained and is about to read `c.stream`
  | replayStream (site : Site) (metrics : List α)
  -- `replayCache` is sending; `metrics` is `metrics[i:]`
  | replaySend (site : Site) (stream : Nat) (metrics : List α)
  | recache (site : Site) (metrics : List α)
  | backoff | loopSelect | loopStream
  | recv (stream : Nat)
  -- `setConnected(false)`, followed by `closeConn` when `close`
  | setDown (close : Bool)
  | notifyDown (close : Bool)
  | closeDown | afterLoop | returned

def LoopPc.finished {α : Type} : LoopPc α → Bool
  | .notStarted => true
  | .returned => true
  | _ => false

inductive Call (α : Type) where
  | sendMetrics (metrics : List α)
  | sendBatch (stream : Nat) (metrics : List α)
  | cacheRest (metrics : List α)
  -- a heartbeat, exec, health or tunnel message: the same code with no cache
  | sendOther
  | sendMessage (stream : Nat)
  | stopCancel | stopWait | stopClose
  | flushDrain (path : String)
  | flushCancel (path : String) (metrics : List α)
  | flushStream (path : String) (metrics : List α)
  -- `FlushAndStop` is sending; `metrics` is `metrics[i:]`
  | flushSend (path : String) (stream : Nat) (metrics : List α)
  | flushPersist (path : String) (metrics : List α)
  | flushClose | flushWait | done

structure Client (α : Type) where
  cache : MetricCache α
  (conn stream : Option Nat)
  (connected onStateChange cancelled : Bool)
  dialled : Nat
  opened : List Nat
  loop : LoopPc α
  calls : List (Call α)
  callbacks : List Bool
  (submitted sent : List α)
  -- the files that `FlushAndStop` has written, by their paths
  persisted : List (String × List α)
  evicted : List α

inductive Answer where
  | ok | fail | timer | ctxDone
  deriving DecidableEq

inductive Label (α : Type) where
  | start | parentDone
  | enterSendMetrics (metrics : List α)
  | enterSendOther | enterStop
  | enterFlushAndStop (persistPath : String)
  | loop (a : Answer)
  | call (i : Nat) (a : Answer)

variable {α : Type}

def newClient [Inhabited α] (cacheMaxSize : Int) (onStateChange : Bool) : Client α where
  cache := newMetricCache (if cacheMaxSize≤0 then 10000 else cacheMaxSize)
  conn := none
  stream := none
  connected := false
  onStateChange := onStateChange
  cancelled := false
  dialled := 0
  opened := []
  loop := .notStarted
  calls := []
  callbacks := []
  submitted := []
  sent := []
  persisted := []
  evicted := []

namespace Client

def batchSize : Nat := 100
def cacheAdd [Inhabited α] (s : Client α) (m : α) : Client α :=
  { s with cache := s.cache.add m,
           evicted := s.evicted++dropped s.cache.maxSize s.cache.contents}

/-- `os.WriteFile`: what the file held before is gone. -/
def writeFile (files : List (String × List α)) (path : String) (metrics : List α) :
    List (String × List α) :=
  (path,metrics)::files.filter fun f => f.1 != path

def closeConn (s : Client α) : Client α :=
  { s with opened := match s.conn with
             | some c => s.opened.erase c
             | none => s.opened
           conn := none, stream := none, connected := false}

def cancel (s : Client α) : Client α :=
  { s with cancelled := match s.loop with
             | .notStarted => s.cancelled
             | _ => true}
def notify (s : Client α) (v : Bool) : Client α :=
  {s with callbacks := if s.onStateChange then s.callbacks++[v] else s.callbacks}

/-- What `connectLoop` does when `connect` returns: the call at the top of the
loop logs its error and goes on to the back-off in either case. -/
def connectReturned : Site → Bool → LoopPc α
  | .top, _ => .backoff
  | .retry, true => .loopSelect
  | .retry, false => .backoff
def abandon (s : Client α) (site : Site) (conn : Nat) : Client α :=
  {s with opened := s.opened.erase conn, loop := connectReturned site false}

def stepLoop [Inhabited α] (s : Client α) (a : Answer) : Option (Client α) :=
  match s.loop, a with
  | .dial site, .ok =>
    some { s with opened := s.opened++[s.dialled], dialled := s.dialled+1,
                  loop := .openStream site s.dialled}
  | .dial site, .fail => some {s with loop := connectReturned site false}
  | .openStream site conn, .ok => some {s with loop := .register site conn}
  | .openStream site conn, .fail => some (s.abandon site conn)
  | .register site conn, .ok => some {s with loop := .store site conn}
  | .register site conn, .fail => some (s.abandon site conn)
  | .store site conn, .ok =>
    some {s with conn := some conn, stream := some conn, connected := true, loop := .notifyUp site}
  | .notifyUp site, .ok => some {s.notify true with loop := .replayDrain site}
  | .replayDrain site, .ok =>
    let out:=s.cache.drain
    some { s with cache := out.2,
                  loop := if out.1=[] then connectReturned site true
                    else .replayStream site out.1}
  | .replayStream site metrics, .ok =>
    some { s with loop := match s.stream with
             | none => connectReturned site true
             | some stream => .replaySend site stream metrics}
  | .replaySend site stream metrics, .ok =>
    let rest:=metrics.drop batchSize
    some { s with sent := s.sent++metrics.take batchSize,
                  loop := if rest=[] then connectReturned site true
                    else .replaySend site stream rest}
  | .replaySend site _ metrics, .fail => some {s with loop := .recache site metrics}
  | .recache site (m::metrics), .ok => some {s.cacheAdd m with loop := .recache site metrics}
  | .recache site [], .ok => some {s with loop := connectReturned site true}
  | .backoff, .timer => some {s with loop := .dial .retry}
  | .backoff, .ctxDone => if s.cancelled then some {s with loop := .returned} else none
  | .loopSelect, .ok =>
    some {s with loop := if s.cancelled then .setDown false else .loopStream}
  | .loopStream, .ok =>
    some { s with loop := match s.stream with
             | none => .setDown false
             | some stream => .recv stream}
  | .recv _, .ok => some {s with loop := .loopSelect}
  | .recv _, .fail => some {s with loop := .setDown true}
  | .setDown close, .ok =>
    some { s with connected := false,
                  loop := if s.connected then .notifyDown close
                    else if close then .closeDown else .afterLoop}
  | .notifyDown close, .ok =>
    some {s.notify false with loop := if close then .closeDown else .afterLoop}
  | .closeDown, .ok => some {s.closeConn with loop := .afterLoop}
  | .afterLoop, .ok => some {s with loop := if s.cancelled then .returned else .dial .top}
  | _, _ => none

def stepCall [Inhabited α] (encodable : α → Bool) (s : Client α) (c : Call α) (a : Answer) :
    Option (Call α × Client α) :=
  match c, a with
  | .sendMetrics metrics, .ok =>
    if metrics=[] then some (.done,s)
    else match s.connected, s.stream with
      | true, some stream => some (.sendBatch stream metrics,s)
      | _, _ => some (.cacheRest metrics,s)
  | .sendBatch _ metrics, .ok => some (.done,{s with sent := s.sent++metrics})
  | .sendBatch _ metrics, .fail => some (.cacheRest metrics,s)
  | .cacheRest (m::metrics), .ok => some (.cacheRest metrics,s.cacheAdd m)
  | .cacheRest [], .ok => some (.done,s)
  | .sendOther, .ok =>
    match s.connected, s.stream with
    | true, some stream => some (.sendMessage stream,s)
    | _, _ => some (.done,s)
  | .sendMessage _, .ok => some (.done,s)
  | .sendMessage _, .fail => some (.done,s)
  | .stopCancel, .ok => some (.stopWait,s.cancel)
  | .stopWait, .ok =>
    if s.loop.finished then some (.stopClose,s) else none
  | .stopClose, .ok => some (.done,s.closeConn)
  | .flushDrain path, .ok =>
    some (.flushCancel path s.cache.drain.1,{s with cache := s.cache.drain.2})
  | .flushCancel path metrics, .ok =>
    some (if metrics=[] then .flushClose else .flushStream path metrics,s.cancel)
  | .flushStream path metrics, .ok =>
    match s.stream with
    | none => some (.flushPersist path metrics,s)
    | some stream => some (.flushSend path stream metrics,s)
  | .flushSend path stream metrics, .ok =>
    let rest:=metrics.drop batchSize
    some (if rest=[] then .flushClose else .flushSend path stream rest,
      {s with sent := s.sent++metrics.take batchSize})
  | .flushSend path _ metrics, .fail => some (.flushPersist path metrics,s)
  | .flushSend path _ metrics, .ctxDone => some (.flushPersist path metrics,s)
  -- `persistMetrics` writes nothing when a metric cannot be encoded as JSON
  | .flushPersist path metrics, .ok =>
    if path≠"" ∧ metrics.all encodable then
      some (.flushClose,{s with persisted := writeFile s.persisted path metrics})
    else some (.flushClose,s)
  | .flushPersist _ _, .fail => some (.flushClose,s)
  | .flushClose, .ok => some (.flushWait,s.closeConn)
  | .flushWait, .ok =>
    if s.loop.finished then some (.done,s) else none
  | _, _ => none

def enter (s : Client α) (c : Call α) : Client α := {s with calls := s.calls++[c]}

def step [Inhabited α] (encodable : α → Bool) (s : Client α) : Label α → Option (Client α)
  | .start => match s.loop with
    | .notStarted => some {s with loop := .dial .top}
    | _ => none
  | .parentDone => some {s with cancelled := true}
  | .enterSendMetrics metrics =>
    some {s.enter (.sendMetrics metrics) with submitted := s.submitted++metrics}
  | .enterSendOther => some (s.enter .sendOther)
  | .enterStop => some (s.enter .stopCancel)
  | .enterFlushAndStop path => some (s.enter (.flushDrain path))
  | .loop a => s.stepLoop a
  | .call i a => match s.calls[i]? with
    | none => none
    | some c => match s.stepCall encodable c a with
      | none => none
      | some r => some {r.2 with calls := r.2.calls.set i r.1}

variable [Inhabited α]

/- The steps of the goroutine of `connectLoop`. -/
inductive LoopTurns (s : Client α) : LoopPc α → Answer → Client α → Prop
  | dialled (site) : LoopTurns s (.dial site) .ok
      { s with opened := s.opened++[s.dialled], dialled := s.dialled+1,
               loop := .openStream site s.dialled}
  | dialFailed (site) : LoopTurns s (.dial site) .fail {s with loop := connectReturned site false}
  | streamOpened (site conn) :
    LoopTurns s (.openStream site conn) .ok {s with loop := .register site conn}
  | openFailed (site conn) : LoopTurns s (.openStream site conn) .fail (s.abandon site conn)
  | registered (site conn) : LoopTurns s (.register site conn) .ok {s with loop := .store site conn}
  | registerFailed (site conn) : LoopTurns s (.register site conn) .fail (s.abandon site conn)
  | stored (site conn) : LoopTurns s (.store site conn) .ok
      {s with conn := some conn, stream := some conn, connected := true, loop := .notifyUp site}
  | notifiedUp (site) :
    LoopTurns s (.notifyUp site) .ok {s.notify true with loop := .replayDrain site}
  | drainedNone (site) : s.cache.drain.1=[] → LoopTurns s (.replayDrain site) .ok
      {s with cache := s.cache.drain.2, loop := connectReturned site true}
  | drainedSome (site) : s.cache.drain.1≠[] → LoopTurns s (.replayDrain site) .ok
      {s with cache := s.cache.drain.2, loop := .replayStream site s.cache.drain.1}
  | replayLost (site metrics) : s.stream=none →
    LoopTurns s (.replayStream site metrics) .ok {s with loop := connectReturned site true}
  | replayStarted (site metrics stream) : s.stream=some stream →
    LoopTurns s (.replayStream site metrics) .ok {s with loop := .replaySend site stream metrics}
  | replayedLast (site stream metrics) : metrics.drop batchSize=[] →
    LoopTurns s (.replaySend site stream metrics) .ok
      {s with sent := s.sent++metrics.take batchSize, loop := connectReturned site true}
  | replayedBatch (site stream metrics) : metrics.drop batchSize≠[] →
    LoopTurns s (.replaySend site stream metrics) .ok
      { s with sent := s.sent++metrics.take batchSize,
               loop := .replaySend site stream (metrics.drop batchSize)}
  | replayFailed (site stream metrics) :
    LoopTurns s (.replaySend site stream metrics) .fail {s with loop := .recache site metrics}
  | recached (site m metrics) : LoopTurns s (.recache site (m::metrics)) .ok
      {s.cacheAdd m with loop := .recache site metrics}
  | recachedAll (site) :
    LoopTurns s (.recache site []) .ok {s with loop := connectReturned site true}
  | retry : LoopTurns s .backoff .timer {s with loop := .dial .retry}
  | backoffDone : s.cancelled → LoopTurns s .backoff .ctxDone {s with loop := .returned}
  | loopDone : s.cancelled → LoopTurns s .loopSelect .ok {s with loop := .setDown false}
  | loopOn : s.cancelled=false → LoopTurns s .loopSelect .ok {s with loop := .loopStream}
  | streamGone : s.stream=none → LoopTurns s .loopStream .ok {s with loop := .setDown false}
  | receiving (stream) : s.stream=some stream →
    LoopTurns s .loopStream .ok {s with loop := .recv stream}
  | received (stream) : LoopTurns s (.recv stream) .ok {s with loop := .loopSelect}
  | recvFailed (stream) : LoopTurns s (.recv stream) .fail {s with loop := .setDown true}
  | wentDown (close) : s.connected →
    LoopTurns s (.setDown close) .ok {s with connected := false, loop := .notifyDown close}
  | wasDown (close) : s.connected=false → LoopTurns s (.setDown close) .ok
      {s with connected := false, loop := if close then .closeDown else .afterLoop}
  | notifiedDown (close) : LoopTurns s (.notifyDown close) .ok
      {s.notify false with loop := if close then .closeDown else .afterLoop}
  | closedDown : LoopTurns s .closeDown .ok {s.closeConn with loop := .afterLoop}
  | leftLoop : s.cancelled → LoopTurns s .afterLoop .ok {s with loop := .returned}
  | again : s.cancelled=false → LoopTurns s .afterLoop .ok {s with loop := .dial .top}

variable {s t : Client α} {a : Answer} {encodable : α → Bool}

theorem stepLoop_turns (h : s.stepLoop a=some t) : LoopTurns s s.loop a t := by
  cases hl : s.loop <;> cases a <;> simp only [stepLoop,hl,reduceCtorEq] at h
  case replayDrain.ok site =>
    cases h
    split
    next he => exact .drainedNone site he
    next he => exact .drainedSome site he
  case replayStream.ok site metrics =>
    cases h
    split
    next hs => exact .replayLost site metrics hs
    next stream hs => exact .replayStarted site metrics stream hs
  case replaySend.ok site stream metrics =>
    cases h
    split
    next he => exact .replayedLast site stream metrics he
    next he => exact .replayedBatch site stream metrics he
  case recache.ok site metrics =>
    cases metrics <;> cases h
    · exact .recachedAll site
    · exact .recached site _ _
  case backoff.ctxDone =>
    split at h <;> cases h
    next hc => exact .backoffDone hc
  case loopSelect.ok =>
    cases h
    split
    next hc => exact .loopDone hc
    next hc => exact .loopOn (Bool.eq_false_iff.mpr hc)
  case loopStream.ok =>
    cases h
    split
    next hs => exact .streamGone hs
    next stream hs => exact .receiving stream hs
  case setDown.ok close =>
    cases h
    split
    next hc => exact .wentDown close hc
    next hc => exact .wasDown close (Bool.eq_false_iff.mpr hc)
  case afterLoop.ok =>
    cases h
    split
    next hc => exact .leftLoop hc
    next hc => exact .again (Bool.eq_false_iff.mpr hc)
  all_goals
    cases h
    constructor

section
variable (encodable : α → Bool) (s : Client α)

inductive CallTurns : Call α → Answer → Call α → Client α → Prop
  | nothing : CallTurns (.sendMetrics []) .ok .done s
  | direct (metrics stream) : s.connected → s.stream=some stream →
    CallTurns (.sendMetrics metrics) .ok (.sendBatch stream metrics) s
  | offline (metrics) : CallTurns (.sendMetrics metrics) .ok (.cacheRest metrics) s
  | sent (stream metrics) : CallTurns (.sendBatch stream metrics) .ok .done
      {s with sent := s.sent++metrics}
  | sendFailed (stream metrics) : CallTurns (.sendBatch stream metrics) .fail (.cacheRest metrics) s
  | cached (m metrics) : CallTurns (.cacheRest (m::metrics)) .ok (.cacheRest metrics) (s.cacheAdd m)
  | cachedAll : CallTurns (.cacheRest []) .ok .done s
  | message (stream) : s.connected → s.stream=some stream →
    CallTurns .sendOther .ok (.sendMessage stream) s
  | noMessage : CallTurns .sendOther .ok .done s
  | messageSent (stream) : CallTurns (.sendMessage stream) .ok .done s
  | messageFailed (stream) : CallTurns (.sendMessage stream) .fail .done s
  | stopCancelled : CallTurns .stopCancel .ok .stopWait s.cancel
  | stopWaited : s.loop.finished → CallTurns .stopWait .ok .stopClose s
  | stopClosed : CallTurns .stopClose .ok .done s.closeConn
  | flushDrained (path) : CallTurns (.flushDrain path) .ok (.flushCancel path s.cache.drain.1)
      {s with cache := s.cache.drain.2}
  | flushNothing (path) : CallTurns (.flushCancel path []) .ok .flushClose s.cancel
  | flushCancelled (path m metrics) :
    CallTurns (.flushCancel path (m::metrics)) .ok (.flushStream path (m::metrics)) s.cancel
  | flushOffline (path metrics) : s.stream=none →
    CallTurns (.flushStream path metrics) .ok (.flushPersist path metrics) s
  | flushStarted (path metrics stream) : s.stream=some stream →
    CallTurns (.flushStream path metrics) .ok (.flushSend path stream metrics) s
  | flushedLast (path stream metrics) : metrics.drop batchSize=[] →
    CallTurns (.flushSend path stream metrics) .ok .flushClose
      {s with sent := s.sent++metrics.take batchSize}
  | flushedBatch (path stream metrics) : metrics.drop batchSize≠[] →
    CallTurns (.flushSend path stream metrics) .ok (.flushSend path stream (metrics.drop batchSize))
      {s with sent := s.sent++metrics.take batchSize}
  | flushFailed (path stream metrics) :
    CallTurns (.flushSend path stream metrics) .fail (.flushPersist path metrics) s
  | flushTimedOut (path stream metrics) :
    CallTurns (.flushSend path stream metrics) .ctxDone (.flushPersist path metrics) s
  | persisted (path metrics) : path≠"" → metrics.all encodable →
    CallTurns (.flushPersist path metrics) .ok .flushClose
      {s with persisted := writeFile s.persisted path metrics}
  | unpersisted (path metrics) : ¬ (path≠"" ∧ metrics.all encodable) →
    CallTurns (.flushPersist path metrics) .ok .flushClose s
  | persistFailed (path metrics) : CallTurns (.flushPersist path metrics) .fail .flushClose s
  | flushClosed : CallTurns .flushClose .ok .flushWait s.closeConn
  | flushWaited : s.loop.finished → CallTurns .flushWait .ok .done s

end

theorem stepCall_turns {c : Call α} {r : Call α × Client α} (h : s.stepCall encodable c a=some r) :
    CallTurns encodable s c a r.1 r.2 := by
  cases c <;> cases a <;> simp only [stepCall,reduceCtorEq] at h
  case sendMetrics.ok metrics =>
    split at h
    next he =>
      cases h
      rw [he]
      exact .nothing
    next =>
      split at h <;> cases h
      next stream hc hs => exact .direct metrics stream hc hs
      next => exact .offline metrics
  case cacheRest.ok metrics =>
    cases metrics <;> cases h
    · exact .cachedAll
    · exact .cached _ _
  case sendOther.ok =>
    split at h <;> cases h
    next stream hc hs => exact .message stream hc hs
    next => exact .noMessage
  case stopWait.ok =>
    split at h <;> cases h
    next hf => exact .stopWaited hf
  case flushCancel.ok path metrics =>
    cases metrics <;> cases h
    · exact .flushNothing path
    · exact .flushCancelled path _ _
  case flushStream.ok path metrics =>
    split at h <;> cases h
    next hs => exact .flushOffline path metrics hs
    next stream hs => exact .flushStarted path metrics stream hs
  case flushSend.ok path stream metrics =>
    cases h
    dsimp only
    split
    next he => exact .flushedLast path stream metrics he
    next he => exact .flushedBatch path stream metrics he
  case flushPersist.ok path metrics =>
    split at h <;> cases h
    next he => exact .persisted path metrics he.1 he.2
    next he => exact .unpersisted path metrics he
  case flushWait.ok =>
    split at h <;> cases h
    next hf => exact .flushWaited hf
  all_goals
    cases h
    constructor

theorem step_start (h : s.step encodable .start=some t) :
    s.loop=.notStarted ∧ t = {s with loop := .dial .top} := by
  simp only [step] at h
  split at h
  next hl =>
    cases h
    exact ⟨hl,rfl⟩
  next => contradiction

theorem step_call {i : Nat} (h : s.step encodable (.call i a)=some t) :
    ∃ c r, s.calls[i]?=some c ∧ s.stepCall encodable c a=some r ∧
      t = {r.2 with calls := r.2.calls.set i r.1} := by
  simp only [step] at h
  split at h
  next => contradiction
  next c hi =>
    split at h <;> cases h
    next r hc => exact ⟨c,r,hi,hc,rfl⟩

end Client
end OpsAgent.GrpcClient
