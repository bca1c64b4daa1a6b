import Mathlib.Data.String.Basic
import OpsAgent.Lib.Exec
import OpsAgent.Lib.GoStrings
import OpsAgent.Lib.Pool
import OpsAgent.Lib.SortedMap

/-!
# The tunnel gateway (`gateway/gateway.go`, `gateway/tunnel`)

Every connection has a goroutine in `handleIncoming`, and a tunnel is named by its position. The effects
of `Close` are steps of their own: `closed` is set and `done` is closed under the lock, the close message is
sent, and the connection is closed.
-/

namespace OpsAgent.Tunnel
open Lib Lib.GoStrings Option Bool

structure Config where
  (listenAddr authPSK : GoString)
  maxTunnels : Int

inductive Msg where
  | tunnelOpen
  | tunnelData (payload : GoString)
  | tunnelClose
  deriving DecidableEq

structure Sent where
  tunnelID : String
  msg : Msg

inductive Closing where
  | lock | send | hangUp
  deriving DecidableEq

inductive Site where
  | rejected | openFailed | relay
  deriving DecidableEq

inductive ReadErr where
  | none | timeout | eof | other
  deriving DecidableEq

inductive Pc where
  | auth | generate | add | opening | undo | select | reading
  | sending (payload : GoString) (err : ReadErr)
  | checking (err : ReadErr)
  | closing (stage : Closing) (site : Site)
  | removing | hangUp | returned
  deriving DecidableEq

structure Conn where
  pc : Pc
  id : Option String
  closed : Bool
  -- how often `done` has been closed
  doneCloses : Nat
  (connClosed pooled : Bool)

inductive Origin where
  | platform | idle | stop
  deriving DecidableEq

/-- A call of `HandleTunnelClose`, `CloseIdle` or `CloseAll` that has taken its
tunnels out of the pool. -/
structure Closer where
  origin : Origin
  -- the tunnels still to close, and where the `Close` of the first one is
  queue : List Nat
  stage : Closing
  completed : List Nat

inductive StopPc where
  | off | cancel | closeListener | closeAll | waiting
  deriving DecidableEq

structure Tables where
  conns : List Conn
  pool : SortedMap String Nat
  closers : List Closer
  sent : List Sent

structure Gateway extends Tables where
  (ctxDone listening reaperRunning running : Bool)
  stopPc : StopPc

inductive Ready where
  | ctxDone | done | default
  deriving DecidableEq

inductive Action where
  | authenticate (received : GoString)
  | generate (randBytes : Option GoString)
  | add
  | sendOpen (ok : Bool)
  | remove
  | select (ready : Ready)
  | read (payload : GoString) (err : ReadErr)
  | sendData (ok : Bool)
  | check | close | hangUp
  deriving DecidableEq

inductive Label where
  | accept
  | handler (i : Nat) (a : Action)
  | closer (k : Nat)
  | handleTunnelClose (tunnelID : String)
  | closeIdle (idle : List String)
  | reaperReturn | cancelParent | started | stop
  | stopNext (order : List String)

/-- `authenticateConnection` once `io.ReadFull` has read `received`. -/
def authenticateConnection (psk received : GoString) : Bool :=
  received.length == 32&&received == psk
def tunnelID (randBytes : GoString) : String := "tunnel-"++hex randBytes

namespace Conn

def accepted : Conn where
  pc := .auth
  id := none
  closed := false
  doneCloses := 0
  connClosed := false
  pooled := false

def goto (c : Conn) (pc : Pc) : Conn := {c with pc := pc}

/-- One step of `Tunnel.Close`: the tunnel after it, the message it sends, and where
the call goes on if it has not returned. -/
def close (c : Conn) : Closing → Conn × Option Msg × Option Closing
  | .lock =>
    if c.closed then (c,none,none)
    else ({c with closed := true, doneCloses := c.doneCloses+1},none,some .send)
  | .send => (c,some .tunnelClose,some .hangUp)
  | .hangUp => ({c with connClosed := true},none,none)

end Conn

def Site.next : Site → Pc
  | .rejected | .openFailed => .hangUp
  | .relay => .removing
def Site.resume (site : Site) : Option Closing → Pc
  | some next => .closing next site
  | none => site.next

inductive PoolOp where
  | keep | add | remove
  deriving DecidableEq

def bufSize : Nat := 32*1024
def Conn.mayRead (c : Conn) (payload : GoString) (err : ReadErr) : Bool :=
  payload.length≤bufSize&&(!c.connClosed||payload.isEmpty&&err == .other)

def Conn.act (cfg : Config) (ctxDone full : Bool) (c : Conn) (a : Action) :
    Option (Conn × PoolOp × Option Msg) :=
  match c.pc, a with
  | .auth, .authenticate received =>
    if cfg.authPSK=[] then some (c.goto .generate,.keep,none)
    else if 32<received.length then none
    else some (c.goto (if authenticateConnection cfg.authPSK received then .generate else .hangUp),
      .keep,none)
  | .generate, .generate none => some (c.goto .hangUp,.keep,none)
  | .generate, .generate (some randBytes) =>
    if randBytes.length=8 then
      some ({c with pc := .add, id := some (tunnelID randBytes)},.keep,none)
    else none
  | .add, .add =>
    if full then some (c.goto (.closing .lock .rejected),.keep,none)
    else some ({c with pc := .opening, pooled := true},.add,none)
  | .opening, .sendOpen ok => some (c.goto (if ok then .select else .undo),.keep,some .tunnelOpen)
  | .undo, .remove => some (c.goto (.closing .lock .openFailed),.remove,none)
  | .select, .select .ctxDone =>
    if ctxDone then some (c.goto (.closing .lock .relay),.keep,none) else none
  | .select, .select .done => if c.closed then some (c.goto .removing,.keep,none) else none
  | .select, .select .default =>
    if ctxDone||c.closed then none else some (c.goto .reading,.keep,none)
  | .reading, .read payload err =>
    if c.mayRead payload err then
      some (c.goto (if payload=[] then .checking err else .sending payload err),.keep,none)
    else none
  | .sending payload err, .sendData ok =>
    some (c.goto (if ok then .checking err else .closing .lock .relay),.keep,
      some (.tunnelData payload))
  | .checking .none, .check | .checking .timeout, .check => some (c.goto .select,.keep,none)
  | .checking .eof, .check => some (c.goto .removing,.keep,none)
  | .checking .other, .check => some (c.goto (.closing .lock .relay),.keep,none)
  | .closing stage site, .close =>
    let (c',msg,next) := c.close stage
    some (c'.goto (site.resume next),.keep,msg)
  | .removing, .remove => some (c.goto .hangUp,.remove,none)
  | .hangUp, .hangUp => some ({c with pc := .returned, connClosed := true},.keep,none)
  | _, _ => none

def PoolOp.run (op : PoolOp) (id : Option String) (i : Nat) (pool : SortedMap String Nat) :
    SortedMap String Nat :=
  match op, id with
  | .add, some d => pool.insert d i
  | .remove, some d => pool.erase d
  | _, _ => pool

def stamp (id : Option String) (msg : Option Msg) : List Sent :=
  match id, msg with
  | some d, some m => [⟨d,m⟩]
  | _, _ => []

def takeOut (pool : SortedMap String Nat) : List String → SortedMap String Nat × List Nat
  | [] => (pool,[])
  | d::ds =>
    match pool.get? d with
    | none => takeOut pool ds
    | some i =>
      let rest:=takeOut (pool.erase d) ds
      (rest.1,i::rest.2)

def Closer.next (cl : Closer) (i : Nat) (rest : List Nat) : Option Closing → Closer
  | some stage => {cl with stage := stage}
  | none => {cl with queue := rest, stage := .lock, completed := cl.completed++[i]}

namespace Tables

def accept (t : Tables) : Tables := {t with conns := t.conns++[Conn.accepted]}

def handled (t : Tables) (i : Nat) (c c' : Conn) (op : PoolOp) (msg : Option Msg) : Tables :=
  { t with
    conns := t.conns.set i c'
    pool := op.run c.id i t.pool
    sent := t.sent++stamp c.id msg}

def closeStep (t : Tables) (k : Nat) (cl : Closer) (i : Nat) (rest : List Nat) (c : Conn) :
    Tables :=
  { t with
    conns := t.conns.set i (c.close cl.stage).1
    closers := t.closers.set k (cl.next i rest (c.close cl.stage).2.2)
    sent := t.sent++stamp c.id (c.close cl.stage).2.1}

def take (t : Tables) (origin : Origin) (ids : List String) : Tables :=
  { t with
    pool := (takeOut t.pool ids).1
    closers := t.closers++[⟨origin,(takeOut t.pool ids).2,.lock,[]⟩]}
def full (cfg : Config) (t : Tables) : Bool := cfg.maxTunnels≤t.pool.size
def messages (t : Tables) (d : String) : List Msg :=
  t.sent.filterMap fun s => if s.tunnelID=d then some s.msg else none

end Tables

namespace Gateway

def start (cfg : Config) : Gateway where
  conns := []
  pool := .empty
  closers := []
  sent := []
  ctxDone := false
  listening := cfg.listenAddr≠[]
  reaperRunning := true
  running := false
  stopPc := .off

def reaperWaits (g : Gateway) : Bool :=
  g.reaperRunning&&g.closers.all fun cl => cl.origin ≠ .idle||cl.queue.isEmpty

def step (cfg : Config) (g : Gateway) : Label → Option Gateway
  | .accept => if g.listening then some {g with toTables := g.accept} else none
  | .handler i a =>
    g.conns[i]?.bind fun c =>
      (c.act cfg g.ctxDone (g.full cfg) a).map fun r =>
        {g with toTables := g.handled i c r.1 r.2.1 r.2.2}
  | .closer k =>
    g.closers[k]?.bind fun cl =>
      match cl.queue with
      | [] => none
      | i::rest => g.conns[i]?.map fun c => {g with toTables := g.closeStep k cl i rest c}
  | .handleTunnelClose d => some {g with toTables := g.take .platform [d]}
  | .closeIdle idle =>
    if g.reaperWaits then some {g with toTables := g.take .idle idle} else none
  | .reaperReturn =>
    if g.ctxDone&&g.reaperWaits then some {g with reaperRunning := false} else none
  | .cancelParent => some {g with ctxDone := true}
  | .started => if g.running||g.stopPc ≠ .off then none else some {g with running := true}
  | .stop => some (if g.running then {g with running := false, stopPc := .cancel} else g)
  | .stopNext order =>
    match g.stopPc with
    | .cancel => some {g with ctxDone := true, stopPc := .closeListener}
    | .closeListener => some {g with listening := false, stopPc := .closeAll}
    | .closeAll =>
      if g.pool.keys.all order.contains then
        some {g with toTables := g.take .stop order, stopPc := .waiting}
      else none
    | .off | .waiting => none

end Gateway

section
variable (cfg : Config) (ctxDone full : Bool) (c : Conn)

inductive Conn.Acts : Action → Conn → PoolOp → Option Msg → Prop
  | authenticated (received) (hpc : c.pc=.auth)
      (h : cfg.authPSK=[] ∨ authenticateConnection cfg.authPSK received) :
      Acts (.authenticate received) (c.goto .generate) .keep none
  | refuse (received) (hpc : c.pc=.auth) (h : authenticateConnection cfg.authPSK received=false) :
      Acts (.authenticate received) (c.goto .hangUp) .keep none
  | noID (hpc : c.pc=.generate) : Acts (.generate none) (c.goto .hangUp) .keep none
  | newID (randBytes) (hpc : c.pc=.generate) (h : randBytes.length=8) :
      Acts (.generate (some randBytes))
        {c with pc := .add, id := some (tunnelID randBytes)} .keep none
  | reject (hpc : c.pc=.add) (h : full) : Acts .add (c.goto (.closing .lock .rejected)) .keep none
  | add (hpc : c.pc=.add) (h : full=false) :
      Acts .add {c with pc := .opening, pooled := true} .add none
  | sendOpen (ok) (hpc : c.pc=.opening) :
      Acts (.sendOpen ok) (c.goto (if ok then .select else .undo)) .keep (some .tunnelOpen)
  | undo (hpc : c.pc=.undo) : Acts .remove (c.goto (.closing .lock .openFailed)) .remove none
  | cancelled (hpc : c.pc=.select) (h : ctxDone) :
      Acts (.select .ctxDone) (c.goto (.closing .lock .relay)) .keep none
  | done (hpc : c.pc=.select) (h : c.closed) : Acts (.select .done) (c.goto .removing) .keep none
  | default (hpc : c.pc=.select) (h : ctxDone=false) (hc : c.closed=false) :
      Acts (.select .default) (c.goto .reading) .keep none
  | read (payload err) (hpc : c.pc=.reading) (h : c.mayRead payload err) : Acts (.read payload err)
        (c.goto (if payload=[] then .checking err else .sending payload err)) .keep none
  | sendData (payload err ok) (hpc : c.pc=.sending payload err) : Acts (.sendData ok)
        (c.goto (if ok then .checking err else .closing .lock .relay)) .keep
        (some (.tunnelData payload))
  | again (err) (hpc : c.pc=.checking err) (h : err=.none ∨ err=.timeout) :
      Acts .check (c.goto .select) .keep none
  | eof (hpc : c.pc=.checking .eof) : Acts .check (c.goto .removing) .keep none
  | failed (hpc : c.pc=.checking .other) : Acts .check (c.goto (.closing .lock .relay)) .keep none
  | close (stage site) (hpc : c.pc=.closing stage site) :
      Acts .close ((c.close stage).1.goto (site.resume (c.close stage).2.2))
        .keep (c.close stage).2.1
  | remove (hpc : c.pc=.removing) : Acts .remove (c.goto .hangUp) .remove none
  | hangUp (hpc : c.pc=.hangUp) :
      Acts .hangUp {c with pc := .returned, connClosed := true} .keep none

end

theorem Conn.acts_of_act {cfg : Config} {ctxDone full : Bool} {c : Conn} {a : Action}
    {r : Conn × PoolOp × Option Msg} (h : c.act cfg ctxDone full a=some r) :
    c.Acts cfg ctxDone full a r.1 r.2.1 r.2.2 := by
  unfold Conn.act at h
  split at h
  case h_1 received hpc =>
    split at h
    case isTrue hpsk =>
      cases h
      exact .authenticated received hpc (.inl hpsk)
    case isFalse =>
      split at h
      · cases h
      cases h
      cases hauth : authenticateConnection cfg.authPSK received with
      | true => exact .authenticated received hpc (.inr hauth)
      | false => exact .refuse received hpc hauth
  case h_2 hpc =>
    cases h
    exact .noID hpc
  case h_3 randBytes hpc =>
    split at h
    case isTrue hlen =>
      cases h
      exact .newID randBytes hpc hlen
    case isFalse => cases h
  case h_4 hpc =>
    split at h
    case isTrue hfull =>
      cases h
      exact .reject hpc hfull
    case isFalse hfull =>
      cases h
      exact .add hpc (eq_false_iff.mpr hfull)
  case h_5 ok hpc =>
    cases h
    exact .sendOpen ok hpc
  case h_6 hpc =>
    cases h
    exact .undo hpc
  case h_7 hpc =>
    split at h
    case isTrue hdone =>
      cases h
      exact .cancelled hpc hdone
    case isFalse => cases h
  case h_8 hpc =>
    split at h
    case isTrue hclosed =>
      cases h
      exact .done hpc hclosed
    case isFalse => cases h
  case h_9 hpc =>
    split at h
    case isTrue => cases h
    case isFalse hready =>
      cases h
      obtain ⟨hdone,hclosed⟩ := or_eq_false_iff.mp (eq_false_iff.mpr hready)
      exact .default hpc hdone hclosed
  case h_10 payload err hpc =>
    split at h
    case isTrue hread =>
      cases h
      exact .read payload err hpc hread
    case isFalse => cases h
  case h_11 payload err ok hpc =>
    cases h
    exact .sendData payload err ok hpc
  case h_12 hpc =>
    cases h
    exact .again .none hpc (.inl rfl)
  case h_13 hpc =>
    cases h
    exact .again .timeout hpc (.inr rfl)
  case h_14 hpc =>
    cases h
    exact .eof hpc
  case h_15 hpc =>
    cases h
    exact .failed hpc
  case h_16 stage site hpc =>
    cases h
    exact .close stage site hpc
  case h_17 hpc =>
    cases h
    exact .remove hpc
  case h_18 hpc =>
    cases h
    exact .hangUp hpc
  case h_19 => cases h

inductive Moves (cfg : Config) (ctxDone : Bool) (t : Tables) : Label → Tables → Prop
  | accept : Moves cfg ctxDone t .accept t.accept
  | handler {i a c c' op msg}
      (hi : t.conns[i]?=some c) (ha : c.Acts cfg ctxDone (t.full cfg) a c' op msg) :
      Moves cfg ctxDone t (.handler i a) (t.handled i c c' op msg)
  | closer {k i cl rest c} (hk : t.closers[k]?=some cl)
      (hq : cl.queue=i::rest) (hi : t.conns[i]?=some c) :
      Moves cfg ctxDone t (.closer k) (t.closeStep k cl i rest c)
  | take (origin ids l) : Moves cfg ctxDone t l (t.take origin ids)
  | control (l) : Moves cfg ctxDone t l t

theorem Gateway.moves_of_step {cfg : Config} {g g' : Gateway} {l : Label}
    (h : g.step cfg l=some g') : Moves cfg g.ctxDone g.toTables l g'.toTables := by
  cases l with
  | accept =>
    obtain ⟨-,h⟩ := ite_none_right_eq_some.mp h
    cases h
    exact .accept
  | handler i a =>
    obtain ⟨c,hi,h⟩ := bind_eq_some_iff.mp h
    obtain ⟨r,hr,h⟩ := map_eq_some_iff.mp h
    cases h
    exact .handler hi (Conn.acts_of_act hr)
  | closer k =>
    obtain ⟨cl,hk,h⟩ := bind_eq_some_iff.mp h
    cases hq : cl.queue with
    | nil =>
      rw [hq] at h
      cases h
    | cons i rest =>
      rw [hq] at h
      obtain ⟨c,hi,h⟩ := map_eq_some_iff.mp h
      cases h
      exact .closer hk hq hi
  | handleTunnelClose d =>
    cases h
    exact .take .platform [d] _
  | closeIdle idle =>
    obtain ⟨-,h⟩ := ite_none_right_eq_some.mp h
    cases h
    exact .take .idle idle _
  | reaperReturn =>
    obtain ⟨-,h⟩ := ite_none_right_eq_some.mp h
    cases h
    exact .control _
  | cancelParent =>
    cases h
    exact .control _
  | started =>
    obtain ⟨-,h⟩ := ite_none_left_eq_some.mp h
    cases h
    exact .control _
  | stop =>
    cases h
    rw [apply_ite Gateway.toTables,ite_self]
    exact .control _
  | stopNext order =>
    rw [Gateway.step] at h
    split at h
    case h_1 =>
      cases h
      exact .control _
    case h_2 =>
      cases h
      exact .control _
    case h_3 =>
      obtain ⟨-,h⟩ := ite_none_right_eq_some.mp h
      cases h
      exact .take .stop order _
    all_goals cases h

end OpsAgent.Tunnel
