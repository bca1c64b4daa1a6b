import OpsAgent.App.ActiveTasks

/-!
# Messages of the platform (`grpcclient/client.go`, `grpcclient/receiver.go`, `app/agent.go`)

`messageLoop` calls the handler of a message before it receives the next one.
-/

namespace OpsAgent.App
open Lib List Option
open Lib.Exec

inductive PlatformMessage where
  | executeCommand (taskId : String)
  | executeScript (taskId : String)
  | cancelJob (taskId : String)
  -- configuration updates, health checks, tunnels, proxied commands and acknowledgements
  | other
  deriving DecidableEq

def PlatformMessage.executes (taskId : String) : PlatformMessage → Bool
  | .executeCommand t | .executeScript t => t == taskId
  | _ => false

inductive LoopPc where
  | recv
  | handling (m : PlatformMessage)
  -- in `ExecuteCommand` or `ExecuteScript` of the sandbox, or `Execute` of the executor
  | executing (taskId : String)
  | cancelling (i : Nat)
  | ended
  deriving DecidableEq

structure ExecResult where
  taskId : String
  exitCode : Int
  deriving DecidableEq

structure PlatformStream where
  agent : Agent
  allowUnsandboxedFallback : Bool
  -- what the platform has sent, and how many messages have been handled
  sent : List PlatformMessage
  handled : Nat
  loop : LoopPc
  -- the messages whose command or script has ended, and the results that were sent
  finished : List Nat
  results : List ExecResult
  ctxDone : Bool

inductive StreamEvent where
  | platform (m : PlatformMessage)
  | agent (l : Label)
  | recv | handle
  | finish (exitCode : Int)
  | call | ctxCancel | loopEnd

def Label.isCancel : Label → Bool
  | .cancel _ | .runCancel _ => true
  | _ => false

namespace PlatformStream

def start (agent : Agent) (allowUnsandboxedFallback : Bool) : PlatformStream where
  agent := agent
  allowUnsandboxedFallback := allowUnsandboxedFallback
  sent := []
  handled := 0
  loop := .recv
  finished := []
  results := []
  ctxDone := false

def next (s : PlatformStream) : PlatformStream := {s with handled := s.handled+1, loop := .recv}
def conclude (s : PlatformStream) (results : List ExecResult) : PlatformStream :=
  next {s with finished := s.handled::s.finished, results := s.results++results}

def handle (s : PlatformStream) : PlatformMessage → PlatformStream
  | .executeCommand t =>
    if s.agent.shuttingDown then s.conclude []
    else if s.agent.sandboxExec||s.allowUnsandboxedFallback then {s with loop := .executing t}
    else s.conclude [⟨t,-1⟩]
  | .executeScript t =>
    if s.agent.shuttingDown then s.conclude []
    else if s.agent.sandboxExec then {s with loop := .executing t}
    else s.conclude [⟨t,-1⟩]
  | .cancelJob t => (s.agent.activeTasks.load t).elim s.next fun i => {s with loop := .cancelling i}
  | .other => s.next

def step (s : PlatformStream) : StreamEvent → Option PlatformStream
  | .platform m => some {s with sent := s.sent++[m]}
  | .agent l => if l.isCancel then none else (s.agent.step l).map fun a => {s with agent := a}
  | .recv => if s.loop=.recv then s.sent[s.handled]?.map fun m => {s with loop := .handling m} else none
  | .handle => match s.loop with
    | .handling m => some (s.handle m)
    | _ => none
  | .finish exitCode => match s.loop with
    | .executing t => some (s.conclude [⟨t,exitCode⟩])
    | _ => none
  | .call => match s.loop with
    | .cancelling i => some (next {s with agent := s.agent.cancelTask i})
    | _ => none
  | .ctxCancel => some {s with ctxDone := true}
  | .loopEnd => if s.loop=.recv then some {s with loop := .ended} else none

inductive Advances (s : PlatformStream) : StreamEvent → PlatformStream → Prop where
  | platform {m} : Advances s (.platform m) {s with sent := s.sent++[m]}
  | outside {l agent ctxDone} : Advances s l {s with agent := agent, ctxDone := ctxDone}
  | recv {m} (hm : s.sent[s.handled]?=some m) : Advances s .recv {s with loop := .handling m}
  | handle {m} (hl : s.loop=.handling m) : Advances s .handle (s.handle m)
  | finish {taskId exitCode} (hl : s.loop=.executing taskId) :
      Advances s (.finish exitCode) (s.conclude [⟨taskId,exitCode⟩])
  | call {i agent} (hl : s.loop=.cancelling i) : Advances s .call (next {s with agent := agent})
  | loopEnd : Advances s .loopEnd {s with loop := .ended}

variable {s t : PlatformStream} {l : StreamEvent}

theorem advances_of_step (h : s.step l=some t) : Advances s l t := by
  unfold step at h
  split at h
  case _ =>
    cases h
    exact .platform
  case _ =>
    split at h
    · cases h
    · obtain ⟨a,-,rfl⟩ := map_eq_some_iff.mp h
      exact .outside
  case _ =>
    split at h
    · obtain ⟨m,hm,rfl⟩ := map_eq_some_iff.mp h
      exact .recv hm
    · cases h
  case _ =>
    split at h
    · cases h
      exact .handle ‹_›
    · cases h
  case _ =>
    split at h
    · cases h
      exact .finish ‹_›
    · cases h
  case _ =>
    split at h
    · cases h
      exact .call ‹_›
    · cases h
  case _ =>
    cases h
    exact .outside
  case _ =>
    split at h
    · cases h
      exact .loopEnd
    · cases h

def InTime (s : PlatformStream) (ls : List StreamEvent) (k c : Nat) : Prop :=
  ∃ ls₁ ls₂ t taskId, ls=ls₁ ++ .platform (.cancelJob taskId)::ls₂ ∧
    exec step s ls₁=some t ∧ t.sent.length=c ∧
    (t.sent[k]?.any fun m => m.executes taskId)=true ∧ k∉t.finished
def Cancels (s : PlatformStream) (ls : List StreamEvent) (k c : Nat) : Prop :=
  ∃ ls₁ ls₂ t, ls=ls₁++ls₂ ∧ exec step s ls₁=some t ∧ c<t.handled ∧ k∉t.finished ∧
    t.ctxDone
def Honoured (s : PlatformStream) (ls : List StreamEvent) (t : PlatformStream) : Prop :=
  ∀ k c, InTime s ls k c → k∈t.finished → Cancels s ls k c

def Current (s : PlatformStream) : LoopPc → Prop
  | .handling m => s.sent[s.handled]?=some m
  | .executing _ => s.handled<s.sent.length
  | .cancelling _ => ∃ taskId, s.sent[s.handled]?=some (.cancelJob taskId)
  | .recv | .ended => True

structure InOrder (s : PlatformStream) : Prop where
  current : s.Current s.loop
  bound : s.handled ≤ s.sent.length
  finished : ∀ k<s.handled, ∀ m taskId, s.sent[k]?=some m → m.executes taskId →
    k∈s.finished

theorem inOrder_start (agent : Agent) (fallback : Bool) : InOrder (start agent fallback) :=
  ⟨trivial,Nat.le_refl 0,fun k hk => absurd hk (Nat.not_lt_zero k)⟩

variable {m : PlatformMessage} {ls : List StreamEvent}

theorem InOrder.next (h : InOrder s)
    (hm : s.sent[s.handled]?=some m) (hno : ∀ taskId, m.executes taskId=false) : InOrder s.next := by
  refine ⟨trivial,(List.getElem?_eq_some_iff.mp hm).1,?_⟩
  intro k hk m' taskId hm' hexec
  rcases Nat.lt_succ_iff_lt_or_eq.mp hk with hlt | rfl
  · exact h.finished k hlt m' taskId hm' hexec
  · have heq : m=m' := some.inj (hm.symm.trans hm')
    rw [← heq,hno taskId] at hexec
    cases hexec

theorem InOrder.conclude (h : InOrder s) (hlt : s.handled<s.sent.length)
    (results : List ExecResult) : InOrder (s.conclude results) := by
  refine ⟨trivial,hlt,?_⟩
  intro k hk m taskId hm hexec
  rcases Nat.lt_succ_iff_lt_or_eq.mp hk with hlt | rfl
  · exact mem_cons_of_mem _ (h.finished k hlt m taskId hm hexec)
  · exact mem_cons_self

theorem InOrder.handle (h : InOrder s) (hm : s.sent[s.handled]?=some m) : InOrder (s.handle m) := by
  have hlt:=(List.getElem?_eq_some_iff.mp hm).1
  unfold PlatformStream.handle
  split
  · split
    · exact h.conclude hlt []
    · split
      · exact ⟨hlt,h.bound,h.finished⟩
      · exact h.conclude hlt _
  · split
    · exact h.conclude hlt []
    · split
      · exact ⟨hlt,h.bound,h.finished⟩
      · exact h.conclude hlt _
  · rename_i taskId
    cases s.agent.activeTasks.load taskId with
    | none => exact h.next hm fun _ => rfl
    | some i => exact ⟨⟨taskId,hm⟩,h.bound,h.finished⟩
  · exact h.next hm fun _ => rfl

theorem InOrder.platform (h : InOrder s) (m : PlatformMessage) :
    InOrder {s with sent := s.sent++[m]} := by
  have hsent : ∀ {k : Nat} {m' : PlatformMessage}, s.sent[k]?=some m' →
      (s.sent++[m])[k]?=some m' := by
    intro k m' hk
    rw [getElem?_append_left (List.getElem?_eq_some_iff.mp hk).1]
    exact hk
  have hlen : s.sent.length≤(s.sent++[m]).length := by simp
  refine ⟨?_,h.bound.trans hlen,?_⟩
  · have hcur:=h.current
    cases hl : s.loop with
    | handling m' =>
      rw [hl] at hcur
      exact hsent hcur
    | executing t =>
      rw [hl] at hcur
      exact Nat.lt_of_lt_of_le hcur hlen
    | cancelling i =>
      rw [hl] at hcur
      obtain ⟨taskId,hcur⟩ := hcur
      exact ⟨taskId,hsent hcur⟩
    | recv | ended => exact trivial
  · intro k hk m' taskId hm'
    rw [getElem?_append_left (Nat.lt_of_lt_of_le hk h.bound)] at hm'
    exact h.finished k hk m' taskId hm'

theorem inOrder_step (s : PlatformStream) (l : StreamEvent) (t : PlatformStream) (h : InOrder s)
    (hs : s.step l=some t) : InOrder t := by
  have hcur:=h.current
  cases advances_of_step hs with
  | @platform m => exact h.platform m
  | outside =>
    refine ⟨?_,h.bound,h.finished⟩
    cases hl : s.loop <;> rw [hl] at hcur <;> exact hcur
  | recv hm => exact ⟨hm,h.bound,h.finished⟩
  | handle hl =>
    rw [hl] at hcur
    exact h.handle hcur
  | finish hl =>
    rw [hl] at hcur
    exact h.conclude hcur _
  | @call i agent hl =>
    rw [hl] at hcur
    obtain ⟨taskId,hm⟩ := hcur
    have hcalled : InOrder {s with agent := agent} := by
      refine ⟨?_,h.bound,h.finished⟩
      rw [hl]
      exact ⟨taskId,hm⟩
    exact hcalled.next hm fun _ => rfl
  | loopEnd => exact ⟨trivial,h.bound,h.finished⟩

theorem sent_handle (s : PlatformStream) (m : PlatformMessage) : (s.handle m).sent=s.sent := by
  unfold handle
  split
  · split
    · rfl
    · split <;> rfl
  · split
    · rfl
    · split <;> rfl
  · rename_i taskId
    cases s.agent.activeTasks.load taskId <;> rfl
  · rfl

theorem sent_step (hs : s.step l=some t) : s.sent <+: t.sent := by
  cases advances_of_step hs with
  | platform => exact prefix_append _ _
  | @handle m => exact (s.sent_handle m) ▸ prefix_rfl
  | _ => exact prefix_rfl

theorem sent_exec (hr : exec step s ls=some t) : s.sent <+: t.sent := by
  refine exec_stable (I := fun u => s.sent <+: u.sent) ?_ prefix_rfl hr
  intro u l v hu hs
  exact hu.trans (sent_step hs)

theorem sent_of_append {u v : PlatformStream} {ls₁ ls₂ : List StreamEvent} {k : Nat} (hls : ls=ls₁++ls₂) (hv : exec step s ls=some v)
    (hu : exec step s ls₁=some u) (hm : u.sent[k]?=some m) : v.sent[k]?=some m := by
  subst hls
  obtain ⟨u',hu',hrest⟩ := exec_append hv
  cases hu.symm.trans hu'
  obtain ⟨more,hmore⟩ := sent_exec hrest
  rw [← hmore,getElem?_append_left (List.getElem?_eq_some_iff.mp hm).1]
  exact hm

theorem not_cancels {agent : Agent} {fallback : Bool} {k c : Nat}
    (hr : exec step (start agent fallback) ls=some t) (ht : InTime (start agent fallback) ls k c) :
    ¬ Cancels (start agent fallback) ls k c := by
  rintro ⟨ls₁,ls₂,u,hls,hu,hc,hfin,-⟩
  obtain ⟨ls₁',ls₂',v,taskId,hls',hv,hlen,hexec,-⟩ := ht
  have hin : InOrder u := exec_stable inOrder_step (inOrder_start agent fallback) hu
  obtain ⟨m,hm,hexec⟩ := any_eq_true _ _ |>.mp hexec
  have hk : k<u.handled := by
    have hkc:=(List.getElem?_eq_some_iff.mp hm).1
    omega
  obtain ⟨m',hm'⟩ : ∃ m', u.sent[k]?=some m' :=
    ⟨_,getElem?_eq_getElem (Nat.lt_of_lt_of_le hk hin.bound)⟩
  have hsame : m' = m :=
    some.inj ((sent_of_append hls hr hu hm').symm.trans (sent_of_append hls' hr hv hm))
  exact hfin (hin.finished k hk m' taskId hm' (hsame ▸ hexec))

end PlatformStream

open PlatformStream

/-- No request that comes in time is honoured: only runs without such a request are in order. -/
theorem honoured_iff (agent : Agent) (fallback : Bool) (ls : List StreamEvent) (t : PlatformStream)
    (hr : exec PlatformStream.step (.start agent fallback) ls=some t) :
    Honoured (.start agent fallback) ls t ↔
      ∀ k c, InTime (.start agent fallback) ls k c → k∉t.finished := by
  refine ⟨?_,fun h k c hin hk => absurd hk (h k c hin)⟩
  intro h k c hin hk
  exact not_cancels hr hin (h k c hin hk)

def idleStream : PlatformStream := .start (.start true false false) false
def cancelledEarly : List StreamEvent :=
  [.platform (.executeCommand "t"),.recv,.handle,.platform (.cancelJob "t")]

theorem inTime_cancelledEarly (ls : List StreamEvent) : InTime idleStream (cancelledEarly++ls) 0 1 := by
  obtain ⟨u,hu,hlen,hexec,hfin⟩ := exists_exec PlatformStream.step idleStream
    (cancelledEarly.take 3) (fun u => u.sent.length=1 ∧
      (u.sent[0]?.any fun m => m.executes "t")=true ∧ 0∉u.finished) (by decide +kernel)
  exact ⟨_,ls,u,"t",rfl,hu,hlen,hexec,hfin⟩

theorem honoured_underWay : ∃ t, exec PlatformStream.step idleStream cancelledEarly=some t ∧
    InTime idleStream cancelledEarly 0 1 ∧ t.loop=.executing "t" ∧ Honoured idleStream cancelledEarly t := by
  obtain ⟨t,hr,hloop,hfin⟩ := exists_exec PlatformStream.step idleStream cancelledEarly
    (fun t => t.loop=.executing "t" ∧ t.finished=[]) (by decide +kernel)
  refine ⟨t,hr,inTime_cancelledEarly [],hloop,
    (honoured_iff (.start true false false) false cancelledEarly t hr).mpr ?_⟩
  intro k c _
  rw [hfin]
  exact not_mem_nil

def cancelledInTime : List StreamEvent := cancelledEarly++[.finish 0,.recv,.handle]

theorem cancelledInTime_not_honoured : ∃ t, exec PlatformStream.step idleStream cancelledInTime=some t ∧
      InTime idleStream cancelledInTime 0 1 ∧ t.results=[⟨"t",0⟩] ∧ t.handled=2 ∧
      t.ctxDone=false ∧ ¬ Honoured idleStream cancelledInTime t := by
  have hin : InTime idleStream cancelledInTime 0 1 := inTime_cancelledEarly _
  obtain ⟨t,hr,hres,hhandled,hctx,hfin⟩ := exists_exec PlatformStream.step idleStream
    cancelledInTime (fun t => t.results=[⟨"t",0⟩] ∧ t.handled=2 ∧ t.ctxDone=false ∧
      0∈t.finished) (by decide +kernel)
  exact ⟨t,hr,hin,hres,hhandled,hctx,fun h => not_cancels hr hin (h 0 1 hin hfin)⟩

end OpsAgent.App
