import OpsAgent.GrpcClient.OneConnection

/-!
# Which goroutines call `Send` on a stream at the same time
-/

namespace OpsAgent.GrpcClient
open Lib.Exec List Option Bool

variable {α : Type} {stream : Nat}

def Call.sending : Call α → Option Nat
  | .sendBatch stream _ => some stream
  | .sendMessage stream => some stream
  | .flushSend _ stream _ => some stream
  | _ => none

def LoopPc.sending : LoopPc α → Option Nat
  | .register _ conn => some conn
  | .replaySend _ stream _ => some stream
  | _ => none

def Call.maySend : Call α → Bool
  | .sendMetrics _ => true
  | .sendBatch _ _ => true
  | .sendOther => true
  | .sendMessage _ => true
  | .flushDrain _ => true
  | .flushCancel _ _ => true
  | .flushStream _ _ => true
  | .flushSend _ _ _ => true
  | _ => false

def LoopPc.replaying : LoopPc α → Bool
  | .replayStream _ _ => true
  | .replaySend _ _ _ => true
  | _ => false

theorem maySend_of_sending {c : Call α} (h : c.sending=some stream) : c.maySend := by
  cases c <;> first | rfl | cases h
theorem register_or_replaying {l : LoopPc α} (h : l.sending=some stream) :
    l.pending=some stream ∨ l.replaying := by
  cases l <;> first | exact .inr rfl | exact .inl h | cases h

namespace Client

def sendsOn (s : Client α) (stream : Nat) : Nat :=
  (decide (s.loop.sending=some stream)).toNat +
    s.calls.countP fun c => decide (c.sending=some stream)
def senders (s : Client α) : Nat := s.loop.replaying.toNat+s.calls.countP Call.maySend

/-- A method that sends is called only while no other one and no replay is under way, and
`replayCache` begins only while no such method is. -/
def takesTurns (s : Client α) : Label α → Bool
  | .enterSendMetrics _ => s.senders == 0
  | .enterSendOther => s.senders == 0
  | .enterFlushAndStop _ => s.senders == 0
  | .loop _ => match s.loop with
    | .replayDrain _ => s.senders == 0
    | _ => true
  | _ => true

structure Private (s : Client α) : Prop where
  dialled : ∀ conn, s.loop.pending=some conn → conn<s.dialled
  stored : ∀ stream, s.stream=some stream → stream<s.loop.pending.getD s.dialled
  calls : ∀ c∈s.calls, ∀ stream, c.sending=some stream → stream<s.loop.pending.getD s.dialled

structure TakingTurns (s : Client α) : Prop where
  one : s.senders≤1
  known : s.Private

theorem countP_sending_le (s : Client α) (stream : Nat) :
    (s.calls.countP fun c => decide (c.sending=some stream)) ≤ s.calls.countP Call.maySend := by
  apply countP_mono_left
  intro c _ hc
  exact maySend_of_sending (of_decide_eq_true hc)

variable {s t : Client α} {a : Answer} {c d : Call α} {encodable : α → Bool} (site : Site)
  (v : Bool)

theorem takingTurns_sendsOn (h : s.TakingTurns) (stream : Nat) : s.sendsOn stream≤1 := by
  have hone:=h.one
  have hle:=s.countP_sending_le stream
  rw [senders] at hone
  rw [sendsOn]
  by_cases hl : s.loop.sending=some stream
  · rcases register_or_replaying hl with hp | hr
    · -- the connection being registered is known to the loop alone
      have hnone : (s.calls.countP fun c => decide (c.sending=some stream))=0 := by
        rw [countP_eq_zero]
        intro c hc hsend
        have hlt:=h.known.calls c hc stream (of_decide_eq_true hsend)
        rw [hp,getD_some] at hlt
        exact Nat.lt_irrefl _ hlt
      rw [hnone]
      exact toNat_le _
    · rw [hr,toNat_true] at hone
      have hle1:=toNat_le (decide (s.loop.sending=some stream))
      omega
  · rw [decide_eq_false hl,toNat_false]
    omega

theorem private_of_quiet (h : s.Private) (hd : t.dialled=s.dialled)
    (hs : ∀ stream, t.stream=some stream → s.stream=some stream) (hc : t.calls=s.calls)
    (hp : t.loop.pending=s.loop.pending) : t.Private := by
  refine ⟨?_,?_,?_⟩
  · rw [hp,hd]
    exact h.dialled
  · rw [hp,hd]
    exact fun stream hst => h.stored stream (hs stream hst)
  · rw [hp,hd,hc]
    exact h.calls

theorem private_of_connected (conn : Nat) (h : s.Private)
    (hl : s.loop.pending=some conn) (hd : t.dialled=s.dialled)
    (hs : ∀ stream, t.stream=some stream → s.stream=some stream ∨ stream=conn)
    (hc : t.calls=s.calls) (hp : t.loop.pending=none) : t.Private := by
  have hconn:=h.dialled conn hl
  have hstored:=h.stored
  have hcalls:=h.calls
  rw [hl,getD_some] at hstored hcalls
  refine ⟨?_,?_,?_⟩
  · rw [hp]
    exact fun _ he => absurd he.symm (some_ne_none _)
  · intro stream hst
    rw [hp,hd,getD_none]
    rcases hs stream hst with hst | rfl
    · exact (hstored stream hst).trans hconn
    · exact hconn
  · intro c hmem stream hst
    rw [hc] at hmem
    rw [hp,hd,getD_none]
    exact (hcalls c hmem stream hst).trans hconn

theorem connectReturned_pending :
    (connectReturned site v : LoopPc α).pending=none := by cases site <;> cases v <;> rfl
theorem connectReturned_replaying :
    (connectReturned site v : LoopPc α).replaying=false := by cases site <;> cases v <;> rfl

variable [Inhabited α]

theorem stepLoop_calls (h : s.stepLoop a=some t) : t.calls=s.calls := by
  have ht:=stepLoop_turns h
  generalize s.loop=pc at ht
  cases ht <;> rfl

theorem stepLoop_private (hs : s.Private) (h : s.stepLoop a=some t) : t.Private := by
  have hcalls:=stepLoop_calls h
  have ht:=stepLoop_turns h
  generalize hl : s.loop=pc at ht
  have hquiet:=fun hd hst hp => private_of_quiet (t := t) hs hd hst hcalls hp
  have hdone:=fun conn hpend hd hst hp =>
    private_of_connected (t := t) conn hs hpend hd hst hcalls hp
  rw [hl] at hquiet hdone
  cases ht
  case dialled site =>
    have hstored:=hs.stored
    have hknown:=hs.calls
    rw [hl] at hstored hknown
    refine ⟨?_,hstored,hknown⟩
    intro conn he
    cases he
    exact Nat.lt_succ_self _
  case openFailed site conn | registerFailed site conn =>
    exact hdone conn rfl rfl (fun _ => .inl) (connectReturned_pending site false)
  case stored site conn =>
    refine hdone conn rfl rfl ?_ rfl
    intro stream he
    cases he
    exact .inr rfl
  case dialFailed site | recachedAll site | drainedNone site _ | replayLost site _ _ |
      replayedLast site _ _ _ =>
    exact hquiet rfl (fun _ => id) (connectReturned_pending site _)
  case wasDown close _ | notifiedDown close =>
    cases close <;> exact hquiet rfl (fun _ => id) rfl
  case closedDown => exact hquiet rfl (fun _ he => absurd he.symm (some_ne_none _)) rfl
  all_goals exact hquiet rfl (fun _ => id) rfl

theorem stepLoop_replaying (h : s.stepLoop a=some t) (hr : t.loop.replaying) :
    s.loop.replaying ∨ ∃ site, s.loop=.replayDrain site := by
  have ht:=stepLoop_turns h
  generalize s.loop=pc at ht
  cases ht
  case drainedSome site _ => exact .inr ⟨site,rfl⟩
  case replayStarted | replayedBatch => exact .inl rfl
  case openFailed site _ | registerFailed site _ | dialFailed site | recachedAll site |
      drainedNone site _ | replayLost site _ _ | replayedLast site _ _ _ =>
    have hnever : true=false := hr.symm.trans (connectReturned_replaying site _)
    cases hnever
  case wasDown close _ | notifiedDown close => cases close <;> cases hr
  all_goals cases hr

theorem turn_maySend (h : CallTurns encodable s c a d t) : d.maySend.toNat≤c.maySend.toNat := by
  cases h <;> first | exact Nat.zero_le _ | exact Nat.le_refl _

theorem turn_sending {stream : Nat} (h : CallTurns encodable s c a d t) (hd : d.sending=some stream) :
    c.sending=some stream ∨ s.stream=some stream := by
  cases h
  case direct hst | message hst | flushStarted hst => exact .inr (hst.trans hd)
  case flushedBatch => exact .inl hd
  all_goals cases hd

theorem turn_frame (h : CallTurns encodable s c a d t) :
    t.loop=s.loop ∧ t.dialled=s.dialled ∧ t.calls=s.calls ∧
      ∀ stream, t.stream=some stream → s.stream=some stream := by
  cases h
  case stopClosed | flushClosed =>
    exact ⟨rfl,rfl,rfl,fun _ he => absurd he.symm (some_ne_none _)⟩
  all_goals exact ⟨rfl,rfl,rfl,fun _ => id⟩

theorem step_call_takingTurns {i : Nat}
    (hs : s.TakingTurns) (h : s.step encodable (.call i a)=some t) : t.TakingTurns := by
  obtain ⟨c,r,hi,hc,rfl⟩ := step_call h
  have hturn:=stepCall_turns hc
  obtain ⟨hl,hd,hcalls,hst⟩ := turn_frame hturn
  have hquiet : r.2.Private := private_of_quiet hs.known hd hst hcalls (by rw [hl])
  constructor
  · have hcount:=OpsAgent.Lib.Pool.countP_set Call.maySend r.1 hi
    have hless:=turn_maySend hturn
    have hone:=hs.one
    simp only [senders,hl,hcalls] at hone ⊢
    omega
  · refine ⟨hquiet.dialled,hquiet.stored,?_⟩
    apply OpsAgent.Lib.Pool.forall_mem_set hquiet.calls
    intro stream hsend
    show stream<r.2.loop.pending.getD r.2.dialled
    rw [hl,hd]
    rcases turn_sending hturn hsend with hold | hold
    · exact hs.known.calls c (mem_of_getElem? hi) stream hold
    · exact hs.known.stored stream hold

omit [Inhabited α] in
theorem enter_takingTurns (hs : s.TakingTurns)
    (hone : s.senders+c.maySend.toNat≤1) (hc : c.sending=none) : (s.enter c).TakingTurns := by
  constructor
  · simp only [senders,enter,countP_append,countP_singleton] at hone ⊢
    cases hm : c.maySend with
    | true =>
      rw [hm] at hone
      simpa [Nat.add_assoc] using hone
    | false => simpa [senders] using hs.one
  · refine ⟨hs.known.dialled,hs.known.stored,?_⟩
    apply OpsAgent.Lib.Pool.forall_mem_push hs.known.calls
    intro stream hsend
    cases hc.symm.trans hsend

omit [Inhabited α] in
theorem enter_alone (hs : s.TakingTurns)
    (hg : (s.senders == 0)) (hc : c.sending=none) : (s.enter c).TakingTurns := by
  have hnone : s.senders=0 := beq_iff_eq.mp hg
  refine enter_takingTurns hs ?_ hc
  rw [hnone,Nat.zero_add]
  exact toNat_le _

theorem step_loop_takingTurns (hs : s.TakingTurns) (hg : s.takesTurns (.loop a))
    (h : s.step encodable (.loop a)=some t) : t.TakingTurns := by
  refine ⟨?_,stepLoop_private hs.known h⟩
  have hone:=hs.one
  have hcalls:=stepLoop_calls h
  simp only [senders,hcalls] at hone ⊢
  cases hr : t.loop.replaying with
  | false =>
    rw [toNat_false]
    omega
  | true =>
    rcases stepLoop_replaying h hr with hold | ⟨site,hold⟩
    · rw [hold] at hone
      exact hone
    · simp only [takesTurns,hold,beq_iff_eq,senders] at hg
      rw [toNat_true]
      omega

theorem step_takingTurns {l : Label α}
    (hs : s.TakingTurns) (hg : s.takesTurns l) (h : s.step encodable l=some t) : t.TakingTurns := by
  cases l with
  | start =>
    obtain ⟨hl,rfl⟩ := step_start h
    have hknown:=private_of_quiet (t := {s with loop := .dial .top}) hs.known rfl
      (fun _ => id) rfl (by rw [hl]; rfl)
    have hone:=hs.one
    rw [senders,hl] at hone
    exact ⟨hone,hknown⟩
  | parentDone =>
    cases h
    exact ⟨hs.one,⟨hs.known.dialled,hs.known.stored,hs.known.calls⟩⟩
  | enterSendMetrics metrics =>
    cases h
    have ht:=enter_alone (c := .sendMetrics metrics) hs hg rfl
    exact ⟨ht.one,⟨ht.known.dialled,ht.known.stored,ht.known.calls⟩⟩
  | enterSendOther | enterFlushAndStop path =>
    cases h
    exact enter_alone hs hg rfl
  | enterStop =>
    cases h
    exact enter_takingTurns hs hs.one rfl
  | loop a => exact step_loop_takingTurns hs hg h
  | call i a => exact step_call_takingTurns hs h

theorem newClient_takingTurns (cacheMaxSize : Int) (cb : Bool) :
    (newClient cacheMaxSize cb : Client α).TakingTurns := by
  refine ⟨Nat.zero_le 1,⟨?_,?_,?_⟩⟩
  · exact fun _ he => absurd he.symm (some_ne_none _)
  · exact fun _ he => absurd he.symm (some_ne_none _)
  · exact fun _ hc => absurd hc not_mem_nil

/-- In every run whose callers take turns, at most one `Send` is in progress on each stream. -/
theorem one_send_in_progress (encodable : α → Bool) (cacheMaxSize : Int) (cb : Bool)
    (ls : List (Label α)) (t : Client α)
    (hg : guarded (step encodable) takesTurns (newClient cacheMaxSize cb) ls=true)
    (hr : exec (step encodable) (newClient cacheMaxSize cb) ls=some t) (stream : Nat) :
    t.sendsOn stream≤1 :=
  takingTurns_sendsOn (exec_invariant (fun _ _ _ hs hl hu => step_takingTurns hs hl hu)
    (newClient_takingTurns cacheMaxSize cb) hg hr) stream

def connectOnce : List (Label Nat) :=
  [.start,.loop .ok,.loop .ok,.loop .ok,.loop .ok,.loop .ok,.loop .ok]

theorem one_send_in_progress_message : ∃ t, exec (step fun _ => true) (newClient 4 true)
        (connectOnce++[.enterSendOther,.call 0 .ok])=some t ∧ t.sendsOn 0=1 ∧ t.sendsOn 0≤1 :=
  ⟨_,rfl,by decide,one_send_in_progress (fun _ => true) 4 true
    (connectOnce++[.enterSendOther,.call 0 .ok]) _ (by decide) rfl 0⟩

theorem two_sends_in_progress : ¬ ∀ (ls : List (Label Nat)) (t : Client Nat) (stream : Nat),
      exec (step fun _ => true) (newClient 4 true) ls=some t → t.sendsOn stream≤1 := by
  intro h
  have ht:=h (connectOnce++[.enterSendOther,.enterSendOther,.call 0 .ok,.call 1 .ok]) _ 0 rfl
  exact absurd ht (by decide)

end Client
end OpsAgent.GrpcClient
