import OpsAgent.GrpcClient.OneConnection

/-!
# What the state-change callback is told
-/

namespace OpsAgent.GrpcClient
open Lib.Exec List Option Bool

variable {α : Type} {values : List Bool} (n : Nat)

def alternation (n : Nat) : List Bool := (range n).map fun i => decide (i % 2=0)

theorem length_alternation : (alternation n).length=n := by rw [alternation,length_map,length_range]
theorem alternation_succ : alternation (n+1)=alternation n++[decide (n % 2=0)] := by
  rw [alternation,range_succ,map_append]
  rfl

structure Told (values : List Bool) (v : Bool) : Prop where
  alternate : values=alternation values.length
  last : values.getLast?.getD false=v

theorem told_nil : Told [] false := ⟨rfl,rfl⟩

theorem Told.parity {v : Bool} (h : Told values v) : decide (values.length % 2=0) = !v := by
  rw [← h.last,h.alternate,length_alternation]
  cases values.length with
  | zero => rfl
  | succ n =>
    rw [alternation_succ,getLast?_concat,getD_some,← decide_not,decide_eq_decide]
    omega

theorem Told.report {v w : Bool} (h : Told values v) (hw : w = !v) : Told (values++[w]) w := by
  constructor
  · rw [length_append,length_singleton,alternation_succ,← h.alternate,h.parity,hw]
  · rw [getLast?_concat,getD_some]

def LoopPc.notifying : LoopPc α → Bool
  | .notifyUp _ => true
  | .notifyDown _ => true
  | _ => false
def LoopPc.raised : LoopPc α → Bool
  | .notifyUp _ => true
  | _ => false
def LoopPc.cleared : LoopPc α → Bool
  | .notifyDown _ => true
  | .closeDown => true
  | _ => false
def LoopPc.reported (connected : Bool) : LoopPc α → Bool
  | .notifyUp _ => false
  | .notifyDown _ => true
  | _ => connected

namespace Client

structure ReportsState (s : Client α) : Prop where
  alternate : s.callbacks=alternation s.callbacks.length
  last : s.loop.notifying=false → s.callbacks.getLast?.getD false=s.connected

/-- The loop does not connect again after a `connect` that succeeded, and `Stop` and
`FlushAndStop` come to close the connection only when the flag is already down. -/
def changesReported (s : Client α) (l : Label α) : Bool :=
  s.retryAfterFailure l && match l with
    | .call i _ => match s.calls[i]? with
      | some .stopClose => !s.connected
      | some .flushClose => !s.connected
      | _ => true
    | _ => true

structure Faithful (s : Client α) : Prop where
  callback : s.onStateChange
  told : Told s.callbacks (s.loop.reported s.connected)
  up : s.loop.raised → s.connected
  down : s.loop.cleared → s.connected=false
  flag : s.connected → s.conn≠none
  tidy : s.Tidy

variable {s t : Client α}

theorem faithful_reports (h : s.Faithful) : s.ReportsState := by
  refine ⟨h.told.alternate,?_⟩
  intro hn
  rw [h.told.last]
  generalize s.loop=pc at hn
  cases pc <;> first | rfl | cases hn

theorem newClient_faithful [Inhabited α] (cacheMaxSize : Int) :
    (newClient cacheMaxSize true : Client α).Faithful where
  callback := rfl
  told := told_nil
  up := fun he => absurd he Bool.false_ne_true
  down := fun he => absurd he Bool.false_ne_true
  flag := fun he => absurd he Bool.false_ne_true
  tidy := newClient_tidy cacheMaxSize true

theorem faithful_of_quiet (hs : s.Faithful) (ht : t.Tidy) (hcb : t.onStateChange=s.onStateChange)
    (hv : t.callbacks=s.callbacks) (hf : t.connected=s.connected) (hc : t.conn=s.conn)
    (hr : t.loop.reported s.connected=s.loop.reported s.connected)
    (hu : t.loop.raised → s.loop.raised)
    (hd : t.loop.cleared → s.loop.cleared) : t.Faithful where
  callback := hcb.trans hs.callback
  told := by
    rw [hv,hf,hr]
    exact hs.told
  up := by
    rw [hf]
    exact fun he => hs.up (hu he)
  down := by
    rw [hf]
    exact fun he => hs.down (hd he)
  flag := by
    rw [hf,hc]
    exact hs.flag
  tidy := ht

variable [Inhabited α]
  {a : Answer} {encodable : α → Bool}

theorem stepLoop_faithful (hs : s.Faithful)
    (hg : s.retryAfterFailure (.loop a)) (h : s.stepLoop a=some t) : t.Faithful := by
  have htidy:=stepLoop_tidy s t a hs.tidy hg h
  have ht:=stepLoop_turns h
  have hquiet:=faithful_of_quiet hs htidy
  obtain ⟨hcb,htold,hup,hdown,hflag,halone⟩ := hs
  have halone:=halone.alone
  generalize s.loop=pc at ht hquiet htold hup hdown halone
  cases ht
  case stored site conn =>
    -- nothing was stored, so the flag was down and so was the last report
    have hoff : s.connected=false := by
      rw [← not_eq_true]
      exact fun he => hflag he (halone rfl)
    refine ⟨hcb,?_,fun _ => rfl,?_,fun _ => some_ne_none conn,htidy⟩
    · have hlast : Told s.callbacks s.connected := htold
      rw [hoff] at hlast
      exact hlast
    · exact fun he => absurd he Bool.false_ne_true
  case notifiedUp site =>
    have hon : s.connected := hup rfl
    have hreport:=htold.report (w := true) rfl
    refine ⟨hcb,?_,?_,?_,hflag,htidy⟩
    · simpa only [notify,hcb,if_true,LoopPc.reported,hon] using hreport
    · exact fun he => absurd he Bool.false_ne_true
    · exact fun he => absurd he Bool.false_ne_true
  case wentDown close hon =>
    have hlast : Told s.callbacks s.connected := htold
    rw [hon] at hlast
    refine ⟨hcb,hlast,?_,fun _ => rfl,?_,htidy⟩
    · exact fun he => absurd he Bool.false_ne_true
    · exact fun he => absurd he Bool.false_ne_true
  case wasDown close hoff =>
    have hlast : Told s.callbacks s.connected := htold
    rw [hoff] at hlast
    cases close <;> exact ⟨hcb,hlast,fun he => absurd he Bool.false_ne_true,fun _ => rfl,
      fun he => absurd he Bool.false_ne_true,htidy⟩
  case notifiedDown close =>
    have hoff : s.connected=false := hdown rfl
    have hreport:=htold.report (w := false) rfl
    rw [← hoff] at hreport
    have hcalls : (s.notify false).callbacks=s.callbacks++[s.connected] := by simp [notify,hcb,hoff]
    rw [← hcalls] at hreport
    cases close <;> exact ⟨hcb,hreport,fun he => absurd he Bool.false_ne_true,fun _ => hoff,
      hflag,htidy⟩
  case closedDown =>
    have hoff : s.connected=false := hdown rfl
    have hlast : Told s.callbacks s.connected := htold
    rw [hoff] at hlast
    exact ⟨hcb,hlast,fun he => absurd he Bool.false_ne_true,fun _ => rfl,
      fun he => absurd he Bool.false_ne_true,htidy⟩
  case dialFailed site | openFailed site _ | registerFailed site _ | recachedAll site |
      drainedNone site _ | replayLost site _ _ | replayedLast site _ _ _ =>
    cases site <;> exact hquiet rfl rfl rfl rfl rfl id id
  all_goals exact hquiet rfl rfl rfl rfl rfl id id

omit [Inhabited α] in
theorem closeConn_faithful (hs : s.Faithful) (hoff : s.connected=false) :
    s.closeConn.Faithful where
  callback := hs.callback
  told := by
    have hlast:=hs.told
    rw [hoff] at hlast
    exact hlast
  up := by
    intro he
    rw [hs.up he] at hoff
    cases hoff
  down := fun _ => rfl
  flag := fun he => absurd he Bool.false_ne_true
  tidy := closeConn_tidy s hs.tidy

theorem stepCall_flag {c d : Call α} (h : CallTurns encodable s c a d t) :
    (t.onStateChange=s.onStateChange ∧ t.callbacks=s.callbacks ∧ t.connected=s.connected ∧
        t.conn=s.conn ∧ t.loop=s.loop) ∨ (c=.stopClose ∨ c=.flushClose) ∧ t=s.closeConn := by
  cases h
  case stopClosed => exact .inr ⟨.inl rfl,rfl⟩
  case flushClosed => exact .inr ⟨.inr rfl,rfl⟩
  all_goals exact .inl ⟨rfl,rfl,rfl,rfl,rfl⟩

theorem step_faithful {l : Label α} (hs : s.Faithful)
    (hg : s.changesReported l) (h : s.step encodable l=some t) : t.Faithful := by
  unfold changesReported at hg
  rw [and_eq_true] at hg
  have htidy:=step_tidy encodable s t l hs.tidy hg.1 h
  have hquiet:=faithful_of_quiet hs htidy
  cases l with
  | start =>
    obtain ⟨hl,rfl⟩ := step_start h
    rw [hl] at hquiet
    exact hquiet rfl rfl rfl rfl rfl id id
  | loop a => exact stepLoop_faithful hs hg.1 h
  | call i a =>
    obtain ⟨c,r,hi,hc,rfl⟩ := step_call h
    rcases stepCall_flag (stepCall_turns hc) with ⟨hcb,hv,hf,hconn,hl⟩ | ⟨hclose,hr⟩
    · exact hquiet hcb hv hf hconn (by rw [hl]) (by rw [hl]; exact id) (by rw [hl]; exact id)
    · have hoff : s.connected=false := by
        have hguard:=hg.2
        rcases hclose with rfl | rfl <;> simpa [hi] using hguard
      have hclosed:=closeConn_faithful hs hoff
      rw [← hr] at hclosed
      exact ⟨hclosed.callback,hclosed.told,hclosed.up,hclosed.down,hclosed.flag,htidy⟩
  | _ =>
    cases h
    exact hquiet rfl rfl rfl rfl rfl id id

/-- If the loop reconnects only after a failure, and the connection is closed from outside only when the
flag is down, the reports alternate from true on and follow the flag. -/
theorem callback_follows_flag (encodable : α → Bool) (cacheMaxSize : Int) (ls : List (Label α))
    (t : Client α) (hg : guarded (step encodable) changesReported (newClient cacheMaxSize true) ls=true)
    (hr : exec (step encodable) (newClient cacheMaxSize true) ls=some t) : t.ReportsState :=
  faithful_reports (exec_invariant (fun _ _ _ hs hl hu => step_faithful hs hl hu)
    (newClient_faithful cacheMaxSize) hg hr)

theorem callback_follows_flag_reconnect :
    ∃ t, exec (step fun _ => true) (newClient 4 true) failThenReconnect=some t ∧
      t.callbacks=[true,false] ∧ t.ReportsState :=
  ⟨_,rfl,by decide,callback_follows_flag (fun _ => true) 4 failThenReconnect _ (by decide) rfl⟩

theorem callback_told_twice : ¬ ∀ (ls : List (Label Nat)) (t : Client Nat),
      exec (step fun _ => true) (newClient 4 true) ls=some t → t.ReportsState := by
  intro h
  have ht:=h [.start,.loop .ok,.loop .ok,.loop .ok,.loop .ok,.loop .ok,.loop .ok,
    .loop .timer,.loop .ok,.loop .ok,.loop .ok,.loop .ok,.loop .ok] _ rfl
  exact absurd ht.alternate (by decide)

end Client
end OpsAgent.GrpcClient
