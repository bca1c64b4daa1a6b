import OpsAgent.Lib.Pool
import OpsAgent.GrpcClient.Client

/-!
# How many connections are open
-/

namespace OpsAgent.GrpcClient
open Lib.Exec

variable {α : Type} {l : LoopPc α}

def LoopPc.pending : LoopPc α → Option Nat
  | .openStream _ conn => some conn
  | .register _ conn => some conn
  | .store _ conn => some conn
  | _ => none

def LoopPc.unstored : LoopPc α → Bool
  | .notStarted => true
  | .dial _ => true
  | .openStream _ _ => true
  | .register _ _ => true
  | .store _ _ => true
  | _ => false

def LoopPc.leaving : LoopPc α → Bool
  | .setDown false => true
  | .notifyDown false => true
  | .afterLoop => true
  | _ => false

def LoopPc.idle (l : LoopPc α) : Bool := !l.unstored&&!l.leaving

theorem pending_unstored {conn : Nat} (h : l.pending=some conn) : l.unstored := by
  cases l <;> simp [LoopPc.pending,LoopPc.unstored] at h ⊢
theorem pending_of_stored (h : l.unstored=false) : l.pending=none := by
  cases hp : l.pending with
  | none => rfl
  | some conn => simp [pending_unstored hp] at h
theorem connectReturned_idle (site : Site) (v : Bool) :
    (Client.connectReturned site v : LoopPc α).idle := by cases site <;> cases v <;> rfl

namespace Client

/-- The back-off timer does not fire while the connection of an earlier `connect`
is still stored: the retry is not entered from a `connect` that succeeded. -/
def retryAfterFailure (s : Client α) : Label α → Bool
  | .loop .timer => s.conn.isNone
  | _ => true
def OneOpen (s : Client α) : Prop :=
  s.opened.length≤1 ∧ ∀ site conn, s.loop=.store site conn → s.opened=[conn]

structure Tidy (s : Client α) : Prop where
  opened : s.opened=s.loop.pending.toList++s.conn.toList
  same : s.stream=s.conn
  alone : s.loop.unstored → s.conn=none
  down : s.loop.leaving → s.cancelled ∨ s.conn=none

theorem tidy_oneOpen (s : Client α) (h : s.Tidy) : s.OneOpen := by
  constructor
  · rw [h.opened]
    cases hp : s.loop.pending with
    | none => cases s.conn <;> simp
    | some conn => simp [h.alone (pending_unstored hp)]
  · intro site conn hl
    have hn:=h.alone (by rw [hl]; rfl)
    rw [h.opened,hl,hn]
    rfl

theorem closeConn_tidy (s : Client α) (h : s.Tidy) : s.closeConn.Tidy := by
  refine ⟨?_,rfl,fun _ => rfl,fun _ => .inr rfl⟩
  have ho:=h.opened
  cases hc : s.conn with
  | none => simpa [closeConn,hc] using ho
  | some conn =>
    have hp : s.loop.pending=none := by
      cases hp : s.loop.pending with
      | none => rfl
      | some d =>
        have hn:=h.alone (pending_unstored hp)
        cases hc.symm.trans hn
    simp [closeConn,hc,hp] at ho ⊢
    simp [ho]

variable (s t : Client α)

theorem tidy_of_quiet (h : s.Tidy) (ho : t.opened=s.opened)
    (hs : t.stream=s.stream) (hc : t.conn=s.conn) (hx : t.cancelled=s.cancelled)
    (hp : s.loop.pending=none) (ha : t.loop.unstored=false)
    (hd : t.loop.leaving → s.cancelled ∨ s.conn=none) : t.Tidy := by
  refine ⟨?_,?_,?_,?_⟩
  · rw [ho,hc,pending_of_stored ha,h.opened,hp]
  · rw [hs,hc,h.same]
  · intro he
    cases ha.symm.trans he
  · rw [hx,hc]
    exact hd

theorem tidy_of_idle (h : s.Tidy) (ho : t.opened=s.opened)
    (hs : t.stream=s.stream) (hc : t.conn=s.conn) (hx : t.cancelled=s.cancelled)
    (hp : s.loop.pending=none) (hi : t.loop.idle) : t.Tidy := by
  simp only [LoopPc.idle,Bool.and_eq_true,Bool.not_eq_true'] at hi
  refine tidy_of_quiet s t h ho hs hc hx hp hi.1 ?_
  intro hl
  cases hi.2.symm.trans hl

theorem abandon_tidy (s : Client α) (site : Site) (conn : Nat) (h : s.Tidy)
    (hp : s.loop.pending=some conn) : (s.abandon site conn).Tidy := by
  have hn:=h.alone (pending_unstored hp)
  have ho : s.opened=[conn] := by
    rw [h.opened,hp,hn]
    rfl
  refine ⟨?_,h.same,fun _ => hn,?_⟩
  · have hr : (connectReturned site false : LoopPc α).idle := connectReturned_idle site false
    simp only [LoopPc.idle,Bool.and_eq_true,Bool.not_eq_true'] at hr
    simp only [abandon,pending_of_stored hr.1,ho,hn,List.erase_cons_head]
    rfl
  · intro _
    exact .inr hn

variable [Inhabited α] (encodable : α → Bool)

theorem stepLoop_tidy (a : Answer) (hs : s.Tidy)
    (hg : s.retryAfterFailure (.loop a)) (h : s.stepLoop a=some t) : t.Tidy := by
  have ht:=stepLoop_turns h
  have ho:=hs.opened
  have ha:=hs.alone
  have hd:=hs.down
  have hq:=tidy_of_quiet s t hs
  have hi:=tidy_of_idle s t hs
  have hab:=fun site conn => abandon_tidy s site conn hs
  have hcl : s.closeConn.opened=s.loop.pending.toList++[] := (closeConn_tidy s hs).opened
  generalize s.loop=pc at ht ho ha hd hq hi hab hcl
  cases ht
  case dialled site =>
    have hn:=ha rfl
    rw [hn] at ho
    refine ⟨?_,hs.same,fun _ => hn,fun _ => .inr hn⟩
    rw [ho,hn]
    rfl
  case streamOpened | registered =>
    have hn:=ha rfl
    exact ⟨ho,hs.same,fun _ => hn,fun _ => .inr hn⟩
  case openFailed site conn | registerFailed site conn => exact hab site conn rfl
  case stored site conn =>
    rw [ha rfl] at ho
    refine ⟨ho,rfl,?_,?_⟩ <;> intro he <;> cases he
  case retry =>
    have hn : s.conn=none := Option.isNone_iff_eq_none.mp hg
    exact ⟨ho,hs.same,fun _ => hn,fun _ => .inr hn⟩
  case closedDown => exact ⟨hcl,rfl,fun _ => rfl,fun _ => .inr rfl⟩
  case again hc =>
    have hn:=(hd rfl).resolve_left (by rw [hc]; exact Bool.false_ne_true)
    exact ⟨ho,hs.same,fun _ => hn,fun he => (nomatch he)⟩
  case loopDone hc => exact hq rfl rfl rfl rfl rfl rfl (fun _ => .inl hc)
  case streamGone hst =>
    have hn : s.conn=none := hs.same.symm.trans hst
    exact hq rfl rfl rfl rfl rfl rfl (fun _ => .inr hn)
  case wentDown close _ =>
    refine hq rfl rfl rfl rfl rfl rfl ?_
    intro he
    cases close
    · exact hd rfl
    · cases he
  case wasDown close _ | notifiedDown close =>
    cases close
    · exact hq rfl rfl rfl rfl rfl rfl (fun _ => hd rfl)
    · exact hi rfl rfl rfl rfl rfl rfl
  case dialFailed site | recachedAll site | drainedNone site _ | replayLost site _ _ |
      replayedLast site _ _ _ =>
    exact hi rfl rfl rfl rfl rfl (connectReturned_idle site _)
  all_goals exact hi rfl rfl rfl rfl rfl rfl

def SameConn (s t : Client α) : Prop :=
  t.opened=s.opened ∧ t.stream=s.stream ∧ t.conn=s.conn ∧ t.loop=s.loop ∧
    (s.cancelled → t.cancelled)

omit [Inhabited α] in
theorem sameConn_tidy (h : SameConn s t) (hs : s.Tidy) : t.Tidy := by
  obtain ⟨ho,hst,hc,hl,hx⟩ := h
  refine ⟨?_,?_,?_,?_⟩
  · rw [ho,hc,hl]
    exact hs.opened
  · rw [hst,hc]
    exact hs.same
  · rw [hc,hl]
    exact hs.alone
  · rw [hc,hl]
    intro he
    exact (hs.down he).imp_left hx

omit [Inhabited α] in
theorem cancel_sameConn (s : Client α) : SameConn s s.cancel := by
  refine ⟨rfl,rfl,rfl,rfl,?_⟩
  intro hc
  unfold cancel
  cases s.loop <;> first | exact hc | rfl

theorem stepCall_conn (s : Client α) (c : Call α) (a : Answer)
    (r : Call α × Client α) (h : s.stepCall encodable c a=some r) :
    SameConn s r.2 ∨ r.2=s.closeConn := by
  obtain ⟨c',t⟩ := r
  cases stepCall_turns h
  case stopCancelled | flushNothing | flushCancelled => exact .inl (cancel_sameConn s)
  case stopClosed | flushClosed => exact .inr rfl
  all_goals exact .inl ⟨rfl,rfl,rfl,rfl,id⟩

theorem step_tidy (s t : Client α) (l : Label α) (hs : s.Tidy)
    (hg : s.retryAfterFailure l) (h : s.step encodable l=some t) : t.Tidy := by
  cases l with
  | start =>
    obtain ⟨hl,rfl⟩ := step_start h
    have hn:=hs.alone (by rw [hl]; rfl)
    have ho:=hs.opened
    rw [hl] at ho
    exact ⟨ho,hs.same,fun _ => hn,fun _ => .inr hn⟩
  | loop a => exact stepLoop_tidy s t a hs hg h
  | call i a =>
    obtain ⟨c,r,_,hc,rfl⟩ := step_call h
    rcases stepCall_conn encodable s c a r hc with hsame | hclose
    · exact sameConn_tidy s _ hsame hs
    · have ht:=closeConn_tidy s hs
      rw [← hclose] at ht
      exact ⟨ht.opened,ht.same,ht.alone,ht.down⟩
  | parentDone =>
    cases h
    exact sameConn_tidy s _ ⟨rfl,rfl,rfl,rfl,fun _ => rfl⟩ hs
  | _ =>
    cases h
    exact sameConn_tidy s _ ⟨rfl,rfl,rfl,rfl,id⟩ hs

theorem newClient_tidy (cacheMaxSize : Int) (cb : Bool) : (newClient cacheMaxSize cb : Client α).Tidy :=
  ⟨rfl,rfl,fun _ => rfl,fun _ => .inr rfl⟩

/-- If no back-off after a successful `connect` reaches its retry, at most one connection is open, and
one is stored only when it is the open one. -/
theorem one_connection_open (encodable : α → Bool) (cacheMaxSize : Int) (cb : Bool)
    (ls : List (Label α)) (t : Client α)
    (hg : guarded (step encodable) retryAfterFailure (newClient cacheMaxSize cb) ls=true)
    (hr : exec (step encodable) (newClient cacheMaxSize cb) ls=some t) : t.OneOpen :=
  tidy_oneOpen t (exec_invariant (fun s l u hs hl hu => step_tidy encodable s u l hs hl hu)
    (newClient_tidy cacheMaxSize cb) hg hr)

def failThenReconnect : List (Label Nat) :=
  [.start,.loop .fail,.loop .timer,.loop .ok,.loop .ok,.loop .ok,.loop .ok,.loop .ok,
    .loop .ok,.loop .ok,.loop .ok,.loop .fail,.loop .ok,.loop .ok,.loop .ok,.loop .ok,.loop .ok]

theorem one_connection_open_reconnect :
    ∃ t, exec (step fun _ => true) (newClient 4 true) failThenReconnect=some t ∧
      t.opened=[1] ∧ t.OneOpen :=
  ⟨_,rfl,rfl,one_connection_open (fun _ => true) 4 true failThenReconnect _ (by decide) rfl⟩

theorem two_connections_open : ¬ ∀ (ls : List (Label Nat)) (t : Client Nat),
      exec (step fun _ => true) (newClient 4 true) ls=some t → t.OneOpen := by
  intro h
  have ht:=h [.start,.loop .ok,.loop .ok,.loop .ok,.loop .ok,.loop .ok,.loop .ok,
    .loop .timer,.loop .ok,.loop .ok,.loop .ok,.loop .ok] _ rfl
  exact absurd ht.1 (by decide)

end Client
end OpsAgent.GrpcClient
