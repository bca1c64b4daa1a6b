import OpsAgent.Lib.Exec
import OpsAgent.Lib.GoStrings

/-!
# One output streamer (`sandbox/output_streamer.go`)
-/

namespace OpsAgent.Sandbox
open Lib.GoStrings List
open Lib.Exec

inductive Caller where
  | writer | ticker | stopper
  deriving DecidableEq

inductive Place where
  | idle
  -- `Write`
  | lockWrite (data : GoString)
  | append (data : GoString)
  | unlockWrite (shouldFlush : Bool)
  -- `Flush`
  | lockFlush | take
  | send (data : GoString)
  | unlockFlush | ended
  deriving DecidableEq

namespace Place

def holds : Place → Bool
  | .append _ | .unlockWrite _ | .take | .send _ | .unlockFlush => true
  | _ => false
def writes : Place → Bool
  | .lockWrite _ | .append _ | .unlockWrite _ => true
  | _ => false
def taken : Place → GoString
  | .send data => data
  | _ => []
def unwritten : Place → GoString
  | .lockWrite data | .append data => data
  | _ => []
def emptied : Place → Bool
  | .send _ | .unlockFlush | .ended => true
  | _ => false

theorem taken_of_not_holds {p : Place} (h : ¬ p.holds) : p.taken=[] := by
  cases p
  case send => exact absurd rfl h
  all_goals rfl

end Place

structure OutputStreamer where
  (flushSize flushInterval : Int)
  sender : Bool
  mu : Option Caller
  buf : GoString
  stopCh : Bool
  place : Caller → Place
  -- the calls of `Write` and those of the sender, the first one first
  (written sent : List GoString)

namespace OutputStreamer

def newOutputStreamer (flushSize flushInterval : Int) (sender : Bool) : OutputStreamer :=
  ⟨flushSize,flushInterval,sender,none,[],false,fun _ => .idle,[],[]⟩
def move (s : OutputStreamer) (c : Caller) (p : Place) : OutputStreamer :=
  {s with place := fun d => if d=c then p else s.place d}
def afterFlush : Caller → Place
  | .stopper => .ended
  | _ => .idle

inductive Label where
  | write (data : GoString)
  | stop | tick | quit
  | next (c : Caller)

def next (s : OutputStreamer) (c : Caller) : Option OutputStreamer :=
  match s.place c with
  | .lockWrite data => if s.mu=none then some {s.move c (.append data) with mu := some c} else none
  | .append data =>
    let buf:=s.buf++data
    some {s.move c (.unlockWrite (s.flushSize≤buf.length)) with buf := buf}
  | .unlockWrite shouldFlush =>
    some {s.move c (if shouldFlush then .lockFlush else .idle) with mu := none}
  | .lockFlush => if s.mu=none then some {s.move c .take with mu := some c} else none
  | .take =>
    let data:=s.buf
    some {s.move c (if data≠[] ∧ s.sender=true then .send data else .unlockFlush) with buf := []}
  | .send data => some {s.move c .unlockFlush with sent := s.sent++[data]}
  | .unlockFlush => some {s.move c (afterFlush c) with mu := none}
  | .idle | .ended => none

/-- The writer calls `Write` when its last call has returned, and nobody calls it after `Stop`. -/
def step (s : OutputStreamer) : Label → Option OutputStreamer
  | .write data =>
    if s.place .writer=.idle ∧ s.place .stopper=.idle then
      some {s.move .writer (.lockWrite data) with written := s.written++[data]}
    else none
  | .stop =>
    if s.place .writer=.idle ∧ s.place .stopper=.idle then
      some {s.move .stopper .lockFlush with stopCh := true}
    else none
  | .tick =>
    if s.place .ticker=.idle ∧ s.flushInterval > 0 then some (s.move .ticker .lockFlush) else none
  | .quit =>
    if s.place .ticker=.idle ∧ (s.stopCh ∨ s.flushInterval≤0) then
      some (s.move .ticker .ended)
    else none
  | .next c => s.next c

def Label.written : Label → List GoString
  | .write data => [data]
  | _ => []

@[simp] theorem move_self (s : OutputStreamer) (c : Caller) (p : Place) : (s.move c p).place c=p :=
  if_pos rfl

variable {c : Caller} {s t : OutputStreamer} {p : Place} {l : Label}

theorem move_of_ne (s : OutputStreamer) {d : Caller} (p : Place) (h : d≠c) :
    (s.move c p).place d=s.place d := if_neg h

inductive Calls (s : OutputStreamer) : Label → OutputStreamer → Prop where
  | write (data) (hw : s.place .writer=.idle) (hstop : s.place .stopper=.idle) :
      Calls s (.write data) {s.move .writer (.lockWrite data) with written := s.written++[data]}
  | stop (hw : s.place .writer=.idle) (hstop : s.place .stopper=.idle) :
      Calls s .stop {s.move .stopper .lockFlush with stopCh := true}
  | tick (ht : s.place .ticker=.idle) : Calls s .tick (s.move .ticker .lockFlush)
  | quit (ht : s.place .ticker=.idle) : Calls s .quit (s.move .ticker .ended)

inductive Moves (s : OutputStreamer) (c : Caller) : OutputStreamer → Prop where
  | lockWrite (data) (hp : s.place c=.lockWrite data) (hmu : s.mu=none) :
      Moves s c {s.move c (.append data) with mu := some c}
  | append (data shouldFlush) (hp : s.place c=.append data) :
      Moves s c {s.move c (.unlockWrite shouldFlush) with buf := s.buf++data}
  | unlockWrite (shouldFlush p) (hp : s.place c=.unlockWrite shouldFlush)
      (hnext : p=.lockFlush ∨ p=.idle) : Moves s c {s.move c p with mu := none}
  | lockFlush (hp : s.place c=.lockFlush) (hmu : s.mu=none) :
      Moves s c {s.move c .take with mu := some c}
  | take (hp : s.place c=.take) (hbuf : s.buf≠[]) (hsender : s.sender) :
      Moves s c {s.move c (.send s.buf) with buf := []}
  | takeNothing (hp : s.place c=.take) (hbuf : s.sender → s.buf=[]) :
      Moves s c {s.move c .unlockFlush with buf := []}
  | send (data) (hp : s.place c=.send data) :
      Moves s c {s.move c .unlockFlush with sent := s.sent++[data]}
  | unlockFlush (hp : s.place c=.unlockFlush) : Moves s c {s.move c (afterFlush c) with mu := none}

theorem next_moves (h : s.next c=some t) : Moves s c t := by
  unfold next at h
  split at h
  case _ data hp =>
    split at h
    · cases h
      exact .lockWrite data hp ‹_›
    · cases h
  case _ data hp =>
    cases h
    exact .append data _ hp
  case _ shouldFlush hp =>
    cases h
    refine .unlockWrite shouldFlush _ hp ?_
    cases shouldFlush
    · exact .inr rfl
    · exact .inl rfl
  case _ hp =>
    split at h
    · cases h
      exact .lockFlush hp ‹_›
    · cases h
  case _ hp =>
    cases h
    by_cases hd : s.buf≠[] ∧ s.sender
    · rw [if_pos hd]
      exact .take hp hd.1 hd.2
    · rw [if_neg hd]
      exact .takeNothing hp fun hs => by_contra fun hb => hd ⟨hb,hs⟩
  case _ data hp =>
    cases h
    exact .send data hp
  case _ hp =>
    cases h
    exact .unlockFlush hp
  case _ => cases h
  case _ => cases h

theorem step_cases (h : s.step l=some t) : Calls s l t ∨ ∃ c, l=.next c ∧ Moves s c t := by
  unfold step at h
  split at h
  case _ data =>
    split at h
    · rename_i hw
      cases h
      exact .inl (.write data hw.1 hw.2)
    · cases h
  case _ =>
    split at h
    · rename_i hw
      cases h
      exact .inl (.stop hw.1 hw.2)
    · cases h
  case _ =>
    split at h
    · rename_i ht
      cases h
      exact .inl (.tick ht.1)
    · cases h
  case _ =>
    split at h
    · rename_i ht
      cases h
      exact .inl (.quit ht.1)
    · cases h
  case _ c => exact .inr ⟨c,rfl,next_moves h⟩

def taken (s : OutputStreamer) : GoString := s.mu.elim [] fun c => (s.place c).taken

/-- The lock is held where the code says so, every byte is somewhere on its way if there is a sender,
and `Stop` leaves an empty buffer behind. -/
structure Orderly (s : OutputStreamer) : Prop where
  holder : ∀ c, (s.place c).holds ↔ s.mu=some c
  writer : ∀ c, (s.place c).writes → c=.writer
  kept : s.sender → s.sent.flatten++s.taken++s.buf++(s.place .writer).unwritten=s.written.flatten
  stopped : s.place .stopper ≠ .idle → s.place .writer=.idle
  emptied : (s.place .stopper).emptied → s.buf=[]
  last : (s.place .stopper).emptied → ∀ c, c ≠ .stopper → (s.place c).taken=[]
  filled : ∀ c data, s.place c=.send data → data≠[]
  sent : ∀ data∈s.sent, data≠[]

theorem orderly_new (flushSize flushInterval : Int) (sender : Bool) :
    Orderly (newOutputStreamer flushSize flushInterval sender) := by
  refine ⟨?_,?_,fun _ => rfl,fun h => absurd rfl h,nofun,nofun,?_,?_⟩
  · intro c
    exact ⟨nofun,nofun⟩
  · intro c h
    cases h
  · intro c data h
    cases h
  · intro data h
    cases h

theorem holder_move (h : Orderly s) (hp : (s.place c).holds=p.holds) (d : Caller) :
    ((s.move c p).place d).holds ↔ s.mu=some d := by
  by_cases hd : d=c
  · subst hd
    rw [move_self,← h.holder d,hp]
  · rw [move_of_ne s p hd]
    exact h.holder d

theorem holder_lock (h : Orderly s) (hmu : s.mu=none) (hp : p.holds) (d : Caller) :
    ((s.move c p).place d).holds ↔ some c=some d := by
  by_cases hd : d=c
  · subst hd
    rw [move_self]
    exact iff_of_true hp rfl
  · rw [move_of_ne s p hd,h.holder d,hmu]
    exact iff_of_false nofun fun he => hd (Option.some.inj he).symm

theorem holder_unlock (h : Orderly s) (hb : (s.place c).holds) (hp : p.holds=false) (d : Caller) :
    ((s.move c p).place d).holds ↔ none=some d := by
  have hmu:=(h.holder c).mp hb
  by_cases hd : d=c
  · subst hd
    rw [move_self,hp]
    exact iff_of_false nofun nofun
  · rw [move_of_ne s p hd,h.holder d,hmu]
    exact iff_of_false (fun he => hd (Option.some.inj he).symm) nofun

theorem taken_move (h : Orderly s) (p : Place)
    (hb : (s.place c).holds=false) : (s.move c p).taken=s.taken := by
  change s.mu.elim [] _=s.mu.elim [] _
  cases hmu : s.mu with
  | none => rfl
  | some d =>
    have hd : d≠c := by
      intro he
      have hh:=(h.holder d).mpr hmu
      rw [he,hb] at hh
      cases hh
    exact congrArg Place.taken (move_of_ne s p hd)

theorem writer_move (h : Orderly s)
    (ha : p.writes → c=.writer) (d : Caller) (hd : ((s.move c p).place d).writes) : d=.writer := by
  by_cases hdc : d=c
  · subst hdc
    rw [move_self] at hd
    exact ha hd
  · rw [move_of_ne s p hdc] at hd
    exact h.writer d hd

theorem filled_move (h : Orderly s) (ha : ∀ data, p=.send data → data≠[]) (d : Caller)
    (data : GoString) (hd : (s.move c p).place d=.send data) : data≠[] := by
  by_cases hdc : d=c
  · subst hdc
    rw [move_self] at hd
    exact ha data hd
  · rw [move_of_ne s p hdc] at hd
    exact h.filled d data hd

theorem stopped_move (h : Orderly s) (p : Place)
    (hc : s.place c ≠ .idle) (hne : (s.move c p).place .stopper ≠ .idle) :
    (s.move c p).place .writer=.idle := by
  cases c with
  | writer => exact absurd (h.stopped hne) hc
  | ticker => exact h.stopped hne
  | stopper => exact h.stopped hc

theorem emptied_move (h : Orderly s) {buf : GoString}
    (hp : p.emptied → (s.place c).emptied ∨ buf=[]) (hbuf : s.buf=[] → buf=[])
    (he : ((s.move c p).place .stopper).emptied) : buf=[] := by
  by_cases hc : Caller.stopper=c
  · subst hc
    rw [move_self] at he
    rcases hp he with hold | hnew
    · exact hbuf (h.emptied hold)
    · exact hnew
  · rw [move_of_ne s p hc] at he
    exact hbuf (h.emptied he)

theorem last_move (h : Orderly s) (c : Caller) (p : Place)
    (hs : c=.stopper → p.emptied → (s.place c).emptied ∨ (s.place c).holds)
    (hp : p.taken≠[] → s.buf≠[]) (he : ((s.move c p).place .stopper).emptied) (d : Caller)
    (hd : d ≠ .stopper) : ((s.move c p).place d).taken=[] := by
  by_cases hdc : d=c
  · subst hdc
    rw [move_of_ne s p (Ne.symm hd)] at he
    rw [move_self]
    exact by_contra fun hne => hp hne (h.emptied he)
  · rw [move_of_ne s p hdc]
    by_cases hc : c=.stopper
    · subst hc
      rw [move_self] at he
      rcases hs rfl he with hold | hholds
      · exact h.last hold d hd
      · have hmu:=(h.holder .stopper).mp hholds
        refine Place.taken_of_not_holds fun hh => hd ?_
        have hd' := (h.holder d).mp hh
        rw [hmu] at hd'
        exact (Option.some.inj hd').symm
    · rw [move_of_ne s p (Ne.symm hc)] at he
      exact h.last he d hd

theorem unwritten_move (hp : p.unwritten=(s.place c).unwritten) :
    ((s.move c p).place .writer).unwritten=(s.place .writer).unwritten := by
  by_cases hc : Caller.writer=c
  · subst hc
    rw [move_self,hp]
  · rw [move_of_ne s p hc]

theorem orderly_calls (h : Orderly s) (hc : Calls s l t) : Orderly t := by
  cases hc with
  | write data hw hstop =>
    have hidle : (s.place .writer).holds=false := by rw [hw]; rfl
    refine ⟨holder_move h hidle,writer_move h fun _ => rfl,?_,?_,?_,
      last_move h .writer (.lockWrite data) nofun (absurd rfl),filled_move h nofun,h.sent⟩
    · intro hsender
      have hkept:=h.kept hsender
      rw [hw] at hkept
      change s.sent.flatten++(s.move .writer _).taken++s.buf++((s.move .writer _).place .writer).unwritten =
        (s.written++[data]).flatten
      rw [taken_move h _ hidle,move_self,flatten_append,← hkept]
      simp [Place.unwritten]
    · intro hne
      exact absurd hstop hne
    · intro he
      have hplace : (s.place .stopper).emptied := he
      rw [hstop] at hplace
      cases hplace
  | stop hw hstop =>
    have hidle : (s.place .stopper).holds=false := by rw [hstop]; rfl
    refine ⟨holder_move h hidle,writer_move h nofun,?_,fun _ => hw,nofun,
      last_move h .stopper .lockFlush (fun _ => nofun) (absurd rfl),filled_move h nofun,h.sent⟩
    change _ → s.sent.flatten++(s.move .stopper _).taken++s.buf++(s.place .writer).unwritten=_
    rw [taken_move h _ hidle]
    exact h.kept
  | tick ht =>
    have hidle : (s.place .ticker).holds=false := by rw [ht]; rfl
    refine ⟨holder_move h hidle,writer_move h nofun,?_,h.stopped,h.emptied,
      last_move h .ticker .lockFlush nofun (absurd rfl),filled_move h nofun,h.sent⟩
    rw [taken_move h _ hidle]
    exact h.kept
  | quit ht =>
    have hidle : (s.place .ticker).holds=false := by rw [ht]; rfl
    refine ⟨holder_move h hidle,writer_move h nofun,?_,h.stopped,h.emptied,
      last_move h .ticker .ended nofun (absurd rfl),filled_move h nofun,h.sent⟩
    rw [taken_move h _ hidle]
    exact h.kept

theorem taken_holder (hmu : s.mu=some c) : s.taken=(s.place c).taken := by
  rw [taken,hmu]
  rfl
theorem taken_move_self (hmu : s.mu=some c) (p : Place) : (s.move c p).taken=p.taken := by
  have hmove : (s.move c p).mu=some c := hmu
  rw [taken_holder hmove,move_self]

/-! The bytes on their way when the lock is taken, by steps under it, and when it is given up. -/

section
variable {s : OutputStreamer} {c : Caller} {p : Place}

theorem kept_lock (h : Orderly s) (hmu : s.mu=none) (htaken : p.taken=[])
    (hp : p.unwritten=(s.place c).unwritten) (hsender : s.sender) :
    s.sent.flatten++((s.move c p).place c).taken++s.buf++((s.move c p).place .writer).unwritten =
      s.written.flatten := by
  have hkept:=h.kept hsender
  rw [taken,hmu] at hkept
  rw [move_self,htaken,unwritten_move hp]
  exact hkept

theorem kept_locked (h : Orderly s) (hmu : s.mu=some c) {sent : List GoString} {buf : GoString}
    (hp : p.unwritten=(s.place c).unwritten) (hsender : s.sender)
    (hflow : sent.flatten++p.taken++buf=s.sent.flatten++(s.place c).taken++s.buf) :
    sent.flatten++(s.move c p).taken++buf++((s.move c p).place .writer).unwritten =
      s.written.flatten := by
  have hkept:=h.kept hsender
  rw [taken_holder hmu] at hkept
  rw [taken_move_self hmu,unwritten_move hp,hflow]
  exact hkept

theorem kept_unlock (h : Orderly s) (hmu : s.mu=some c) (htaken : (s.place c).taken=[])
    (hp : p.unwritten=(s.place c).unwritten) (hsender : s.sender) :
    s.sent.flatten++[]++s.buf++((s.move c p).place .writer).unwritten=s.written.flatten := by
  have hkept:=h.kept hsender
  rw [taken_holder hmu,htaken] at hkept
  rw [unwritten_move hp]
  exact hkept

end

theorem orderly_moves (h : Orderly s) (hm : Moves s c t) : Orderly t := by
  cases hm with
  | lockWrite data hp hmu =>
    have hw:=h.writer c (by rw [hp]; rfl)
    exact ⟨holder_lock h hmu rfl,writer_move h fun _ => hw,
      kept_lock h hmu rfl (by rw [hp]; rfl),stopped_move h _ (by rw [hp]; nofun),
      emptied_move h nofun id,last_move h c (.append data) (fun _ => nofun) (absurd rfl),
      filled_move h nofun,h.sent⟩
  | append data shouldFlush hp =>
    have hw:=h.writer c (by rw [hp]; rfl)
    subst hw
    have hmu:=(h.holder .writer).mp (by rw [hp]; rfl)
    refine ⟨holder_move h (by rw [hp]; rfl),writer_move h fun _ => rfl,?_,
      stopped_move h _ (by rw [hp]; nofun),?_,last_move h .writer (.unlockWrite shouldFlush) nofun (absurd rfl),
      filled_move h nofun,h.sent⟩
    · intro hsender
      have hkept:=h.kept hsender
      rw [taken_holder hmu,hp] at hkept
      change s.sent.flatten++(s.move .writer _).taken++(s.buf++data) ++
        ((s.move .writer _).place .writer).unwritten=s.written.flatten
      rw [taken_move_self hmu,move_self,← hkept]
      simp [Place.taken,Place.unwritten]
    · intro he
      have hidle : s.place .stopper=.idle := by
        by_contra hne
        have := h.stopped hne
        cases hp.symm.trans this
      have hplace : (s.place .stopper).emptied := he
      rw [hidle] at hplace
      cases hplace
  | unlockWrite shouldFlush p hp hnext =>
    have hhold : p.holds=false := by rcases hnext with rfl | rfl <;> rfl
    have hwr : p.writes=false := by rcases hnext with rfl | rfl <;> rfl
    have hun : p.unwritten=[] := by rcases hnext with rfl | rfl <;> rfl
    have hem : p.emptied=false := by rcases hnext with rfl | rfl <;> rfl
    have hmu:=(h.holder c).mp (by rw [hp]; rfl)
    refine ⟨holder_unlock h (by rw [hp]; rfl) hhold,writer_move h (by rw [hwr]; nofun),
      kept_unlock h hmu (by rw [hp]; rfl) (by rw [hp,hun]; rfl),
      stopped_move h _ (by rw [hp]; nofun),emptied_move h (by rw [hem]; nofun) id,
      last_move h c p (fun _ => by rw [hem]; nofun) ?_,filled_move h ?_,h.sent⟩
    · exact fun hne => absurd (Place.taken_of_not_holds (by rw [hhold]; nofun)) hne
    · rintro data rfl
      cases hhold
  | lockFlush hp hmu =>
    exact ⟨holder_lock h hmu rfl,writer_move h nofun,kept_lock h hmu rfl (by rw [hp]; rfl),
      stopped_move h _ (by rw [hp]; nofun),emptied_move h nofun id,
      last_move h c .take (fun _ => nofun) (absurd rfl),filled_move h nofun,h.sent⟩
  | take hp hbuf hsender =>
    have hmu:=(h.holder c).mp (by rw [hp]; rfl)
    refine ⟨holder_move h (by rw [hp]; rfl),writer_move h nofun,?_,
      stopped_move h _ (by rw [hp]; nofun),emptied_move h (fun _ => .inr rfl) fun _ => rfl,
      last_move h c (.send s.buf) (fun _ _ => .inr (by rw [hp]; rfl)) (fun _ => hbuf),filled_move h ?_,h.sent⟩
    · refine fun hs => kept_locked h hmu (by rw [hp]; rfl) hs ?_
      rw [hp]
      change s.sent.flatten++s.buf++[]=s.sent.flatten++[]++s.buf
      rw [append_nil,append_nil]
    · intro data hdata
      cases hdata
      exact hbuf
  | takeNothing hp hbuf =>
    have hmu:=(h.holder c).mp (by rw [hp]; rfl)
    refine ⟨holder_move h (by rw [hp]; rfl),writer_move h nofun,?_,
      stopped_move h _ (by rw [hp]; nofun),emptied_move h (fun _ => .inr rfl) fun _ => rfl,
      last_move h c .unlockFlush (fun _ _ => .inr (by rw [hp]; rfl)) (absurd rfl),filled_move h nofun,h.sent⟩
    refine fun hs => kept_locked h hmu (by rw [hp]; rfl) hs ?_
    rw [hp,hbuf hs]
    rfl
  | send data hp =>
    have hmu:=(h.holder c).mp (by rw [hp]; rfl)
    refine ⟨holder_move h (by rw [hp]; rfl),writer_move h nofun,?_,
      stopped_move h _ (by rw [hp]; nofun),emptied_move h (fun _ => .inl (by rw [hp]; rfl)) id,
      last_move h c .unlockFlush (fun _ _ => .inl (by rw [hp]; rfl)) (absurd rfl),filled_move h nofun,?_⟩
    · refine fun hs => kept_locked h hmu (by rw [hp]; rfl) hs ?_
      rw [hp]
      change (s.sent++[data]).flatten++[]++s.buf=s.sent.flatten++data++s.buf
      rw [flatten_append,flatten_singleton,append_nil]
    · intro d hd
      rcases mem_append.mp hd with hd | hd
      · exact h.sent d hd
      · rw [mem_singleton.mp hd]
        exact h.filled c data hp
  | unlockFlush hp =>
    have hmu:=(h.holder c).mp (by rw [hp]; rfl)
    exact ⟨holder_unlock h (by rw [hp]; rfl) (by cases c <;> rfl),
      writer_move h (by cases c <;> nofun),
      kept_unlock h hmu (by rw [hp]; rfl) (by rw [hp]; cases c <;> rfl),
      stopped_move h _ (by rw [hp]; nofun),emptied_move h (fun _ => .inl (by rw [hp]; rfl)) id,
      last_move h c (afterFlush c) (fun _ _ => .inl (by rw [hp]; rfl)) (by cases c <;> exact absurd rfl),
      filled_move h (by cases c <;> nofun),h.sent⟩

theorem orderly_step (s : OutputStreamer) (l : Label) (t : OutputStreamer) (h : Orderly s)
    (hs : s.step l=some t) : Orderly t := by
  rcases step_cases hs with hc | ⟨c,rfl,hm⟩
  · exact orderly_calls h hc
  · exact orderly_moves h hm

theorem step_written (s : OutputStreamer) (l : Label) (t : OutputStreamer) (hs : s.step l=some t) :
    t.written=s.written++l.written := by
  rcases step_cases hs with hc | ⟨c,rfl,hm⟩
  · cases hc
    case write => rfl
    all_goals exact (append_nil _).symm
  · cases hm <;> exact (append_nil _).symm

theorem step_sender (s : OutputStreamer) (l : Label) (t : OutputStreamer) (h : s.sender)
    (hs : s.step l=some t) : t.sender := by
  rcases step_cases hs with hc | ⟨c,rfl,hm⟩
  · cases hc <;> exact h
  · cases hm <;> exact h

theorem taken_of_ended (h : Orderly s) (hend : s.place .stopper=.ended) : s.taken=[] := by
  cases hmu : s.mu with
  | none => rw [taken,hmu]; rfl
  | some c =>
    rw [taken_holder hmu]
    by_cases hc : c=.stopper
    · rw [hc,hend]
      rfl
    · exact h.last (by rw [hend]; rfl) c hc

theorem ended_step (hend : s.place .stopper=.ended) (hs : s.step l=some t) : t.place .stopper=.ended := by
  rcases step_cases hs with hc | ⟨c,rfl,hm⟩
  · cases hc with
    | stop _ hstop => rw [hend] at hstop; cases hstop
    | _ => exact hend
  · cases c with
    | stopper => rw [step,next,hend] at hs; cases hs
    | _ => cases hm <;> exact hend

theorem sent_of_ended (h : Orderly s) (hsender : s.sender) (hend : s.place .stopper=.ended) :
    s.sent.flatten=s.written.flatten := by
  have hkept:=h.kept hsender
  rw [h.stopped (by rw [hend]; nofun),h.emptied (by rw [hend]; rfl),taken_of_ended h hend] at hkept
  simpa [Place.unwritten] using hkept

/-- What is sent is the beginning of what was written, without empty calls, and all of it once `Stop` has
returned. -/
theorem sent_eq_written (flushSize flushInterval : Int) (ls : List Label) (s : OutputStreamer)
    (hr : exec step (newOutputStreamer flushSize flushInterval true) ls=some s) :
    (∀ data∈s.sent, data≠[]) ∧ s.sent.flatten <+: (ls.flatMap Label.written).flatten ∧
      (s.place .stopper=.ended → s.sent.flatten=(ls.flatMap Label.written).flatten) := by
  have h : Orderly s := exec_stable orderly_step (orderly_new flushSize flushInterval true) hr
  have hsender : s.sender := exec_stable (I := fun s => s.sender) step_sender rfl hr
  have hw : s.written=ls.flatMap Label.written := exec_history step_written hr
  rw [← hw]
  refine ⟨h.sent,⟨s.taken++s.buf++(s.place .writer).unwritten,?_⟩,sent_of_ended h hsender⟩
  rw [← h.kept hsender]
  simp

def twoWrites : List Label :=
  [.write [0x61,0x62],.next .writer,.next .writer,.next .writer,.write [0x63,0x64],
    .next .writer,.next .writer,.next .writer,.tick,.next .ticker,.next .ticker,.next .ticker,
    .next .ticker,.next .writer,.next .writer,.next .writer,.stop,.next .stopper,.next .stopper,
    .next .stopper]

theorem sent_eq_written_two :
    ∃ s, exec step (newOutputStreamer 4 100 true) twoWrites=some s ∧ s.place .stopper=.ended ∧
      s.sent.flatten=[0x61,0x62,0x63,0x64] := by
  obtain ⟨s,hr,hend⟩ := exists_exec step (newOutputStreamer 4 100 true) twoWrites
    (fun s => s.place .stopper=.ended) (by decide)
  exact ⟨s,hr,hend,(sent_eq_written 4 100 twoWrites s hr).2.2 hend⟩

def placeRank : Place → Nat
  | .lockWrite _ => 7
  | .append _ => 6
  | .unlockWrite _ => 5
  | .lockFlush => 4
  | .take => 3
  | .send _ => 2
  | .unlockFlush => 1
  | .idle | .ended => 0

def rank (s : OutputStreamer) : Nat :=
  placeRank (s.place .writer)+placeRank (s.place .ticker)+placeRank (s.place .stopper)

theorem rank_move (h : placeRank p<placeRank (s.place c)) : (s.move c p).rank<s.rank := by
  simp only [rank,move]
  cases c <;> simp <;> omega

theorem rank_next (h : Moves s c t) : t.rank<s.rank := by
  cases h with
  | unlockWrite shouldFlush p hp hnext =>
    refine rank_move ?_
    rcases hnext with rfl | rfl <;> simp [hp,placeRank]
  | unlockFlush hp =>
    refine rank_move ?_
    cases c <;> simp [hp,placeRank,afterFlush]
  | _ =>
    refine rank_move ?_
    simp [*,placeRank]

theorem next_of_holds (h : (s.place c).holds) : ∃ t, s.next c=some t := by
  unfold next
  cases hp : s.place c <;> rw [hp] at h <;> first | exact ⟨_,rfl⟩ | cases h

theorem stopper_move (hs : s.place .stopper ≠ .idle)
    (hp : c=.stopper → p ≠ .idle) : (s.move c p).place .stopper ≠ .idle := by
  by_cases hc : Caller.stopper=c
  · subst hc
    rw [move_self]
    exact hp rfl
  · rw [move_of_ne s p hc]
    exact hs

theorem stopper_moves (h : Orderly s) (hm : Moves s c t)
    (hs : s.place .stopper ≠ .idle) : t.place .stopper ≠ .idle := by
  cases hm with
  | unlockWrite shouldFlush p hp hnext =>
    have hw:=h.writer c (by rw [hp]; rfl)
    exact stopper_move hs fun hc => nomatch hw.symm.trans hc
  | unlockFlush hp => exact stopper_move hs fun hc => by rw [hc]; nofun
  | _ => exact stopper_move hs fun _ => nofun

/-- Wherever the writer and the ticker are, `Stop` can be brought to its end. -/
theorem stop_can_end (flushSize flushInterval : Int) (sender : Bool) (ls : List Label)
    (s : OutputStreamer) (hr : exec step (newOutputStreamer flushSize flushInterval sender) ls=some s)
    (hs : s.place .stopper ≠ .idle) : CanReach step (fun t => t.place .stopper=.ended) s := by
  have h : Orderly s := exec_stable orderly_step (orderly_new flushSize flushInterval sender) hr
  refine canReach_of_rank (I := fun s => Orderly s ∧ s.place .stopper ≠ .idle) rank ?_ ⟨h,hs⟩
  rintro s ⟨h,hs⟩ hend
  obtain ⟨c,t,ht⟩ : ∃ c t, s.next c=some t := by
    cases hmu : s.mu with
    | some c => exact ⟨c,next_of_holds ((h.holder c).mpr hmu)⟩
    | none =>
      have hfree : (s.place .stopper).holds≠true := fun hh => by
        have := (h.holder .stopper).mp hh
        cases hmu.symm.trans this
      have hw : (s.place .stopper).writes≠true := fun hh => nomatch h.writer .stopper hh
      have hlock : s.place .stopper=.lockFlush := by
        revert hs hend hfree hw
        cases s.place .stopper <;> simp [Place.holds,Place.writes]
      exact ⟨.stopper,_,by rw [next,hlock]; exact if_pos hmu⟩
  exact ⟨.next c,t,ht,⟨orderly_moves h (next_moves ht),stopper_moves h (next_moves ht) hs⟩,
    rank_next (next_moves ht)⟩

theorem stop_can_end_writing : ∃ s, exec step (newOutputStreamer 4 100 true) (twoWrites.take 17)=some s ∧
    CanReach step (fun t => t.place .stopper=.ended) s :=
  ⟨_,rfl,stop_can_end 4 100 true (twoWrites.take 17) _ rfl (by decide)⟩

end OutputStreamer

end OpsAgent.Sandbox
