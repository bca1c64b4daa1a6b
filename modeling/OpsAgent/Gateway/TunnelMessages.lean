import OpsAgent.Gateway.TunnelPool

/-!
# What the platform is told about a tunnel
-/

namespace OpsAgent.Tunnel
open Lib Lib.GoStrings Lib.Exec List Option Bool

def Conversation (ms : List Msg) : Prop :=
  ∃ payloads : List GoString, ms=.tunnelOpen::payloads.map .tunnelData++[.tunnelClose]

def Closer.owes (i : Nat) (cl : Closer) : Bool := cl.stage == .send&&cl.queue.head? == some i
def Tables.owed (t : Tables) (i : Nat) : Nat := t.closers.countP (Closer.owes i)
def Pc.quiet : Pc → Bool
  | .opening | .sending .. => false
  | _ => true
def Conn.permits (full : Bool) (c : Conn) : Action → Bool
  | .add => !full
  | .read payload err => (payload.isEmpty||!c.closed)&&(err != .eof||c.closed)
  | _ => true
def Tables.unused (t : Tables) : Action → Bool
  | .generate (some randBytes) => t.conns.all fun c => c.id != some (tunnelID randBytes)
  | _ => true

/-- An ID is new, the pool has room, a read gives data only until the tunnel is closed, and another goroutine sets
`closed` only when the handler is quiet, which then waits for its close message. -/
def permits (cfg : Config) (g : Gateway) : Label → Bool
  | .handler i a =>
    g.owed i == 0&&g.unused a&&g.conns[i]?.all fun c => c.permits (g.full cfg) a
  | .closer k =>
    g.closers[k]?.all fun cl => (cl.queue.head?.bind fun i => g.conns[i]?).all fun c =>
      cl.stage != .lock||c.closed||c.pc.quiet
  | _ => true

def Pc.fits (closed : Bool) : Pc → Bool
  | .auth | .generate | .closing _ .rejected => false
  | .add | .opening => !closed
  | .sending _ err => !closed&&err != .eof
  | .checking .eof => closed
  | .closing .send _ | .closing .hangUp _ | .removing | .hangUp | .returned => closed
  | _ => true

def Pc.unopened : Pc → Bool
  | .add | .opening => true
  | _ => false
def Pc.owes : Pc → Nat
  | .closing .send _ => 1
  | _ => 0
def Pc.silent : Pc → Bool
  | .closing .hangUp _ | .removing | .hangUp | .returned => true
  | _ => false

namespace Pc

theorem fits_true {pc : Pc} (h : pc.fits false) (he : pc.early=false)
    (hq : pc.quiet) : pc.fits true := by
  cases pc with
  | closing stage site => cases stage <;> cases site <;> first | rfl | cases h
  | checking err => cases err <;> rfl
  | sending payload err | opening => cases hq
  | add => cases he
  | _ => first | rfl | cases h

theorem closed_of_silent {pc : Pc} {closed : Bool} (h : pc.fits closed) (hs : pc.silent) : closed := by
  cases pc with
  | closing stage site =>
    cases stage with
    | hangUp => cases site <;> first | exact h | cases h
    | _ => cases hs
  | removing | hangUp | returned => exact h
  | _ => cases hs

theorem open_of_unopened {pc : Pc} {closed : Bool} (h : pc.fits closed)
    (hno : pc.unopened) : closed=false := by
  cases pc with
  | add | opening => simpa [fits] using h
  | _ => cases hno

end Pc

structure Conn.Talks (c : Conn) (owed : Nat) (ms : List Msg) : Prop where
  fits : c.pc.fits c.closed
  pooled : c.pc ≠ .add → c.pooled
  settled : c.pc.silent → owed=0
  once : owed+c.pc.owes≤c.closed.toNat
  unopened : c.pc.unopened → ms=[]
  opened : c.pc.unopened=false → ∃ payloads : List GoString,
    ms=.tunnelOpen::payloads.map .tunnelData ++
      List.replicate (c.closed.toNat-(owed+c.pc.owes)) .tunnelClose

namespace Conn

variable {c c' : Conn} {owed : Nat} {ms : List Msg} {stage : Closing}

theorem Talks.move (h : c.Talks 0 ms) {pc pc' : Pc} (hpc : c.pc=pc) (hpc' : c'.pc=pc')
    (hclosed : c'.closed=c.closed) (hpooled : c'.pooled=c.pooled) (hopen : pc.unopened=false)
    (howes : pc.owes=0) (hopen' : pc'.unopened=false) (howes' : pc'.owes=0)
    (hfits : pc'.fits c.closed) : c'.Talks 0 ms where
  fits := by rw [hpc',hclosed,hfits]
  pooled _ := by
    rw [hpooled]
    refine h.pooled fun hadd => ?_
    rw [hpc.symm.trans hadd] at hopen
    cases hopen
  settled _ := rfl
  once := by
    rw [hpc',howes']
    exact Nat.zero_le _
  unopened hno := by
    rw [hpc',hopen'] at hno
    cases hno
  opened _ := by
    have hold:=h.opened (by rw [hpc,hopen])
    rw [hpc,howes] at hold
    rwa [hpc',howes',hclosed]

theorem Talks.of_open (h : c.Talks 0 ms) (hclosed : c.closed=false) (hopen : c.pc.unopened=false) :
    ∃ payloads : List GoString, ms=.tunnelOpen::payloads.map .tunnelData := by
  obtain ⟨payloads,hms⟩ := h.opened hopen
  refine ⟨payloads,?_⟩
  simpa [hclosed] using hms

theorem Talks.of_payloads (hclosed : c.closed=false) (hpooled : c.pooled) {pc : Pc}
    (hfits : pc.fits false) (hopen : pc.unopened=false) (howes : pc.owes=0)
    (payloads : List GoString) :
    (c.goto pc).Talks 0 (.tunnelOpen::payloads.map .tunnelData) where
  fits := by rwa [Conn.goto,hclosed]
  pooled _ := hpooled
  settled _ := rfl
  once := by simp [Conn.goto,howes]
  unopened hno := by
    rw [Conn.goto,hopen] at hno
    cases hno
  opened _ := ⟨payloads,by simp [Conn.goto,hclosed]⟩

theorem Talks.closeStep (h : c.Talks 0 ms) {site : Site}
    (hpc : c.pc=.closing stage site) : ((c.close stage).1.goto (site.resume (c.close stage).2.2)).Talks 0
      (ms++(c.close stage).2.1.toList) := by
  have hfits:=h.fits
  rw [hpc] at hfits
  have hsite : site ≠ .rejected := by
    intro hrej
    subst hrej
    cases stage <;> cases hfits
  have hnext : ∀ closed, site.next.fits closed=closed := by
    intro closed
    cases site <;> rfl
  have hopen' : site.next.unopened=false := by cases site <;> rfl
  have howes' : site.next.owes=0 := by cases site <;> rfl
  cases stage with
  | lock =>
    rw [close]
    split
    case isTrue hclosed =>
      rw [toList_none,append_nil]
      exact h.move hpc rfl rfl rfl rfl rfl hopen' howes' ((hnext _).trans hclosed)
    case isFalse hopen =>
      obtain ⟨payloads,hms⟩ := h.of_open (eq_false_iff.mpr hopen) (by rw [hpc]; rfl)
      rw [toList_none,append_nil]
      refine ⟨?_,fun _ => h.pooled (by simp [hpc]),fun _ => rfl,Nat.le_refl 1,
        fun hno => absurd hno Bool.false_ne_true,fun _ => ⟨payloads,by
          simpa [Conn.goto,Site.resume,Pc.owes] using hms⟩⟩
      cases site <;> first | rfl | exact absurd rfl hsite
  | send =>
    have hclosed : c.closed := by cases site <;> first | exact hfits | exact absurd rfl hsite
    obtain ⟨payloads,hms⟩ := h.opened (by rw [hpc]; rfl)
    rw [hpc,hclosed] at hms
    refine ⟨?_,fun _ => h.pooled (by simp [hpc]),fun _ => rfl,Nat.zero_le _,
      fun hno => absurd hno Bool.false_ne_true,fun _ => ⟨payloads,?_⟩⟩
    · cases site <;> first | exact hclosed | exact absurd rfl hsite
    · simp [hms,Conn.goto,close,hclosed,Site.resume,Pc.owes]
  | hangUp =>
    have hclosed : c.closed := by cases site <;> first | exact hfits | exact absurd rfl hsite
    rw [close,toList_none,append_nil]
    exact h.move hpc rfl rfl rfl rfl rfl hopen' howes' ((hnext _).trans hclosed)

theorem Acts.talks {cfg : Config} {ctxDone full : Bool} {a : Action} {op : PoolOp}
    {msg : Option Msg} (ha : c.Acts cfg ctxDone full a c' op msg) (hp : c.permits full a)
    (h : c.Talks 0 ms) : c'.Talks 0 (ms++msg.toList) := by
  have hfits:=h.fits
  cases ha with
  | authenticated received hpc | refuse received hpc | noID hpc | newID randBytes hpc =>
    rw [hpc] at hfits
    cases hfits
  | reject hpc hfull =>
    subst hfull
    cases hp
  | add hpc =>
    rw [hpc] at hfits
    have hms:=h.unopened (by rw [hpc]; rfl)
    exact ⟨hfits,fun _ => rfl,fun _ => rfl,Nat.zero_le _,fun _ => by rw [hms]; rfl,
      fun hno => absurd hno.symm Bool.false_ne_true⟩
  | sendOpen ok hpc =>
    rw [hpc] at hfits
    have hclosed : c.closed=false := by simpa [Pc.fits] using hfits
    have hms:=h.unopened (by rw [hpc]; rfl)
    have hpooled:=h.pooled (by simp [hpc])
    rw [hms,nil_append]
    cases ok with
    | true | false => exact .of_payloads hclosed hpooled rfl rfl rfl []
  | sendData payload err ok hpc =>
    rw [hpc] at hfits
    obtain ⟨hclosed,herr⟩ : c.closed=false ∧ err ≠ .eof := by simpa [Pc.fits] using hfits
    obtain ⟨payloads,hms⟩ := h.of_open hclosed (by rw [hpc]; rfl)
    have hpooled:=h.pooled (by simp [hpc])
    have hmore : ms++(some (Msg.tunnelData payload)).toList =
        .tunnelOpen::(payloads++[payload]).map .tunnelData := by simp [hms]
    rw [hmore]
    cases ok with
    | true =>
      refine .of_payloads hclosed hpooled ?_ rfl rfl (payloads++[payload])
      cases err <;> first | rfl | exact absurd rfl herr
    | false => exact .of_payloads hclosed hpooled rfl rfl rfl (payloads++[payload])
  | close stage site hpc => exact h.closeStep hpc
  | read payload err hpc hread =>
    rw [toList_none,append_nil]
    simp only [Conn.permits,and_eq_true,or_eq_true,List.isEmpty_iff,not_eq_true',bne_iff_ne] at hp
    obtain ⟨hdata,heof⟩ := hp
    by_cases hpay : payload=[]
    · rw [if_pos hpay]
      refine h.move hpc rfl rfl rfl rfl rfl rfl rfl ?_
      cases err with
      | eof => exact heof.resolve_left fun hne => hne rfl
      | _ => rfl
    · rw [if_neg hpay]
      have hclosed:=hdata.resolve_left hpay
      refine h.move hpc rfl rfl rfl rfl rfl rfl rfl ?_
      simpa [Pc.fits,Conn.goto,hclosed] using heof
  | undo hpc | cancelled hpc | default hpc | failed hpc | again err hpc =>
    rw [toList_none,append_nil]
    exact h.move hpc rfl rfl rfl rfl rfl rfl rfl rfl
  | done hpc hclosed =>
    rw [toList_none,append_nil]
    exact h.move hpc rfl rfl rfl rfl rfl rfl rfl hclosed
  | eof hpc | remove hpc | hangUp hpc =>
    rw [toList_none,append_nil]
    rw [hpc] at hfits
    exact h.move hpc rfl rfl rfl rfl rfl rfl rfl hfits

theorem Talks.close (h : c.Talks owed ms) {owed' : Nat}
    (hquiet : stage=.lock → c.closed=false → c.pc.quiet) (hearly : c.pc.early=false)
    (howed : owed' + (stage == .send).toNat=owed+((c.close stage).2.2 == some .send).toNat) :
    (c.close stage).1.Talks owed' (ms++(c.close stage).2.1.toList) := by
  have hfits:=h.fits
  cases stage with
  | lock =>
    rw [Conn.close] at howed ⊢
    split at howed
    case isTrue hclosed =>
      have heq : owed' = owed := howed
      subst heq
      rw [if_pos hclosed,toList_none,append_nil]
      exact h
    case isFalse hclosed =>
      have hopen : c.closed=false := eq_false_iff.mpr hclosed
      have honce:=h.once
      have hq:=hquiet rfl hopen
      rw [hopen] at hfits honce
      have hzero : owed=0 ∧ c.pc.owes=0 := Nat.add_eq_zero_iff.mp (Nat.le_zero.mp honce)
      obtain ⟨hnone,howes⟩ := hzero
      subst hnone
      have hone : owed' = 1 := howed
      subst hone
      rw [if_neg hclosed,toList_none,append_nil]
      refine ⟨?_,h.pooled,fun hs => ?_,by simp [howes],h.unopened,fun hno => ?_⟩
      · exact Pc.fits_true hfits hearly hq
      · exact absurd (Pc.closed_of_silent hfits hs) Bool.false_ne_true
      · obtain ⟨payloads,hms⟩ := h.of_open hopen hno
        exact ⟨payloads,by simpa [howes] using hms⟩
  | send =>
    have hless : owed' + 1=owed := howed
    have honce:=h.once
    have hle:=toNat_le c.closed
    have howes : c.pc.owes=0 ∧ owed' = 0 ∧ c.closed.toNat=1 := by omega
    obtain ⟨howes,hzero,hclosed⟩ := howes
    subst hzero
    refine ⟨hfits,h.pooled,fun _ => rfl,by simp [Conn.close,howes],fun hno => ?_,
      fun hno => ?_⟩
    · rw [Pc.open_of_unopened hfits hno] at hclosed
      cases hclosed
    · obtain ⟨payloads,hms⟩ := h.opened hno
      exact ⟨payloads,by simp [hms,Conn.close,howes,hclosed,← hless]⟩
  | hangUp =>
    have heq : owed' = owed := howed
    subst heq
    rw [Conn.close,toList_none,append_nil]
    exact ⟨h.fits,h.pooled,h.settled,h.once,h.unopened,h.opened⟩

end Conn

theorem filterMap_stamp (id : Option String) (msg : Option Msg) (d : String) :
    ((stamp id msg).filterMap fun s => if s.tunnelID=d then some s.msg else none) =
      if id=some d then msg.toList else [] := by
  cases id with
  | none => rfl
  | some e =>
    cases msg with
    | none => simp [stamp]
    | some m => by_cases h : e=d <;> simp [stamp,h]

theorem of_mem_stamp {id : Option String} {msg : Option Msg} {s : Sent} (h : s∈stamp id msg) :
    id=some s.tunnelID := by
  cases id with
  | none => cases h
  | some d =>
    cases msg with
    | none => cases h
    | some m =>
      rw [mem_singleton.mp h]

def Pc.anonymous : Pc → Bool
  | .auth | .generate | .hangUp | .returned => true
  | _ => false

namespace Conn

variable {cfg : Config} {ctxDone full : Bool} {c c' : Conn} {a : Action} {op : PoolOp}
  {msg : Option Msg}

theorem Acts.closed_eq (ha : c.Acts cfg ctxDone full a c' op msg) (h : c.pc.early) :
    c'.closed=c.closed := by
  cases ha with
  | close stage site hpc =>
    rw [hpc] at h
    cases h
  | _ => rfl

theorem Acts.id_eq (ha : c.Acts cfg ctxDone full a c' op msg) (h : c.pc ≠ .generate) : c'.id=c.id := by
  cases ha with
  | newID randBytes hpc => exact absurd hpc h
  | close stage site => exact close_id c stage
  | _ => rfl

theorem Acts.anonymous (ha : c.Acts cfg ctxDone full a c' op msg) (h : c.pc.anonymous) :
    msg=none ∧ (c'.id=c.id ∧ c'.pc.anonymous ∨
      c.pc=.generate ∧ c'.pc=.add ∧ ∃ randBytes, a=.generate (some randBytes) ∧
        c'.id=some (tunnelID randBytes)) := by
  cases ha with
  | authenticated | refuse | noID | hangUp => exact ⟨rfl,.inl ⟨rfl,rfl⟩⟩
  | newID randBytes hpc => exact ⟨rfl,.inr ⟨hpc,rfl,randBytes,rfl,rfl⟩⟩
  | reject hpc | add hpc | undo hpc | cancelled hpc | done hpc | default hpc | eof hpc
  | failed hpc | remove hpc | sendOpen ok hpc | again err hpc
  | read payload err hpc | close stage site hpc | sendData payload err ok hpc =>
    rw [hpc] at h
    cases h

theorem Talks.of_add (hpc : c.pc=.add) (hclosed : c.closed=false) : c.Talks 0 [] where
  fits := by simp [hpc,Pc.fits,hclosed]
  pooled h := absurd hpc h
  settled _ := rfl
  once := by simp [hpc,Pc.owes]
  unopened _ := rfl
  opened h := by
    rw [hpc] at h
    cases h

end Conn

structure Orderly (t : Tables) : Prop where
  distinct : ∀ (i j : Nat) (c c' : Conn) (d : String), t.conns[i]?=some c →
    t.conns[j]?=some c' → c.id=some d → c'.id=some d → i=j
  anonymous : ∀ c∈t.conns, c.id=none → c.pc.anonymous
  unclosed : ∀ c∈t.conns, c.pc.early → c.closed=false
  sentBy : ∀ s∈t.sent, ∃ c∈t.conns, c.id=some s.tunnelID
  talks : ∀ (i : Nat) (c : Conn) (d : String), t.conns[i]?=some c → c.id=some d →
    c.Talks (t.owed i) (t.messages d)

namespace Orderly

variable {t : Tables} {i : Nat}

theorem start (cfg : Config) : Orderly (Gateway.start cfg).toTables where
  distinct _ _ _ _ _ h := nomatch h
  anonymous _ h := nomatch h
  unclosed _ h := nomatch h
  sentBy _ h := nomatch h
  talks _ _ _ h := nomatch h

theorem accept (h : Orderly t) : Orderly t.accept where
  distinct i j c c' d hi hj hid hid' := by
    rcases Pool.getElem?_push_or hi with hi | ⟨-,rfl⟩
    · rcases Pool.getElem?_push_or hj with hj | ⟨-,rfl⟩
      · exact h.distinct i j c c' d hi hj hid hid'
      · cases hid'
    · cases hid
  anonymous := Pool.forall_mem_push h.anonymous fun _ => rfl
  unclosed := Pool.forall_mem_push h.unclosed fun _ => rfl
  sentBy s hs := by
    obtain ⟨c,hc,hid⟩ := h.sentBy s hs
    exact ⟨c,mem_append_left _ hc,hid⟩
  talks i c d hi hid := by
    rcases Pool.getElem?_push_or hi with hi | ⟨-,rfl⟩
    · exact h.talks i c d hi hid
    · cases hid

theorem update (h : Orderly t) {c c' : Conn} {msg : Option Msg}
    {pool : SortedMap String Nat} {closers : List Closer} (hi : t.conns[i]?=some c)
    (hid : c'.id=c.id ∨ c.id=none ∧ ∀ d, c'.id=some d → ∀ e∈t.conns, e.id≠some d)
    (hanon : c'.id=none → c'.pc.anonymous) (hearly : c'.pc.early → c'.closed=false)
    (howed : ∀ j, j≠i → closers.countP (Closer.owes j)=t.owed j)
    (htalks : ∀ d, c'.id=some d → c'.Talks (closers.countP (Closer.owes i))
      (t.messages d ++ if c.id=some d then msg.toList else [])) :
    Orderly ⟨t.conns.set i c',pool,closers,t.sent++stamp c.id msg⟩ := by
  have hother : ∀ (j : Nat) (e : Conn) (d : String), j≠i → t.conns[j]?=some e → e.id=some d →
      c.id≠some d ∧ c'.id≠some d := by
    intro j e d hj he hd
    have hne : c.id≠some d := fun hc => hj (h.distinct j i e c d he hi hd hc)
    refine ⟨hne,fun hc' => ?_⟩
    rcases hid with hsame | ⟨-,hnew⟩
    · exact hne (hsame ▸ hc')
    · exact hnew d hc' e (mem_of_getElem? he) hd
  refine ⟨?_,Pool.forall_mem_set h.anonymous hanon i,Pool.forall_mem_set h.unclosed hearly i,?_,?_⟩
  · intro j k e e' d hj hk hd hd'
    rcases Pool.getElem?_set_or hj with ⟨hji,he⟩ | ⟨hji,hj⟩
    · subst he
      rcases Pool.getElem?_set_or hk with ⟨hki,-⟩ | ⟨hki,hk⟩
      · exact hji.trans hki.symm
      · exact absurd hd (hother k e' d hki hk hd').2
    · rcases Pool.getElem?_set_or hk with ⟨-,he'⟩ | ⟨-,hk⟩
      · exact absurd (he' ▸ hd') (hother j e d hji hj hd).2
      · exact h.distinct j k e e' d hj hk hd hd'
  · intro s hs
    have hc : ∃ e∈t.conns, e.id=some s.tunnelID := by
      rcases mem_append.mp hs with hs | hs
      · exact h.sentBy s hs
      · exact ⟨c,mem_of_getElem? hi,of_mem_stamp hs⟩
    obtain ⟨e,he,hd⟩ := hc
    rcases Pool.mem_set_or hi he c' with he | rfl
    · exact ⟨e,he,hd⟩
    · refine ⟨c',Pool.mem_set_self hi c',?_⟩
      rcases hid with hsame | ⟨hnone,-⟩
      · exact hsame.trans hd
      · cases hnone.symm.trans hd
  · intro j e d hj hd
    simp only [Tables.messages,Tables.owed,filterMap_append,filterMap_stamp]
    rcases Pool.getElem?_set_or hj with ⟨rfl,rfl⟩ | ⟨hji,hj⟩
    · exact htalks d hd
    · rw [if_neg (hother j e d hji hj hd).1,append_nil,howed j hji]
      exact h.talks j e d hj hd

theorem messages_eq_nil (h : Orderly t) {d : String} (hd : ∀ c∈t.conns, c.id≠some d) :
    t.messages d=[] := by
  rw [Tables.messages,filterMap_eq_nil_iff]
  intro s hs
  obtain ⟨c,hc,hid⟩ := h.sentBy s hs
  refine if_neg fun heq => ?_
  exact hd c hc (heq ▸ hid)

theorem handled (h : Orderly t) {cfg : Config} {ctxDone : Bool} {a : Action}
    {c c' : Conn} {op : PoolOp} {msg : Option Msg} (hi : t.conns[i]?=some c)
    (ha : c.Acts cfg ctxDone (t.full cfg) a c' op msg) (howed : t.owed i=0)
    (hunused : t.unused a) (hp : c.permits (t.full cfg) a) : Orderly (t.handled i c c' op msg) := by
  have hmem:=mem_of_getElem? hi
  have hearly : c'.pc.early → c'.closed=false := by
    intro he'
    have he : c.pc.early := by
      by_contra hne
      rw [ha.early (eq_false_iff.mpr hne)] at he'
      cases he'
    rw [ha.closed_eq he]
    exact h.unclosed c hmem he
  cases hid : c.id with
  | none =>
    obtain ⟨hmsg,hsame | ⟨hpc,hpc',randBytes,haction,hnew⟩⟩ :=
      ha.anonymous (h.anonymous c hmem hid)
    · refine h.update hi (.inl hsame.1) (fun _ => hsame.2) hearly (fun _ _ => rfl) fun d hd => ?_
      rw [hsame.1,hid] at hd
      cases hd
    · subst haction
      have hfresh : ∀ e∈t.conns, e.id≠some (tunnelID randBytes) := by
        simpa [Tables.unused] using hunused
      refine h.update hi (.inr ⟨hid,fun d hd => ?_⟩) (fun hno => ?_) hearly (fun _ _ => rfl)
        fun d hd => ?_
      · rw [← hd,hnew]
        exact hfresh
      · cases hnew.symm.trans hno
      · cases hnew.symm.trans hd
        rw [hmsg,toList_none,ite_self,append_nil,h.messages_eq_nil hfresh]
        have htalks:=Conn.Talks.of_add hpc' (hearly (by rw [hpc']; rfl))
        rwa [← howed] at htalks
  | some d =>
    have htalks:=h.talks i c d hi hid
    rw [howed] at htalks
    have hsame : c'.id=c.id := ha.id_eq fun hpc => by
      have hfits:=htalks.fits
      rw [hpc] at hfits
      cases hfits
    refine h.update hi (.inl hsame) (fun hno => ?_) hearly (fun _ _ => rfl) fun e he => ?_
    · rw [hsame,hid] at hno
      cases hno
    · cases hid.symm.trans (hsame.symm.trans he)
      rw [if_pos hid]
      have hnext:=ha.talks hp htalks
      rwa [← howed] at hnext

theorem closeStep (h : Orderly t) {k i : Nat} {cl : Closer} {rest : List Nat} {c : Conn}
    (hk : t.closers[k]?=some cl) (hq : cl.queue=i::rest) (hi : t.conns[i]?=some c)
    (hearly : c.pc.early=false) (hquiet : cl.stage=.lock → c.closed=false → c.pc.quiet) :
    Orderly (t.closeStep k cl i rest c) := by
  have howed:=fun j => Pool.countP_set (Closer.owes j) (cl.next i rest (c.close cl.stage).2.2) hk
  have howes : ∀ j, cl.owes j=(cl.stage == .send&&i == j) := by
    intro j
    simp [Closer.owes,hq]
  have howes' : ∀ j, (cl.next i rest (c.close cl.stage).2.2).owes j =
      ((c.close cl.stage).2.2 == some .send&&i == j) := by
    intro j
    cases (c.close cl.stage).2.2 with
    | none => simp [Closer.next,Closer.owes]
    | some stage => simp [Closer.next,Closer.owes,hq]
  refine h.update hi (.inl (Conn.close_id c cl.stage)) (fun hno => ?_) (fun he => ?_)
    (fun j hj => ?_) fun d hd => ?_
  · rw [Conn.close_id] at hno
    rw [Conn.close_pc]
    exact h.anonymous c (mem_of_getElem? hi) hno
  · rw [Conn.close_pc,hearly] at he
    cases he
  · have hcount:=howed j
    have hne : (i == j)=false := beq_eq_false_iff_ne.mpr (Ne.symm hj)
    rw [howes,howes',hne,Bool.and_false,Bool.and_false] at hcount
    exact Nat.add_right_cancel hcount
  · rw [Conn.close_id] at hd
    rw [if_pos hd]
    have hcount:=howed i
    rw [howes,howes',beq_self_eq_true,Bool.and_true,Bool.and_true] at hcount
    exact (h.talks i c d hi hd).close hquiet hearly hcount

theorem take (h : Orderly t) (origin : Origin) (ids : List String) : Orderly (t.take origin ids) := by
  have howed : ∀ i, (t.take origin ids).owed i=t.owed i := by
    intro i
    simp [Tables.owed,Tables.take,countP_append,Closer.owes]
  refine ⟨h.distinct,h.anonymous,h.unclosed,h.sentBy,fun i c d hi hid => ?_⟩
  rw [howed]
  exact h.talks i c d hi hid

theorem step {cfg : Config} {g g' : Gateway} {l : Label} (h : Orderly g.toTables)
    (hsafe : Safe cfg g.toTables) (hp : permits cfg g l) (hs : g.step cfg l=some g') :
    Orderly g'.toTables := by
  have hm:=Gateway.moves_of_step hs
  generalize g'.toTables=t' at hm ⊢
  cases hm with
  | accept => exact h.accept
  | handler hi ha =>
    simp only [permits,hi,all_some,and_eq_true,beq_iff_eq] at hp
    obtain ⟨⟨howed,hunused⟩,hp⟩ := hp
    exact h.handled hi ha howed hunused hp
  | closer hk hq hi =>
    obtain ⟨-,c,hc,hearly⟩ := hsafe.taken _ (mem_of_getElem? hk) _
      (.inl (by rw [hq]; exact mem_cons_self))
    cases hi.symm.trans hc
    refine h.closeStep hk hq hi hearly fun hlock hopen => ?_
    simpa [permits,hk,hq,hi,hlock,hopen] using hp
  | take origin ids => exact h.take origin ids
  | control => exact h

end Orderly

theorem orderly_of_run {cfg : Config} {ls : List Label} {g : Gateway}
    (hg : guarded (Gateway.step cfg) (permits cfg) (Gateway.start cfg) ls)
    (hr : exec (Gateway.step cfg) (Gateway.start cfg) ls=some g) : Orderly g.toTables := by
  have hboth:=exec_invariant
    (I := fun g : Gateway => Safe cfg g.toTables ∧ Orderly g.toTables)
    (fun _ _ _ h hp hs => ⟨h.1.step hs,h.2.step h.1 hp hs⟩)
    ⟨Safe.start cfg,Orderly.start cfg⟩ hg hr
  exact hboth.2

theorem Conn.Talks.conversation {c : Conn} {owed : Nat} {ms : List Msg} (h : c.Talks owed ms) :
    ∃ whole, Conversation whole ∧ ms <+: whole ∧ (c.pc=.returned → ms=whole) := by
  cases hopen : c.pc.unopened with
  | true =>
    refine ⟨[.tunnelOpen,.tunnelClose],⟨[],rfl⟩,?_,fun hret => ?_⟩
    · rw [h.unopened hopen]
      exact nil_prefix
    · rw [hret] at hopen
      cases hopen
  | false =>
    obtain ⟨payloads,hms⟩ := h.opened hopen
    refine ⟨.tunnelOpen::payloads.map .tunnelData++[.tunnelClose],⟨payloads,rfl⟩,?_,?_⟩
    · have hle:=toNat_le c.closed
      rw [hms,prefix_append_right_inj]
      generalize hn : c.closed.toNat-(owed+c.pc.owes)=n
      have hn : n=0 ∨ n=1 := by omega
      rcases hn with rfl | rfl
      · exact nil_prefix
      · exact prefix_rfl
    · intro hret
      have hclosed : c.closed := Pc.closed_of_silent h.fits (by rw [hret]; rfl)
      have hsettled:=h.settled (by rw [hret]; rfl)
      rw [hms,hclosed,hsettled,hret]
      rfl

/-- In a run that keeps to `permits`, the messages of a tunnel are the beginning of a conversation, whole
once the handler has returned, and there are none without a tunnel. -/
theorem conversations_of_permitted_run {cfg : Config} {ls : List Label} {g : Gateway}
    (hg : guarded (Gateway.step cfg) (permits cfg) (Gateway.start cfg) ls=true)
    (hr : exec (Gateway.step cfg) (Gateway.start cfg) ls=some g) :
    (∀ c∈g.conns, ∀ d, c.id=some d → ∃ whole, Conversation whole ∧ g.messages d <+: whole ∧
      (c.pc=.returned → g.messages d=whole)) ∧
    ∀ s∈g.sent, ∃ c∈g.conns, c.id=some s.tunnelID ∧ c.pooled=true := by
  have horderly:=orderly_of_run hg hr
  have htalks : ∀ c∈g.conns, ∀ d, c.id=some d → ∃ owed, c.Talks owed (g.messages d) := by
    intro c hc d hd
    obtain ⟨i,hi⟩ := getElem?_of_mem hc
    exact ⟨g.owed i,horderly.talks i c d hi hd⟩
  constructor
  · intro c hc d hd
    obtain ⟨owed,htalk⟩ := htalks c hc d hd
    exact htalk.conversation
  · intro s hs
    obtain ⟨c,hc,hd⟩ := horderly.sentBy s hs
    refine ⟨c,hc,hd,?_⟩
    obtain ⟨owed,htalk⟩ := htalks c hc s.tunnelID hd
    refine htalk.pooled fun hpc => ?_
    have hnil:=htalk.unopened (by rw [hpc]; rfl)
    have hmsg : s.msg∈g.messages s.tunnelID :=
      mem_filterMap.mpr ⟨s,hs,if_pos rfl⟩
    rw [hnil] at hmsg
    cases hmsg

def relaying : List Label := arrival 0 1++handlerSteps 0 [.sendOpen true,.select .default]
def closedWhileReading : List Label :=
  relaying++handlerSteps 0 [.read [7] .none,.sendData true,.check,.select .default] ++
    platformClose 3++handlerSteps 0 [.read [] .other,.check,.close,.remove,.hangUp]

theorem closedWhileReading_conversation :
    ∃ g, exec (Gateway.step oneTunnel) (Gateway.start oneTunnel) closedWhileReading=some g ∧
      g.messages firstID=[.tunnelOpen,.tunnelData [7],.tunnelClose] ∧
      ∃ c∈g.conns, c.pc=.returned ∧ Conversation (g.messages firstID) := by
  obtain ⟨g,hr,hms,hconn⟩ := exists_exec (Gateway.step oneTunnel) (Gateway.start oneTunnel)
    closedWhileReading (fun g => g.messages firstID=[.tunnelOpen,.tunnelData [7],.tunnelClose] ∧
      ∃ c∈g.conns, c.pc=.returned ∧ c.id=some firstID) (by decide +kernel)
  obtain ⟨c,hc,hret,hid⟩ := hconn
  obtain ⟨whole,hwhole,-,hend⟩ :=
    (conversations_of_permitted_run (by decide +kernel) hr).1 c hc firstID hid
  exact ⟨g,hr,hms,c,hc,hret,hend hret ▸ hwhole⟩

def endOfStream : List Label :=
  relaying++handlerSteps 0 [.read [] .eof,.check,.remove,.hangUp]
def fullPool : List Label :=
  arrival 0 1++arrival 1 2++handlerSteps 1 [.close,.close,.close,.hangUp]
def stopSteps : List Label := [.stop,.stopNext [],.stopNext [],.stopNext [firstID]]
def stoppedBeforeOpen : List Label :=
  .started::arrival 0 1++stopSteps++replicate 2 (.closer 0) ++
    handlerSteps 0 [.sendOpen true]
def closedBeforeData : List Label :=
  relaying++handlerSteps 0 [.read [7] .none]++platformClose 2 ++
    handlerSteps 0 [.sendData true]
def returnedBeforeClose : List Label :=
  arrival 0 1++handlerSteps 0 [.sendOpen true]++platformClose 1 ++
    handlerSteps 0 [.select .done,.remove,.hangUp]

theorem conversation_not_kept :
    (∃ g, exec (Gateway.step oneTunnel) (Gateway.start oneTunnel) endOfStream=some g ∧
      g.conns.map (·.pc)=[.returned] ∧ g.messages firstID=[.tunnelOpen]) ∧
    (∃ g, exec (Gateway.step oneTunnel) (Gateway.start oneTunnel) fullPool=some g ∧
      g.conns.map (fun c => (c.pc,c.pooled))=[(.opening,true),(.returned,false)] ∧
      g.messages (tunnelID (List.replicate 8 2))=[.tunnelClose]) ∧
    (∃ g, exec (Gateway.step oneTunnel) (Gateway.start oneTunnel) stoppedBeforeOpen=some g ∧
      g.messages firstID=[.tunnelClose,.tunnelOpen]) ∧
    (∃ g, exec (Gateway.step oneTunnel) (Gateway.start oneTunnel) closedBeforeData=some g ∧
      g.messages firstID=[.tunnelOpen,.tunnelClose,.tunnelData [7]]) ∧
    ∃ g, exec (Gateway.step oneTunnel) (Gateway.start oneTunnel) returnedBeforeClose=some g ∧
      g.conns.map (·.pc)=[.returned] ∧ g.messages firstID=[.tunnelOpen] := by
  refine ⟨?_,?_,?_,?_,?_⟩ <;> exact exists_exec _ _ _ _ (by decide +kernel)

end OpsAgent.Tunnel
