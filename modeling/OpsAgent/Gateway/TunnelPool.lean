import OpsAgent.Gateway.Tunnels

/-!
# The tunnels in the pool
-/

namespace OpsAgent.Tunnel
open Lib Lib.GoStrings Lib.Exec List Bool

theorem get?_takeOut (pool : SortedMap String Nat) (ids : List String) (d : String) :
    (takeOut pool ids).1.get? d = if d∈ids then none else pool.get? d := by
  induction ids generalizing pool with
  | nil => rfl
  | cons e es ih =>
    rw [takeOut]
    by_cases hd : d=e
    · subst hd
      cases hget : pool.get? d with
      | none => simp [ih,hget]
      | some i => simp [ih]
    · cases hget : pool.get? e with
      | none => simp [ih,hd]
      | some i => simp [ih,hd,SortedMap.get?_erase]

theorem of_mem_takeOut {pool : SortedMap String Nat} {ids : List String} {i : Nat}
    (h : i∈(takeOut pool ids).2) : ∃ d∈ids, pool.get? d=some i := by
  induction ids generalizing pool with
  | nil => simp [takeOut] at h
  | cons e es ih =>
    rw [takeOut] at h
    cases hget : pool.get? e with
    | none =>
      rw [hget] at h
      obtain ⟨d,hd,hi⟩ := ih h
      exact ⟨d,mem_cons_of_mem _ hd,hi⟩
    | some j =>
      rw [hget] at h
      rcases mem_cons.mp h with heq | hmem
      · exact ⟨e,mem_cons_self,heq ▸ hget⟩
      · obtain ⟨d,hd,hi⟩ := ih hmem
        rw [SortedMap.get?_erase] at hi
        split at hi
        · cases hi
        · exact ⟨d,mem_cons_of_mem _ hd,hi⟩

theorem size_takeOut_le (pool : SortedMap String Nat) (ids : List String) :
    (takeOut pool ids).1.size≤pool.size := by
  induction ids generalizing pool with
  | nil => exact Nat.le_refl _
  | cons e es ih =>
    rw [takeOut]
    cases pool.get? e with
    | none => exact ih pool
    | some i => exact Nat.le_trans (ih (pool.erase e)) (pool.size_erase_le e)

theorem PoolOp.of_get?_run {op : PoolOp} {id : Option String} {i j : Nat}
    {pool : SortedMap String Nat} {d : String} (h : (op.run id i pool).get? d=some j) :
    op=.add ∧ id=some d ∧ j=i ∨ pool.get? d=some j ∧ (op=.remove → id≠some d) := by
  cases op with
  | keep => exact .inr ⟨h,fun hop => nomatch hop⟩
  | add =>
    cases id with
    | none => exact .inr ⟨h,fun hop => nomatch hop⟩
    | some e =>
      rw [PoolOp.run,SortedMap.get?_insert] at h
      split at h
      case isTrue heq =>
        cases h
        exact .inl ⟨rfl,congrArg some heq.symm,rfl⟩
      case isFalse => exact .inr ⟨h,fun hop => nomatch hop⟩
  | remove =>
    cases id with
    | none => exact .inr ⟨h,fun _ hid => nomatch hid⟩
    | some e =>
      rw [PoolOp.run,SortedMap.get?_erase] at h
      split at h
      case isTrue => cases h
      case isFalse hne => exact .inr ⟨h,fun _ hid => hne (Option.some.inj hid).symm⟩

theorem PoolOp.size_run_le (op : PoolOp) (id : Option String) (i : Nat) (pool : SortedMap String Nat) :
    (op.run id i pool).size≤pool.size+(if op=.add then 1 else 0) := by
  cases op with
  | keep => simp [PoolOp.run]
  | add =>
    cases id with
    | none => simp [PoolOp.run]
    | some e =>
      rw [PoolOp.run,SortedMap.size_insert]
      split <;> simp
  | remove =>
    cases id with
    | none => simp [PoolOp.run]
    | some e => exact pool.size_erase_le e

def Pc.holds : Pc → Bool
  | .opening | .undo | .select | .reading | .sending .. | .checking _ | .closing _ .relay
  | .removing => true
  | _ => false
def Pc.early : Pc → Bool
  | .auth | .generate | .add => true
  | _ => false

theorem Pc.early_of_holds {pc : Pc} (h : pc.holds) : pc.early=false := by
  cases pc <;> first | rfl | cases h

namespace Conn

@[simp] theorem close_pc (c : Conn) (stage : Closing) : (c.close stage).1.pc=c.pc := by
  cases stage with
  | lock =>
    rw [close]
    split <;> rfl
  | send | hangUp => rfl

@[simp] theorem close_id (c : Conn) (stage : Closing) : (c.close stage).1.id=c.id := by
  cases stage with
  | lock =>
    rw [close]
    split <;> rfl
  | send | hangUp => rfl

structure Ok (c : Conn) : Prop where
  done : c.doneCloses=c.closed.toNat
  hungUp : c.pc=.returned → c.connClosed

theorem Ok.close {c : Conn} (h : c.Ok) (stage : Closing) : (c.close stage).1.Ok := by
  cases stage with
  | lock =>
    simp only [Conn.close]
    split
    case isTrue => exact h
    case isFalse hopen =>
      refine ⟨?_,h.hungUp⟩
      have hdone:=h.done
      rw [eq_false_iff.mpr hopen] at hdone
      exact congrArg (· + 1) hdone
  | send => exact h
  | hangUp => exact ⟨h.done,fun _ => rfl⟩

theorem Ok.goto {c : Conn} (h : c.Ok) {pc : Pc} (hpc : pc ≠ .returned) : (c.goto pc).Ok :=
  ⟨h.done,fun heq => absurd heq hpc⟩

section Acts

variable {cfg : Config} {ctxDone full : Bool} {c c' : Conn} {a : Action} {op : PoolOp}
  {msg : Option Msg}

theorem Acts.ok (ha : c.Acts cfg ctxDone full a c' op msg) (h : c.Ok) : c'.Ok := by
  cases ha with
  | newID | add => exact ⟨h.done,fun heq => nomatch heq⟩
  | sendOpen ok | read payload err | sendData payload err ok => exact h.goto (by split <;> simp)
  | close stage site =>
    refine (h.close stage).goto ?_
    cases site <;> cases (c.close stage).2.2 <;> simp [Site.resume,Site.next]
  | hangUp => exact ⟨h.done,fun _ => rfl⟩
  | _ => exact h.goto (by simp)

theorem Acts.early (ha : c.Acts cfg ctxDone full a c' op msg) (h : c.pc.early=false) :
    c'.pc.early=false := by
  cases ha with
  | authenticated received hpc | newID randBytes hpc => simp [hpc,Pc.early] at h
  | sendOpen ok | sendData payload err ok => cases ok <;> rfl
  | read payload err =>
    simp only [goto]
    split <;> rfl
  | close stage site =>
    cases site <;> cases (c.close stage).2.2 <;> rfl
  | _ => rfl

theorem Acts.of_add (ha : c.Acts cfg ctxDone full a c' .add msg) :
    c.pc=.add ∧ full=false ∧ c'.pc=.opening ∧ c'.id=c.id := by
  cases ha with
  | add hpc h => exact ⟨hpc,h,rfl,rfl⟩

theorem Acts.holds (ha : c.Acts cfg ctxDone full a c' op msg) (h : c.pc.holds)
    (hop : op ≠ .remove) : c'.id=c.id ∧ c'.pc.holds := by
  cases ha with
  | undo | remove => exact absurd rfl hop
  | sendOpen ok | sendData payload err ok => cases ok <;> exact ⟨rfl,rfl⟩
  | read payload err =>
    refine ⟨rfl,?_⟩
    simp only [goto]
    split <;> rfl
  | cancelled | done | default | again | eof | failed => exact ⟨rfl,rfl⟩
  | close stage site hpc =>
    refine ⟨close_id c stage,?_⟩
    cases site with
    | relay => cases (c.close stage).2.2 <;> rfl
    | rejected | openFailed => simp [hpc,Pc.holds] at h
  | authenticated received hpc | refuse received hpc | noID hpc | newID randBytes hpc
  | reject hpc | add hpc | hangUp hpc => simp [hpc,Pc.holds] at h

end Acts

end Conn

def Tables.Gone (t : Tables) (i : Nat) : Prop :=
  (∀ d, t.pool.get? d≠some i) ∧ ∃ c, t.conns[i]?=some c ∧ c.pc.early=false

structure Safe (cfg : Config) (t : Tables) : Prop where
  size : (t.pool.size : Int) ≤ max 0 cfg.maxTunnels
  pooled : ∀ d i, t.pool.get? d=some i →
    ∃ c, t.conns[i]?=some c ∧ c.id=some d ∧ c.pc.holds
  ok : ∀ c∈t.conns, c.Ok
  taken : ∀ cl∈t.closers, ∀ i, i∈cl.queue ∨ i∈cl.completed → t.Gone i

namespace Safe

variable {cfg : Config} {ctxDone : Bool} {t : Tables}

theorem start (cfg : Config) : Safe cfg (Gateway.start cfg).toTables where
  size := le_max_left _ _
  pooled _ _ h := nomatch h
  ok _ h := nomatch h
  taken _ h := nomatch h

theorem accept (h : Safe cfg t) : Safe cfg t.accept where
  size := h.size
  pooled d i hget := by
    obtain ⟨c,hc,hid,hpc⟩ := h.pooled d i hget
    exact ⟨c,Pool.getElem?_push_of hc _,hid,hpc⟩
  ok := Pool.forall_mem_push h.ok ⟨rfl,fun heq => nomatch heq⟩
  taken cl hcl i hi := by
    obtain ⟨hout,c,hc,hpc⟩ := h.taken cl hcl i hi
    exact ⟨hout,c,Pool.getElem?_push_of hc _,hpc⟩

theorem handled (h : Safe cfg t) {i : Nat} {a : Action} {c c' : Conn} {op : PoolOp}
    {msg : Option Msg} (hi : t.conns[i]?=some c)
    (ha : c.Acts cfg ctxDone (t.full cfg) a c' op msg) : Safe cfg (t.handled i c c' op msg) where
  size := by
    have hsize:=op.size_run_le c.id i t.pool
    have hold:=h.size
    simp only [Tables.handled]
    by_cases hop : op=.add
    · subst hop
      obtain ⟨-,hroom,-,-⟩ := ha.of_add
      have hlt : (t.pool.size : Int)<cfg.maxTunnels := by simpa [Tables.full] using hroom
      simp only [if_true] at hsize
      omega
    · simp only [if_neg hop] at hsize
      omega
  pooled d j hget := by
    rcases PoolOp.of_get?_run hget with ⟨hop,hid,hj⟩ | ⟨hget,hrem⟩
    · subst hop hj
      obtain ⟨-,-,hpc,hsame⟩ := ha.of_add
      exact ⟨c',Pool.getElem?_set_of hi c',hsame.trans hid,by rw [hpc]; rfl⟩
    · refine Pool.exists_getElem?_set hi (fun _ hc => ?_) (h.pooled d j hget)
      obtain ⟨hid,hpc⟩ := hc
      obtain ⟨hsame,hpc'⟩ := ha.holds hpc fun hop => hrem hop hid
      exact ⟨hsame.trans hid,hpc'⟩
  ok := Pool.forall_mem_set h.ok (ha.ok (h.ok c (mem_of_getElem? hi))) i
  taken cl hcl j hj := by
    obtain ⟨hout,hpc⟩ := h.taken cl hcl j hj
    refine ⟨fun d hget => ?_,Pool.exists_getElem?_set hi (fun _ => ha.early) hpc⟩
    rcases PoolOp.of_get?_run hget with ⟨hop,-,hji⟩ | ⟨hget,-⟩
    · subst hop hji
      obtain ⟨e,he,hpc⟩ := hpc
      cases hi.symm.trans he
      rw [ha.of_add.1] at hpc
      cases hpc
    · exact hout d hget

theorem closeStep (h : Safe cfg t) {k i : Nat} {cl : Closer} {rest : List Nat} {c : Conn}
    (hk : t.closers[k]?=some cl) (hq : cl.queue=i::rest) (hi : t.conns[i]?=some c) :
    Safe cfg (t.closeStep k cl i rest c) where
  size := h.size
  pooled d j hget := by
    refine Pool.exists_getElem?_set hi (fun _ hc => ?_) (h.pooled d j hget)
    rwa [Conn.close_id,Conn.close_pc]
  ok := Pool.forall_mem_set h.ok ((h.ok c (mem_of_getElem? hi)).close _) i
  taken := by
    have hgone : ∀ cl' ∈ t.closers, ∀ j, j∈cl'.queue ∨ j∈cl'.completed →
        (t.closeStep k cl i rest c).Gone j := by
      intro cl' hcl' j hj
      obtain ⟨hout,hpc⟩ := h.taken cl' hcl' j hj
      refine ⟨hout,Pool.exists_getElem?_set hi (fun _ hc => ?_) hpc⟩
      rwa [Conn.close_pc]
    refine Pool.forall_mem_set hgone ?_ k
    intro j hj
    refine hgone cl (mem_of_getElem? hk) j ?_
    cases hnext : (c.close cl.stage).2.2 with
    | some stage =>
      rw [hnext] at hj
      exact hj
    | none =>
      rw [hnext] at hj
      simp only [Closer.next,mem_append,mem_singleton] at hj
      rw [hq,mem_cons]
      tauto

theorem take (h : Safe cfg t) (origin : Origin) (ids : List String) : Safe cfg (t.take origin ids) := by
  have hsub : ∀ d i, (takeOut t.pool ids).1.get? d=some i → t.pool.get? d=some i ∧ d∉ids := by
    intro d i hget
    rw [get?_takeOut] at hget
    split at hget
    case isTrue => cases hget
    case isFalse hd => exact ⟨hget,hd⟩
  refine ⟨?_,fun d i hget => h.pooled d i (hsub d i hget).1,h.ok,?_⟩
  · have hsize:=size_takeOut_le t.pool ids
    have hold:=h.size
    simp only [Tables.take]
    omega
  · refine Pool.forall_mem_push ?_ ?_
    · intro cl hcl i hi
      obtain ⟨hout,hpc⟩ := h.taken cl hcl i hi
      exact ⟨fun d hget => hout d (hsub d i hget).1,hpc⟩
    · intro i hi
      have hmem : i∈(takeOut t.pool ids).2 := by simpa using hi
      obtain ⟨d,hd,hget⟩ := of_mem_takeOut hmem
      obtain ⟨c,hc,hid,hpc⟩ := h.pooled d i hget
      refine ⟨fun e he => ?_,c,hc,Pc.early_of_holds hpc⟩
      obtain ⟨hget',hnot⟩ := hsub e i he
      obtain ⟨c',hc',hid',-⟩ := h.pooled e i hget'
      cases hc.symm.trans hc'
      exact hnot (Option.some.inj (hid.symm.trans hid') ▸ hd)

theorem step {g g' : Gateway} {l : Label} (h : Safe cfg g.toTables)
    (hs : g.step cfg l=some g') : Safe cfg g'.toTables := by
  have hm:=Gateway.moves_of_step hs
  generalize g'.toTables=t' at hm ⊢
  cases hm with
  | accept => exact h.accept
  | handler hi ha => exact h.handled hi ha
  | closer hk hq hi => exact h.closeStep hk hq hi
  | take origin ids => exact h.take origin ids
  | control => exact h

end Safe

theorem safe_of_run {cfg : Config} {ls : List Label} {g : Gateway}
    (hr : exec (Gateway.step cfg) (Gateway.start cfg) ls=some g) : Safe cfg g.toTables :=
  exec_stable (I := fun g : Gateway => Safe cfg g.toTables) (fun _ _ _ h hs => h.step hs)
    (Safe.start cfg) hr

/-- In every run the pool keeps its bound and has only tunnels whose handlers run, `done` is closed at
most once, and what is closed is out of the pool. -/
theorem pool_and_tunnels_of_run {cfg : Config} {ls : List Label} {g : Gateway}
    (hr : exec (Gateway.step cfg) (Gateway.start cfg) ls=some g) :
    (g.pool.size : Int) ≤ max 0 cfg.maxTunnels ∧ (∀ d i, g.pool.get? d=some i →
      ∃ c, g.conns[i]?=some c ∧ c.id=some d ∧ c.pc ≠ .returned) ∧ (∀ c∈g.conns, c.doneCloses≤1) ∧
    (∀ cl∈g.closers, ∀ i∈cl.completed, ∀ d, g.pool.get? d≠some i) ∧
    (∀ c∈g.conns, c.pc=.returned → c.connClosed=true) := by
  have hsafe:=safe_of_run hr
  refine ⟨hsafe.size,?_,?_,?_,fun c hc => (hsafe.ok c hc).hungUp⟩
  · intro d i hget
    obtain ⟨c,hc,hid,hpc⟩ := hsafe.pooled d i hget
    refine ⟨c,hc,hid,fun heq => ?_⟩
    rw [heq] at hpc
    cases hpc
  · intro c hc
    rw [(hsafe.ok c hc).done]
    exact toNat_le c.closed
  · intro cl hcl i hi
    exact (hsafe.taken cl hcl i (.inr hi)).1

def oneTunnel : Config where
  listenAddr := utf8 ":9443"
  authPSK := []
  maxTunnels := 1
def handlerSteps (i : Nat) (actions : List Action) : List Label := actions.map (.handler i)
def arrival (i : Nat) (b : UInt8) : List Label :=
  .accept::handlerSteps i [.authenticate [],.generate (some (replicate 8 b)),.add]
def firstID : String := tunnelID (replicate 8 1)
def platformClose (steps : Nat) : List Label :=
  .handleTunnelClose firstID::replicate steps (.closer 0)
def platformClosed : List Label :=
  arrival 0 1++handlerSteps 0 [.sendOpen true,.select .default] ++
    arrival 1 2++handlerSteps 1 [.close,.close,.close,.hangUp] ++
    platformClose 3++handlerSteps 0 [.read [] .other,.check,.close,.remove,.hangUp]

theorem platformClosed_pool : ∃ g, exec (Gateway.step oneTunnel) (Gateway.start oneTunnel)
    platformClosed=some g ∧
    (∀ c∈g.conns, c.pc=.returned ∧ c.doneCloses=1) ∧ g.closers.map (·.completed)=[[0]] ∧
    (g.pool.size : Int) ≤ max 0 oneTunnel.maxTunnels ∧
    ∀ c∈g.conns, c.pc=.returned → c.connClosed=true := by
  obtain ⟨g,hr,hconns,hclosers⟩ := exists_exec (Gateway.step oneTunnel) (Gateway.start oneTunnel)
    platformClosed (fun g => (∀ c∈g.conns, c.pc=.returned ∧ c.doneCloses=1) ∧
      g.closers.map (·.completed)=[[0]]) (by decide +kernel)
  obtain ⟨hsize,-,-,-,hclosed⟩ := pool_and_tunnels_of_run hr
  exact ⟨g,hr,hconns,hclosers,hsize,hclosed⟩

end OpsAgent.Tunnel
