import OpsAgent.Lib.BoundedFifo

/-!
# The metric ring buffer (`grpcclient/cache.go`)

`MetricCache` keeps the fields of the source; `nil` slots hold `default`.
-/

namespace OpsAgent.GrpcClient
open Lib.BoundedFifo List Option

variable {α : Type}

structure MetricCache (α : Type) where
  buf : List α
  (maxSize head tail count : Nat)

/-- `NewMetricCache`: a capacity that is not positive becomes one. -/
def newMetricCache [Inhabited α] (maxSize : Int) : MetricCache α :=
  let n := if maxSize≤0 then 1 else maxSize.toNat
  ⟨replicate n default,n,0,0,0⟩

namespace MetricCache

def add (c : MetricCache α) (m : α) : MetricCache α :=
  let c := {c with buf := c.buf.set c.head m, head := (c.head+1) % c.maxSize}
  if c.count=c.maxSize then
    {c with tail := (c.tail+1) % c.maxSize}
  else {c with count := c.count+1}

variable (c : MetricCache α) (n t : Nat) (q : List α) (is : List Nat) (m : α)

theorem add_of_full (h : c.count=c.maxSize) :
    c.add m = { c with buf := c.buf.set c.head m, head := (c.head+1) % c.maxSize,
                       tail := (c.tail+1) % c.maxSize} := by simp [add,h]
theorem add_of_room (h : c.count≠c.maxSize) :
    c.add m = { c with buf := c.buf.set c.head m, head := (c.head+1) % c.maxSize,
                       count := c.count+1} := by simp [add,h]
theorem add_maxSize : (c.add m).maxSize=c.maxSize := by
  by_cases h : c.count=c.maxSize
  · rw [add_of_full c m h]
  · rw [add_of_room c m h]

def drainLoop [Inhabited α] (maxSize tail : Nat) : List Nat → List α → List α × List α
  | [], buf => ([],buf)
  | i::rest, buf =>
    let idx:=(tail+i) % maxSize
    let out:=drainLoop maxSize tail rest (buf.set idx default)
    (buf.getD idx default::out.1,out.2)

def drain [Inhabited α] (c : MetricCache α) : List α × MetricCache α :=
  if c.count=0 then ([],c)
  else
    let out:=drainLoop c.maxSize c.tail (range c.count) c.buf
    (out.1,{c with buf := out.2, head := 0, tail := 0, count := 0})

def len (c : MetricCache α) : Nat := c.count
def contents [Inhabited α] (c : MetricCache α) : List α :=
  (range c.count).map fun i => c.buf.getD (slot c.maxSize c.tail i) default

/-- The ring `c` holds exactly the queue `q`, and its other slots are `nil`. -/
structure Rep [Inhabited α] (c : MetricCache α) (q : List α) : Prop where
  pos : 0<c.maxSize
  size : c.buf.length=c.maxSize
  count : c.count=q.length
  bound : q.length≤c.maxSize
  tail : c.tail<c.maxSize
  head : c.head=slot c.maxSize c.tail q.length
  view : ∀ i, i<q.length → c.buf[slot c.maxSize c.tail i]?=q[i]?
  clean : ∀ j, j<c.maxSize → (∀ i, i<q.length → slot c.maxSize c.tail i≠j) →
    c.buf[j]?=some default

inductive Op (α : Type) where
  | add (m : α)
  | drain | len

inductive Out (α : Type) where
  | done
  | metrics (ms : List α)
  | length (n : Nat)

/-- What the buffer is for, told from the metrics added since the last `Drain`. -/
def applySince (maxSize : Nat) (since : List α) : Op α → Out α × List α
  | .add m => (.done,since++[m])
  | .drain => (.metrics (since.drop (since.length-min maxSize since.length)),[])
  | .len => (.length (min maxSize since.length),since)

def runSince (maxSize : Nat) : List α → List (Op α) → List (Out α) × List α
  | since, [] => ([],since)
  | since, op::ops =>
    let rest:=runSince maxSize (applySince maxSize since op).2 ops
    ((applySince maxSize since op).1::rest.1,rest.2)

theorem rtake_eq_last (n : Nat) (xs : List α) : xs.drop (xs.length-min n xs.length)=xs.rtake n := by
  rw [rtake]
  congr 1
  omega

variable [Inhabited α]
  (since : List α) (buf : List α) (op : Op α)

theorem rep_new (maxSize : Int) : Rep (newMetricCache maxSize : MetricCache α) [] := by
  have hpos : 0<(newMetricCache maxSize : MetricCache α).maxSize := by
    simp only [newMetricCache]
    split <;> omega
  refine ⟨hpos,by simp [newMetricCache],rfl,Nat.zero_le _,hpos,?_,?_,?_⟩
  · exact (slot_zero _ _ hpos).symm
  · intro i hi
    exact absurd hi (Nat.not_lt_zero i)
  · intro j hj _
    exact getElem?_replicate_of_lt hj

theorem contents_eq (h : Rep c q) : c.contents=q := by
  apply ext_getElem?
  intro i
  by_cases hi : i<q.length
  · have hc : i<c.count := h.count ▸ hi
    have hv:=h.view i hi
    rw [contents,getElem?_map,getElem?_range hc,map_some,List.getD,hv]
    simp [hi]
  · have hr : q[i]?=none := getElem?_eq_none (Nat.le_of_not_lt hi)
    rw [hr]
    apply getElem?_eq_none
    rw [contents,length_map,length_range,h.count]
    exact Nat.le_of_not_lt hi

theorem add_rep_full (m : α) (h : Rep c q)
    (hf : q.length=c.maxSize) : Rep (c.add m) (push c.maxSize q m) := by
  have hcnt : c.count=c.maxSize := h.count.trans hf
  have hpush : push c.maxSize q m=q.tail++[m] := by rw [push,if_pos hf]
  have hlen : (q.tail++[m]).length=c.maxSize := by
    have hp:=h.pos
    rw [length_append,length_tail,length_singleton]
    omega
  have hhead : c.head=c.tail := by rw [h.head,hf,slot_full _ _ h.tail]
  have ht : (c.tail+1) % c.maxSize<c.maxSize := Nat.mod_lt _ h.pos
  rw [hpush,add_of_full c m hcnt]
  refine ⟨h.pos,?_,?_,hlen.le,ht,?_,?_,?_⟩
  · rw [length_set,h.size]
  · rw [hlen,hcnt]
  · rw [hlen,slot_full _ _ ht,hhead]
  · intro i hi
    rw [hlen] at hi
    dsimp only
    rw [slot_advance,hhead]
    by_cases hlast : i+1=c.maxSize
    · have hm : (q.tail++[m])[i]?=some m := by
        rw [getElem?_append_right (by rw [length_tail]; omega),length_tail]
        have hz : i-(q.length-1)=0 := by omega
        rw [hz]
        rfl
      rw [hlast,slot_full _ _ h.tail,hm]
      exact getElem?_set_self (by rw [h.size]; exact h.tail)
    · have hne : c.tail≠slot c.maxSize c.tail (i+1) := by
        intro he
        have hz:=slot_inj h.pos (by omega) ((slot_zero _ _ h.tail).trans he)
        omega
      rw [getElem?_set_ne hne,h.view (i+1) (by omega),
        getElem?_append_left (by rw [length_tail]; omega),getElem?_tail]
  · intro j hj hout
    obtain ⟨i,hi,he⟩ := slot_surj c.maxSize ((c.tail+1) % c.maxSize) j ht hj
    exact absurd he (hout i (by rw [hlen]; exact hi))

theorem add_rep_room (m : α) (h : Rep c q)
    (hr : q.length<c.maxSize) : Rep (c.add m) (push c.maxSize q m) := by
  have hcnt : c.count≠c.maxSize := by rw [h.count]; omega
  have hpush : push c.maxSize q m=q++[m] := by rw [push,if_neg (by omega)]
  have hlen : (q++[m]).length=q.length+1 := by rw [length_append,length_singleton]
  rw [hpush,add_of_room c m hcnt]
  refine ⟨h.pos,?_,?_,?_,h.tail,?_,?_,?_⟩
  · rw [length_set,h.size]
  · rw [hlen,h.count]
  · rw [hlen]
    exact hr
  · rw [hlen,slot_succ,h.head]
  · intro i hi
    rw [hlen] at hi
    dsimp only
    rw [h.head]
    by_cases hlast : i=q.length
    · subst hlast
      rw [getElem?_append_right (Nat.le_refl _),Nat.sub_self]
      exact getElem?_set_self (by rw [h.size]; exact slot_lt _ _ _ h.pos)
    · have hne : slot c.maxSize c.tail q.length≠slot c.maxSize c.tail i := by
        intro he
        have := slot_inj hr (by omega) he
        omega
      rw [getElem?_set_ne hne,h.view i (by omega),getElem?_append_left (by omega)]
  · intro j hj hout
    have hne : c.head≠j := by
      rw [h.head]
      exact hout q.length (by rw [hlen]; omega)
    dsimp only
    rw [getElem?_set_ne hne]
    exact h.clean j hj fun i hi => hout i (by rw [hlen]; omega)

theorem add_rep (m : α) (h : Rep c q) : Rep (c.add m) (push c.maxSize q m) := by
  rcases Nat.lt_or_eq_of_le h.bound with hr | hf
  · exact add_rep_room c q m h hr
  · exact add_rep_full c q m h hf

theorem drainLoop_fst (hlt : ∀ i∈is, i<n) (hnd : is.Nodup) :
    (drainLoop n t is buf).1=is.map fun i => buf.getD (slot n t i) default := by
  induction is generalizing buf with
  | nil => rfl
  | cons i rest ih =>
    obtain ⟨hi,hnd⟩ := nodup_cons.mp hnd
    have hrest:=ih (buf.set ((t+i) % n) default)
      (fun k hk => hlt k (mem_cons_of_mem i hk)) hnd
    simp only [drainLoop,map_cons,hrest]
    congr 1
    apply map_congr_left
    intro k hk
    have hne : (t+i) % n≠slot n t k := by
      intro he
      have hik:=slot_inj (hlt i mem_cons_self) (hlt k (mem_cons_of_mem i hk)) he
      exact hi (hik ▸ hk)
    rw [List.getD,List.getD,getElem?_set_ne hne]

theorem drainLoop_length : (drainLoop n t is buf).2.length=buf.length := by
  induction is generalizing buf with
  | nil => rfl
  | cons i rest ih => simp [drainLoop,ih]

theorem drainLoop_clean (j : Nat) (hj : j<buf.length)
    (h : buf[j]?=some default ∨ ∃ i∈is, slot n t i=j) : (drainLoop n t is buf).2[j]?=some default := by
  induction is generalizing buf with
  | nil =>
    rcases h with h | ⟨i,hi,_⟩
    · exact h
    · exact absurd hi not_mem_nil
  | cons i rest ih =>
    simp only [drainLoop]
    apply ih (buf.set ((t+i) % n) default) (by rw [length_set]; exact hj)
    by_cases hs : slot n t i=j
    · left
      change (buf.set (slot n t i) default)[j]?=some default
      rw [hs]
      exact getElem?_set_self hj
    · rcases h with h | ⟨k,hk,hkj⟩
      · left
        exact (getElem?_set_ne hs).trans h
      · right
        rcases mem_cons.mp hk with rfl | hk
        · exact absurd hkj hs
        · exact ⟨k,hk,hkj⟩

theorem drain_fst (h : Rep c q) : c.drain.1=q := by
  by_cases hz : c.count=0
  · have hq : q=[] := length_eq_zero_iff.mp (h.count.symm.trans hz)
    simp [drain,hz,hq]
  · have hloop:=drainLoop_fst c.maxSize c.tail (range c.count) c.buf
      (fun i hi => by
        have hb:=h.bound
        have hc:=h.count
        have := mem_range.mp hi
        omega) nodup_range
    simp only [drain,hz,ite_false]
    rw [hloop]
    exact contents_eq c q h

theorem drain_maxSize : c.drain.2.maxSize=c.maxSize := by
  unfold drain
  split <;> rfl

theorem drain_snd (h : Rep c q) (hne : c.count≠0) :
    c.drain.2=⟨replicate c.maxSize default,c.maxSize,0,0,0⟩ := by
  have hbuf : (drainLoop c.maxSize c.tail (range c.count) c.buf).2 =
      replicate c.maxSize default := by
    apply ext_getElem?
    intro j
    by_cases hj : j<c.maxSize
    · rw [getElem?_replicate_of_lt hj]
      apply drainLoop_clean
      · rw [h.size]
        exact hj
      · by_cases hw : ∃ i, i<q.length ∧ slot c.maxSize c.tail i=j
        · obtain ⟨i,hi,he⟩ := hw
          exact .inr ⟨i,mem_range.mpr (h.count ▸ hi),he⟩
        · refine .inl (h.clean j hj ?_)
          intro i hi he
          exact hw ⟨i,hi,he⟩
    · rw [getElem?_eq_none (by rw [drainLoop_length,h.size]; omega),
        getElem?_eq_none (by rw [length_replicate]; omega)]
  simp [drain,hne,hbuf]

theorem drain_rep (h : Rep c q) : Rep c.drain.2 [] := by
  by_cases hz : c.count=0
  · have hq : q=[] := length_eq_zero_iff.mp (h.count.symm.trans hz)
    simp only [drain,hz,ite_true]
    exact hq ▸ h
  · rw [drain_snd c q h hz]
    refine ⟨h.pos,length_replicate,rfl,Nat.zero_le _,h.pos,?_,?_,?_⟩
    · exact (slot_zero _ _ h.pos).symm
    · intro i hi
      exact absurd hi (Nat.not_lt_zero i)
    · intro j hj _
      exact getElem?_replicate_of_lt hj

def apply (c : MetricCache α) : Op α → Out α × MetricCache α
  | .add m => (.done,c.add m)
  | .drain => (.metrics c.drain.1,c.drain.2)
  | .len => (.length c.len,c)

def run : MetricCache α → List (Op α) → List (Out α) × MetricCache α
  | c, [] => ([],c)
  | c, op::ops =>
    let rest:=run (c.apply op).2 ops
    ((c.apply op).1::rest.1,rest.2)

theorem apply_maxSize : (c.apply op).2.maxSize=c.maxSize := by
  cases op with
  | add m => exact add_maxSize c m
  | drain => exact drain_maxSize c
  | len => rfl

theorem apply_since
    (h : Rep c (since.rtake c.maxSize)) : (c.apply op).1=(applySince c.maxSize since op).1 ∧
      Rep (c.apply op).2 ((applySince c.maxSize since op).2.rtake c.maxSize) := by
  cases op with
  | add m =>
    refine ⟨rfl,?_⟩
    change Rep (c.add m) ((since++[m]).rtake c.maxSize)
    rw [← push_rtake c.maxSize since m h.pos]
    exact add_rep c _ m h
  | drain =>
    constructor
    · change Out.metrics c.drain.1=Out.metrics _
      rw [drain_fst c _ h,rtake_eq_last]
    · change Rep c.drain.2 (([] : List α).rtake c.maxSize)
      rw [rtake_nil]
      exact drain_rep c _ h
  | len =>
    refine ⟨?_,h⟩
    change Out.length c.count=Out.length _
    rw [h.count,rtake_length]

theorem run_since (ops : List (Op α))
    (h : Rep c (since.rtake c.maxSize)) : (c.run ops).1=(runSince c.maxSize since ops).1 ∧
      Rep (c.run ops).2 ((runSince c.maxSize since ops).2.rtake c.maxSize) ∧
      (c.run ops).2.maxSize=c.maxSize := by
  induction ops generalizing c since with
  | nil => exact ⟨rfl,h,rfl⟩
  | cons op ops ih =>
    obtain ⟨hout,hrep⟩ := apply_since c since op h
    have hm:=apply_maxSize c op
    rw [← hm] at hrep
    obtain ⟨houts,hreps,hmax⟩ := ih (c.apply op).2 (applySince c.maxSize since op).2 (by
      rw [hm] at hrep ⊢
      exact hrep)
    rw [hm] at houts hreps hmax
    refine ⟨?_,hreps,hmax⟩
    simp only [run,runSince,hout,houts]

/-- The answers are those of the queue of the last `maxSize` metrics since the previous `Drain`, which a
`Drain` returns and empties. -/
theorem metricCache_refines_fifo (maxSize : Int) (hpos : 0 < maxSize) (ops : List (Op α)) :
    let n:=maxSize.toNat
    let c:=(newMetricCache maxSize : MetricCache α)
    let since:=(runSince n [] ops).2
    (c.run ops).1=(runSince n [] ops).1 ∧
      (c.run ops).2.len=min n since.length ∧
      (c.run ops).2.drain.1=since.drop (since.length-min n since.length) ∧
      (c.run ops).2.drain.2.contents=[] ∧ (c.run ops).2.drain.2.len=0 := by
  intro n c since
  have hn : c.maxSize=n := by
    simp only [c,newMetricCache,n]
    rw [if_neg (by omega)]
  have hinit : Rep c (([] : List α).rtake c.maxSize) := by
    rw [rtake_nil]
    exact rep_new maxSize
  obtain ⟨hout,hrep,_⟩ := run_since c [] ops hinit
  rw [hn] at hout hrep
  have hdrain:=drain_rep _ _ hrep
  refine ⟨hout,?_,?_,contents_eq _ _ hdrain,hdrain.count⟩
  · change (c.run ops).2.count=_
    rw [hrep.count,rtake_length]
  · rw [drain_fst _ _ hrep,rtake_eq_last]

theorem metricCache_refines_fifo_wraps : (0 : Int)<2 ∧ ((newMetricCache 2 : MetricCache Nat).run
      [.add 1,.add 2,.add 3,.len,.drain,.len,.add 4,.drain]).1 =
        (runSince 2 [] [.add 1,.add 2,.add 3,.len,.drain,.len,.add 4,.drain]).1 :=
  ⟨by decide,(metricCache_refines_fifo 2 (by decide)
    [.add 1,.add 2,.add 3,.len,.drain,.len,.add 4,.drain]).1⟩

end MetricCache
end OpsAgent.GrpcClient
