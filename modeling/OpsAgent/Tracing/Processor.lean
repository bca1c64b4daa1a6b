import Mathlib.Data.List.Nodup
import OpsAgent.Lib.Exec

/-!
# The batch processor (`tracing/processor.go`)

`Add` appends in one locked section and flushes in another one, as the loop does at a tick and `Stop` at
the end; the export function is called without the lock. Goroutines in front of the same section are
counted. A tick may come at any time.
-/

namespace OpsAgent.Tracing
open Lib.Exec List

inductive Stage
  | before | flushing | over
  deriving DecidableEq

structure BatchProcessor (α : Type) where
  batch : List α
  -- the data of the calls of `Add` that have not appended it
  adds : List α
  -- how many calls of `Add` and ticks are about to flush
  due : Nat
  stop : Stage
  -- the batches that were extracted, and those that the export function was called with
  (taken exported : List (List α))

inductive Label (α : Type)
  | add (data : α)
  | tick | flush | stop | flushStop
  | exportBatch (batch : List α)

namespace BatchProcessor

variable {α : Type} [DecidableEq α]

def enabled (s : BatchProcessor α) : Label α → Bool
  | .add data => data∈s.adds
  | .tick => true
  | .flush => s.due≠0
  | .stop => s.stop=.before
  | .flushStop => s.stop=.flushing
  | .exportBatch batch => batch∈s.taken

/- The locked section of `flush`. -/
def take (s : BatchProcessor α) : BatchProcessor α :=
  {s with batch := [], taken := if s.batch=[] then s.taken else s.batch::s.taken}

def effect (maxSize : Nat) (s : BatchProcessor α) : Label α → BatchProcessor α
  | .add data => { s with
      adds := s.adds.erase data
      batch := s.batch++[data]
      due := if maxSize ≤ s.batch.length+1 then s.due+1 else s.due}
  | .tick => {s with due := s.due+1}
  | .flush => {s.take with due := s.due-1}
  | .stop => {s with stop := .flushing}
  | .flushStop => {s.take with stop := .over}
  | .exportBatch batch => {s with taken := s.taken.erase batch, exported := s.exported++[batch]}

def step (maxSize : Nat) (s : BatchProcessor α) (l : Label α) : Option (BatchProcessor α) :=
  if s.enabled l then some (s.effect maxSize l) else none
def newBatchProcessor (adds : List α) : BatchProcessor α := ⟨[],adds,0,.before,[],[]⟩

variable {maxSize : Nat} {s t : BatchProcessor α} {l : Label α}

theorem step_eq (h : s.step maxSize l=some t) : s.enabled l ∧ s.effect maxSize l=t := by
  obtain ⟨he,ht⟩ := Option.ite_none_right_eq_some.mp h
  exact ⟨he,Option.some.inj ht⟩

def count (s : BatchProcessor α) (x : α) : Nat :=
  s.adds.count x+s.batch.count x+s.taken.flatten.count x+s.exported.flatten.count x

theorem count_take (s : BatchProcessor α) (x : α) : s.take.count x=s.count x := by
  unfold take count
  split
  next h => rw [h]
  next => simp only [flatten_cons,count_append,count_nil]; omega

theorem count_step (h : s.step maxSize l=some t) (x : α) : t.count x=s.count x := by
  obtain ⟨he,rfl⟩ := step_eq h
  cases l with
  | add data =>
    have hadds:=(perm_cons_erase (of_decide_eq_true he)).count_eq x
    simp only [count,effect,count_append,count_cons,count_nil] at hadds ⊢
    omega
  | tick | stop => rfl
  | flush | flushStop => exact s.count_take x
  | exportBatch batch =>
    have htaken:=(perm_cons_erase (of_decide_eq_true he)).flatten.count_eq x
    simp only [count,effect,flatten_append,flatten_cons,flatten_nil,count_append,count_nil] at htaken ⊢
    omega

/-- `x` was added, and the last flush is to come or has found it. -/
def Gone (x : α) (s : BatchProcessor α) : Prop := x∉s.adds ∧ (s.stop=.over → x∉s.batch)

theorem gone_step (x : α) (s : BatchProcessor α) (l : Label α) (t : BatchProcessor α) (h : Gone x s)
    (hs : s.step maxSize l=some t) : Gone x t := by
  obtain ⟨he,rfl⟩ := step_eq hs
  cases l with
  | add data =>
    refine ⟨fun hx => h.1 (mem_of_mem_erase hx),fun hover hx => ?_⟩
    rcases mem_append.mp hx with hx | hx
    · exact h.2 hover hx
    · exact h.1 (mem_singleton.mp hx ▸ of_decide_eq_true he)
  | tick => exact h
  | stop => exact ⟨h.1,nofun⟩
  | flush | flushStop => exact ⟨h.1,fun _ => not_mem_nil⟩
  | exportBatch => exact h

def Outgoing (s : BatchProcessor α) (b : List α) : Prop := b∈s.taken++s.exported

theorem outgoing_step (h : s.step maxSize l=some t) {b : List α} (hb : t.Outgoing b) :
    s.Outgoing b ∨ b=s.batch ∧ b≠[] := by
  obtain ⟨he,rfl⟩ := step_eq h
  cases l with
  | add | tick | stop => exact .inl hb
  | flush | flushStop =>
    change b∈ite _ _ _++s.exported at hb
    split at hb
    next => exact .inl hb
    next hne =>
      rcases mem_cons.mp hb with rfl | hb
      · exact .inr ⟨rfl,hne⟩
      · exact .inl hb
  | exportBatch batch =>
    have hperm : (s.taken.erase batch++(s.exported++[batch])).Perm (s.taken++s.exported) := by
      rw [← append_assoc]
      exact (perm_append_singleton ..).trans ((perm_cons_erase (of_decide_eq_true he)).symm.append_right _)
    exact .inl (hperm.mem_iff.mp hb)

/-- The step is no append while a flush is due. -/
def waits (s : BatchProcessor α) : Label α → Bool
  | .add _ => s.due=0
  | _ => true

/-- A full batch is about to be flushed, and no batch is larger. -/
structure Sized (maxSize : Nat) (s : BatchProcessor α) : Prop where
  full : maxSize ≤ s.batch.length → s.due≠0
  batch : s.batch.length ≤ maxSize
  outgoing : ∀ b, s.Outgoing b → b.length ≤ maxSize

omit [DecidableEq α] in
theorem sized_empty (hmax : 1 ≤ maxSize) (h : s.batch=[]) (hout : ∀ b, s.Outgoing b → b.length ≤ maxSize) :
    s.Sized maxSize := by
  refine ⟨fun hfull => ?_,?_,hout⟩
  · rw [h] at hfull
    exact absurd (Nat.le_trans hmax hfull) (Nat.not_succ_le_zero 0)
  · rw [h]
    exact Nat.zero_le _

theorem sized_step (hmax : 1 ≤ maxSize) (s : BatchProcessor α) (l : Label α) (t : BatchProcessor α)
    (h : s.Sized maxSize) (hwaits : s.waits l) (hs : s.step maxSize l=some t) : t.Sized maxSize := by
  have hout : ∀ b, t.Outgoing b → b.length ≤ maxSize := by
    intro b hb
    rcases outgoing_step hs hb with hb | ⟨rfl,-⟩
    · exact h.outgoing b hb
    · exact h.batch
  obtain ⟨he,rfl⟩ := step_eq hs
  cases l with
  | add data =>
    -- no flush is due, so the batch is not full yet
    have hdue : s.due=0 := of_decide_eq_true hwaits
    have hlt : s.batch.length < maxSize := by
      by_contra hfull
      exact h.full (Nat.not_lt.mp hfull) hdue
    refine ⟨fun hfull => ?_,?_,hout⟩
    · rw [effect,length_append,length_singleton] at hfull
      change (if maxSize ≤ s.batch.length+1 then s.due+1 else s.due)≠0
      rw [if_pos hfull]
      exact Nat.succ_ne_zero _
    · rw [effect,length_append,length_singleton]
      exact hlt
  | flush | flushStop => exact sized_empty hmax rfl hout
  | tick => exact ⟨fun _ => Nat.succ_ne_zero _,h.batch,hout⟩
  | stop | exportBatch => exact ⟨h.full,h.batch,hout⟩

structure Finished (s : BatchProcessor α) : Prop where
  due : s.due=0
  stop : s.stop=.over
  taken : s.taken=[]

/-- An item stands for the call of `Add` that brings it, so no two are equal. -/
theorem batches_exported (maxSize : Nat) (hmax : 1 ≤ maxSize) (adds : List α) (hadds : adds.Nodup) (ls ms : List (Label α))
    (s t : BatchProcessor α) (hs : exec (step maxSize) (newBatchProcessor adds) ls=some s)
    (hstop : s.stop=.before) (ht : exec (step maxSize) s ms=some t) (hfin : t.Finished) :
    (∀ x∈adds, x∉s.adds → t.exported.flatten.count x=1) ∧ (∀ b∈t.exported, 1≤b.length) ∧
      (guarded (step maxSize) waits (newBatchProcessor adds) (ls++ms) →
        ∀ b∈t.exported, b.length ≤ maxSize) := by
  have hrun : exec (step maxSize) (newBatchProcessor adds) (ls++ms)=some t :=
    (exec_append_of hs ms).trans ht
  refine ⟨fun x hx hadded => ?_,fun b hb => ?_,fun hwaits b hb => ?_⟩
  · have hcount:=exec_stable (I := fun s => s.count x=1) (fun s l t h hs => (count_step hs x).trans h)
      (count_eq_one_of_mem hadds hx) hrun
    have hgone : Gone x t := exec_stable (gone_step x) ⟨hadded,fun h => nomatch hstop.symm.trans h⟩ ht
    rw [count,count_eq_zero.mpr hgone.1,count_eq_zero.mpr (hgone.2 hfin.stop),hfin.taken] at hcount
    simpa using hcount
  · have hne : ∀ b, t.Outgoing b → b≠[] := exec_stable (I := fun s => ∀ b, s.Outgoing b → b≠[])
      (fun s l t h hs b hb => (outgoing_step hs hb).elim (h b) And.right) (fun _ hb => absurd hb not_mem_nil) hrun
    exact length_pos_of_ne_nil (hne b (mem_append_right _ hb))
  · have hsized : t.Sized maxSize :=
      exec_invariant (sized_step hmax) (sized_empty hmax rfl fun _ hb => absurd hb not_mem_nil) hwaits
        hrun
    exact hsized.outgoing b (mem_append_right _ hb)

theorem batches_exported_three : ∃ t : BatchProcessor Nat, exec (step 2) (newBatchProcessor [7,8,9])
    ([.add 7,.add 8,.flush,.add 9]++[.exportBatch [7,8],.stop,.flushStop,.exportBatch [9]])=some t ∧
      (∀ x∈[7,8,9], t.exported.flatten.count x=1) ∧ ∀ b∈t.exported, 1≤b.length ∧ b.length≤2 := by
  obtain ⟨honce,hne,hsize⟩ := batches_exported 2 (by decide) [7,8,9] (by decide)
    [.add 7,.add 8,.flush,.add 9] [.exportBatch [7,8],.stop,.flushStop,.exportBatch [9]] _ _ rfl rfl rfl
    ⟨rfl,rfl,rfl⟩
  refine ⟨_,rfl,fun x hx => honce x hx not_mem_nil,fun b hb => ⟨hne b hb,?_⟩⟩
  exact hsize (by decide) b hb
theorem batch_too_large : ∃ t : BatchProcessor Nat, exec (step 1) (newBatchProcessor [7,8])
    [.add 7,.add 8,.flush,.exportBatch [7,8],.flush,.stop,.flushStop]=some t ∧ t.Finished ∧
      t.exported=[[7,8]] := ⟨_,rfl,⟨rfl,rfl,rfl⟩,rfl⟩

end BatchProcessor

end OpsAgent.Tracing
