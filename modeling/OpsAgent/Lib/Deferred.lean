import Mathlib.Data.List.Count
import Mathlib.Data.List.Induction

/-!
# Duties that are taken on and met

What a program acquires it owes to give back. Its journal is the list of its events; an event takes
duties on or meets the newest one.
-/

namespace OpsAgent.Lib.Deferred
open List Option

variable {ε ω : Type*} [DecidableEq ω]

inductive Change (ω : Type*) where
  | takesOn (ds : List ω)
  | meets (d : ω)
  deriving DecidableEq

namespace Change

def taken : Change ω → List ω
  | .takesOn ds => ds
  | .meets _ => []
def met : Change ω → List ω
  | .takesOn _ => []
  | .meets d => [d]

end Change

def settle (owed : List ω) : Change ω → Option (List ω)
  | .takesOn ds => some (ds++owed)
  | .meets d => if owed.head?=some d then some owed.tail else none
def outstanding (change : ε → Change ω) (journal : List ε) : Option (List ω) :=
  journal.foldlM (fun owed e => settle owed (change e)) []

variable {change : ε → Change ω} {journal : List ε} {owed : List ω} {e : ε}

theorem outstanding_push (h : outstanding change journal=some owed) (e : ε) :
    outstanding change (journal++[e])=settle owed (change e) := by
  rw [outstanding,foldlM_append]
  change (outstanding change journal).bind _=_
  rw [h]
  simp

theorem outstanding_takesOn {ds : List ω}
    (h : outstanding change journal=some owed) (he : change e=.takesOn ds) :
    outstanding change (journal++[e])=some (ds++owed) := by rw [outstanding_push h,he,settle]

theorem outstanding_neutral {events : List ε} (h : outstanding change journal=some owed)
    (he : ∀ e∈events, change e=.takesOn []) : outstanding change (journal++events)=some owed := by
  induction events using List.reverseRecOn with
  | nil => rwa [append_nil]
  | append_singleton events e ih =>
    have hbefore:=ih fun x hx => he x (mem_append_left _ hx)
    rw [← append_assoc]
    exact outstanding_takesOn hbefore (he e (mem_append_right _ mem_cons_self))

theorem outstanding_meets {d : ω}
    (h : outstanding change journal=some (d::owed)) (he : change e=.meets d) :
    outstanding change (journal++[e])=some owed := by
  rw [outstanding_push h,he,settle]
  exact if_pos rfl

theorem count_settle {owed' : List ω} {c : Change ω} (h : settle owed c=some owed') (d : ω) :
    owed'.count d+c.met.count d=owed.count d+c.taken.count d := by
  cases c with
  | takesOn ds =>
    cases h
    simp only [Change.met,Change.taken,count_append,count_nil]
    omega
  | meets x =>
    rw [settle] at h
    split at h
    · rename_i hhead
      cases h
      obtain ⟨rest,rfl⟩ : ∃ rest, owed=x::rest := head?_eq_some_iff.mp hhead
      simp only [Change.met,Change.taken,tail_cons,count_cons,count_nil]
      omega
    · cases h

theorem count_outstanding (h : outstanding change journal=some owed) (d : ω) :
    owed.count d+(journal.flatMap fun e => (change e).met).count d =
      (journal.flatMap fun e => (change e).taken).count d := by
  induction journal using List.reverseRecOn generalizing owed with
  | nil =>
    cases h
    rfl
  | append_singleton journal e ih =>
    rw [outstanding,foldlM_append] at h
    obtain ⟨before,hb,hs⟩ := bind_eq_some_iff.mp h
    have hrest:=ih hb
    have hlast : settle before (change e)=some owed := by simpa using hs
    have hcount:=count_settle hlast d
    simp only [flatMap_append,flatMap_singleton,count_append]
    omega

end OpsAgent.Lib.Deferred
