import Mathlib.Data.List.Basic

/-!
# Token buckets
-/

namespace OpsAgent.Lib.TokenBucket
open List

structure Plan where
  (capacity refill cost : Nat)

structure Bucket where
  (level last : Nat)

namespace Plan
variable (p : Plan) (b : Bucket)

def full (t : Nat) : Bucket := ⟨p.capacity,t⟩
def levelAt (b : Bucket) (t : Nat) : Nat := min p.capacity (b.level+p.refill*(t-b.last))

/- The bucket after an event at the time `t`, if there is enough in it. -/
def take (b : Bucket) (t : Nat) : Option Bucket :=
  if p.cost≤p.levelAt b t then some ⟨p.levelAt b t-p.cost,t⟩ else none

theorem levelAt_le_capacity (t : Nat) : p.levelAt b t≤p.capacity :=
  Nat.min_le_left _ _
theorem levelAt_full (s t : Nat) : p.levelAt (p.full s) t=p.capacity :=
  Nat.min_eq_left (Nat.le_add_right _ _)

variable {t level now : Nat}

theorem levelAt_of_rested {b : Bucket} (h : p.capacity≤p.refill*(t-b.last)) : p.levelAt b t=p.capacity :=
  Nat.min_eq_left (by omega)

theorem levelAt_le_add {s : Nat} (h : s≤t) : p.levelAt b t≤p.levelAt b s+p.refill*(t-s) := by
  have hsplit : p.refill*(t-b.last)≤p.refill*(s-b.last)+p.refill*(t-s) := by
    rw [← Nat.mul_add]
    exact Nat.mul_le_mul_left _ (by omega)
  unfold levelAt
  omega

theorem take_spec {b b' : Bucket} (h : p.take b t=some b') :
    b'.last=t ∧ p.levelAt b' t+p.cost=p.levelAt b t := by
  unfold take at h
  split at h
  next hcost =>
    cases h
    have hle:=p.levelAt_le_capacity b t
    have hnew : p.levelAt ⟨p.levelAt b t-p.cost,t⟩ t=p.levelAt b t-p.cost := by
      simp only [levelAt,Nat.sub_self,Nat.mul_zero,Nat.add_zero] at hle ⊢
      omega
    exact ⟨rfl,by omega⟩
  next => cases h

/- `log` has the times of the events, and `level` is in the bucket at the time `now`. -/
structure Accounted (log : List Nat) (now level : Nat) : Prop where
  past : ∀ t∈log, t≤now
  since : ∀ u, log.countP (fun t => decide (u≤t))*p.cost+level ≤
    p.capacity+p.refill*(now-u)
  windows : ∀ u v, u≤v → log.countP (fun t => decide (u≤t)&&decide (t≤v))*p.cost ≤
    p.capacity+p.refill*(v-u)

variable {p}

theorem Accounted.nil (h : level≤p.capacity) : p.Accounted [] now level :=
  ⟨fun _ ht => absurd ht not_mem_nil,fun u => by simp; omega,fun u v _ => by simp⟩

variable {log : List Nat} {level' : Nat}

theorem Accounted.level_le (h : p.Accounted log now level) : level≤p.capacity := by
  have hsince:=h.since now
  simp only [Nat.sub_self,Nat.mul_zero,Nat.add_zero] at hsince
  omega

theorem countP_future {u : Nat} (h : ∀ t∈log, t≤now) (hu : now<u) :
    log.countP (fun t => decide (u≤t))=0 := by
  rw [countP_eq_zero]
  intro t ht
  have hle:=h t ht
  simp
  omega

theorem Accounted.wait (h : p.Accounted log now level)
    (ht : now≤t) (hlevel : level' ≤ level+p.refill*(t-now)) (hcap : level' ≤ p.capacity) :
    p.Accounted log t level' := by
  refine ⟨fun x hx => Nat.le_trans (h.past x hx) ht,fun u => ?_,h.windows⟩
  by_cases hu : u≤now
  · have hsince:=h.since u
    have hsplit : p.refill*(t-u)=p.refill*(now-u)+p.refill*(t-now) := by
      rw [← Nat.mul_add]
      congr 1
      omega
    omega
  · rw [countP_future h.past (by omega)]
    omega

theorem Accounted.event (h : p.Accounted log now level) (hlevel : level' + p.cost=level) :
    p.Accounted (log++[now]) now level' := by
  have hpast : ∀ t∈log++[now], t≤now := by
    intro t ht
    rcases mem_append.mp ht with ht | ht
    · exact h.past t ht
    · exact Nat.le_of_eq (mem_singleton.mp ht)
  have hsince : ∀ u, (log++[now]).countP (fun t => decide (u≤t))*p.cost+level' ≤
      p.capacity+p.refill*(now-u) := by
    intro u
    by_cases hu : u≤now
    · have hbefore:=h.since u
      rw [countP_append,countP_singleton,if_pos (by simpa using hu),Nat.add_mul,
        Nat.one_mul]
      omega
    · rw [countP_future hpast (by omega)]
      have hcap:=h.level_le
      omega
  refine ⟨hpast,hsince,fun u v huv => ?_⟩
  by_cases hin : u≤now ∧ now≤v
  · -- every event from `u` on is in the window, since `now` is the last one
    have hcount : (log++[now]).countP (fun t => decide (u≤t)&&decide (t≤v)) ≤
        (log++[now]).countP (fun t => decide (u≤t)) :=
      countP_mono_left fun t _ ht => (Bool.and_eq_true_iff.mp ht).1
    have hmul:=Nat.mul_le_mul_right p.cost hcount
    have htime : p.refill*(now-u)≤p.refill*(v-u) :=
      Nat.mul_le_mul_left _ (by omega)
    have hnow:=hsince u
    omega
  · rw [countP_append,countP_singleton,if_neg (by simp; omega),Nat.add_zero]
    exact h.windows u v huv

end Plan

end OpsAgent.Lib.TokenBucket
