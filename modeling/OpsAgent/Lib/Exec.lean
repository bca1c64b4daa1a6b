import Mathlib.Data.List.Basic

/-!
# Runs of a labelled step function

A label names the thread that moves and what its environment answers, and `none` means that the thread
cannot move that way.
-/

namespace OpsAgent.Lib.Exec
open List Option

variable {σ : Type*} {ℓ : Type*}

def exec (step : σ → ℓ → Option σ) : σ → List ℓ → Option σ
  | s, [] => some s
  | s, l::ls => (step s l).bind fun t => exec step t ls

/-- Every step of the run is taken in a state where `g` allows its label. -/
def guarded (step : σ → ℓ → Option σ) (g : σ → ℓ → Bool) : σ → List ℓ → Bool
  | _, [] => true
  | s, l::ls => g s l && match step s l with
    | none => true
    | some t => guarded step g t ls

theorem exec_cons (step : σ → ℓ → Option σ) (s u : σ) (l : ℓ) (ls : List ℓ) :
    exec step s (l::ls)=some u ↔ ∃ t, step s l=some t ∧ exec step t ls=some u :=
  bind_eq_some_iff

variable {ls : List ℓ} {s t : σ} {step : σ → ℓ → Option σ} {I P : σ → Prop}
  {g : σ → ℓ → Bool} {l : ℓ}
  {u : σ}
  {α : Type*} {ms : List ℓ}

theorem guarded_cons (h : guarded step g s (l::ls)) (hs : step s l=some t) :
    g s l ∧ guarded step g t ls := by simpa only [guarded,hs,Bool.and_eq_true] using h

theorem exec_invariant
    (hstep : ∀ s l t, I s → g s l → step s l=some t → I t) (hs : I s) (hg : guarded step g s ls)
    (hr : exec step s ls=some t) : I t := by
  induction ls generalizing s with
  | nil =>
    cases hr
    exact hs
  | cons l ls ih =>
    obtain ⟨u,hu,hr⟩ := (exec_cons step s t l ls).mp hr
    obtain ⟨hl,hg⟩ := guarded_cons hg hu
    exact ih (hstep s l u hs hl hu) hg hr

theorem exec_stable
    (hstep : ∀ s l t, I s → step s l=some t → I t) (hs : I s) (hr : exec step s ls=some t) : I t := by
  induction ls generalizing s with
  | nil =>
    cases hr
    exact hs
  | cons l ls ih =>
    obtain ⟨u,hu,hr⟩ := (exec_cons step s t l ls).mp hr
    exact ih (hstep s l u hs hu) hr

theorem exec_stable_of_mem (hstep : ∀ s l t, l∈ls → I s → step s l=some t → I t) (hs : I s)
    (hr : exec step s ls=some t) : I t := by
  induction ls generalizing s with
  | nil =>
    cases hr
    exact hs
  | cons l ls ih =>
    obtain ⟨u,hu,hr⟩ := (exec_cons step s t l ls).mp hr
    have hu' := hstep s l u mem_cons_self hs hu
    exact ih (fun s l t hl => hstep s l t (mem_cons_of_mem _ hl)) hu' hr

theorem guarded_append (h : exec step s ls=some t) (hls : guarded step g s ls)
    (hms : guarded step g t ms) : guarded step g s (ls++ms) := by
  induction ls generalizing s with
  | nil =>
    cases h
    exact hms
  | cons l ls ih =>
    obtain ⟨u,hu,hr⟩ := (exec_cons step s t l ls).mp h
    obtain ⟨hl,hg⟩ := guarded_cons hls hu
    rw [cons_append,guarded,hl,hu,Bool.true_and]
    exact ih hr hg

theorem exec_history {history : σ → List α} {note : ℓ → List α}
    (hstep : ∀ s l t, step s l=some t → history t=history s++note l) (hr : exec step s ls=some t) :
    history t=history s++ls.flatMap note := by
  induction ls generalizing s with
  | nil =>
    cases hr
    exact (append_nil _).symm
  | cons l ls ih =>
    obtain ⟨u,hu,hr⟩ := (exec_cons step s t l ls).mp hr
    rw [ih hr,hstep s l u hu,flatMap_cons,append_assoc]

theorem exists_exec (step : σ → ℓ → Option σ) (s : σ) (ls : List ℓ) (P : σ → Prop) [DecidablePred P]
    (h : ((exec step s ls).any fun t => decide (P t))) : ∃ t, exec step s ls=some t ∧ P t := by
  cases he : exec step s ls with
  | none =>
    rw [he] at h
    cases h
  | some t =>
    rw [he] at h
    exact ⟨t,rfl,of_decide_eq_true h⟩

def countSteps (step : σ → ℓ → Option σ) (p : σ → ℓ → Bool) : σ → List ℓ → Nat
  | _, [] => 0
  | s, l::ls => (p s l).toNat + match step s l with
    | none => 0
    | some t => countSteps step p t ls

theorem exec_append_of
    (h : exec step s ls=some t) (ms : List ℓ) : exec step s (ls++ms)=exec step t ms := by
  induction ls generalizing s with
  | nil =>
    cases h
    rfl
  | cons l ls ih =>
    obtain ⟨u,hu,hr⟩ := (exec_cons step s t l ls).mp h
    rw [cons_append,exec,hu,bind_some,ih hr]

theorem exec_append
    (h : exec step s (ls++ms)=some u) : ∃ t, exec step s ls=some t ∧ exec step t ms=some u := by
  induction ls generalizing s with
  | nil => exact ⟨s,rfl,h⟩
  | cons a ls ih =>
    obtain ⟨t,ht,hr⟩ := (exec_cons step s u a (ls++ms)).mp h
    obtain ⟨t',ht',hu⟩ := ih hr
    exact ⟨t',(exec_cons step s t' a ls).mpr ⟨t,ht,ht'⟩,hu⟩

theorem exec_concat
    (h : exec step s (ls++[l])=some u) : ∃ t, exec step s ls=some t ∧ step t l=some u := by
  obtain ⟨t,ht,hu⟩ := exec_append h
  obtain ⟨u',hl,hend⟩ := (exec_cons step t u l []).mp hu
  cases hend
  exact ⟨t,ht,hl⟩

theorem countSteps_append (p : σ → ℓ → Bool) (h : exec step s ls=some t) (ms : List ℓ) :
    countSteps step p s (ls++ms)=countSteps step p s ls+countSteps step p t ms := by
  induction ls generalizing s with
  | nil =>
    cases h
    rw [nil_append,countSteps,Nat.zero_add]
  | cons a ls ih =>
    obtain ⟨u,hu,hr⟩ := (exec_cons step s t a ls).mp h
    simp only [cons_append,countSteps,hu,ih hr]
    exact (Nat.add_assoc _ _ _).symm

theorem countSteps_singleton (step : σ → ℓ → Option σ) (p : σ → ℓ → Bool) (s : σ) (l : ℓ) :
    countSteps step p s [l]=(p s l).toNat := by
  rw [countSteps]
  split <;> rfl

/-- Steps of one kind are at most those of another one if each of them uses up a
credit that only a step of the other kind gives. -/
theorem countSteps_le {p q : σ → ℓ → Bool} (credit : σ → Nat) (hI : ∀ s l t, I s → step s l=some t → I t)
    (hstep : ∀ s l t, I s → step s l=some t →
      (p s l).toNat+credit t≤(q s l).toNat+credit s) (hs : I s) (hr : exec step s ls=some t) :
    countSteps step p s ls+credit t≤countSteps step q s ls+credit s := by
  induction ls generalizing s with
  | nil =>
    cases hr
    exact Nat.le_refl _
  | cons l ls ih =>
    obtain ⟨u,hu,hr⟩ := (exec_cons step s t l ls).mp hr
    have hrest:=ih (hI s l u hs hu) hr
    have hfirst:=hstep s l u hs hu
    simp only [countSteps,hu]
    omega

theorem countSteps_eq_zero {p : σ → ℓ → Bool} (hI : ∀ s l t, I s → g s l → step s l=some t → I t)
    (hp : ∀ s l t, I s → g s l → step s l=some t → p s l=false) (hs : I s) (hg : guarded step g s ls)
    (hr : exec step s ls=some t) : countSteps step p s ls=0 := by
  induction ls generalizing s with
  | nil => rfl
  | cons l ls ih =>
    obtain ⟨u,hu,hr⟩ := (exec_cons step s t l ls).mp hr
    obtain ⟨hl,hg⟩ := guarded_cons hg hu
    simp only [countSteps,hu,hp s l u hs hl hu,ih (hI s l u hs hl hu) hg hr]
    rfl

def CanReach (step : σ → ℓ → Option σ) (P : σ → Prop) (s : σ) : Prop :=
  ∃ ls t, exec step s ls=some t ∧ P t

theorem canReach_refl (h : P s) : CanReach step P s := ⟨[],s,rfl,h⟩
theorem canReach_step (hs : step s l=some t) (ht : CanReach step P t) : CanReach step P s := by
  obtain ⟨ls,u,hr,hu⟩ := ht
  exact ⟨l::ls,u,(exec_cons step s u l ls).mpr ⟨t,hs,hr⟩,hu⟩

/-- A well-founded rank that some step lowers as long as `P` fails leads to `P`. -/
theorem canReach_of_rank [w : WellFoundedRelation α] (rank : σ → α)
    (h : ∀ s, I s → ¬ P s → ∃ l t, step s l=some t ∧ I t ∧ w.rel (rank t) (rank s)) (hs : I s) : CanReach step P s := by
  induction hn : rank s using w.wf.induction generalizing s with
  | _ n ih =>
    by_cases hp : P s
    · exact canReach_refl hp
    · obtain ⟨l,t,ht,hi,hlt⟩ := h s hs hp
      exact canReach_step ht (ih (rank t) (hn ▸ hlt) hi rfl)

end OpsAgent.Lib.Exec
