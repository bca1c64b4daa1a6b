import OpsAgent.Collector.Scheduler
import OpsAgent.Lib.Pool

/-!
# Letting the goroutines of the scheduler finish
-/

namespace OpsAgent.Collector
open Lib.Pool List

variable {P : Plugins} (pipe : Pipeline P) (final : Bool)

def Pc.needsLock : Pc → Bool
  | .processing _ _ => true
  | .feeding _ _ => true
  | .writing _ _ => true
  | .locking _ => true
  | _ => false

/- A `select` takes the context's branch, `Gather` returns an error, and any
other call just returns. -/
def Pc.exitAnswer : Pc → Answer
  | .select => .ctxDone
  | .gathering => .failed
  | .sending _ => .ctxDone
  | .pushSelect => .ctxDone
  | _ => .ok

def Pc.part : Pc → Nat
  | .processing _ _ => 9
  | .feeding _ _ => 8
  | .writing _ _ => 7
  | .locking _ => 6
  | .sending _ => 5
  | .gathering => 4
  | .select => 3
  | .pushing final _ _ => if final then 5 else 8
  | .resetting final _ _ => if final then 5 else 8
  | .pushWriting final _ _ => if final then 4 else 7
  | .pushSelect => 6
  | .finished => 0

def pushLeft (aggregators k : Nat) : Nat := 2*(aggregators-k)+1
def resetLeft (aggregators k : Nat) : Nat := max 2 (2*(aggregators-k))

theorem resetLeft_lt {n k : Nat} (h : k<n) : resetLeft n k<pushLeft n k := by
  unfold resetLeft pushLeft
  omega
theorem pushLeft_succ_lt (n k : Nat) : pushLeft n (k+1)<resetLeft n k := by
  unfold resetLeft pushLeft
  omega

def Pipeline.left (pipe : Pipeline P) : Pc → Nat
  | .processing k _ => pipe.processors.length-k
  | .feeding todo _ => todo.length
  | .writing k _ => pipe.outputs.length-k
  | .pushing _ k _ => pushLeft pipe.aggregators.length k
  | .resetting _ k _ => resetLeft pipe.aggregators.length k
  | .pushWriting _ k _ => pipe.outputs.length-k
  | _ => 0

structure Pipeline.SameSize (pipe pipe' : Pipeline P) : Prop where
  processors : pipe'.processors.length=pipe.processors.length
  aggregators : pipe'.aggregators.length=pipe.aggregators.length
  outputs : pipe'.outputs.length=pipe.outputs.length

theorem Pipeline.SameSize.refl : pipe.SameSize pipe := ⟨rfl,rfl,rfl⟩
theorem Pipeline.SameSize.left_eq {pipe pipe' : Pipeline P} (h : pipe.SameSize pipe') (pc : Pc) :
    pipe'.left pc=pipe.left pc := by
  cases pc <;> simp only [Pipeline.left,h.processors,h.aggregators,h.outputs]

def Pipeline.Nearer (pipe : Pipeline P) (pc' pc : Pc) : Prop :=
  pc'.part<pc.part ∨ pc'.part=pc.part ∧ pipe.left pc' < pipe.left pc

theorem nearer_pushed (k : Nat) (acc : List Metric) :
    pipe.Nearer (pushed final) (.pushing final k acc) ∧
      pipe.Nearer (pushed final) (.pushWriting final k acc) := by
  cases final <;> constructor <;> left <;> simp [pushed,Pc.part]
theorem not_needsLock_pushed : (pushed final : Pc).needsLock=false := by
  cases final <;> rfl

namespace Scheduler

variable (s : Scheduler P) (g : Goroutine P)

theorem exit_enabled (hg : g.live)
    (hctx : g.pc.needsLock=false → g.ctx∈s.doneContexts) (hmu : g.pc.needsLock → s.mu=none) :
    ∃ r, s.stepGoroutine g g.pc.exitAnswer=some r := by
  cases hp : g.pc <;> rw [hp] at hctx hmu <;> simp only [stepGoroutine,Pc.exitAnswer,hp]
  case finished => simp only [Goroutine.live,hp,Bool.false_eq_true] at hg
  case feeding todo metrics => cases todo <;> exact ⟨_,rfl⟩
  case locking metrics =>
    rw [hmu rfl]
    exact ⟨_,rfl⟩
  case select => exact ⟨_,if_pos (hctx rfl)⟩
  case sending metrics => exact ⟨_,if_pos (hctx rfl)⟩
  case pushSelect => exact ⟨_,if_pos (hctx rfl)⟩
  all_goals
    first
    | exact ⟨_,rfl⟩
    | (split <;> exact ⟨_,rfl⟩)

structure Exits (s : Scheduler P) (g : Goroutine P) (r : Goroutine P × Scheduler P) : Prop where
  crashed : r.2.crashed=s.crashed
  sizes : s.pipe.SameSize r.2.pipe
  nearer : s.pipe.Nearer r.1.pc g.pc
  lock : r.1.pc.needsLock → g.pc.needsLock

theorem exits_of_step (r : Goroutine P × Scheduler P)
    (h : s.stepGoroutine g g.pc.exitAnswer=some r) : s.Exits g r := by
  obtain ⟨pc',t,rfl,ht⟩ := stepGoroutine_turns h
  obtain ⟨task,ctx,pc⟩ := g
  dsimp only at ht
  have hpast : ∀ {n k : Nat}, k<n → n-(k+1)<n-k := by
    intro n k hk
    omega
  have hindex : ∀ {β : Type} {l : List β} {k : Nat} {x : β}, l[k]?=some x → k<l.length :=
    fun hk => (List.getElem?_eq_some_iff.mp hk).1
  generalize ha : pc.exitAnswer=a at ht
  cases ht with
  | process k ms p hk =>
    exact ⟨rfl,⟨length_set,rfl,rfl⟩,.inr ⟨rfl,hpast (hindex hk)⟩,fun _ => rfl⟩
  | processed k ms hk => exact ⟨rfl,.refl _,.inl (Nat.lt_succ_self 8),fun _ => rfl⟩
  | feed m k todo ms =>
    exact ⟨rfl,⟨rfl,length_modify ..,rfl⟩,.inr ⟨rfl,Nat.lt_succ_self _⟩,fun _ => rfl⟩
  | fed ms => exact ⟨rfl,.refl _,.inl (Nat.lt_succ_self 7),fun _ => rfl⟩
  | write k ms out hk =>
    exact ⟨rfl,⟨rfl,rfl,length_set⟩,.inr ⟨rfl,hpast (hindex hk)⟩,fun _ => rfl⟩
  | written k ms hk => exact ⟨rfl,.refl _,.inl (Nat.lt_succ_self 6),fun _ => rfl⟩
  | push final k acc agg hk =>
    exact ⟨rfl,.refl _,.inr ⟨rfl,resetLeft_lt (hindex hk)⟩,fun hl => by cases hl⟩
  | pushedNone final k hk =>
    refine ⟨rfl,.refl _,(nearer_pushed s.pipe final k []).1,fun hl => ?_⟩
    rw [not_needsLock_pushed] at hl
    cases hl
  | pushedSome final k m acc hk =>
    refine ⟨rfl,.refl _,.inl ?_,fun hl => by cases hl⟩
    cases final <;> simp only [Pc.part,Bool.false_eq_true,if_false,if_true] <;> omega
  | reset final k acc =>
    exact ⟨rfl,⟨rfl,length_modify ..,rfl⟩,.inr ⟨rfl,pushLeft_succ_lt _ k⟩,
      fun hl => by cases hl⟩
  | pushWrite final k acc out hk =>
    exact ⟨rfl,⟨rfl,rfl,length_set⟩,.inr ⟨rfl,hpast (hindex hk)⟩,
      fun hl => by cases hl⟩
  | pushWritten final k acc hk =>
    refine ⟨rfl,.refl _,(nearer_pushed s.pipe final k acc).2,fun hl => ?_⟩
    rw [not_needsLock_pushed] at hl
    cases hl
  | _ =>
    first
    | exact ⟨rfl,.refl _,.inl (by simp only [Pc.part,if_true]; omega),fun hl => by cases hl⟩
    | cases ha

def poolParts (s : Scheduler P) : Nat := (s.pool.map fun g => g.pc.part).sum
def poolLeft (s : Scheduler P) : Nat := (s.pool.map fun g => s.pipe.left g.pc).sum

theorem exits_pool (i : Nat) (g : Goroutine P) (r : Goroutine P × Scheduler P)
    (hi : s.pool[i]?=some g) (hs : s.stepGoroutine g g.pc.exitAnswer=some r) :
    let t:=({r.2 with pool := r.2.pool.set i r.1} : Scheduler P).wake
    t.poolParts<s.poolParts ∨ t.poolParts=s.poolParts ∧ t.poolLeft<s.poolLeft := by
  intro t
  have hex:=exits_of_step s g r hs
  obtain ⟨-,-,pipe,buffer,crashed,hr⟩ := stepGoroutine_frame hs
  have hsize : s.pipe.SameSize pipe := by
    have h:=hex.sizes
    rw [hr] at h
    exact h
  have hparts : t.poolParts+g.pc.part=s.poolParts+r.1.pc.part := by
    have hset:=sum_map_set (fun x : Goroutine P => x.pc.part) r.1 hi
    simpa only [t,wake,poolParts,hr] using hset
  have hleft : t.poolLeft+s.pipe.left g.pc=s.poolLeft+s.pipe.left r.1.pc := by
    have hset:=sum_map_set (fun x : Goroutine P => s.pipe.left x.pc) r.1 hi
    simpa only [t,wake,poolLeft,hr,hsize.left_eq] using hset
  rcases hex.nearer with hlt | ⟨heq,hlt⟩
  · left
    omega
  · right
    omega

end Scheduler
end OpsAgent.Collector
