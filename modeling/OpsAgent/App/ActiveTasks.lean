import OpsAgent.Lib.Exec
import OpsAgent.Lib.Pool
import OpsAgent.Lib.SyncMap

/-!
# Active tasks and shutdown (`app/agent.go`)

Each access of the flag `shuttingDown`, the lock `taskMu` and the map `activeTasks` is a step.
-/

namespace OpsAgent.App
open Lib List Option Bool
open Lib.Exec

inductive TaskKind where
  | collectMetrics | healthCheck | execCommand | sandboxExec | plugin | gateway
  deriving DecidableEq

def TaskKind.registers : TaskKind → Bool
  | .execCommand | .sandboxExec => true
  | _ => false

inductive TaskPc where
  | arrived
  -- `withTaskMiddleware` has let the task through
  | admitted
  -- has `taskMu`, and then has seen that the agent is not shutting down
  | locked | checked | running | deleted | finished | rejected
  deriving DecidableEq

structure Task where
  id : String
  kind : TaskKind
  pc : TaskPc
  cancelled : Bool
  deriving DecidableEq

inductive Wait where
  | off | waiting
  | ranging (counts : Bool) (r : SyncMap.Ranging String)
  | drained | timedOut
  deriving DecidableEq

inductive CancelPc where
  | load (id : String)
  | call (i : Nat)
  | done

structure Agent where
  -- whether there is a sandbox, a plugin runtime and a plugin gateway
  (sandboxExec pluginEnabled pluginGateway shuttingDown taskMu : Bool)
  activeTasks : SyncMap String Nat
  tasks : List Task
  cancels : List CancelPc
  wait : Wait

inductive Label where
  | arrive (id : String) (kind : TaskKind)
  | run (i : Nat)
  | cancel (id : String)
  | runCancel (j : Nat)
  | shutdown | tick | deadline
  | visit (id : String)
  | rangeEnd

namespace Agent

def start (sandboxExec pluginEnabled pluginGateway : Bool) : Agent where
  sandboxExec := sandboxExec
  pluginEnabled := pluginEnabled
  pluginGateway := pluginGateway
  shuttingDown := false
  taskMu := false
  activeTasks := .empty
  tasks := []
  cancels := []
  wait := .off

def setTask (a : Agent) (i : Nat) (t : Task) : Agent := {a with tasks := a.tasks.set i t}
def setPc (a : Agent) (i : Nat) (t : Task) (pc : TaskPc) : Agent := a.setTask i {t with pc := pc}
def cancelTask (a : Agent) (i : Nat) : Agent :=
  {a with tasks := a.tasks.modify i fun t => {t with cancelled := true} }
def lock (a : Agent) (i : Nat) (t : Task) : Option Agent :=
  if a.taskMu then none else some {a.setPc i t .locked with taskMu := true}
def deleteWait (id : String) : Wait → Wait
  | .ranging counts r => .ranging counts (r.delete id)
  | w => w

def turn (a : Agent) (i : Nat) (t : Task) : Option Agent :=
  match t.pc, t.kind with
  | .arrived, .collectMetrics => some (a.setPc i t .rejected)
  | .arrived, .healthCheck => some (a.setPc i t .running)
  | .arrived, _ => some (a.setPc i t (if a.shuttingDown then .rejected else .admitted))
  | .admitted, .execCommand => a.lock i t
  | .admitted, .sandboxExec => if a.sandboxExec then a.lock i t else some (a.setPc i t .rejected)
  | .admitted, .plugin => some (a.setPc i t (if a.pluginEnabled then .running else .rejected))
  | .admitted, .gateway =>
    some (a.setPc i t (if !a.shuttingDown&&a.pluginGateway then .running else .rejected))
  | .locked, _ =>
    if a.shuttingDown then
      some {a.setTask i {t with pc := .rejected, cancelled := true} with taskMu := false}
    else some (a.setPc i t .checked)
  | .checked, _ =>
    some {a.setPc i t .running with taskMu := false, activeTasks := a.activeTasks.store t.id i}
  -- the deferred calls: first `Delete`, then `cancel`
  | .running, .execCommand | .running, .sandboxExec =>
    some { a.setPc i t .deleted with
      activeTasks := a.activeTasks.delete t.id
      wait := deleteWait t.id a.wait}
  | .running, _ => some (a.setPc i t .finished)
  | .deleted, _ => some (a.setTask i {t with pc := .finished, cancelled := true})
  | _, _ => none

def turnCancel (a : Agent) (j : Nat) : CancelPc → Option Agent
  | .load id =>
    some {a with cancels := a.cancels.set j ((a.activeTasks.load id).elim .done .call)}
  | .call i => some {a.cancelTask i with cancels := a.cancels.set j .done}
  | .done => none

def afterRange (counts : Bool) (r : SyncMap.Ranging String) : Wait :=
  if counts then (if r.visited.isEmpty then .drained else .waiting) else .timedOut

def step (a : Agent) : Label → Option Agent
  | .arrive id kind => some {a with tasks := a.tasks++[⟨id,kind,.arrived,false⟩]}
  | .run i => a.tasks[i]?.bind fun t => a.turn i t
  | .cancel id => some {a with cancels := a.cancels++[.load id]}
  | .runCancel j => a.cancels[j]?.bind fun c => a.turnCancel j c
  | .shutdown => if a.wait=.off then some {a with shuttingDown := true, wait := .waiting} else none
  | .tick =>
    if a.wait=.waiting then some {a with wait := .ranging true (.start a.activeTasks)} else none
  | .deadline =>
    if a.wait=.waiting then some {a with wait := .ranging false (.start a.activeTasks)} else none
  | .visit id =>
    match a.wait with
    | .ranging counts r => (r.visit a.activeTasks id).map fun v =>
        { (if counts then a else a.cancelTask v.1) with wait := .ranging counts v.2}
    | _ => none
  | .rangeEnd =>
    match a.wait with
    | .ranging counts r => if r.complete then some {a with wait := afterRange counts r} else none
    | _ => none

end Agent

inductive Moves (a : Agent) : Label → Agent → Prop where
  | arrive {id kind} :
      Moves a (.arrive id kind) {a with tasks := a.tasks++[⟨id,kind,.arrived,false⟩]}
  -- the task does not run after the step and has no entry to delete
  | idle {i t t' taskMu} (hi : a.tasks[i]?=some t) (hpc : t'.pc ≠ .running)
      (hchecked : t'.pc=.checked → a.shuttingDown=false) :
      Moves a (.run i) {a.setTask i t' with taskMu := taskMu}
  | bare {i t} (hi : a.tasks[i]?=some t) (hpc : t.pc ≠ .running) (hk : t.kind.registers=false) :
      Moves a (.run i) (a.setPc i t .running)
  | store {i t} (hi : a.tasks[i]?=some t) (hpc : t.pc=.checked) :
      Moves a (.run i) { a.setPc i t .running with
        taskMu := false, activeTasks := a.activeTasks.store t.id i}
  | delete {i t} (hi : a.tasks[i]?=some t) (hpc : t.pc=.running) :
      Moves a (.run i) { a.setPc i t .deleted with
        activeTasks := a.activeTasks.delete t.id, wait := Agent.deleteWait t.id a.wait}
  | other {l cancels wait} {o : Option Nat} (hl : ∀ i, l ≠ .run i)
      (hw : wait=a.wait ∨ a.wait ≠ .off ∧ wait ≠ .drained) :
      Moves a l {o.elim a a.cancelTask with cancels := cancels, wait := wait}
  | shutdown (hw : a.wait=.off) : Moves a .shutdown {a with shuttingDown := true, wait := .waiting}
  | rangeEnd {counts r} (hw : a.wait=.ranging counts r) :
      Moves a .rangeEnd {a with wait := Agent.afterRange counts r}

namespace Agent

variable {a b : Agent} {i j : Nat} {t : Task}
  {u : Task}
  {l : Label}
  {w : Wait} {id : String}

theorem moves_lock (hi : a.tasks[i]?=some t) (h : a.lock i t=some b) : Moves a (.run i) b := by
  unfold lock at h
  split at h
  · cases h
  · cases h
    exact .idle hi TaskPc.noConfusion TaskPc.noConfusion

theorem moves_setPc {pc : TaskPc} (hi : a.tasks[i]?=some t)
    (hpc : pc ≠ .running) (hchecked : pc=.checked → a.shuttingDown=false) :
    Moves a (.run i) (a.setPc i t pc) := by
  have h : Moves a (.run i) {a.setTask i {t with pc := pc} with taskMu := a.taskMu} :=
    .idle hi hpc hchecked
  exact h

theorem moves_turn (hi : a.tasks[i]?=some t) (h : a.turn i t=some b) : Moves a (.run i) b := by
  unfold turn at h
  split at h
  case _ =>
    cases h
    exact moves_setPc hi TaskPc.noConfusion TaskPc.noConfusion
  case _ hpc hk =>
    cases h
    exact .bare hi (by rw [hpc]; exact TaskPc.noConfusion) (by rw [hk]; rfl)
  case _ =>
    cases h
    split <;> exact moves_setPc hi TaskPc.noConfusion TaskPc.noConfusion
  case _ => exact moves_lock hi h
  case _ =>
    split at h
    · exact moves_lock hi h
    · cases h
      exact moves_setPc hi TaskPc.noConfusion TaskPc.noConfusion
  case _ hpc hk =>
    cases h
    split
    · exact .bare hi (by rw [hpc]; exact TaskPc.noConfusion) (by rw [hk]; rfl)
    · exact moves_setPc hi TaskPc.noConfusion TaskPc.noConfusion
  case _ hpc hk =>
    cases h
    split
    · exact .bare hi (by rw [hpc]; exact TaskPc.noConfusion) (by rw [hk]; rfl)
    · exact moves_setPc hi TaskPc.noConfusion TaskPc.noConfusion
  case _ =>
    split at h
    · cases h
      exact .idle hi TaskPc.noConfusion TaskPc.noConfusion
    · rename_i hdown
      cases h
      exact moves_setPc hi TaskPc.noConfusion fun _ => eq_false_iff.mpr hdown
  case _ hpc =>
    cases h
    exact .store hi hpc
  case _ hpc _ =>
    cases h
    exact .delete hi hpc
  case _ hpc _ =>
    cases h
    exact .delete hi hpc
  case _ =>
    cases h
    exact moves_setPc hi TaskPc.noConfusion TaskPc.noConfusion
  case _ =>
    cases h
    have hm : Moves a (.run i)
        {a.setTask i {t with pc := .finished, cancelled := true} with taskMu := a.taskMu} :=
      .idle hi TaskPc.noConfusion TaskPc.noConfusion
    exact hm
  case _ => cases h

theorem moves_turnCancel {c : CancelPc} (h : a.turnCancel j c=some b) : Moves a (.runCancel j) b := by
  cases c with
  | load id =>
    cases h
    exact .other (o := none) (fun _ => Label.noConfusion) (.inl rfl)
  | call i =>
    cases h
    exact .other (o := some i) (fun _ => Label.noConfusion) (.inl rfl)
  | done => cases h

theorem moves_of_step (h : a.step l=some b) : Moves a l b := by
  unfold step at h
  split at h
  case _ =>
    cases h
    exact .arrive
  case _ =>
    obtain ⟨t,hi,ht⟩ := bind_eq_some_iff.mp h
    exact moves_turn hi ht
  case _ =>
    cases h
    exact .other (o := none) (fun _ => Label.noConfusion) (.inl rfl)
  case _ =>
    obtain ⟨c,-,hc⟩ := bind_eq_some_iff.mp h
    exact moves_turnCancel hc
  case _ =>
    split at h
    · cases h
      exact .shutdown ‹_›
    · cases h
  case _ =>
    split at h
    · rename_i hw
      cases h
      refine .other (o := none) (fun _ => Label.noConfusion) (.inr ⟨?_,Wait.noConfusion⟩)
      rw [hw]
      exact Wait.noConfusion
    · cases h
  case _ =>
    split at h
    · rename_i hw
      cases h
      refine .other (o := none) (fun _ => Label.noConfusion) (.inr ⟨?_,Wait.noConfusion⟩)
      rw [hw]
      exact Wait.noConfusion
    · cases h
  case _ id =>
    split at h
    · rename_i counts r hw
      obtain ⟨v,-,hv⟩ := map_eq_some_iff.mp h
      have hwait : a.wait ≠ .off := by
        rw [hw]
        exact Wait.noConfusion
      cases hv
      cases counts with
      | true => exact .other (o := none) (fun _ => Label.noConfusion) (.inr ⟨hwait,Wait.noConfusion⟩)
      | false =>
        exact .other (o := some v.1) (fun _ => Label.noConfusion) (.inr ⟨hwait,Wait.noConfusion⟩)
    · cases h
  case _ =>
    split at h
    · rename_i counts r hw
      split at h
      · cases h
        exact .rangeEnd hw
      · cases h
    · cases h

def isRunning (a : Agent) (i : Nat) : Bool := a.tasks[i]?.any fun t => t.pc == .running
def Registered (a : Agent) : Prop :=
  ∀ (i : Nat) (t : Task), a.tasks[i]?=some t → t.pc=.running → a.activeTasks.load t.id=some i
def starts (a : Agent) (l : Label) : Bool :=
  (a.step l).any fun b => (List.range b.tasks.length).any fun i => b.isRunning i&&!a.isRunning i
def startsLate (a : Agent) (l : Label) : Bool := a.wait == .drained&&a.starts l

/-- Only tasks that register start, each while no task with its identifier runs, and the
wait finds no task only while no handler is between its look at the flag and its
`Store`. -/
def permits (a : Agent) : Label → Bool
  | .run i => !a.starts (.run i)||a.tasks[i]?.all fun t =>
      t.kind.registers&&a.tasks.all fun u => u.pc != .running||u.id != t.id
  | .rangeEnd => (match a.wait with
      | .ranging counts r => afterRange counts r != .drained
      | _ => true)||a.tasks.all fun t => t.pc != .checked
  | _ => true

theorem starts_run {t' : Task} (hs : a.step (.run i)=some b)
    (hi : a.tasks[i]?=some t) (hpc : t.pc ≠ .running) (hi' : b.tasks[i]?=some t')
    (hpc' : t'.pc=.running) : a.starts (.run i) := by
  rw [starts,hs,any_some,List.any_eq_true]
  refine ⟨i,mem_range.mpr (List.getElem?_eq_some_iff.mp hi').1,?_⟩
  simp [isRunning,hi,hi',hpc,hpc']

theorem permits_run (h : a.permits (.run i)) (hs : a.starts (.run i)) (hi : a.tasks[i]?=some t) :
    t.kind.registers ∧ ∀ u∈a.tasks, u.pc=.running → u.id≠t.id := by
  simp only [permits,hs,hi,Bool.not_true,Bool.false_or,all_some,and_eq_true,
    List.all_eq_true,or_eq_true,bne_iff_ne] at h
  exact ⟨h.1,fun u hu hrun => (h.2 u hu).resolve_left (not_not_intro hrun)⟩

theorem permits_rangeEnd {counts : Bool} {r : SyncMap.Ranging String}
    (h : a.permits .rangeEnd) (hw : a.wait=.ranging counts r)
    (hd : afterRange counts r=.drained) : ∀ t∈a.tasks, t.pc ≠ .checked := by
  simp only [permits,hw,hd,bne_self_eq_false,Bool.false_or,List.all_eq_true,bne_iff_ne] at h
  exact h

structure Sound (a : Agent) : Prop where
  registered : a.Registered
  flagged : a.wait ≠ .off → a.shuttingDown
  drained : a.wait=.drained → ∀ t∈a.tasks, t.pc ≠ .checked

theorem sound_start (sandboxExec pluginEnabled pluginGateway : Bool) :
    Sound (start sandboxExec pluginEnabled pluginGateway) :=
  ⟨fun _ t hi => (some_ne_none t hi.symm).elim,fun h => absurd rfl h,
    fun h => Wait.noConfusion h⟩

theorem tasks_cancelTask {o : Option Nat} (h : (o.elim a a.cancelTask).tasks[j]?=some u) :
    ∃ t, a.tasks[j]?=some t ∧ u.id=t.id ∧ u.pc=t.pc := by
  cases o with
  | none => exact ⟨u,h,rfl,rfl⟩
  | some i =>
    rw [elim_some,cancelTask,getElem?_modify] at h
    obtain ⟨t,ht,hu⟩ := map_eq_some_iff.mp h
    refine ⟨t,ht,?_⟩
    split at hu <;> subst hu <;> exact ⟨rfl,rfl⟩

theorem deleteWait_eq_drained (h : deleteWait id w=.drained) : w=.drained := by
  cases w <;> first | exact h | cases h
theorem deleteWait_ne_off (h : deleteWait id w ≠ .off) : w ≠ .off := by
  rintro rfl
  exact h rfl
theorem setPc_self (hi : a.tasks[i]?=some t) (pc : TaskPc) :
    (a.setPc i t pc).tasks[i]?=some {t with pc := pc} := Pool.getElem?_set_of hi _
theorem not_bare (hp : a.permits (.run i))
    (hs : a.step (.run i)=some (a.setPc i t .running)) (hi : a.tasks[i]?=some t)
    (hpc : t.pc ≠ .running) : t.kind.registers :=
  (permits_run hp (starts_run hs hi hpc (setPc_self hi .running) rfl) hi).1

theorem Registered.store (h : a.Registered)
    (hi : a.tasks[i]?=some t) (hfree : ∀ u∈a.tasks, u.pc=.running → u.id≠t.id) :
    Registered { a.setPc i t .running with
      taskMu := false, activeTasks := a.activeTasks.store t.id i} := by
  intro j u hj hrun
  rcases Pool.getElem?_set_or hj with ⟨rfl,rfl⟩ | ⟨-,hj⟩
  · exact a.activeTasks.load_store_self t.id j
  · have hne:=hfree u (mem_of_getElem? hj) hrun
    exact (a.activeTasks.load_store_of_ne i hne).trans (h j u hj hrun)

theorem Registered.delete (h : a.Registered) (hi : a.tasks[i]?=some t) (hpc : t.pc=.running) :
    Registered {a.setPc i t .deleted with activeTasks := a.activeTasks.delete t.id, wait := w} := by
  intro j u hj hrun
  rcases Pool.getElem?_set_or hj with ⟨rfl,rfl⟩ | ⟨hne,hj⟩
  · cases hrun
  · have hown:=h j u hj hrun
    have hid : u.id≠t.id := by
      intro heq
      rw [heq,h i t hi hpc] at hown
      exact hne (Option.some.inj hown).symm
    exact (a.activeTasks.load_delete_of_ne hid).trans hown

theorem sound_step (a : Agent) (l : Label) (b : Agent) (h : Sound a) (hp : a.permits l)
    (hs : a.step l=some b) : Sound b := by
  cases moves_of_step hs with
  | @arrive id kind =>
    refine ⟨?_,h.flagged,fun hd => Pool.forall_mem_push (h.drained hd) TaskPc.noConfusion⟩
    intro j u hj hrun
    rcases Pool.getElem?_push_or hj with hj | ⟨-,rfl⟩
    · exact h.registered j u hj hrun
    · cases hrun
  | @idle i t t' taskMu hi hpc hchecked =>
    refine ⟨?_,h.flagged,?_⟩
    · intro j u hj hrun
      rcases Pool.getElem?_set_or hj with ⟨-,rfl⟩ | ⟨-,hj⟩
      · exact absurd hrun hpc
      · exact h.registered j u hj hrun
    · intro hd
      refine Pool.forall_mem_set (h.drained hd) ?_ i
      intro hc
      have hflag : a.shuttingDown := h.flagged fun hoff => Wait.noConfusion (hoff.symm.trans hd)
      rw [hchecked hc] at hflag
      cases hflag
  | @bare i t hi hpc hk =>
    have hreg:=not_bare hp hs hi hpc
    cases hk.symm.trans hreg
  | @store i t hi hpc =>
    have hnot : t.pc ≠ .running := by
      rw [hpc]
      exact TaskPc.noConfusion
    have hfree:=(permits_run hp (starts_run hs hi hnot (setPc_self hi .running) rfl) hi).2
    exact ⟨h.registered.store hi hfree,h.flagged,
      fun hd => Pool.forall_mem_set (h.drained hd) TaskPc.noConfusion i⟩
  | @delete i t hi hpc =>
    exact ⟨h.registered.delete hi hpc,fun hw => h.flagged (deleteWait_ne_off hw),
      fun hd => Pool.forall_mem_set (h.drained (deleteWait_eq_drained hd)) TaskPc.noConfusion i⟩
  | @other l cancels wait o hl hw =>
    have htasks : ∀ t∈(o.elim a a.cancelTask).tasks, ∃ u∈a.tasks, t.pc=u.pc := by
      intro t ht
      obtain ⟨j,hj⟩ := mem_iff_getElem?.mp ht
      obtain ⟨u,hu,-,hpc⟩ := tasks_cancelTask hj
      exact ⟨u,mem_of_getElem? hu,hpc⟩
    have hsame : (o.elim a a.cancelTask).activeTasks=a.activeTasks ∧
        (o.elim a a.cancelTask).shuttingDown=a.shuttingDown := by cases o <;> exact ⟨rfl,rfl⟩
    refine ⟨?_,?_,?_⟩
    · intro j u hj hrun
      obtain ⟨t,ht,hid,hpc⟩ := tasks_cancelTask hj
      refine (congrArg (SyncMap.load · u.id) hsame.1).trans ?_
      rw [hid]
      exact h.registered j t ht (hpc.symm.trans hrun)
    · intro hoff
      refine hsame.2.trans (h.flagged ?_)
      rcases hw with rfl | hw
      · exact hoff
      · exact hw.1
    · intro hd t ht
      obtain ⟨u,hu,hpc⟩ := htasks t ht
      rw [hpc]
      rcases hw with rfl | hw
      · exact h.drained hd u hu
      · exact absurd hd hw.2
  | shutdown => exact ⟨h.registered,fun _ => rfl,fun hd => Wait.noConfusion hd⟩
  | @rangeEnd counts r hw =>
    have hdrained : afterRange counts r=.drained → ∀ t∈a.tasks, t.pc ≠ .checked :=
      permits_rangeEnd hp hw
    refine ⟨h.registered,fun _ => h.flagged ?_,hdrained⟩
    rw [hw]
    exact Wait.noConfusion

theorem runs_before (hm : Moves a l b)
    (hj : b.tasks[j]?=some u) (hrun : u.pc=.running) : (∃ t, a.tasks[j]?=some t ∧ t.pc=.running) ∨
      ∃ t, a.tasks[j]?=some t ∧ (t.pc=.checked ∨
        l=.run j ∧ t.pc ≠ .running ∧ t.kind.registers=false ∧ b=a.setPc j t .running) := by
  cases hm with
  | @arrive id kind =>
    rcases Pool.getElem?_push_or hj with hj | ⟨-,rfl⟩
    · exact .inl ⟨u,hj,hrun⟩
    · cases hrun
  | @idle i t t' taskMu hi hpc =>
    rcases Pool.getElem?_set_or hj with ⟨-,rfl⟩ | ⟨-,hj⟩
    · exact absurd hrun hpc
    · exact .inl ⟨u,hj,hrun⟩
  | @bare i t hi hpc hk =>
    rcases Pool.getElem?_set_or hj with ⟨rfl,-⟩ | ⟨-,hj⟩
    · exact .inr ⟨t,hi,.inr ⟨rfl,hpc,hk,rfl⟩⟩
    · exact .inl ⟨u,hj,hrun⟩
  | @store i t hi hpc =>
    rcases Pool.getElem?_set_or hj with ⟨rfl,-⟩ | ⟨-,hj⟩
    · exact .inr ⟨t,hi,.inl hpc⟩
    · exact .inl ⟨u,hj,hrun⟩
  | @delete i t hi hpc =>
    rcases Pool.getElem?_set_or hj with ⟨rfl,-⟩ | ⟨-,hj⟩
    · exact .inl ⟨t,hi,hpc⟩
    · exact .inl ⟨u,hj,hrun⟩
  | other =>
    obtain ⟨t,ht,-,hpc⟩ := tasks_cancelTask hj
    exact .inl ⟨t,ht,hpc.symm.trans hrun⟩
  | shutdown | rangeEnd => exact .inl ⟨u,hj,hrun⟩

theorem not_startsLate (a : Agent) (l : Label) (b : Agent) (h : Sound a) (hp : a.permits l)
    (hs : a.step l=some b) : a.startsLate l=false := by
  rw [eq_false_iff]
  intro hlate
  rw [startsLate,and_eq_true,beq_iff_eq,starts,hs,any_some,List.any_eq_true] at hlate
  obtain ⟨hd,j,-,hj⟩ := hlate
  rw [and_eq_true,isRunning,Option.any_eq_true,not_eq_true'] at hj
  obtain ⟨⟨u,hu,hrun⟩,hnot⟩ := hj
  rcases runs_before (moves_of_step hs) hu (beq_iff_eq.mp hrun) with
    ⟨t,ht,hpc⟩ | ⟨t,ht,hpc | ⟨rfl,hpc,hk,rfl⟩⟩
  · rw [isRunning,ht,any_some,hpc] at hnot
    cases hnot
  · exact h.drained hd t (mem_of_getElem? ht) hpc
  · have hreg:=not_bare hp hs ht hpc
    cases hk.symm.trans hreg

end Agent

open Agent

/-- If every step meets the condition, each running task has its own cancel function in the map, and
none starts after the wait has found no task. -/
theorem registered_and_drained (sandboxExec pluginEnabled pluginGateway : Bool) (ls : List Label)
    (a : Agent) (hp : guarded step permits (start sandboxExec pluginEnabled pluginGateway) ls=true)
    (hr : exec step (start sandboxExec pluginEnabled pluginGateway) ls=some a) : a.Registered ∧
      countSteps step startsLate (start sandboxExec pluginEnabled pluginGateway) ls=0 := by
  have hstart:=sound_start sandboxExec pluginEnabled pluginGateway
  exact ⟨(exec_invariant sound_step hstart hp hr).registered,
    countSteps_eq_zero sound_step not_startsLate hstart hp hr⟩

def commandsThenShutdown : List Label :=
  [.arrive "t1" .execCommand,.arrive "t2" .sandboxExec,.run 0,.run 1,.run 0,.run 0,.run 0,
    .run 1,.run 1,.run 1,.cancel "t1",.runCancel 0,.runCancel 0,.shutdown,.tick,.visit "t1",
    .visit "t2",.rangeEnd,.run 0,.run 0,.run 1,.run 1,.arrive "t3" .execCommand,.run 2,
    .tick,.rangeEnd]

theorem commandsThenShutdown_drained :
    ∃ a, exec step (start true false false) commandsThenShutdown=some a ∧ a.wait=.drained ∧
      a.Registered ∧ countSteps step startsLate (start true false false) commandsThenShutdown=0 := by
  obtain ⟨a,hr,hd⟩ := exists_exec step (start true false false) commandsThenShutdown
    (fun a => a.wait=.drained) (by decide +kernel)
  exact ⟨a,hr,hd,registered_and_drained true false false _ a (by decide +kernel) hr⟩

theorem not_registered {a : Agent} {i : Nat} {t : Task} (hi : a.tasks[i]?=some t)
    (hrun : t.pc=.running) (hl : a.activeTasks.load t.id=none) : ¬ a.Registered := by
  intro h
  have hreg:=h i t hi hrun
  cases hl.symm.trans hreg

def sameIdentifier : List Label :=
  [.arrive "t" .execCommand,.run 0,.run 0,.run 0,.run 0,
    .arrive "t" .execCommand,.run 1,.run 1,.run 1,.run 1,.run 0]
def pluginTask : List Label := [.arrive "t" .plugin,.run 0,.run 0]
def lateStore : List Label :=
  [.arrive "t" .execCommand,.run 0,.run 0,.run 0,.shutdown,.tick,.rangeEnd,.run 0]

theorem not_registered_or_late :
    (∃ a, exec step (start true false false) sameIdentifier=some a ∧ a.isRunning 1=true ∧
      ¬ a.Registered) ∧ (∃ a, exec step (start true true false) pluginTask=some a ∧ a.isRunning 0=true ∧
      ¬ a.Registered) ∧ ∃ a, exec step (start true false false) lateStore=some a ∧ a.isRunning 0=true ∧
      countSteps step startsLate (start true false false) lateStore=1 := by
  refine ⟨?_,?_,?_⟩
  · obtain ⟨a,hr,hrun,ht,hl⟩ := exists_exec step (start true false false) sameIdentifier
      (fun a => a.isRunning 1=true ∧ a.tasks[1]?=some ⟨"t",.execCommand,.running,false⟩ ∧
        a.activeTasks.load "t"=none) (by decide +kernel)
    exact ⟨a,hr,hrun,not_registered ht rfl hl⟩
  · obtain ⟨a,hr,hrun,ht,hl⟩ := exists_exec step (start true true false) pluginTask
      (fun a => a.isRunning 0=true ∧ a.tasks[0]?=some ⟨"t",.plugin,.running,false⟩ ∧
        a.activeTasks.load "t"=none) (by decide +kernel)
    exact ⟨a,hr,hrun,not_registered ht rfl hl⟩
  · obtain ⟨a,hr,hrun⟩ := exists_exec step (start true false false) lateStore
      (fun a => a.isRunning 0=true) (by decide +kernel)
    exact ⟨a,hr,hrun,by decide +kernel⟩

end OpsAgent.App
