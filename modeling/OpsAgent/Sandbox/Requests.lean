import OpsAgent.Lib.Deferred
import OpsAgent.Lib.Exec
import OpsAgent.Lib.Pool
import OpsAgent.Sandbox.Executor

/-!
# Concurrent sandbox requests (`sandbox/executor.go`, `WriteScriptFile`)

Each request keeps a journal of what it acquires and gives back; the semaphore is shared.
-/

namespace OpsAgent.Sandbox
open Lib List Option
open Lib.GoStrings
open Lib.Exec
open Lib.Deferred

inductive Duty where
  | script (path : GoString)
  | slot
  -- a cgroup has to be killed and removed
  | processes (cgroupPath : GoString)
  | directory (cgroupPath : GoString)
  | network (taskID : GoString)
  | process
  deriving DecidableEq

inductive Event where
  | createdScript (path : GoString)
  | removedScript (path : GoString)
  | acquiredSlot | freedSlot
  | createdCgroup (cgroupPath : GoString)
  | killedCgroup (cgroupPath : GoString)
  | removedCgroup (cgroupPath : GoString)
  -- the kill after the deadline, before the deferred one
  | killedEarly (cgroupPath : GoString)
  | attemptedNetwork (taskID : GoString)
  -- a command of the set-up has been carried out
  | ran (argv : List GoString)
  | cleanedNetwork (taskID : GoString)
  | startedProcess | endedProcess
  deriving DecidableEq

def Event.change : Event → Change Duty
  | .createdScript path => .takesOn [.script path]
  | .removedScript path => .meets (.script path)
  | .acquiredSlot => .takesOn [.slot]
  | .freedSlot => .meets .slot
  | .createdCgroup path => .takesOn [.processes path,.directory path]
  | .killedCgroup path => .meets (.processes path)
  | .removedCgroup path => .meets (.directory path)
  | .killedEarly _ | .ran _ => .takesOn []
  | .attemptedNetwork taskID => .takesOn [.network taskID]
  | .cleanedNetwork taskID => .meets (.network taskID)
  | .startedProcess => .takesOn [.process]
  | .endedProcess => .meets .process

def Duty.event : Duty → Event
  | .script path => .removedScript path
  | .slot => .freedSlot
  | .processes path => .killedCgroup path
  | .directory path => .removedCgroup path
  | .network taskID => .cleanedNetwork taskID
  | .process => .endedProcess

theorem change_event (d : Duty) : d.event.change=.meets d := by cases d <;> rfl

inductive FileOp where
  | chmod | write | close
  deriving DecidableEq

inductive Stage where
  | validate
  -- `WriteScriptFile`
  | createFile
  | prepare (path : GoString) (op : FileOp)
  | discard (path : GoString)
  | scriptArgs (path : GoString)
  -- `run`
  | acquire | createCgroup
  | setLimits (cgroupPath : GoString)
  | network (cgroupPath : Option GoString)
  | start (cgroupPath : Option GoString)
  | running (cgroupPath : Option GoString)
  | exited (cgroupPath : Option GoString)
  -- the deferred calls
  | unwinding | returned
  deriving DecidableEq

namespace Stage

def isRunning : Stage → Bool
  | .running _ => true
  | _ => false
def before : Stage → Bool
  | .validate | .createFile | .prepare _ _ | .discard _ | .scriptArgs _ | .acquire => true
  | _ => false
def inside : Stage → Bool
  | .createCgroup | .setLimits _ | .network _ | .start _ | .running _ | .exited _ => true
  | _ => false
def owes : Stage → List Duty
  | .prepare path _ | .discard path => [.script path]
  | .running _ => [.process]
  | _ => []

end Stage

structure Request where
  req : ExecRequest
  isScript : Bool
  -- command `i` that sets the network up works
  works : Nat → Bool
  cancelled : Bool
  stage : Stage
  deferred : List Duty
  journal : List Event

inductive Answer where
  | ok | fail
  | file (path : GoString)

namespace Request

def goto (r : Request) (stage : Stage) : Request := {r with stage := stage}
def note (r : Request) (event : Event) : Request := {r with journal := r.journal++[event]}
def notes (r : Request) (events : List Event) : Request := {r with journal := r.journal++events}
def defer (r : Request) (ds : List Duty) : Request := {r with deferred := ds++r.deferred}

end Request

def Executor.setsUpNetwork (e : Executor) (req : ExecRequest) : Bool :=
  match req.sandboxCfg with
  | none => false
  | some o => (e.buildNsjailConfig req).networkMode=allowlist&&o.allowedIPs≠[]
def Executor.setUp (e : Executor) (req : ExecRequest) (works : Nat → Bool) : List (List GoString) :=
  e.net.ran works req.taskID ((req.sandboxCfg.map (·.allowedIPs)).getD [])
def Request.prepared (r : Request) (path : GoString) : FileOp → Request
  | .chmod => r.goto (.prepare path .write)
  | .write => r.goto (.prepare path .close)
  | .close => (r.goto (.scriptArgs path)).defer [.script path]

section
variable (toLower : GoString → GoString) (e : Executor)

def advance (capacity sem : Nat) (r : Request) (a : Answer) : Option (Request × Nat) :=
  match r.stage with
  | .validate =>
    if r.isScript then
      match e.cfg.policy.validateScript toLower r.req.interpreter r.req.script with
      | some _ => some (r.goto .unwinding,sem)
      | none => some (r.goto .createFile,sem)
    else
      match e.cfg.policy.validateCommand r.req.command r.req.args with
      | some _ => some (r.goto .unwinding,sem)
      | none => some (r.goto .acquire,sem)
  | .createFile =>
    match sanitizeTaskID r.req.taskID, a with
    | .ok _, .file path => some ((r.goto (.prepare path .chmod)).note (.createdScript path),sem)
    | _, _ => some (r.goto .unwinding,sem)
  | .prepare path op =>
    match a with
    | .ok => some (r.prepared path op,sem)
    | _ => some (r.goto (.discard path),sem)
  | .discard path => some ((r.goto .unwinding).note (.removedScript path),sem)
  | .scriptArgs path =>
    match (e.buildNsjailConfig r.req).scriptArgs r.req.taskID r.req.interpreter path with
    | .error _ => some (r.goto .unwinding,sem)
    | .ok _ => some (r.goto .acquire,sem)
  | .acquire =>
    match a with
    | .ok =>
      if sem<capacity then
        some (((r.goto .createCgroup).note .acquiredSlot).defer [.slot],sem+1)
      else none
    | _ => if r.cancelled then some (r.goto .unwinding,sem) else none
  | .createCgroup =>
    if e.cfg.cgroupBase=[] then some (r.goto (.network none),sem)
    else match cgroupPath e.cfg.cgroupBase r.req.taskID, a with
      | .ok path, .ok =>
        some (((r.goto (.setLimits path)).note (.createdCgroup path)).defer
          [.processes path,.directory path],sem)
      | _, _ => some (r.goto .unwinding,sem)
  | .setLimits path =>
    match a with
    | .ok => some (r.goto (.network (some path)),sem)
    | _ => some (r.goto .unwinding,sem)
  | .network path =>
    -- an error of the set-up is only logged
    if e.setsUpNetwork r.req then
      some (((r.goto (.start path)).notes (.attemptedNetwork r.req.taskID ::
        (e.setUp r.req r.works).map .ran)).defer [.network r.req.taskID],sem)
    else some (r.goto (.start path),sem)
  | .start path =>
    match a with
    | .ok => some ((r.goto (.running path)).note .startedProcess,sem)
    | _ => some (r.goto (.exited path),sem)
  | .running path => some ((r.goto (.exited path)).note .endedProcess,sem)
  | .exited path =>
    -- the answer is `fail` after an error with the deadline exceeded
    match path, a with
    | some path, .fail => some ((r.goto .unwinding).note (.killedEarly path),sem)
    | _, _ => some (r.goto .unwinding,sem)
  | .unwinding =>
    match r.deferred with
    | [] => some (r.goto .returned,sem)
    | d::ds =>
      if d=.slot then
        if 0<sem then some ({r with deferred := ds}.note d.event,sem-1) else none
      else some ({r with deferred := ds}.note d.event,sem)
  | .returned => none

end

structure Sandboxes where
  (capacity sem : Nat)
  requests : List Request

namespace Sandboxes

def maxConcurrent (maxConcurrentTasks : Int) : Nat := (positiveOr maxConcurrentTasks 4).toNat
def new (maxConcurrentTasks : Int) : Sandboxes := ⟨maxConcurrent maxConcurrentTasks,0,[]⟩

inductive Label where
  | call (req : ExecRequest) (isScript : Bool) (works : Nat → Bool)
  | cancel (i : Nat)
  | next (i : Nat) (a : Answer)

def step (toLower : GoString → GoString) (e : Executor) (s : Sandboxes) : Label → Option Sandboxes
  | .call req isScript works =>
    some {s with requests := s.requests++[⟨req,isScript,works,false,.validate,[],[]⟩]}
  | .cancel i =>
    s.requests[i]?.map fun r => {s with requests := s.requests.set i {r with cancelled := true} }
  | .next i a =>
    s.requests[i]?.bind fun r =>
      (advance toLower e s.capacity s.sem r a).map fun x =>
        {s with requests := s.requests.set i x.1, sem := x.2}

def running (s : Sandboxes) : Nat := s.requests.countP fun r => r.stage.isRunning

end Sandboxes

section
variable (e : Executor) (capacity sem : Nat) (r : Request)

inductive Advances : Request → Nat → Prop where
  | quiet (stage) (howes : stage.owes=r.stage.owes) (hin : stage.inside → r.stage.inside)
      (hbefore : stage.before → r.stage.before)
      (hret : stage=.returned → r.deferred=[]) : Advances (r.goto stage) sem
  | create (path) (hs : r.stage=.createFile) :
      Advances ((r.goto (.prepare path .chmod)).note (.createdScript path)) sem
  | complete (path) (hs : r.stage=.prepare path .close) :
      Advances ((r.goto (.scriptArgs path)).defer [.script path]) sem
  | discard (path) (hs : r.stage=.discard path) :
      Advances ((r.goto .unwinding).note (.removedScript path)) sem
  | acquire (hs : r.stage=.acquire) (hfree : sem<capacity) :
      Advances (((r.goto .createCgroup).note .acquiredSlot).defer [.slot]) (sem+1)
  | cgroup (path) (hs : r.stage=.createCgroup) :
      Advances (((r.goto (.setLimits path)).note (.createdCgroup path)).defer
        [.processes path,.directory path]) sem
  | network (path) (hs : r.stage=.network path) :
      Advances (((r.goto (.start path)).notes (.attemptedNetwork r.req.taskID ::
        (e.setUp r.req r.works).map .ran)).defer [.network r.req.taskID]) sem
  | start (path) (hs : r.stage=.start path) :
      Advances ((r.goto (.running path)).note .startedProcess) sem
  | exit (path) (hs : r.stage=.running path) :
      Advances ((r.goto (.exited path)).note .endedProcess) sem
  | kill (path) (hs : r.stage=.exited (some path)) :
      Advances ((r.goto .unwinding).note (.killedEarly path)) sem
  | free (ds) (hs : r.stage=.unwinding) (hd : r.deferred=.slot::ds) (hsem : 0<sem) :
      Advances ({r with deferred := ds}.note Duty.slot.event) (sem-1)
  | unwind (d ds) (hs : r.stage=.unwinding) (hd : r.deferred=d::ds)
      (hne : d ≠ .slot) : Advances ({r with deferred := ds}.note d.event) sem

end

theorem advance_advances {toLower : GoString → GoString} {e : Executor} {capacity sem sem' : Nat}
    {r r' : Request} {a : Answer} (h : advance toLower e capacity sem r a=some (r',sem')) :
    Advances e capacity sem r r' sem' := by
  have hquiet : ∀ {stage}, some (r.goto stage,sem)=some (r',sem') → stage.owes=r.stage.owes →
      (stage.inside → r.stage.inside) →
      (stage.before → r.stage.before) → (stage=.returned → r.deferred=[]) →
      Advances e capacity sem r r' sem' := by
    intro stage heq howes hin hbefore hret
    cases heq
    exact .quiet stage howes hin hbefore hret
  unfold advance at h
  split at h
  case _ hs =>
    rw [hs] at hquiet
    split at h
    · split at h
      · exact hquiet h rfl nofun nofun nofun
      · exact hquiet h rfl nofun (fun _ => rfl) nofun
    · split at h
      · exact hquiet h rfl nofun nofun nofun
      · exact hquiet h rfl nofun (fun _ => rfl) nofun
  case _ hs =>
    rw [hs] at hquiet
    split at h
    · cases h
      exact .create _ hs
    · exact hquiet h rfl nofun nofun nofun
  case _ path op hs =>
    rw [hs] at hquiet
    split at h
    · cases op with
      | chmod => exact hquiet (show some (r.goto (.prepare path .write),sem)=_ from h) rfl nofun (fun _ => rfl) nofun
      | write => exact hquiet (show some (r.goto (.prepare path .close),sem)=_ from h) rfl nofun (fun _ => rfl) nofun
      | close =>
        cases h
        exact .complete path hs
    · exact hquiet h rfl nofun (fun _ => rfl) nofun
  case _ path hs =>
    cases h
    exact .discard path hs
  case _ path hs =>
    rw [hs] at hquiet
    split at h
    · exact hquiet h rfl nofun nofun nofun
    · exact hquiet h rfl nofun (fun _ => rfl) nofun
  case _ hs =>
    rw [hs] at hquiet
    split at h
    · split at h
      · cases h
        exact .acquire hs ‹_›
      · cases h
    · split at h
      · exact hquiet h rfl nofun nofun nofun
      · cases h
  case _ hs =>
    rw [hs] at hquiet
    split at h
    · exact hquiet h rfl (fun _ => rfl) nofun nofun
    · split at h
      · cases h
        exact .cgroup _ hs
      · exact hquiet h rfl nofun nofun nofun
  case _ path hs =>
    rw [hs] at hquiet
    split at h
    · exact hquiet h rfl (fun _ => rfl) nofun nofun
    · exact hquiet h rfl nofun nofun nofun
  case _ path hs =>
    rw [hs] at hquiet
    split at h
    · cases h
      exact .network path hs
    · exact hquiet h rfl (fun _ => rfl) nofun nofun
  case _ path hs =>
    rw [hs] at hquiet
    split at h
    · cases h
      exact .start path hs
    · exact hquiet h rfl (fun _ => rfl) nofun nofun
  case _ path hs =>
    cases h
    exact .exit path hs
  case _ path hs =>
    rw [hs] at hquiet
    split at h
    · cases h
      exact .kill _ hs
    · exact hquiet h rfl nofun nofun nofun
  case _ hs =>
    rw [hs] at hquiet
    split at h
    · exact hquiet h rfl nofun nofun (fun _ => ‹_›)
    · rename_i d ds hd
      split at h
      · rename_i hslot
        subst hslot
        split at h
        · cases h
          exact .free ds hs hd ‹_›
        · cases h
      · cases h
        exact .unwind d ds hs hd ‹_›
  case _ => cases h

structure Request.Sound (e : Executor) (r : Request) : Prop where
  owed : outstanding Event.change r.journal=some (r.stage.owes++r.deferred)
  holds : r.stage.inside → Duty.slot∈r.deferred
  fresh : r.stage.before → Event.acquiredSlot∉r.journal
  once : r.journal.count .acquiredSlot≤1
  returned : r.stage=.returned → r.deferred=[]
  ran : ∀ argv, .ran argv∈r.journal ↔
    .attemptedNetwork r.req.taskID∈r.journal ∧ argv∈e.setUp r.req r.works

namespace Request

theorem sound_call (e : Executor) (req : ExecRequest) (isScript : Bool) (works : Nat → Bool) :
    Sound e ⟨req,isScript,works,false,.validate,[],[]⟩ :=
  ⟨rfl,nofun,fun _ => not_mem_nil,Nat.zero_le 1,nofun,fun _ => by simp⟩

variable {e : Executor} {r r' : Request} {stage : Stage} {event : Event} {capacity sem sem' : Nat} {ds : List Duty}

theorem Sound.owed_at (h : Sound e r) (hs : r.stage=stage) :
    outstanding Event.change r.journal=some (stage.owes++r.deferred) := hs ▸ h.owed
theorem Sound.holds_at (h : Sound e r) (hs : r.stage=stage)
    (hin : stage.inside) : Duty.slot∈r.deferred := h.holds (hs ▸ hin)
theorem Sound.once_note (h : Sound e r) (hne : event ≠ .acquiredSlot) :
    (r.journal++[event]).count .acquiredSlot≤1 := by
  rw [count_append,count_singleton,if_neg (by simpa using hne)]
  exact h.once

theorem Sound.fresh_note (h : Sound e r) (hne : event ≠ .acquiredSlot)
    (hbefore : r.stage.before) : Event.acquiredSlot∉r.journal++[event] := by
  intro hmem
  rcases mem_append.mp hmem with hmem | hmem
  · exact h.fresh hbefore hmem
  · exact hne (mem_singleton.mp hmem).symm

theorem Sound.ran_note (h : Sound e r) (hran : ∀ argv, event ≠ .ran argv)
    (hne : event ≠ .attemptedNetwork r.req.taskID) (argv : List GoString) :
    .ran argv∈r.journal++[event] ↔
      .attemptedNetwork r.req.taskID∈r.journal++[event] ∧ argv∈e.setUp r.req r.works := by
  rw [mem_append,mem_append,mem_singleton,mem_singleton]
  have hold:=h.ran argv
  have hr:=(hran argv).symm
  have hn:=hne.symm
  tauto

theorem Sound.owed_takesOn (h : Sound e r) (hs : r.stage=stage)
    (howes : stage.owes=[]) (he : event.change=.takesOn ds) :
    outstanding Event.change (r.journal++[event])=some (ds++r.deferred) := by
  have howed:=h.owed_at hs
  rw [howes] at howed
  exact outstanding_takesOn howed he

theorem Sound.unwound (h : Sound e r) {d : Duty} (hs : r.stage=.unwinding) (hd : r.deferred=d::ds) :
    Sound e ({r with deferred := ds}.note d.event) := by
  obtain ⟨req,isScript,cancelled,stage,deferred,journal⟩ := r
  cases hs
  cases hd
  exact ⟨outstanding_meets h.owed (change_event d),nofun,nofun,h.once_note (by cases d <;> nofun),
    nofun,h.ran_note (by cases d <;> nofun) (by cases d <;> nofun)⟩

/-- The set-up takes on one duty, whatever part of its commands is carried out. -/
theorem Sound.set_up (h : Sound e r) {path : Option GoString} (hs : r.stage=.network path) :
    Sound e (((r.goto (.start path)).notes (.attemptedNetwork r.req.taskID ::
      (e.setUp r.req r.works).map .ran)).defer [.network r.req.taskID]) := by
  have hquiet : ∀ x∈(e.setUp r.req r.works).map Event.ran, x.change=.takesOn [] := by
    intro x hx
    obtain ⟨argv,-,rfl⟩ := mem_map.mp hx
    rfl
  have hjournal : ∀ events : List Event, r.journal++Event.attemptedNetwork r.req.taskID::events =
      r.journal++[.attemptedNetwork r.req.taskID]++events := fun events => by simp
  refine ⟨?_,fun _ => mem_append_right _ (h.holds_at hs rfl),nofun,?_,nofun,fun argv => ?_⟩
  · have howed : outstanding Event.change (r.journal++[.attemptedNetwork r.req.taskID]) =
        some ([.network r.req.taskID]++r.deferred) := h.owed_takesOn hs rfl rfl
    have hall:=outstanding_neutral howed hquiet
    rwa [← hjournal] at hall
  · change (r.journal++_).count Event.acquiredSlot≤1
    rw [hjournal,count_append,count_eq_zero.mpr fun hmem => absurd (hquiet _ hmem) (by decide)]
    exact h.once_note nofun
  · change Event.ran argv∈r.journal++_ ↔ Event.attemptedNetwork _∈r.journal++_ ∧ _
    have hold:=h.ran argv
    have hran : Event.ran argv∈(e.setUp r.req r.works).map Event.ran ↔ argv∈e.setUp r.req r.works := by
      simp
    rw [mem_append,mem_append,mem_cons,mem_cons,hran]
    have hne : Event.ran argv≠.attemptedNetwork r.req.taskID := nofun
    tauto

theorem Sound.advances (h : Sound e r) (ha : Advances e capacity sem r r' sem') : Sound e r' := by
  cases ha with
  | quiet stage howes hin hbefore hret =>
    exact ⟨howes ▸ h.owed,fun hi => h.holds (hin hi),fun hb => h.fresh (hbefore hb),h.once,hret,h.ran⟩
  | create path hs =>
    exact ⟨h.owed_takesOn hs rfl rfl,nofun,fun _ => h.fresh_note nofun (by rw [hs]; rfl),
      h.once_note nofun,nofun,h.ran_note nofun nofun⟩
  | complete path hs =>
    exact ⟨h.owed_at hs,nofun,fun _ => h.fresh (by rw [hs]; rfl),h.once,nofun,h.ran⟩
  | discard path hs =>
    exact ⟨outstanding_meets (h.owed_at hs) rfl,nofun,nofun,h.once_note nofun,nofun,
      h.ran_note nofun nofun⟩
  | acquire hs hfree =>
    refine ⟨h.owed_takesOn hs rfl rfl,fun _ => mem_cons_self,nofun,?_,nofun,h.ran_note nofun nofun⟩
    have hnone : r.journal.count .acquiredSlot=0 :=
      count_eq_zero.mpr (h.fresh (by rw [hs]; rfl))
    change (r.journal++[Event.acquiredSlot]).count .acquiredSlot≤1
    rw [count_append,hnone]
    decide
  | cgroup path hs =>
    exact ⟨h.owed_takesOn hs rfl rfl,fun _ => mem_append_right _ (h.holds_at hs rfl),nofun,
      h.once_note nofun,nofun,h.ran_note nofun nofun⟩
  | network path hs => exact h.set_up hs
  | start path hs =>
    exact ⟨h.owed_takesOn hs rfl rfl,fun _ => h.holds_at hs rfl,nofun,h.once_note nofun,nofun,
      h.ran_note nofun nofun⟩
  | exit path hs =>
    exact ⟨outstanding_meets (h.owed_at hs) rfl,fun _ => h.holds_at hs rfl,nofun,
      h.once_note nofun,nofun,h.ran_note nofun nofun⟩
  | kill path hs =>
    exact ⟨h.owed_takesOn hs rfl rfl,nofun,nofun,h.once_note nofun,nofun,h.ran_note nofun nofun⟩
  | free ds hs hd hsem | unwind d ds hs hd hne => exact h.unwound hs hd

theorem slots_advances (ha : Advances e capacity sem r r' sem') :
    sem' + r.deferred.count .slot=sem+r'.deferred.count .slot := by
  cases ha with
  | acquire hs hfree =>
    change sem+1+_=sem+(Duty.slot::r.deferred).count .slot
    rw [count_cons_self]
    omega
  | free ds hs hd hsem =>
    change sem-1+_=sem+ds.count .slot
    rw [hd,count_cons_self]
    omega
  | unwind d ds hs hd hne =>
    change sem+_=sem+ds.count .slot
    rw [hd,count_cons_of_ne hne]
  | complete path hs | cgroup path hs | network path hs =>
    simp [goto,note,notes,defer]
  | quiet stage _ _ _ _
  | create path hs | discard path hs | start path hs | exit path hs | kill path hs => rfl

theorem sem_advances (hle : sem≤capacity) (ha : Advances e capacity sem r r' sem') : sem' ≤ capacity := by
  cases ha with
  | acquire hs hfree => exact hfree
  | free ds hs hd hsem => omega
  | _ => exact hle

end Request

namespace Sandboxes

structure Balanced (e : Executor) (s : Sandboxes) : Prop where
  sound : ∀ r∈s.requests, r.Sound e
  slots : s.sem=(s.requests.flatMap (·.deferred)).count .slot
  bound : s.sem ≤ s.capacity

theorem balanced_new (e : Executor) (maxConcurrentTasks : Int) :
    Balanced e (new maxConcurrentTasks) where
  sound _ hr := absurd hr not_mem_nil
  slots := rfl
  bound := Nat.zero_le (maxConcurrent maxConcurrentTasks)

theorem step_next {toLower : GoString → GoString} {e : Executor} {s t : Sandboxes} {i : Nat}
    {a : Answer} (h : s.step toLower e (.next i a)=some t) :
    ∃ r r' sem', s.requests[i]?=some r ∧ Advances e s.capacity s.sem r r' sem' ∧
      t = {s with requests := s.requests.set i r', sem := sem' } := by
  obtain ⟨r,hr,h⟩ := bind_eq_some_iff.mp h
  obtain ⟨x,hx,rfl⟩ := map_eq_some_iff.mp h
  exact ⟨r,x.1,x.2,hr,advance_advances hx,rfl⟩

theorem balanced_step (toLower : GoString → GoString) (e : Executor) (s : Sandboxes) (l : Label)
    (t : Sandboxes) (h : Balanced e s) (hs : s.step toLower e l=some t) : Balanced e t := by
  cases l with
  | call req isScript works =>
    cases hs
    refine ⟨Pool.forall_mem_push h.sound (Request.sound_call e req isScript works),?_,h.bound⟩
    simp [flatMap_append,h.slots]
  | cancel i =>
    obtain ⟨r,hr,rfl⟩ := map_eq_some_iff.mp hs
    have hrs:=h.sound r (mem_of_getElem? hr)
    have hcancelled : Request.Sound e {r with cancelled := true} :=
      ⟨hrs.owed,hrs.holds,hrs.fresh,hrs.once,hrs.returned,hrs.ran⟩
    refine ⟨Pool.forall_mem_set h.sound hcancelled i,?_,h.bound⟩
    have hcount:=Pool.count_flatMap_set (·.deferred) {r with cancelled := true} hr Duty.slot
    have hslots:=h.slots
    dsimp only at hcount ⊢
    omega
  | next i a =>
    obtain ⟨r,r',sem',hr,ha,rfl⟩ := step_next hs
    have hrs:=h.sound r (mem_of_getElem? hr)
    refine ⟨Pool.forall_mem_set h.sound (hrs.advances ha) i,?_,Request.sem_advances h.bound ha⟩
    have hcount:=Pool.count_flatMap_set (·.deferred) r' hr Duty.slot
    have hslots:=h.slots
    have hsem:=Request.slots_advances ha
    dsimp only at hcount ⊢
    omega

theorem step_capacity (toLower : GoString → GoString) (e : Executor) (s : Sandboxes) (l : Label)
    (t : Sandboxes) (hs : s.step toLower e l=some t) : t.capacity=s.capacity := by
  cases l with
  | call req isScript works =>
    cases hs
    rfl
  | cancel i =>
    obtain ⟨r,-,rfl⟩ := map_eq_some_iff.mp hs
    rfl
  | next i a =>
    obtain ⟨r,r',sem',-,-,rfl⟩ := step_next hs
    rfl

theorem running_le {e : Executor} {requests : List Request} (h : ∀ r∈requests, r.Sound e) :
    requests.countP (fun r => r.stage.isRunning)≤(requests.flatMap (·.deferred)).count .slot := by
  induction requests with
  | nil => exact Nat.le_refl _
  | cons r rest ih =>
    have hrest:=ih fun x hx => h x (mem_cons_of_mem r hx)
    have hr : (if r.stage.isRunning=true then 1 else 0)≤r.deferred.count .slot := by
      split
      · rename_i hrun
        have hin : r.stage.inside := by
          revert hrun
          cases r.stage <;> simp [Stage.isRunning,Stage.inside]
        exact count_pos_iff.mpr ((h r mem_cons_self).holds hin)
      · exact Nat.zero_le _
    rw [countP_cons,flatMap_cons,count_append]
    omega

theorem unwinding_step {toLower : GoString → GoString} {e : Executor} {s : Sandboxes} (h : Balanced e s)
    {i : Nat} {r : Request} (hr : s.requests[i]?=some r) (hs : r.stage=.unwinding) (a : Answer) :
    ∃ t, s.step toLower e (.next i a)=some t := by
  have hadv : ∃ x, advance toLower e s.capacity s.sem r a=some x := by
    unfold advance
    simp only [hs]
    cases hd : r.deferred with
    | nil => exact ⟨_,rfl⟩
    | cons d ds =>
      dsimp only
      by_cases hslot : d=.slot
      · subst hslot
        have hcount : 0<(s.requests.flatMap (·.deferred)).count .slot := by
          refine count_pos_iff.mpr (mem_flatMap.mpr ⟨r,mem_of_getElem? hr,?_⟩)
          rw [hd]
          exact mem_cons_self
        rw [if_pos rfl,if_pos (h.slots ▸ hcount)]
        exact ⟨_,rfl⟩
      · rw [if_neg hslot]
        exact ⟨_,rfl⟩
  obtain ⟨x,hx⟩ := hadv
  exact ⟨_,bind_eq_some_iff.mpr ⟨r,hr,map_eq_some_iff.mpr ⟨x,hx,rfl⟩⟩⟩

end Sandboxes

/-- Everything that the journal acquires it gives back, the newest first: the place in the
semaphore once, a cgroup by a kill and a removal. -/
structure Released (journal : List Event) : Prop where
  slot : journal.count .freedSlot=journal.count .acquiredSlot
  once : journal.count .acquiredSlot≤1
  killed : ∀ path, journal.count (.killedCgroup path)=journal.count (.createdCgroup path)
  removed : ∀ path, journal.count (.removedCgroup path)=journal.count (.createdCgroup path)
  network : ∀ taskID, journal.count (.cleanedNetwork taskID)=journal.count (.attemptedNetwork taskID)
  script : ∀ path, journal.count (.removedScript path)=journal.count (.createdScript path)
  process : journal.count .endedProcess=journal.count .startedProcess
  inTurn : outstanding Event.change journal=some []

theorem count_met (journal : List Event) (d : Duty) :
    (journal.flatMap fun e => e.change.met).count d=journal.count d.event := by
  induction journal with
  | nil => rfl
  | cons e journal ih =>
    rw [flatMap_cons,count_append,ih,count_cons,Nat.add_comm]
    congr 1
    cases e <;> cases d <;> simp [Event.change,Change.met,Duty.event,count_cons]

theorem count_taken (journal : List Event) {d : Duty} {event : Event}
    (h : ∀ e : Event, e.change.taken.count d = if e=event then 1 else 0) :
    (journal.flatMap fun e => e.change.taken).count d=journal.count event := by
  induction journal with
  | nil => rfl
  | cons e journal ih =>
    rw [flatMap_cons,count_append,ih,count_cons,h e,Nat.add_comm]
    simp

theorem released_of_returned {e : Executor} {r : Request} (h : r.Sound e) (hs : r.stage=.returned) :
    Released r.journal := by
  have howed : outstanding Event.change r.journal=some [] := by
    rw [h.owed,hs,h.returned hs]
    rfl
  have hcount : ∀ (d : Duty) (event : Event),
      (∀ e : Event, e.change.taken.count d = if e=event then 1 else 0) →
      r.journal.count d.event=r.journal.count event := by
    intro d event hd
    have := count_outstanding howed d
    rw [count_met,count_taken r.journal hd,count_nil] at this
    omega
  refine ⟨hcount .slot _ ?_,h.once,fun path => hcount (.processes path) _ ?_,
    fun path => hcount (.directory path) _ ?_,fun taskID => hcount (.network taskID) _ ?_,
    fun path => hcount (.script path) _ ?_,hcount .process _ ?_,howed⟩
  all_goals
    intro e
    cases e <;> simp [Event.change,Change.taken,count_cons]

/-- What the commands of a set-up made is taken back by the clean-up. -/
def NetworkUndone (journal : List Event) : Prop :=
  ∀ argv u, .ran argv∈journal → undo argv=some u →
    ∃ taskID, .cleanedNetwork taskID∈journal ∧ u∈cleanupCommands taskID

/-- The set-up gets past its first `iptables` command. -/
structure InstallsRule (e : Executor) (req : ExecRequest) (works : Nat → Bool) : Prop where
  accepted : ∃ c, sanitizeTaskID req.taskID=.ok c
  enabled : e.net.enabled
  valid : validateIPList ((req.sandboxCfg.map (·.allowedIPs)).getD [])=none
  works : ∀ i<3, works i

theorem addsRule_allowlistCommands {c : GoString} {ips : List GoString} {argv : List GoString}
    (h : argv∈allowlistCommands c ips) :
    addsRule argv ∨ undo argv=none ∨ undo argv=some [utf8 "ip",utf8 "link",utf8 "del",vethHost c] := by
  simp only [allowlistCommands,mem_append,mem_cons,List.mem_map,not_mem_nil,or_false] at h
  obtain ((rfl | rfl) | ⟨ip,-,rfl⟩) | rfl := h
  · exact .inr (.inr rfl)
  · exact .inr (.inl rfl)
  · exact .inl rfl
  · exact .inl rfl

theorem head_cleanupCommands {taskID : GoString} {u : List GoString} (h : u∈cleanupCommands taskID) :
    u.head?=some (utf8 "ip") := by
  unfold cleanupCommands at h
  split at h
  · cases h
  · rw [mem_singleton.mp h]
    rfl

theorem mem_ran {nm : NetworkManager} {works : Nat → Bool} {taskID : GoString} {ips : List GoString}
    {argv : List GoString} (h : argv∈nm.ran works taskID ips) :
    ∃ c, sanitizeTaskID taskID=.ok c ∧ argv∈allowlistCommands c ips := by
  unfold NetworkManager.ran at h
  split at h
  · cases h
  · rename_i c hc
    split at h
    · cases h
    · obtain ⟨cmd,hcmd,rfl⟩ := mem_map.mp h
      have hat:=mem_zipIdx_iff_getElem?.mp ((takeWhile_sublist _).subset hcmd)
      exact ⟨c,hc,mem_of_getElem? hat⟩

/-- The two commands before the rules add none, and the third one does. -/
theorem addsRule_takeWhile (works : Nat → Bool) (c : GoString) (ips : List GoString) :
    (∃ argv∈((allowlistCommands c ips).zipIdx.takeWhile fun cmd => works cmd.2).map (·.1),
      addsRule argv) ↔ ∀ i<3, works i := by
  obtain ⟨link,up,rule,rest,hcmds,hlink,hup,hrule⟩ : ∃ link up rule rest,
      allowlistCommands c ips=link::up::rule::rest ∧ addsRule link=false ∧ addsRule up=false ∧
        addsRule rule=true := by
    cases ips with
    | nil => exact ⟨_,_,_,_,rfl,rfl,rfl,rfl⟩
    | cons ip ips => exact ⟨_,_,_,_,rfl,rfl,rfl,rfl⟩
  have hthree : (∀ i<3, works i) ↔ works 0 ∧ works 1 ∧ works 2 := by
    constructor
    · intro h
      exact ⟨h 0 (by decide),h 1 (by decide),h 2 (by decide)⟩
    · rintro ⟨h0,h1,h2⟩ i hi
      match i with
      | 0 => exact h0
      | 1 => exact h1
      | 2 => exact h2
  rw [hcmds,hthree,zipIdx_cons,zipIdx_cons,zipIdx_cons,takeWhile_cons]
  cases h0 : works 0 with
  | false => simp
  | true =>
    cases h1 : works 1 with
    | false => simp [h1,hlink]
    | true =>
      cases h2 : works 2 with
      | false => simp [h1,h2,hlink,hup]
      | true => simp [h1,h2,hrule]

theorem installsRule_iff (e : Executor) (req : ExecRequest) (works : Nat → Bool) :
    (∃ argv∈e.setUp req works, addsRule argv) ↔ InstallsRule e req works := by
  rw [Executor.setUp]
  constructor
  · rintro ⟨argv,hmem,hrule⟩
    obtain ⟨c,hc,-⟩ := mem_ran hmem
    rw [NetworkManager.ran,hc] at hmem
    dsimp only at hmem
    split at hmem
    · cases hmem
    · rename_i hgo
      rw [not_or,Bool.not_eq_false,not_isSome_iff_eq_none] at hgo
      exact ⟨⟨c,hc⟩,hgo.1,hgo.2,(addsRule_takeWhile works c _).mp ⟨argv,hmem,hrule⟩⟩
  · rintro ⟨⟨c,hc⟩,hon,hvalid,hworks⟩
    rw [NetworkManager.ran,hc]
    dsimp only
    rw [if_neg (by rw [hon,hvalid]; decide)]
    exact (addsRule_takeWhile works c _).mpr hworks

theorem networkUndone_iff {e : Executor} {r : Request} (h : r.Sound e) (hs : r.stage=.returned) :
    NetworkUndone r.journal ↔
      ¬(.attemptedNetwork r.req.taskID∈r.journal ∧ InstallsRule e r.req r.works) := by
  rw [← installsRule_iff]
  constructor
  · rintro hundone ⟨hatt,argv,hmem,hrule⟩
    obtain ⟨taskID,-,hu⟩ := hundone argv _ ((h.ran argv).mpr ⟨hatt,hmem⟩) (by rw [undo,if_pos hrule])
    have hhead : some (utf8 "iptables")=some (utf8 "ip") := head_cleanupCommands hu
    exact absurd hhead (by decide)
  · intro hno argv u hran hu
    obtain ⟨hatt,hmem⟩ := (h.ran argv).mp hran
    obtain ⟨c,hc,hcmd⟩ := mem_ran hmem
    obtain hrule | hnone | hdel := addsRule_allowlistCommands hcmd
    · exact absurd ⟨hatt,argv,hmem,hrule⟩ hno
    · cases hnone.symm.trans hu
    · have hclean : .cleanedNetwork r.req.taskID∈r.journal := by
        apply count_pos_iff.mp
        rw [(released_of_returned h hs).network]
        exact count_pos_iff.mpr hatt
      refine ⟨r.req.taskID,hclean,?_⟩
      rw [cleanupCommands,hc,mem_singleton]
      exact some.inj (hu.symm.trans hdel)

/-- No more processes run than the semaphore has places, a request that returns has given back all it
acquired except for the rules that its network set-up added, and none waits while it does. -/
theorem requests_release (toLower : GoString → GoString) (cfg : Config) (maxConcurrentTasks : Int)
    (ls : List Sandboxes.Label) (s : Sandboxes)
    (hr : exec (Sandboxes.step toLower (newExecutor cfg)) (Sandboxes.new maxConcurrentTasks) ls=some s) :
    s.running≤Sandboxes.maxConcurrent maxConcurrentTasks ∧
      (∀ r∈s.requests, r.stage=.returned → Released r.journal ∧
        (NetworkUndone r.journal ↔ ¬(.attemptedNetwork r.req.taskID∈r.journal ∧
          InstallsRule (newExecutor cfg) r.req r.works))) ∧
      ∀ i r, s.requests[i]?=some r → r.stage=.unwinding →
        ∀ a, ∃ t, s.step toLower (newExecutor cfg) (.next i a)=some t := by
  have h : s.Balanced (newExecutor cfg) :=
    exec_stable (Sandboxes.balanced_step toLower (newExecutor cfg))
      (Sandboxes.balanced_new (newExecutor cfg) maxConcurrentTasks) hr
  have hcap : s.capacity=Sandboxes.maxConcurrent maxConcurrentTasks :=
    exec_stable (I := fun x => x.capacity=Sandboxes.maxConcurrent maxConcurrentTasks)
      (fun x l y hx hs => (Sandboxes.step_capacity toLower _ x l y hs).trans hx) rfl hr
  refine ⟨?_,?_,?_⟩
  · calc s.running≤(s.requests.flatMap (·.deferred)).count .slot := Sandboxes.running_le h.sound
      _=s.sem := h.slots.symm
      _ ≤ s.capacity := h.bound
      _=Sandboxes.maxConcurrent maxConcurrentTasks := hcap
  · intro r hmem hret
    exact ⟨released_of_returned (h.sound r hmem) hret,networkUndone_iff (h.sound r hmem) hret⟩
  · intro i r hi hs a
    exact Sandboxes.unwinding_step h hi hs a

def cgroupConfig : Config :=
  ⟨[],[],utf8 "/sys/fs/cgroup",0,0,0,0,0,0,allowlist,⟨[],[],[],[],0,false⟩⟩
def allowlistRequest : ExecRequest :=
  ⟨utf8 "job-7",utf8 "ls",[],[],[],[],0,some ⟨0,0,0,[],[utf8 "10.0.0.1"],0⟩⟩
def allowlistCgroup : GoString := utf8 "/sys/fs/cgroup/sandbox-job-7"
/-- The first `working` commands of its set-up work, and the deadline ends the process. -/
def deadlineRun (working : Nat) : List Sandboxes.Label :=
  [.call allowlistRequest false (· < working),.call allowlistRequest false (· < working),.next 0 .ok,
    .next 1 .ok,.next 0 .ok,.next 0 .ok,.next 0 .ok,.next 0 .fail,.next 0 .ok,.cancel 1,.next 1 .fail,
    .next 0 .ok,.next 0 .fail,.next 0 .ok,.next 0 .ok,.next 0 .ok,.next 0 .ok,.next 0 .ok]
def deadlineJournal (working : Nat) : List Event :=
  [.acquiredSlot,.createdCgroup allowlistCgroup,.attemptedNetwork (utf8 "job-7")] ++
  ((allowlistCommands (utf8 "job-7") [utf8 "10.0.0.1"]).take working).map .ran ++
  [.startedProcess,.endedProcess,.killedEarly allowlistCgroup,.cleanedNetwork (utf8 "job-7"),
    .killedCgroup allowlistCgroup,.removedCgroup allowlistCgroup,.freedSlot]

theorem requests_release_deadline :
    ∃ s r, exec (Sandboxes.step id (newExecutor cgroupConfig)) (Sandboxes.new 1) (deadlineRun 2)=some s ∧
      s.requests[0]?=some r ∧ r.journal=deadlineJournal 2 ∧ Released r.journal ∧
      NetworkUndone r.journal := by
  obtain ⟨s,hr,hj⟩ := exists_exec (Sandboxes.step id (newExecutor cgroupConfig)) (Sandboxes.new 1)
    (deadlineRun 2) (fun s => s.requests[0]?.map (fun r => (r.stage,r.works 2,r.journal)) =
      some (.returned,false,deadlineJournal 2)) (by decide +kernel)
  obtain ⟨r,hi,hrj⟩ := map_eq_some_iff.mp hj
  obtain ⟨hstage,hrj⟩ := Prod.mk.inj hrj
  obtain ⟨hworks,hjournal⟩ := Prod.mk.inj hrj
  obtain ⟨hreleased,hundone⟩ := (requests_release id cgroupConfig 1 (deadlineRun 2) s hr).2.1 r
    (mem_of_getElem? hi) hstage
  refine ⟨s,r,hr,hi,hjournal,hreleased,hundone.mpr ?_⟩
  rintro ⟨-,hrule⟩
  exact absurd (hrule.works 2 (by decide)) (by rw [hworks]; decide)

theorem rules_stay :
    ∃ s, exec (Sandboxes.step id (newExecutor cgroupConfig)) (Sandboxes.new 1) (deadlineRun 4)=some s ∧
      s.requests[0]?.map (fun r => (r.stage,r.journal))=some (.returned,deadlineJournal 4) ∧
      ¬NetworkUndone (deadlineJournal 4) := by
  obtain ⟨s,hr,hj⟩ := exists_exec (Sandboxes.step id (newExecutor cgroupConfig)) (Sandboxes.new 1)
    (deadlineRun 4) (fun s => s.requests[0]?.map (fun r => (r.stage,r.journal)) =
      some (.returned,deadlineJournal 4)) (by decide +kernel)
  refine ⟨s,hr,hj,?_⟩
  intro h
  obtain ⟨taskID,-,hu⟩ := h [utf8 "iptables",utf8 "-A",utf8 "OUTPUT",utf8 "-o",utf8 "veth-h-job-7",
    utf8 "-j",utf8 "DROP"] _ (by decide +kernel) rfl
  have hhead : some (utf8 "iptables")=some (utf8 "ip") := head_cleanupCommands hu
  exact absurd hhead (by decide)

end OpsAgent.Sandbox
