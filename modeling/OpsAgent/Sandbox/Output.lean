import OpsAgent.Sandbox.Executor
import OpsAgent.Sandbox.Streamer

/-!
# The output of a sandboxed task (end of `run`)

One streamer for each of the two outputs; what a streamer sends goes to its buffer, and for standard
output also to `outputSender`.
-/

namespace OpsAgent.Sandbox
open Lib.GoStrings List
open Lib.Exec OutputStreamer

inductive Std where
  | out | err
  deriving DecidableEq

inductive Phase where
  | running | returned
  | checked (truncated : Bool)
  deriving DecidableEq

structure Output where
  maxOutputBytes : Int
  streams : Std → OutputStreamer
  phase : Phase

namespace Output

variable (o : Output)

def streamLimit : Int := o.maxOutputBytes.tdiv 2
-- `stdoutBuf` or `stderrBuf`, and all that the process wrote there
def buf (s : Std) : GoString := (o.streams s).sent.flatten
def written (s : Std) : GoString := (o.streams s).written.flatten
def stopped (s : Std) : Bool := (o.streams s).place .stopper=.ended
def truncated : Bool := o.streamLimit≤(o.buf .out).length ∨ o.streamLimit≤(o.buf .err).length

inductive Label where
  | stream (s : Std) (l : OutputStreamer.Label)
  | exit | check

/-- The process writes until `cmd.Run` returns; then the streamers are stopped one after the other. -/
def allows (s : Std) : OutputStreamer.Label → Bool
  | .write _ => o.phase=.running
  | .stop => o.phase=.returned ∧ (s=.err → o.stopped .out)
  | _ => true

def step : Label → Option Output
  | .stream s l =>
    if o.allows s l then
      ((o.streams s).step l).map fun x => {o with streams := fun t => if t=s then x else o.streams t}
    else none
  | .exit =>
    if o.phase=.running ∧ (o.streams .out).place .writer=.idle ∧ (o.streams .err).place .writer=.idle then
      some {o with phase := .returned}
    else none
  | .check =>
    if o.phase=.returned ∧ o.stopped .out ∧ o.stopped .err then
      some {o with phase := .checked o.truncated}
    else none

-- flushed every `100*time.Millisecond`
def start (maxOutputBytes : Int) : Output :=
  ⟨maxOutputBytes,fun _ => newOutputStreamer (maxOutputBytes.tdiv 2) 100000000 true,.running⟩

end Output

/-- `MaxOutputKB * 1024` with the override of the request. -/
def Executor.maxOutputBytes (e : Executor) (req : ExecRequest) : Int :=
  match req.sandboxCfg with
  | none => int64 (e.cfg.maxOutputKB*1024)
  | some o => if o.maxOutputKB > 0 then int64 (o.maxOutputKB*1024) else int64 (e.cfg.maxOutputKB*1024)

namespace Output

structure Kept (maxOutputBytes : Int) (o : Output) : Prop where
  max : o.maxOutputBytes=maxOutputBytes
  streams : ∀ s, Orderly (o.streams s) ∧ (o.streams s).sender
  checked : ∀ b, o.phase=.checked b → (∀ s, o.stopped s) ∧ b=o.truncated

variable {o : Output} {m : Int}

theorem kept_start : Kept m (start m) := ⟨rfl,fun _ => ⟨orderly_new _ _ true,rfl⟩,nofun⟩

/-- A stopped stream has nothing left on its way. -/
theorem Kept.buf_eq (h : Kept m o) {s : Std} (hs : o.stopped s) : o.buf s=o.written s :=
  sent_of_ended (h.streams s).1 (h.streams s).2 (of_decide_eq_true hs)

theorem kept_stream (h : Kept m o) {s : Std} {l : OutputStreamer.Label} {x : OutputStreamer}
    (ha : o.allows s l) (hx : (o.streams s).step l=some x) :
    Kept m {o with streams := fun t => if t=s then x else o.streams t} := by
  have hstreams : ∀ t, Orderly (if t=s then x else o.streams t) ∧ (if t=s then x else o.streams t).sender := by
    intro t
    split
    · exact ⟨orderly_step _ l x (h.streams s).1 hx,step_sender _ l x (h.streams s).2 hx⟩
    · exact h.streams t
  have hold : ∀ b, o.phase=.checked b → ∀ t, (if t=s then x else o.streams t).place .stopper=.ended ∧
      (if t=s then x else o.streams t).written.flatten=o.written t := by
    intro b hb t
    have ht : (o.streams t).place .stopper=.ended := of_decide_eq_true ((h.checked b hb).1 t)
    split
    · rename_i hts
      subst hts
      refine ⟨ended_step ht hx,?_⟩
      -- nothing is written after the check
      have hl : l.written=[] := by
        cases l <;> first | rfl | (rw [allows,hb] at ha; cases ha)
      rw [step_written _ l x hx,hl,append_nil]
      rfl
    · exact ⟨ht,rfl⟩
  refine ⟨h.max,hstreams,?_⟩
  intro b hb
  obtain ⟨hstopped,htrunc⟩ := h.checked b hb
  refine ⟨fun t => decide_eq_true (hold b hb t).1,?_⟩
  have hbuf : ∀ t, (if t=s then x else o.streams t).sent.flatten=o.buf t := by
    intro t
    rw [sent_of_ended (hstreams t).1 (hstreams t).2 (hold b hb t).1,(hold b hb t).2,h.buf_eq (hstopped t)]
  rw [htrunc,truncated,truncated,← hbuf .out,← hbuf .err]
  rfl

theorem kept_step (o : Output) (l : Label) (o' : Output) (h : Kept m o) (hs : o.step l=some o') :
    Kept m o' := by
  unfold step at hs
  split at hs
  case _ s l =>
    split at hs
    · rename_i ha
      obtain ⟨x,hx,rfl⟩ := Option.map_eq_some_iff.mp hs
      exact kept_stream h ha hx
    · cases hs
  case _ =>
    split at hs
    · cases hs
      exact ⟨h.max,h.streams,nofun⟩
    · cases hs
  case _ =>
    split at hs
    · rename_i hc
      cases hs
      refine ⟨h.max,h.streams,?_⟩
      intro b hb
      cases hb
      exact ⟨fun s => by cases s <;> [exact hc.2.1; exact hc.2.2],rfl⟩
    · cases hs

/-- The limit is kept, and the output is marked as truncated exactly if a byte is missing. -/
def Limited (o : Output) (truncated : Bool) : Prop :=
  ((o.buf .out).length+(o.buf .err).length : Int)≤o.maxOutputBytes ∧
  (truncated ↔ ∃ s, o.buf s≠o.written s)

end Output

/-- Nothing is ever cut off, so the limit and the mark are right exactly if both streams stay
below half of the limit. -/
theorem limited_iff (cfg : Config) (req : ExecRequest) (b : Bool) (ls : List Output.Label) (o : Output)
    (hr : exec Output.step (Output.start ((newExecutor cfg).maxOutputBytes req)) ls=some o)
    (hc : o.phase=.checked b) : o.Limited b ↔ ∀ s, ((o.written s).length : Int) <
      ((newExecutor cfg).maxOutputBytes req).tdiv 2 := by
  have h:=exec_stable Output.kept_step Output.kept_start hr
  obtain ⟨hstopped,hb⟩ := h.checked b hc
  have hall : ∀ s, o.buf s=o.written s := fun s => h.buf_eq (hstopped s)
  have hlost : ¬ ∃ s, o.buf s≠o.written s := fun ⟨s,hs⟩ => hs (hall s)
  have htrunc : b=false ↔ ∀ s, ((o.written s).length : Int)<o.maxOutputBytes.tdiv 2 := by
    rw [hb,Output.truncated,decide_eq_false_iff_not,hall,hall,not_or,Int.not_le,Int.not_le]
    exact ⟨fun h s => by cases s <;> [exact h.1; exact h.2],fun h => ⟨h .out,h .err⟩⟩
  rw [Output.Limited,iff_false_right hlost,Bool.not_eq_true,htrunc,h.max,hall,hall]
  refine ⟨fun h => h.2,fun h => ⟨?_,h⟩⟩
  have hout:=h .out
  have herr:=h .err
  have hpos : 0≤(newExecutor cfg).maxOutputBytes req := by
    by_contra hneg
    have hhalf : 0≤(-(newExecutor cfg).maxOutputBytes req).tdiv 2 :=
      Int.tdiv_nonneg (by omega) (by decide)
    rw [Int.neg_tdiv] at hhalf
    omega
  rw [Int.tdiv_eq_ediv_of_nonneg hpos] at hout herr
  omega

def smallConfig : Config := ⟨[],[],[],0,0,0,0,0,1,[],⟨[],[],[],[],0,false⟩⟩
def plainRequest : ExecRequest := ⟨utf8 "job-7",utf8 "ls",[],[],[],[],0,none⟩
/-- One piece of standard output, flushed by its writer if it is `large` and else by `Stop`. -/
def oneWrite (data : GoString) (large : Bool) : List Output.Label :=
  flatten [[.stream .out (.write data)],
    replicate (if large then 7 else 3) (.stream .out (.next .writer)),[.exit,.stream .out .stop],
    replicate (if large then 3 else 4) (.stream .out (.next .stopper)),[.stream .err .stop],
    replicate 3 (.stream .err (.next .stopper)),[.check]]

theorem limited_small :
    ∃ o, exec Output.step (Output.start ((newExecutor smallConfig).maxOutputBytes plainRequest))
        (oneWrite (utf8 "bin etc") false)=some o ∧ o.Limited false := by
  refine ⟨_,rfl,?_⟩
  exact (limited_iff smallConfig plainRequest false (oneWrite (utf8 "bin etc") false) _ rfl rfl).mpr
    (by intro s; cases s <;> decide)

theorem output_not_limited :
    ∃ o, exec Output.step (Output.start ((newExecutor smallConfig).maxOutputBytes plainRequest))
        (oneWrite (List.replicate 1100 0x61) true)=some o ∧
      o.phase=.checked true ∧ (o.buf .out).length=1100 ∧ ¬ o.Limited true := by
  obtain ⟨o,hr,hc,hlen,hmax⟩ := exists_exec Output.step
    (Output.start ((newExecutor smallConfig).maxOutputBytes plainRequest))
    (oneWrite (replicate 1100 0x61) true)
    (fun o => o.phase=.checked true ∧ (o.buf .out).length=1100 ∧ o.maxOutputBytes=1024) (by decide +kernel)
  refine ⟨o,hr,hc,hlen,?_⟩
  intro h
  have hle:=h.1
  rw [hlen,hmax] at hle
  omega

end OpsAgent.Sandbox
