import OpsAgent.Lib.GoStrings
import Mathlib.Algebra.Order.Ring.Nat
import Mathlib.Data.List.Forall2

/-!
# Health checks (`checker/executor.go`, `checker/types.go`)

What a checker answers depends on its parameters and on the system, for which the number of the call
stands. The request's deadline reaches the checkers only.
-/

namespace OpsAgent.Checker
open Lib.GoStrings List

inductive CheckStatus where
  | pass | fail | warn | error | skip
  | other (n : Int)

/-- The constants have the numbers of those of the protocol, where any other number can be sent too. -/
inductive CheckSeverity where
  | info | low | medium | high | critical
  | other (n : Int)
deriving DecidableEq

def CheckStatus.toProto : CheckStatus → CheckStatus
  | .other _ => .error
  | s => s
def CheckSeverity.toProto : CheckSeverity → CheckSeverity
  | .other _ => .info
  | s => s

structure CheckResult where
  itemID : GoString := []
  type : GoString := []
  name : GoString := []
  status : CheckStatus := .pass
  actualValue : GoString := []
  expectedValue : GoString := []
  message : GoString := []
  remediation : GoString := []
  severity : CheckSeverity := .info
  duration : Int := 0

/-- The result of a checker that compares a value with the expected one. -/
def CheckResult.compared (what actual expected : GoString) (elapsed : Int) : CheckResult :=
  let read := what++utf8 " = "++actual
  if actual=expected then
    { actualValue := actual, expectedValue := expected, duration := elapsed,
      status := .pass, message := read++utf8 " (expected)" }
  else
    { actualValue := actual, expectedValue := expected, duration := elapsed,
      status := .fail, message := read++utf8 ", expected "++expected }

/-- The message `CheckResult` of the protocol. -/
structure ResultMessage where
  (itemID type name : GoString)
  status : CheckStatus
  (actualValue expectedValue message remediation : GoString)
  severity : CheckSeverity
  durationMs : Int

def milliseconds (d : Int) : Int := d.tdiv 1000000
def CheckResult.toProto (r : CheckResult) : ResultMessage :=
  ⟨r.itemID,r.type,r.name,r.status.toProto,r.actualValue,r.expectedValue,r.message,
    r.remediation,r.severity.toProto,milliseconds r.duration⟩

structure CheckSummary where
  total : Int32
  pass : Int32 := 0
  fail : Int32 := 0
  warn : Int32 := 0
  error : Int32 := 0
  skip : Int32 := 0
  totalDurationMs : Int

def CheckSummary.count (s : CheckSummary) (r : CheckResult) : CheckSummary :=
  match r.status with
  | .pass => {s with pass := s.pass+1}
  | .fail => {s with fail := s.fail+1}
  | .warn => {s with warn := s.warn+1}
  | .error => {s with error := s.error+1}
  | .skip => {s with skip := s.skip+1}
  | .other _ => s

def buildSummary (results : List CheckResult) (totalDuration : Int) : CheckSummary :=
  results.foldl .count
    {total := Int32.ofNat results.length, totalDurationMs := milliseconds totalDuration}

structure CheckItem where
  (id type name params : GoString)
  severity : CheckSeverity

structure HealthCheckRequest where
  requestId : GoString
  items : List CheckItem

structure HealthCheckResult where
  requestId : GoString
  results : List ResultMessage
  summary : Option CheckSummary
  completed : Bool

/-- The method of a checker: the call, the parameters, and the result or the error. -/
def Check := Nat → GoString → Except GoString CheckResult

structure Executor where
  registry : GoString → Option Check
  /-- `time.Since(start)` in a call, and `time.Since(startAll)` -/
  elapsed : Nat → Int
  elapsedAll : Int

namespace Executor
variable (e : Executor)

def failed (n : Nat) (item : CheckItem) (message : GoString) : CheckResult :=
  { itemID := item.id, type := item.type, name := item.name, status := .error, message := message,
    severity := item.severity, duration := e.elapsed n}

def executeOne (n : Nat) (item : CheckItem) : CheckResult :=
  match e.registry item.type with
  | none => e.failed n item (utf8 "unknown checker type: "++item.type)
  | some check =>
    match check n item.params with
    | .error err => e.failed n item (utf8 "check execution error: "++err)
    | .ok r =>
      { r with
        itemID := item.id, type := item.type, name := item.name,
        duration := if r.duration=0 then e.elapsed n else r.duration}

/-- `Execute`: what the callback is given, in the loop for each item and at the end. -/
def execute (req : HealthCheckRequest) : List HealthCheckResult :=
  let results:=req.items.zipIdx.map fun p => e.executeOne p.2 p.1
  results.map (fun r => ⟨req.requestId,[r.toProto],none,false⟩) ++
    [⟨req.requestId,results.map CheckResult.toProto,some (buildSummary results e.elapsedAll),true⟩]

/-- What a checker has answered to an item, if there is one and it has no error. -/
def checked (n : Nat) (item : CheckItem) : Option CheckResult :=
  (e.registry item.type).bind fun check => (check n item.params).toOption

end Executor

/-- One of the constants. -/
def CheckStatus.named : CheckStatus → Bool
  | .other _ => false
  | _ => true
def CheckSummary.counted (s : CheckSummary) : Int32 := s.pass+s.fail+s.warn+s.error+s.skip

/-- The result of an item carries what the request says about it. -/
structure Carries (item : CheckItem) (r : ResultMessage) : Prop where
  itemID : r.itemID=item.id
  type : r.type=item.type
  name : r.name=item.name
  severity : r.severity=item.severity

/-- What a request is to be answered with. -/
def Answers (req : HealthCheckRequest) (sent : List HealthCheckResult) : Prop :=
  ∃ before final summary, sent=before++[final] ∧
    (∀ m∈before, m.completed=false) ∧ final.completed ∧
    Forall₂ Carries req.items final.results ∧ final.results=before.flatMap (·.results) ∧
    final.summary=some summary ∧ summary.counted=Int32.ofNat req.items.length

/-- A checker that answers decides on the severity on its own; an error has the requested one. -/
def CheckItem.Fits (item : CheckItem) : Option CheckResult → Prop
  | none => item.severity.toProto=item.severity
  | some r => r.severity.toProto=item.severity
/-- A checker has answered with none of the constants. -/
def Executor.uncounted (e : Executor) (n : Nat) (item : CheckItem) : Bool :=
  (e.checked n item).any fun r => !r.status.named

variable {e : Executor} {n : Nat} {item : CheckItem} {results : List CheckResult}

theorem counted_count (s : CheckSummary) (r : CheckResult) :
    (s.count r).counted=s.counted + if r.status.named then 1 else 0 := by
  unfold CheckSummary.count
  cases r.status with
  | other k => simp [CheckStatus.named]
  | _ =>
    simp only [CheckSummary.counted,CheckStatus.named]
    grind

theorem counted_foldl (s : CheckSummary) : (results.foldl .count s).counted =
    s.counted+Int32.ofNat (results.countP (·.status.named)) := by
  induction results generalizing s with
  | nil => simp
  | cons r results ih =>
    rw [foldl_cons,ih,counted_count,countP_cons]
    split
    · rw [Int32.ofNat_add]
      grind
    · simp

theorem ofNat_eq_zero_iff (n : Nat) : Int32.ofNat n=0 ↔ n % 2^32=0 := by
  rw [← Int32.toBitVec_inj,← BitVec.toNat_inj]
  simp

theorem counted_buildSummary_iff (d : Int) :
    (buildSummary results d).counted=Int32.ofNat results.length ↔
      (results.countP fun r => !r.status.named) % 2^32=0 := by
  have hlength : results.length =
      results.countP (·.status.named)+results.countP fun r => !r.status.named := by
    rw [length_eq_countP_add_countP (·.status.named)]
    simp
  rw [buildSummary,counted_foldl,← ofNat_eq_zero_iff,hlength,Int32.ofNat_add]
  simp [CheckSummary.counted]

theorem executeOne_cases (e : Executor) (n : Nat) (item : CheckItem) :
    (∃ message, e.checked n item=none ∧ e.executeOne n item=e.failed n item message) ∨
    ∃ r d, e.checked n item=some r ∧ e.executeOne n item =
        {r with itemID := item.id, type := item.type, name := item.name, duration := d} := by
  unfold Executor.executeOne Executor.checked
  cases e.registry item.type with
  | none => exact .inl ⟨_,rfl,rfl⟩
  | some check =>
    cases hanswer : check n item.params with
    | error err => exact .inl ⟨_,by simp [hanswer,Except.toOption],by simp [hanswer]; rfl⟩
    | ok r => exact .inr ⟨r,_,by simp [hanswer,Except.toOption],by simp [hanswer]; rfl⟩

theorem carries_executeOne_iff (e : Executor) (n : Nat) (item : CheckItem) :
    Carries item (e.executeOne n item).toProto ↔ item.Fits (e.checked n item) := by
  obtain ⟨message,hnone,hone⟩ | ⟨r,d,hsome,hone⟩ := executeOne_cases e n item
  · rw [hone,hnone]
    exact ⟨fun h => h.severity,fun h => ⟨rfl,rfl,rfl,h⟩⟩
  · rw [hone,hsome]
    exact ⟨fun h => h.severity,fun h => ⟨rfl,rfl,rfl,h⟩⟩

theorem named_executeOne (e : Executor) (n : Nat) (item : CheckItem) :
    (!(e.executeOne n item).status.named)=e.uncounted n item := by
  obtain ⟨message,hnone,hone⟩ | ⟨r,d,hsome,hone⟩ := executeOne_cases e n item
  · rw [hone,Executor.uncounted,hnone]
    rfl
  · rw [hone,Executor.uncounted,hsome]
    rfl

theorem carries_results_iff (items : List CheckItem) (n : Nat) :
    Forall₂ Carries items (((items.zipIdx n).map fun p => e.executeOne p.2 p.1).map CheckResult.toProto) ↔
      ∀ p∈items.zipIdx n, p.1.Fits (e.checked p.2 p.1) := by
  induction items generalizing n with
  | nil => simp
  | cons item items ih =>
    simp only [zipIdx_cons,map_cons,forall₂_cons,ih,carries_executeOne_iff,mem_cons,
      forall_eq_or_imp]

/-- The counts add up exactly if they miss no result, up to the range of `int32`. -/
theorem counted_iff (e : Executor) (items : List CheckItem) (d : Int) :
    (buildSummary (items.zipIdx.map fun p => e.executeOne p.2 p.1) d).counted=Int32.ofNat items.length ↔
      (items.zipIdx.countP fun p => e.uncounted p.2 p.1) % 2^32=0 := by
  have hcount:=@counted_buildSummary_iff (items.zipIdx.map fun p => e.executeOne p.2 p.1) d
  rw [length_map,length_zipIdx,countP_map] at hcount
  rw [hcount]
  simp only [Function.comp_def,named_executeOne]

/-- A request is answered as it should be exactly if each checker's answer has the requested severity
and one of the status constants. -/
theorem execute_answers_iff (e : Executor) (req : HealthCheckRequest) :
    Answers req (e.execute req) ↔ (∀ p∈req.items.zipIdx, p.1.Fits (e.checked p.2 p.1)) ∧
      (req.items.zipIdx.countP fun p => e.uncounted p.2 p.1) % 2^32=0 := by
  rw [← carries_results_iff,← counted_iff e req.items e.elapsedAll]
  constructor
  · rintro ⟨before,final,summary,hrun,-,-,hcarries,-,hsummary,hcounted⟩
    obtain ⟨-,hfinal⟩ := append_inj' hrun rfl
    obtain ⟨rfl,-⟩ := cons_eq_cons.mp hfinal
    cases hsummary
    exact ⟨hcarries,hcounted⟩
  · rintro ⟨hcarries,hcounted⟩
    refine ⟨_,_,_,rfl,?_,rfl,hcarries,?_,rfl,hcounted⟩
    · intro m hm
      obtain ⟨r,-,rfl⟩ := mem_map.mp hm
      rfl
    · rw [flatMap_map,map_eq_flatMap]

/-- One checker, which finds what it looks for. -/
def passing : Executor where
  registry type := if type=utf8 "sysctl_check" then some fun _ _ => .ok { } else none
  elapsed _ := 1000000
  elapsedAll := 2000000
def request (severity : CheckSeverity) : HealthCheckRequest where
  requestId := utf8 "r1"
  items := [⟨utf8 "i1",utf8 "sysctl_check",utf8 "forwarding",[],severity⟩,
    ⟨utf8 "i2",utf8 "raid_check",utf8 "raid",[],.high⟩]

theorem execute_drops_severity :
    (passing.execute (request .critical)).getLast?.map (·.results.map (·.severity))=some [.info,.high] ∧
      ¬ Answers (request .critical) (passing.execute (request .critical)) := by
  refine ⟨by decide,?_⟩
  rintro ⟨before,final,summary,hrun,-,-,hcarries,-⟩
  obtain ⟨-,hfinal⟩ := append_inj' hrun rfl
  obtain ⟨rfl,-⟩ := cons_eq_cons.mp hfinal
  cases hcarries with
  | cons hfirst _ => exact absurd hfirst.severity (by decide)

end OpsAgent.Checker
