import OpsAgent.Collector.Metric
import OpsAgent.Config.Types
import OpsAgent.Lib.FloatText
import OpsAgent.Lib.Regexp

/-!
# Alerting rules and their engine (`alerting/rules.go`, `alerting/engine.go`)

`Evaluate` reads the clock once per call, so the time is an argument.
-/

namespace OpsAgent.Alerting
open OpsAgent.Collector
open Lib.GoValue
open Lib.GoTime
open Lib.FloatText (formatFloat parseFloat)
open Lib.Regexp

inductive AlertState where
  | ok | pending | firing
  deriving DecidableEq

structure AlertCondition where
  (metric operator : String)
  threshold : Float64

def AlertCondition.evaluate (c : AlertCondition) (value : Float64) : Bool :=
  match c.operator with
  | ">" => c.threshold.lt value
  | "<" => value.lt c.threshold
  | ">=" => c.threshold.le value
  | "<=" => value.le c.threshold
  | "==" => value.eq c.threshold
  | "!=" => !value.eq c.threshold
  | _ => false

structure EvaluatedRule where
  name : String
  condition : AlertCondition
  severity : String
  duration : Duration
  state : AlertState
  triggeredAt : Time
  currentValue : Float64

def EvaluatedRule.conditionMet (r : EvaluatedRule) (met : Bool) (now : Time) : EvaluatedRule :=
  match r.state with
  | .ok =>
    if met then
      if r.duration=0 then {r with state := .firing}
      else {r with state := .pending, triggeredAt := now}
    else r
  | .pending =>
    if !met then {r with state := .ok, triggeredAt := 0}
    else if r.duration ≤ sub now r.triggeredAt then {r with state := .firing}
    else r
  | .firing => if !met then {r with state := .ok, triggeredAt := 0} else r

structure Alert where
  name : String
  state : AlertState
  severity : String
  (currentValue threshold : Float64)
  message : String

/-- `>|<|>=|<=|==|!=` -/
def operatorPattern : Re :=
  .alt (.lit ['>']) <| .alt (.lit ['<']) <| .alt (.lit ['>', '=']) <| .alt (.lit ['<', '=']) <|
    .alt (.lit ['=', '=']) (.lit ['!', '='])

/-- `^(\S+)\s*(>|<|>=|<=|==|!=)\s*(.+)$` -/
def conditionPattern : Re :=
  .seqs [.bol,.group 1 (.plus (.char nonWhitespace)),.star (.char whitespace),.group 2 operatorPattern,
    .star (.char whitespace),.group 3 (.plus (.char notNewline)),.eol]

def parseCondition (s : String) : Except String AlertCondition :=
  match findSubmatch conditionPattern s.toList with
  | none => .error ("invalid condition: "++s)
  | some groups =>
    let matched (i : Nat) := (groups.lookup i).getD []
    match parseFloat (matched 3) with
    | .error _ => .error ("invalid threshold: "++String.ofList (matched 3))
    | .ok threshold =>
      .ok ⟨String.ofList (matched 1),String.ofList (matched 2),threshold⟩

structure RuleConfig where
  (name condition severity for_ : String)

structure WebhookNotifier where
  url : String
  headers : Option (List (String × String))
  deriving DecidableEq

structure Engine where
  rules : List EvaluatedRule
  notifiers : List WebhookNotifier

/-- The pending time of a rule; a text that is not a duration counts as zero. -/
def ruleDuration (for_ : String) : Duration :=
  if for_≠"" ∧ for_≠"0s" then (parseDuration for_).getD 0 else 0
def newRule (rc : RuleConfig) (cond : AlertCondition) : EvaluatedRule :=
  ⟨rc.name,cond,rc.severity,ruleDuration rc.for_,.ok,0,⟨0⟩⟩

/-- `NewEngine`: a rule whose condition is not parsed is left out. -/
def newEngine (rules : List RuleConfig) : Engine where
  rules := rules.filterMap fun rc => match parseCondition rc.condition with
    | .error _ => none
    | .ok cond => some (newRule rc cond)
  notifiers := []

def Engine.addNotifier (e : Engine) (n : WebhookNotifier) : Engine :=
  {e with notifiers := e.notifiers++[n]}

/-- `fmt.Sprintf("%s %s %v", …)` -/
def conditionText (c : OpsAgent.AlertCondition) : String :=
  c.metric++" "++c.operator++" "++String.ofList (formatFloat c.threshold)
def ruleConfig (r : AlertRule) : RuleConfig :=
  ⟨r.name,conditionText r.condition,r.severity,r.condition.for_⟩

def alertEngine (cfg : AlertingConfig) : Option Engine :=
  let rules:=cfg.rules.getD []
  if cfg.enabled then
    let hooks:=(rules.flatMap fun r => r.notify.getD []).filter fun n => n.type == "webhook"
    some (hooks.foldl (fun e n => e.addNotifier ⟨n.url,n.headers⟩)
      (newEngine (rules.map ruleConfig)))
  else none

def fieldNumber : FieldValue → Option Float64
  | .float64 x => some x
  | .int64 n => some (Float64.ofInt n.toInt)
  | .int n => some (Float64.ofInt n.toInt)
  | _ => none

def addFields (values : StringMap Float64) (m : Metric) : StringMap Float64 :=
  m.fields.entries.foldl (fun values f => match fieldNumber f.2 with
    | some x => values.insert (m.name++"_"++f.1) x
    | none => values) values
def valueMap (metrics : List Metric) : StringMap Float64 := metrics.foldl addFields ∅

def firingAlert (r : EvaluatedRule) : Alert where
  name := r.name
  state := .firing
  severity := r.severity
  currentValue := r.currentValue
  threshold := r.condition.threshold
  message := r.name++": "++r.condition.metric++" is " ++
    String.ofList (formatFloat r.currentValue)++" (threshold: " ++
    String.ofList (formatFloat r.condition.threshold)++")"

def evaluateRule (values : StringMap Float64) (now : Time) (rule : EvaluatedRule) :
    EvaluatedRule × Option Alert :=
  match values.lookup rule.condition.metric with
  | none => (rule.conditionMet false now,none)
  | some val =>
    let rule' := {rule with currentValue := val}.conditionMet (rule.condition.evaluate val) now
    if rule'.state=.firing ∧ rule.state ≠ .firing then (rule',some (firingAlert rule'))
    else (rule',none)

structure Evaluation where
  engine : Engine
  alerts : List Alert
  notified : List (WebhookNotifier × Alert)

def Engine.evaluate (e : Engine) (metrics : List Metric) (now : Time) : Evaluation :=
  let results:=e.rules.map (evaluateRule (valueMap metrics) now)
  let alerts:=results.filterMap Prod.snd
  { engine := {e with rules := results.map Prod.fst}
    alerts := alerts
    notified := alerts.flatMap fun a => e.notifiers.map (·,a)}

end OpsAgent.Alerting
