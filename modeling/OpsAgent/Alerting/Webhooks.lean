import OpsAgent.Alerting.Condition
import OpsAgent.Alerting.Lifecycle
import OpsAgent.Lib.Json
import OpsAgent.Lib.JsonFloat

/-!
# Webhooks of alert rules (`alerting/notifier.go`, `app/agent.go`)

Whether `http.NewRequest` takes the URL and the client sends the request is the variable `accepts`;
`Evaluate` ignores the errors.
-/

namespace OpsAgent.Alerting
open List Option
open Lib (Json)
open Lib.Json (print)
open Lib.JsonFloat (encodeFloat)

def AlertState.text : AlertState → String
  | .ok => "ok"
  | .pending => "pending"
  | .firing => "firing"

/-- `json.Marshal` of an alert, which fails for a number that is not finite. -/
def Alert.json (a : Alert) : Option Json :=
  match encodeFloat a.currentValue, encodeFloat a.threshold with
  | some currentValue, some threshold =>
    some (.obj [("name",.str a.name),("state",.str a.state.text),("severity",.str a.severity),
      ("current_value",.num currentValue),("threshold",.num threshold),
      ("message",.str a.message)])
  | _, _ => none

structure Request where
  target : WebhookNotifier
  body : List Char

section
variable (accepts : WebhookNotifier → Bool)

def WebhookNotifier.notify (w : WebhookNotifier) (a : Alert) : Option Request :=
  match a.json with
  | none => none
  | some j => if accepts w then some ⟨w,print j⟩ else none
def Engine.sent (e : Engine) (i : Nat) (c : Call) : List Request :=
  match e.raised i c with
  | none => []
  | some a => e.notifiers.filterMap fun w => w.notify accepts a

/-- All requests of a call are those of its rules. -/
theorem Engine.notified_requests (e : Engine) (c : Call) :
    (e.evaluate c.metrics c.now).notified.filterMap (fun n => n.1.notify accepts n.2) =
      (range e.rules.length).flatMap fun i => e.sent accepts i c := by
  have halerts : (e.evaluate c.metrics c.now).notified =
      (e.evaluate c.metrics c.now).alerts.flatMap fun a => e.notifiers.map (·,a) := rfl
  rw [halerts,e.evaluate_alerts c]
  generalize range e.rules.length=is
  induction is with
  | nil => rfl
  | cons i is ih =>
    rw [filterMap_cons,flatMap_cons,← ih]
    unfold Engine.sent
    cases e.raised i c with
    | none => rfl
    | some a =>
      simp only [flatMap_cons,filterMap_append,filterMap_map]
      rfl

end

def target (n : AlertNotify) : WebhookNotifier := ⟨n.url,n.headers⟩
def ruleTargets (r : AlertRule) : List WebhookNotifier :=
  ((r.notify.getD []).filter fun n => n.type == "webhook").map target
def allTargets (cfg : AlertingConfig) : List WebhookNotifier :=
  (cfg.rules.getD []).flatMap ruleTargets
def installedRules (cfg : AlertingConfig) : List (AlertRule × EvaluatedRule) :=
  (cfg.rules.getD []).filterMap fun r => match parseCondition (conditionText r.condition) with
    | .error _ => none
    | .ok cond => some (r,newRule (ruleConfig r) cond)

theorem foldl_addNotifier_notifiers (hooks : List AlertNotify) (e : Engine) :
    (hooks.foldl (fun e n => e.addNotifier ⟨n.url,n.headers⟩) e).notifiers =
      e.notifiers++hooks.map target := by
  induction hooks generalizing e with
  | nil => simp
  | cons n hooks ih =>
    rw [foldl_cons,ih]
    simp [Engine.addNotifier,target]

variable {cfg : AlertingConfig} {e : Engine}

theorem alertEngine_notifiers (h : alertEngine cfg=some e) : e.notifiers=allTargets cfg := by
  simp only [alertEngine] at h
  split at h
  · cases h
    rw [foldl_addNotifier_notifiers,allTargets]
    generalize cfg.rules.getD []=rules
    show []++_=_
    rw [nil_append]
    induction rules with
    | nil => rfl
    | cons r rules ih =>
      rw [flatMap_cons,filter_append,map_append,ih]
      rfl
  · cases h

theorem alertEngine_installedRules (h : alertEngine cfg=some e) :
    e.rules=(installedRules cfg).map Prod.snd := by
  rw [alertEngine_rules h,newEngine,installedRules]
  generalize cfg.rules.getD []=rules
  induction rules with
  | nil => rfl
  | cons r rules ih =>
    have hcond : (ruleConfig r).condition=conditionText r.condition := rfl
    rw [map_cons,filterMap_cons,filterMap_cons,hcond]
    cases parseCondition (conditionText r.condition) with
    | error err => exact ih
    | ok cond =>
      rw [map_cons]
      exact congrArg _ ih

theorem mem_rules_of_installed {p : AlertRule × EvaluatedRule}
    (h : p∈installedRules cfg) : p.1∈cfg.rules.getD [] := by
  obtain ⟨r,hr,hp⟩ := mem_filterMap.mp h
  split at hp
  · cases hp
  · cases hp
    exact hr

theorem Engine.run_notifiers (e : Engine) (calls : List Call) : (e.run calls).notifiers=e.notifiers := by
  induction calls generalizing e with
  | nil => rfl
  | cons c calls ih => exact ih _

section
variable {accepts : WebhookNotifier → Bool}

theorem sent_targets {e : Engine} {i : Nat} {c : Call} {a : Alert} (ha : e.raised i c=some a) :
    (e.sent accepts i c).map Request.target =
      if a.json.isSome then e.notifiers.filter accepts else [] := by
  simp only [Engine.sent,ha,WebhookNotifier.notify]
  cases a.json with
  | none => simp
  | some j =>
    simp only [isSome_some,if_true]
    generalize e.notifiers=ws
    induction ws with
    | nil => rfl
    | cons w ws ih =>
      rw [filterMap_cons,filter_cons]
      cases accepts w with
      | false => exact ih
      | true =>
        simp only [if_true,map_cons]
        exact congrArg _ ih

/-- The targets of a rule can be reached with an alert, and the alert reaches no other target and
none twice. -/
structure Addressed (accepts : WebhookNotifier → Bool) (own all : List WebhookNotifier) (a : Alert) :
    Prop where
  encoded : own≠[] → a.json.isSome
  accepted : ∀ t∈own, accepts t
  only : a.json.isSome → ∀ t∈all, accepts t → t∈own ∧ all.count t=1

theorem mem_sentTo {encoded : Bool} {all : List WebhookNotifier} {t : WebhookNotifier} :
    (t ∈ if encoded then all.filter accepts else []) ↔ encoded ∧ t∈all ∧ accepts t := by
  cases encoded with
  | false => simp
  | true => simp [mem_filter]

theorem count_eq_iff_addressed {own all : List WebhookNotifier} (hsub : ∀ t∈own, t∈all) (a : Alert) :
    (∀ t, (if a.json.isSome then all.filter accepts else []).count t = if t∈own then 1 else 0) ↔
      Addressed accepts own all a := by
  constructor
  · intro h
    have hsent : ∀ t∈own, a.json.isSome ∧ t∈all ∧ accepts t := by
      intro t ht
      have hone:=h t
      rw [if_pos ht] at hone
      exact mem_sentTo.mp (count_pos_iff.mp (by omega))
    refine ⟨fun hne => ?_,fun t ht => (hsent t ht).2.2,fun hjson t ht hacc => ?_⟩
    · obtain ⟨t,ht⟩ := exists_mem_of_ne_nil own hne
      exact (hsent t ht).1
    · have hcount:=h t
      rw [if_pos hjson,count_filter hacc] at hcount
      have hpos:=count_pos_iff.mpr ht
      split at hcount
      next hown => exact ⟨hown,hcount⟩
      next => omega
  · intro h t
    by_cases hown : t∈own
    · have hjson:=h.encoded (ne_nil_of_mem hown)
      have hacc:=h.accepted t hown
      rw [if_pos hjson,if_pos hown,count_filter hacc]
      exact (h.only hjson t (hsub t hown) hacc).2
    · rw [if_neg hown,count_eq_zero]
      intro hsent
      obtain ⟨hjson,hall,hacc⟩ := mem_sentTo.mp hsent
      exact hown (h.only hjson t hall hacc).1

end

/-- An alert is sent once to each target of its rule and to no other one exactly if it can be encoded
and the accepted targets of the configuration are those of the rule, each configured once. -/
theorem alert_sent_to_own_targets_iff (accepts : WebhookNotifier → Bool) (cfg : AlertingConfig)
    (e : Engine) (he : alertEngine cfg=some e) (calls : List Call) (c : Call) (i : Nat)
    (p : AlertRule × EvaluatedRule) (hp : (installedRules cfg)[i]?=some p) (a : Alert)
    (ha : (e.run calls).raised i c=some a) :
    (∀ t, (((e.run calls).sent accepts i c).map Request.target).count t =
        if t∈ruleTargets p.1 then 1 else 0) ↔
      Addressed accepts (ruleTargets p.1) (allTargets cfg) a := by
  have hrule:=mem_rules_of_installed (mem_of_getElem? hp)
  have hsub : ∀ t∈ruleTargets p.1, t∈allTargets cfg :=
    fun t ht => mem_flatMap.mpr ⟨p.1,hrule,ht⟩
  rw [sent_targets ha,Engine.run_notifiers,alertEngine_notifiers he]
  exact count_eq_iff_addressed hsub a

def postingRule (name metric url : String) : AlertRule :=
  ⟨name,⟨metric,">",⟨0x4054000000000000#64⟩,""⟩,"critical",some [⟨"webhook",url,none⟩]⟩
def cpuPosts : AlertRule := postingRule "cpu" "cpu_usage_percent" "http://cpu/hook"
def memPosts : AlertRule := postingRule "mem" "mem_used_percent" "http://mem/hook"

theorem parseCondition_postingRule (name url : String) {metric : String} (hmetric : metric≠"")
    (hnospace : ∀ c∈metric.toList, Lib.Regexp.nonWhitespace c) :
    parseCondition (conditionText (postingRule name metric url).condition) =
      .ok ⟨metric,">",⟨0x4054000000000000#64⟩⟩ := by
  have hop : ">".toList∈[['>'],['<'],['=', '='],['!', '=']] := by decide
  exact parseCondition_conditionText (postingRule name metric url).condition hmetric hnospace rfl hop

theorem parseCondition_cpuPosts : parseCondition (conditionText cpuPosts.condition) =
    .ok ⟨"cpu_usage_percent",">",⟨0x4054000000000000#64⟩⟩ :=
  parseCondition_postingRule _ _ (by decide) (all_eq_true.mp (by decide))
theorem parseCondition_memPosts : parseCondition (conditionText memPosts.condition) =
    .ok ⟨"mem_used_percent",">",⟨0x4054000000000000#64⟩⟩ :=
  parseCondition_postingRule _ _ (by decide) (all_eq_true.mp (by decide))

def postingWatch (name metric : String) : EvaluatedRule :=
  newRule ⟨name,"","critical",""⟩ ⟨metric,">",⟨0x4054000000000000#64⟩⟩

theorem installedRules_cpu : installedRules ⟨true,some [cpuPosts]⟩ =
    [(cpuPosts,postingWatch "cpu" "cpu_usage_percent")] := by
  simp only [installedRules,getD_some,filterMap_cons,parseCondition_cpuPosts]
  rfl

theorem installedRules_both : installedRules ⟨true,some [cpuPosts,memPosts]⟩ =
    [(cpuPosts,postingWatch "cpu" "cpu_usage_percent"),
      (memPosts,postingWatch "mem" "mem_used_percent")] := by
  simp only [installedRules,getD_some,filterMap_cons,parseCondition_cpuPosts,
    parseCondition_memPosts]
  rfl

theorem raised_cpuPosts (h : e.rules[0]?=some (postingWatch "cpu" "cpu_usage_percent")) :
    ∃ a, e.raised 0 (busyCall 0)=some a ∧ a.json.isSome := by
  rw [Engine.raised,h]
  exact ⟨_,rfl,rfl⟩

theorem alert_sent_to_own_targets_cpu :
    ∃ e a, alertEngine ⟨true,some [cpuPosts]⟩=some e ∧ (e.run []).raised 0 (busyCall 0)=some a ∧
      ∀ t, (((e.run []).sent (fun _ => true) 0 (busyCall 0)).map Request.target).count t =
        if t∈ruleTargets cpuPosts then 1 else 0 := by
  obtain ⟨e,he⟩ : ∃ e, alertEngine ⟨true,some [cpuPosts]⟩=some e := ⟨_,rfl⟩
  have hrule : (e.run []).rules[0]?=some (postingWatch "cpu" "cpu_usage_percent") := by
    rw [show e.run []=e from rfl,alertEngine_installedRules he,installedRules_cpu]
    rfl
  obtain ⟨a,ha,hjson⟩ := raised_cpuPosts hrule
  have hall : allTargets ⟨true,some [cpuPosts]⟩=ruleTargets cpuPosts := by decide
  have hcount : ∀ t∈ruleTargets cpuPosts, (ruleTargets cpuPosts).count t=1 := by decide
  refine ⟨e,a,he,ha,(alert_sent_to_own_targets_iff (fun _ => true) _ e he [] (busyCall 0) 0
    (cpuPosts,postingWatch "cpu" "cpu_usage_percent") (by rw [installedRules_cpu]; rfl) a ha).mpr ?_⟩
  refine ⟨fun _ => hjson,fun _ _ => rfl,fun _ t ht _ => ?_⟩
  rw [hall] at ht ⊢
  exact ⟨ht,hcount t ht⟩

theorem alert_sent_to_other_target : ⟨"http://mem/hook",none⟩∉ruleTargets cpuPosts ∧
    ∃ e a, alertEngine ⟨true,some [cpuPosts,memPosts]⟩=some e ∧
      (installedRules ⟨true,some [cpuPosts,memPosts]⟩)[0]?.map Prod.fst=some cpuPosts ∧
      e.raised 0 (busyCall 0)=some a ∧ (e.sent (fun _ => true) 0 (busyCall 0)).map Request.target =
        [⟨"http://cpu/hook",none⟩,⟨"http://mem/hook",none⟩] := by
  obtain ⟨e,he⟩ : ∃ e, alertEngine ⟨true,some [cpuPosts,memPosts]⟩=some e := ⟨_,rfl⟩
  have hrule : e.rules[0]?=some (postingWatch "cpu" "cpu_usage_percent") := by
    rw [alertEngine_installedRules he,installedRules_both]
    rfl
  obtain ⟨a,ha,hjson⟩ := raised_cpuPosts hrule
  refine ⟨by decide,e,a,he,by rw [installedRules_both]; rfl,ha,?_⟩
  rw [sent_targets ha,if_pos hjson,alertEngine_notifiers he]
  rfl

end OpsAgent.Alerting
