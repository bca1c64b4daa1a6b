import OpsAgent.Alerting.Engine
import OpsAgent.Config.Diff

/-!
# Conditions printed and parsed
-/

namespace OpsAgent.Alerting
open Lib.GoValue List
open Lib.FloatText
open Lib.Regexp

theorem first_operatorPattern {o : List Char} (h : o∈[['>'],['<'],['=', '='],['!', '=']])
    (rest : List Char) (b : Bool) (g : List (Nat × List Char)) :
    first operatorPattern ⟨b,o++rest,g⟩=some ⟨false,rest,g⟩ := by
  simp only [mem_cons,not_mem_nil,or_false] at h
  rcases h with rfl | rfl | rfl | rfl <;> rfl

theorem findSubmatch_conditionPattern {metric o : List Char} (spaces value : List Char)
    (hmetric : metric≠[]) (hnospace : ∀ c∈metric, nonWhitespace c)
    (ho : o∈[['>'],['<'],['=', '='],['!', '=']])
    (hspaces : ∀ c∈spaces, whitespace c) (hvalue : value≠[])
    (hhead : ∀ c∈value.head?, whitespace c=false) (hline : ∀ c∈value, notNewline c) :
    findSubmatch conditionPattern (metric++([' ']++(o++(spaces++value)))) =
      some [(3,value),(2,o),(1,metric)] := by
  have hmet : first (.group 1 (.plus (.char nonWhitespace)))
      ⟨true,metric++([' ']++(o++(spaces++value))),[]⟩ =
      some ⟨false,[' ']++(o++(spaces++value)),[(1,metric)]⟩ :=
    first_group_append (first_plus_char hmetric hnospace (by
      intro x hx
      cases hx
      decide))
  have hgap : first (.star (.char whitespace))
      ⟨false,[' ']++(o++(spaces++value)),[(1,metric)]⟩ =
      some ⟨false,o++(spaces++value),[(1,metric)]⟩ := by
    refine first_star_char (forall_mem_singleton.mpr rfl) ?_
    simp only [mem_cons,not_mem_nil,or_false] at ho
    rcases ho with rfl | rfl | rfl | rfl <;> simp [whitespace]
  have hop : first (.group 2 operatorPattern) ⟨false,o++(spaces++value),[(1,metric)]⟩ =
      some ⟨false,spaces++value,[(2,o),(1,metric)]⟩ :=
    first_group_append (first_operatorPattern ho _ _ _)
  have hgap' : first (.star (.char whitespace)) ⟨false,spaces++value,[(2,o),(1,metric)]⟩ =
      some ⟨false,value,[(2,o),(1,metric)]⟩ :=
    first_star_char hspaces hhead
  have hval : first (.group 3 (.plus (.char notNewline)))
      ⟨false,value++[],[(2,o),(1,metric)]⟩ =
      some ⟨false,[],[(3,value),(2,o),(1,metric)]⟩ :=
    first_group_append (first_plus_char hvalue hline (by simp))
  rw [append_nil] at hval
  have hall : first conditionPattern ⟨true,metric++([' ']++(o++(spaces++value))),[]⟩ =
      some ⟨false,[],[(3,value),(2,o),(1,metric)]⟩ :=
    first_seq (first_bol _ _) <| first_seq hmet <| first_seq hgap <| first_seq hop <|
      first_seq hgap' <| first_seq hval <| first_seq (first_eol _ _) (first_empty _)
  exact findSubmatch_of_first hall

theorem formatFloat_whitespace (x : Float64) : ∀ c∈formatFloat x, whitespace c=false := by
  intro c hc
  have hchars : textChars.any whitespace=false := by decide
  exact Bool.eq_false_iff.mpr (any_eq_false.mp hchars c (formatFloat_textChars x c hc))
theorem formatFloat_notNewline (x : Float64) : ∀ c∈formatFloat x, notNewline c := by
  intro c hc
  have hchars : textChars.all notNewline := by decide
  exact all_eq_true.mp hchars c (formatFloat_textChars x c hc)
theorem conditionText_toList (c : OpsAgent.AlertCondition) : (conditionText c).toList =
      c.metric.toList++([' ']++(c.operator.toList++([' ']++formatFloat c.threshold))) := by
  simp [conditionText]

section
variable (c : OpsAgent.AlertCondition) (hmetric : c.metric≠"")
  (hnospace : ∀ x∈c.metric.toList, nonWhitespace x)

include hmetric hnospace

theorem parseCondition_conditionText (hfinite : c.threshold.isFinite)
    (hop : c.operator.toList∈[['>'],['<'],['=', '='],['!', '=']]) :
    parseCondition (conditionText c)=.ok ⟨c.metric,c.operator,c.threshold⟩ := by
  have hsplit:=findSubmatch_conditionPattern [' '] _ (mt String.toList_eq_nil_iff.mp hmetric)
    hnospace hop (forall_mem_singleton.mpr rfl) (formatFloat_ne_nil c.threshold hfinite)
    (fun x hx => formatFloat_whitespace _ x (mem_of_mem_head? hx)) (formatFloat_notNewline _)
  rw [parseCondition,conditionText_toList,hsplit]
  simp [lookup_cons,parseFloat_formatFloat c.threshold hfinite]

theorem parseCondition_conditionText_error {o : Char} (ho : o = '>' ∨ o = '<')
    (hop : c.operator.toList=[o, '=']) : parseCondition (conditionText c) =
      .error ("invalid threshold: "++String.ofList ('=' :: ' ' :: formatFloat c.threshold)) := by
  have hsplit:=findSubmatch_conditionPattern (o := [o]) []
    ('=' :: ' ' :: formatFloat c.threshold) (mt String.toList_eq_nil_iff.mp hmetric)
    hnospace (by rcases ho with rfl | rfl <;> decide) (by simp) (by simp) (by simp [whitespace])
    (by
      intro x hx
      simp only [mem_cons] at hx
      rcases hx with rfl | rfl | hx
      · decide
      · decide
      · exact formatFloat_notNewline _ x hx)
  have hread : parseFloat ('=' :: ' ' :: formatFloat c.threshold)=.error .syntaxError := rfl
  have htext : (conditionText c).toList =
      c.metric.toList++([' ']++([o]++([]++('=' :: ' ' :: formatFloat c.threshold)))) := by
    rw [conditionText_toList,hop]
    rfl
  rw [parseCondition,htext,hsplit]
  simp [hread]

end

theorem foldl_addNotifier_rules (hooks : List AlertNotify) (e : Engine) :
    (hooks.foldl (fun e n => e.addNotifier ⟨n.url,n.headers⟩) e).rules=e.rules := by
  induction hooks generalizing e with
  | nil => rfl
  | cons n hooks ih => exact ih _

theorem alertEngine_rules {cfg : AlertingConfig} {e : Engine} (h : alertEngine cfg=some e) :
    e.rules=(newEngine ((cfg.rules.getD []).map ruleConfig)).rules := by
  simp only [alertEngine] at h
  split at h
  · cases h
    exact foldl_addNotifier_rules _ _
  · cases h

def installed (r : AlertRule) : EvaluatedRule :=
  newRule (ruleConfig r) ⟨r.condition.metric,r.condition.operator,r.condition.threshold⟩

theorem installed_mem {cfg : AlertingConfig} {e : Engine} {r : AlertRule}
    (he : alertEngine cfg=some e) (hr : r∈cfg.rules.getD [])
    (hparse : parseCondition (conditionText r.condition) =
      .ok ⟨r.condition.metric,r.condition.operator,r.condition.threshold⟩) : installed r∈e.rules := by
  rw [alertEngine_rules he,newEngine,mem_filterMap]
  refine ⟨ruleConfig r,mem_map_of_mem hr,?_⟩
  have hcond : (ruleConfig r).condition=conditionText r.condition := rfl
  rw [hcond,hparse]
  rfl

theorem validate_alertRule {cfg : Config} {r : AlertRule} (hv : cfg.validate=none)
    (hen : cfg.alerting.enabled) (hr : r∈cfg.alerting.rules.getD []) :
    r.condition.metric≠"" ∧ r.condition.operator∈Config.validOps := by
  obtain ⟨i,hi,rfl⟩ := mem_iff_getElem.mp hr
  have hchecks:=(Config.validate_eq_none cfg).mp hv
  have hmem : ∀ k∈Config.checkAlertRule ((cfg.alerting.rules.getD []).get ⟨i,hi⟩) i,
      k∈cfg.checks := by
    intro k hk
    have hrules : k∈cfg.checkAlerting := by
      rw [Config.checkAlerting,if_pos hen,mem_flatMap]
      exact ⟨(_,i),mk_mem_zipIdx_iff_getElem?.mpr (getElem?_eq_getElem hi),hk⟩
    simp [Config.checks,hrules]
  have hmetric:=hchecks _ (hmem _ (mem_cons_of_mem _ mem_cons_self))
  have hop:=hchecks _ (hmem _ (mem_cons_of_mem _ (mem_cons_of_mem _ mem_cons_self)))
  simp only [Bool.not_eq_false',contains_iff_mem,beq_eq_false_iff_ne] at hmetric hop
  exact ⟨hmetric,hop⟩

/-- A rule reaches the engine as configured unless its operator begins with another operator. -/
theorem alertRule_installed_iff (cfg : Config) (r : AlertRule) (hv : cfg.validate=none)
    (hen : cfg.alerting.enabled=true) (hr : r∈cfg.alerting.rules.getD [])
    (hnospace : ∀ c∈r.condition.metric.toList, nonWhitespace c=true)
    (hfinite : r.condition.threshold.isFinite=true) : (parseCondition (conditionText r.condition) =
        .ok ⟨r.condition.metric,r.condition.operator,r.condition.threshold⟩ ∧
      ∃ e, alertEngine cfg.alerting=some e ∧ installed r∈e.rules) ↔
    r.condition.operator≠">=" ∧ r.condition.operator≠"<=" := by
  obtain ⟨hmetric,hop⟩ := validate_alertRule hv hen hr
  have hengine : ∃ e, alertEngine cfg.alerting=some e := by simp [alertEngine,hen]
  obtain ⟨e,he⟩ := hengine
  have hwhole:=parseCondition_conditionText r.condition hmetric hnospace hfinite
  have hcut:=fun o => parseCondition_conditionText_error r.condition hmetric hnospace (o := o)
  simp only [Config.validOps,mem_cons,not_mem_nil,or_false] at hop
  generalize hop' : r.condition.operator=op at hop hwhole hcut ⊢
  constructor
  · rintro ⟨hparse,-⟩
    constructor
    · rintro rfl
      rw [hcut _ (.inl rfl) rfl] at hparse
      cases hparse
    · rintro rfl
      rw [hcut _ (.inr rfl) rfl] at hparse
      cases hparse
  · rintro ⟨hge,hle⟩
    have htaken : op.toList∈[['>'],['<'],['=', '='],['!', '=']] := by
      rcases hop with rfl | rfl | rfl | rfl | rfl | rfl
      · decide
      · decide
      · exact absurd rfl hge
      · exact absurd rfl hle
      · decide
      · decide
    have hparse:=hwhole htaken
    exact ⟨hparse,e,he,installed_mem he hr (hop' ▸ hparse)⟩

def cpuRule (op : String) : AlertRule :=
  ⟨"cpu",⟨"cpu_usage_percent",op,⟨0x4054000000000000#64⟩,"5m"⟩,"critical",none⟩
def cpuAlert (op : String) : Config :=
  {Config.plain with alerting := ⟨true,some [cpuRule op]⟩}

theorem alertRule_installed_cpu : parseCondition (conditionText (cpuRule ">").condition) =
        .ok ⟨"cpu_usage_percent",">",⟨0x4054000000000000#64⟩⟩ ∧
      ∃ e, alertEngine (cpuAlert ">").alerting=some e ∧ installed (cpuRule ">")∈e.rules :=
  (alertRule_installed_iff (cpuAlert ">") (cpuRule ">") (by decide) rfl mem_cons_self
    (all_eq_true.mp (by decide)) (by decide)).mpr ⟨by decide,by decide⟩

/-- The rule `cpu_usage_percent >= 80` is valid and is dropped. -/
theorem alertRule_atLeast_dropped :
    (cpuAlert ">=").validate=none ∧ (cpuAlert ">=").alerting.rules=some [cpuRule ">="] ∧
    (∀ c∈(cpuRule ">=").condition.metric.toList, nonWhitespace c=true) ∧
    (cpuRule ">=").condition.threshold.isFinite=true ∧
    parseCondition (conditionText (cpuRule ">=").condition) ≠
      .ok ⟨"cpu_usage_percent",">=",⟨0x4054000000000000#64⟩⟩ ∧
    (alertEngine (cpuAlert ">=").alerting).map Engine.rules=some [] := by
  have hnospace : ∀ c∈(cpuRule ">=").condition.metric.toList, nonWhitespace c=true :=
    all_eq_true.mp (by decide)
  have hparse:=parseCondition_conditionText_error (cpuRule ">=").condition (by decide) hnospace
    (o := '>') (.inl rfl) rfl
  refine ⟨by decide,rfl,hnospace,by decide,?_,?_⟩
  · rw [hparse]
    exact fun h => by cases h
  · obtain ⟨e,he⟩ : ∃ e, alertEngine (cpuAlert ">=").alerting=some e := ⟨_,rfl⟩
    rw [he,Option.map_some,alertEngine_rules he,newEngine]
    have hcond : (ruleConfig (cpuRule ">=")).condition=conditionText (cpuRule ">=").condition := rfl
    simp [cpuAlert,hcond,hparse]

end OpsAgent.Alerting
