import Mathlib.Data.Rat.Floor
import OpsAgent.Config.Diff

/-!
# Canary rollouts (`federation/canary.go`)

The share of the agents is computed with rational numbers instead of `float64`; `math.Round` rounds
a half away from zero.
-/

namespace OpsAgent.Federation
open List Option

structure CanaryStage where
  (percentage waitSeconds : Int)
  autoRollback : Bool

structure CanaryStrategy where
  stages : List CanaryStage

def canaryStage (c : CanaryStageConfig) : CanaryStage :=
  ⟨c.percentage,c.waitSeconds,c.autoRollback⟩

namespace CanaryStrategy

/- `NewCanaryStrategy` of the stages of a configuration. -/
def ofConfig (stages : List CanaryStageConfig) : CanaryStrategy := ⟨stages.map canaryStage⟩
def totalStages (cs : CanaryStrategy) : Int := cs.stages.length

def getStage (cs : CanaryStrategy) (index : Int) : Except String CanaryStage :=
  match if index<0 then none else cs.stages[index.toNat]? with
  | some stage => .ok stage
  | none => .error ("stage index "++toString index++" out of range [0, " ++
      toString cs.totalStages++")")

def round (x : ℚ) : ℤ := if x<0 then -⌊-x+1 / 2⌋ else ⌊x+1 / 2⌋

def stageCount (total : Nat) (percentage : Int) : Nat :=
  let count : Int := round (total*percentage / 100)
  let count : Int := if count≤0 then 1 else count
  let count : Int := if count > total then total else count
  count.toNat

def selectSubset (cs : CanaryStrategy) (agents : List String) (stageIndex : Int) :
    Except String (List String) :=
  match cs.getStage stageIndex with
  | .error err => .error err
  | .ok stage =>
    if agents.length=0 then .ok [] else .ok (agents.take (stageCount agents.length stage.percentage))

theorem round_mono {x y : ℚ} (h0 : 0≤x) (h : x≤y) : round x≤round y := by
  unfold round
  rw [if_neg (not_lt.mpr h0),if_neg (not_lt.mpr (h0.trans h))]
  exact Int.floor_mono (by linarith)

theorem round_natCast (n : Nat) : round n=n := by
  unfold round
  rw [if_neg (not_lt.mpr (Nat.cast_nonneg n)),Int.floor_eq_iff]
  constructor
  · push_cast
    linarith
  · push_cast
    linarith

theorem stageCount_mono (total : Nat) {p q : Int} (hp : 0≤p) (hpq : p≤q) :
    stageCount total p ≤ stageCount total q := by
  have hp' : (0 : ℚ)≤p := by exact_mod_cast hp
  have hpq' : (p : ℚ)≤q := by exact_mod_cast hpq
  have htotal : (0 : ℚ)≤total := Nat.cast_nonneg total
  have hround : round (total*p / 100)≤round (total*q / 100) := by
    refine round_mono (by positivity) ?_
    have hmul:=mul_le_mul_of_nonneg_left hpq' htotal
    linarith
  unfold stageCount
  dsimp only
  split_ifs <;> omega

theorem stageCount_bounds {total : Nat} (ht : total≠0) (p : Int) :
    1 ≤ stageCount total p ∧ stageCount total p≤total := by
  unfold stageCount
  dsimp only
  split_ifs <;> omega

theorem stageCount_hundred (total : Nat) : stageCount total 100=total := by
  have hall : round (total*(100 : Int) / 100)=total := by
    rw [← round_natCast total]
    congr 1
    push_cast
    linarith
  unfold stageCount
  rw [hall]
  dsimp only
  split_ifs <;> omega

theorem checkStages_ok {prev : Option CanaryStageConfig} {stages : List CanaryStageConfig} {i : Nat}
    (h : ∀ k∈Config.checkStages prev stages i, k.failed=false) :
    (∀ s∈stages, 0<s.percentage ∧ ∀ p∈prev, p.percentage<s.percentage) ∧
      stages.Pairwise fun s t => s.percentage<t.percentage := by
  induction stages generalizing prev i with
  | nil => exact ⟨fun s hs => absurd hs not_mem_nil,List.Pairwise.nil⟩
  | cons stage stages ih =>
    simp only [Config.checkStages,forall_mem_cons,Bool.or_eq_false_iff,
      decide_eq_false_iff_not,Option.any_eq_false] at h
    obtain ⟨⟨hpos,-⟩,hprev,hrest⟩ := h
    obtain ⟨hall,hpair⟩ := ih hrest
    have hstage : ∀ p∈prev, p.percentage<stage.percentage := by
      intro p hp
      have hp' := hprev p hp
      omega
    refine ⟨fun s hs => ?_,pairwise_cons.mpr ⟨fun s hs => (hall s hs).2 stage rfl,hpair⟩⟩
    rcases mem_cons.mp hs with rfl | hs
    · exact ⟨by omega,hstage⟩
    · have hlt:=(hall s hs).2 stage rfl
      exact ⟨(hall s hs).1,fun p hp => by have := hstage p hp; omega⟩

theorem checkStages_of_validate {cfg : Config} (hv : cfg.validate=none)
    (hen : cfg.federation.enabled) (hmode : cfg.agent.mode=Config.agentModeHub) :
    ∀ k∈Config.checkStages none cfg.federation.hub.canary.stages 0, k.failed=false := by
  intro k hk
  refine (Config.validate_eq_none cfg).mp hv k ?_
  have hhub : k∈cfg.checkFederation := by
    rw [Config.checkFederation,if_pos hen,hmode,if_pos (beq_self_eq_true _),Config.checkHub]
    simp [hk]
  simp [Config.checks,hhub]

theorem getStage_of_lt (stages : List CanaryStageConfig) {i : Nat} (hi : i<stages.length) :
    (ofConfig stages).getStage i=.ok (canaryStage (stages.get ⟨i,hi⟩)) := by
  have hstage : (ofConfig stages).stages[i]?=some (canaryStage (stages.get ⟨i,hi⟩)) := by
    simp [ofConfig,getElem?_eq_getElem hi]
  rw [getStage,if_neg (by omega),Int.toNat_natCast,hstage]

def chosen (agents : List String) (percentage : Int) : List String :=
  if agents.length=0 then [] else agents.take (stageCount agents.length percentage)

theorem selectSubset_of_lt (stages : List CanaryStageConfig) (agents : List String) {i : Nat}
    (hi : i<stages.length) : (ofConfig stages).selectSubset agents i =
      .ok (chosen agents (stages.get ⟨i,hi⟩).percentage) := by
  rw [selectSubset,getStage_of_lt stages hi,chosen]
  dsimp only
  split <;> rfl

variable (agents : List String)

theorem chosen_initial (p : Int) : chosen agents p <+: agents := by
  unfold chosen
  split
  · exact nil_prefix
  · exact take_prefix _ _

theorem chosen_mono {p q : Int} (hp : 0≤p) (hpq : p≤q) : chosen agents p <+: chosen agents q := by
  unfold chosen
  split
  · exact nil_prefix
  · exact take_prefix_take_left (stageCount_mono _ hp hpq)

theorem chosen_ne_nil {agents : List String} (h : agents≠[]) (p : Int) : chosen agents p≠[] := by
  have hlen : agents.length≠0 := mt length_eq_zero_iff.mp h
  have hone:=(stageCount_bounds hlen p).1
  rw [chosen,if_neg hlen,ne_eq,take_eq_nil_iff]
  rintro (hzero | hnil)
  · omega
  · exact h hnil

theorem chosen_hundred : chosen agents 100=agents := by
  unfold chosen
  split
  next hzero => exact (length_eq_zero_iff.mp hzero).symm
  next => rw [stageCount_hundred,take_length]

/-- The subsets of the stages are growing prefixes of the list of agents, not empty if there are agents,
and all of them at 100 percent. -/
theorem selectSubset_grows (cfg : Config) (hv : cfg.validate=none)
    (hen : cfg.federation.enabled=true) (hmode : cfg.agent.mode=Config.agentModeHub)
    (agents : List String) : ∃ subset : Nat → List String,
      (∀ i : Nat, ∀ stage, cfg.federation.hub.canary.stages[i]?=some stage →
        (ofConfig cfg.federation.hub.canary.stages).selectSubset agents i=.ok (subset i) ∧
        subset i <+: agents ∧ (subset i).length≤agents.length ∧ (agents≠[] → subset i≠[]) ∧
        (stage.percentage=100 → subset i=agents)) ∧
      ∀ i j : Nat, i≤j → j<cfg.federation.hub.canary.stages.length → subset i <+: subset j := by
  obtain ⟨hall,hpair⟩ := checkStages_ok (checkStages_of_validate hv hen hmode)
  generalize cfg.federation.hub.canary.stages=stages at hall hpair ⊢
  refine ⟨fun i => chosen agents ((stages[i]?.map CanaryStageConfig.percentage).getD 0),?_,?_⟩
  · intro i stage hstage
    obtain ⟨hi,rfl⟩ := List.getElem?_eq_some_iff.mp hstage
    rw [selectSubset_of_lt stages agents hi]
    simp only [hstage,map_some,getD_some]
    refine ⟨rfl,chosen_initial agents _,(chosen_initial agents _).length_le,
      fun hne => chosen_ne_nil hne _,fun hpct => ?_⟩
    rw [hpct,chosen_hundred]
  · intro i j hij hj
    have hi : i<stages.length := by omega
    simp only [getElem?_eq_getElem hi,getElem?_eq_getElem hj,map_some,getD_some]
    have hpos:=(hall _ (getElem_mem hi)).1
    refine chosen_mono agents (by omega) ?_
    rcases Nat.lt_or_eq_of_le hij with hlt | rfl
    · have := pairwise_iff_getElem.mp hpair i j hi hj hlt
      omega
    · exact Int.le_refl _

def threeStages : Config :=
  { Config.plain with
    agent := {Config.plain.agent with mode := "hub" }
    federation := { Config.plain.federation with
      enabled := true
      hub := { Config.plain.federation.hub with
        listenAddr := ":7443", region := "eu", maxLeaves := 10, leafHeartbeatTimeoutSeconds := 30
        metricsAggregationIntervalSec := 60
        canary := ⟨"percentage",[⟨5,60,true⟩,⟨50,60,true⟩,⟨100,0,false⟩]⟩} } }

theorem selectSubset_grows_threeStages :
    (ofConfig threeStages.federation.hub.canary.stages).selectSubset ["a","b","c"] 1 = .ok ["a","b"] ∧
      ∃ subset : Nat → List String,
        (∀ i : Nat, ∀ stage, threeStages.federation.hub.canary.stages[i]?=some stage →
          (ofConfig threeStages.federation.hub.canary.stages).selectSubset ["a","b","c"] i =
            .ok (subset i) ∧ subset i <+: ["a","b","c"] ∧ (subset i).length≤["a","b","c"].length ∧
          (["a","b","c"]≠[] → subset i≠[]) ∧ (stage.percentage=100 → subset i=["a","b","c"])) ∧
        ∀ i j : Nat, i≤j → j<threeStages.federation.hub.canary.stages.length → subset i <+: subset j :=
  ⟨by decide +kernel,selectSubset_grows threeStages (by decide) rfl rfl ["a","b","c"]⟩

end CanaryStrategy
end OpsAgent.Federation
