import Mathlib.Data.List.Induction
import Mathlib.Data.String.Basic
import OpsAgent.Lib.SetIndex

/-!
# Grouping of leaf agents (`federation/group.go`, `federation/leaf_state.go`)

A leaf is passed by pointer in the source; here `UpdateLeaf` stores the leaf that it is given, with
its groups set.
-/

namespace OpsAgent.Federation
open Lib List Option SetIndex

abbrev Labels := SortedMap String String

inductive LeafStatus where
  | online | offline | degraded

structure LeafState where
  (agentID hostname ip version : String)
  (labels autoLabels : Labels)
  groups : List String
  lastSeen : Int
  status : LeafStatus
  configVersion : String

def LeafState.allLabels (ls : LeafState) : Labels :=
  (SortedMap.empty.copy ls.autoLabels).copy ls.labels

structure GroupRule where
  name : String
  matchLabels : Labels

def matchesAll (labels matchLabels : Labels) : Bool :=
  matchLabels.entries.all fun e => (labels.get? e.1).getD "" == e.2

structure GroupEngine where
  rules : List GroupRule
  leafStates : SortedMap String LeafState
  groupIndex : SetIndex String String

namespace GroupEngine

def new (rules : List GroupRule) : GroupEngine := ⟨rules,.empty,.empty⟩
def evaluate (ge : GroupEngine) (leaf : LeafState) : List String :=
  let allLabels:=leaf.allLabels
  ge.rules.filterMap fun rule =>
    if matchesAll allLabels rule.matchLabels then some rule.name else none
def leafGroups (ge : GroupEngine) (agentID : String) : List String := ge.groupIndex.keysOf agentID

def updateLeaf (ge : GroupEngine) (leaf : LeafState) : GroupEngine :=
  let oldGroups:=ge.leafGroups leaf.agentID
  let newGroups:=ge.evaluate leaf
  let left:=(oldGroups.filter fun g => !newGroups.contains g).foldl
    (fun idx g => idx.removeMember g leaf.agentID) ge.groupIndex
  let joined:=newGroups.foldl (fun idx g => idx.addMember g leaf.agentID) left
  { ge with
    groupIndex := joined
    leafStates := ge.leafStates.insert leaf.agentID {leaf with groups := newGroups} }

def removeLeaf (ge : GroupEngine) (agentID : String) : GroupEngine :=
  match ge.leafStates.get? agentID with
  | none => ge
  | some leaf =>
    { ge with
      groupIndex := leaf.groups.foldl (fun idx g => idx.removeMember g agentID) ge.groupIndex
      leafStates := ge.leafStates.erase agentID}

def getGroupMembers (ge : GroupEngine) (groupName : String) : List String :=
  ((ge.groupIndex.get? groupName).getD .empty).keys

end GroupEngine

inductive GroupCall where
  | updateLeaf (leaf : LeafState)
  | removeLeaf (agentID : String)

namespace GroupCall

def agentID : GroupCall → String
  | .updateLeaf leaf => leaf.agentID
  | .removeLeaf agentID => agentID
def leaf? : GroupCall → Option LeafState
  | .updateLeaf leaf => some leaf
  | .removeLeaf _ => none
def apply (ge : GroupEngine) : GroupCall → GroupEngine
  | .updateLeaf leaf => ge.updateLeaf leaf
  | .removeLeaf agentID => ge.removeLeaf agentID

end GroupCall

def supplied (calls : List GroupCall) (agentID : String) : Option LeafState :=
  (calls.reverse.find? fun c => c.agentID=agentID).bind GroupCall.leaf?
def RuleMatches (rule : GroupRule) (labels : Labels) : Prop :=
  ∀ k v, rule.matchLabels.get? k=some v → (labels.get? k).getD ""=v

structure GroupsExact (known : String → Option LeafState) (ge : GroupEngine) : Prop where
  members : ∀ g a, a∈ge.getGroupMembers g ↔
    ∃ leaf, known a=some leaf ∧ ∃ r∈ge.rules, r.name=g ∧ RuleMatches r leaf.allLabels
  nonempty : ∀ g ms, ge.groupIndex.get? g=some ms → ms.keys≠[]
  leaves : ∀ a, ge.leafStates.get? a =
    (known a).map fun leaf => {leaf with groups := ge.evaluate leaf}
  groups : ∀ a leaf, ge.leafStates.get? a=some leaf →
    ∀ g, g∈leaf.groups ↔ a∈ge.getGroupMembers g

theorem matchesAll_iff (rule : GroupRule) (labels : Labels) :
    matchesAll labels rule.matchLabels ↔ RuleMatches rule labels := by
  simp [matchesAll,Prod.forall,SortedMap.mem_entries,RuleMatches]

theorem supplied_append (calls : List GroupCall) (c : GroupCall) (a : String) :
    supplied (calls++[c]) a = if c.agentID=a then c.leaf? else supplied calls a := by
  rw [supplied,reverse_append,reverse_singleton,singleton_append,find?_cons]
  by_cases h : c.agentID=a <;> simp [h,supplied]

namespace GroupEngine

theorem mem_evaluate (ge : GroupEngine) (leaf : LeafState) (g : String) :
    g∈ge.evaluate leaf ↔ ∃ r∈ge.rules, r.name=g ∧ RuleMatches r leaf.allLabels := by
  simp only [evaluate,mem_filterMap,ite_none_right_eq_some,some.injEq,matchesAll_iff]
  constructor
  · intro ⟨r,hr,hm,hn⟩
    exact ⟨r,hr,hn,hm⟩
  · intro ⟨r,hr,hn,hm⟩
    exact ⟨r,hr,hm,hn⟩

theorem updateLeaf_holds (ge : GroupEngine) (leaf : LeafState) (g a : String) :
    (ge.updateLeaf leaf).groupIndex.Holds g a ↔
      if a=leaf.agentID then g∈ge.evaluate leaf else ge.groupIndex.Holds g a := by
  have hmem : g∈ge.groupIndex.keysOf leaf.agentID ↔ ge.groupIndex.Holds g leaf.agentID :=
    mem_keysOf
  simp only [updateLeaf,leafGroups,holds_foldl_addMember,
    holds_foldl_removeMember,mem_filter,hmem,Bool.not_eq_true',
    contains_eq_mem,decide_eq_false_iff_not]
  by_cases ha : a=leaf.agentID
  · subst ha
    simp only [if_true,and_true]
    tauto
  · simp [ha]

theorem removeLeaf_holds {ge : GroupEngine} {agentID : String} {leaf : LeafState}
    (h : ge.leafStates.get? agentID=some leaf) (g a : String) :
    (ge.removeLeaf agentID).groupIndex.Holds g a ↔
      ¬(g∈leaf.groups ∧ a=agentID) ∧ ge.groupIndex.Holds g a := by
  simp only [removeLeaf,h]
  exact holds_foldl_removeMember leaf.groups ge.groupIndex g agentID a

end GroupEngine

structure Indexed (known : String → Option LeafState) (ge : GroupEngine) : Prop where
  clean : SetIndex.Clean ge.groupIndex
  holds : ∀ g a, ge.groupIndex.Holds g a ↔ ∃ leaf, known a=some leaf ∧ g∈ge.evaluate leaf
  leaves : ∀ a, ge.leafStates.get? a =
    (known a).map fun leaf => {leaf with groups := ge.evaluate leaf}

variable {known : String → Option LeafState} {ge : GroupEngine} {known' : String → Option LeafState}

theorem Indexed.updateLeaf (h : Indexed known ge) (leaf : LeafState)
    (hk : ∀ a, known' a = if leaf.agentID=a then some leaf else known a) :
    Indexed known' (ge.updateLeaf leaf) := by
  have heval (l : LeafState) : (ge.updateLeaf leaf).evaluate l=ge.evaluate l := rfl
  refine ⟨?_,fun g a => ?_,fun a => ?_⟩
  · exact clean_foldl_addMember _ (clean_foldl_removeMember _ h.clean _) _
  · rw [GroupEngine.updateLeaf_holds,h.holds,hk]
    by_cases ha : a=leaf.agentID
    · simp [ha,heval]
    · simp [ha,Ne.symm ha,heval]
  · have hget : (ge.updateLeaf leaf).leafStates.get? a=_ :=
      SortedMap.get?_insert ge.leafStates leaf.agentID a {leaf with groups := ge.evaluate leaf}
    rw [hget,h.leaves,hk]
    by_cases ha : a=leaf.agentID
    · simp [ha,heval]
    · simp [ha,Ne.symm ha,heval]

theorem Indexed.removeLeaf (h : Indexed known ge) (agentID : String)
    (hk : ∀ a, known' a = if agentID=a then none else known a) :
    Indexed known' (ge.removeLeaf agentID) := by
  cases hleaf : ge.leafStates.get? agentID with
  | none =>
    have hknown : known agentID=none := by
      have hl:=h.leaves agentID
      rw [hleaf] at hl
      exact map_eq_none_iff.mp hl.symm
    have heq : known' = known := by
      funext a
      rw [hk]
      by_cases ha : agentID=a
      · simp [← ha,hknown]
      · simp [ha]
    rw [heq,GroupEngine.removeLeaf,hleaf]
    exact h
  | some leaf =>
    obtain ⟨l,hl,hgroups⟩ := map_eq_some_iff.mp ((h.leaves agentID).symm.trans hleaf)
    have hstate : ge.removeLeaf agentID =
        { ge with
          groupIndex := leaf.groups.foldl (fun idx g => idx.removeMember g agentID) ge.groupIndex
          leafStates := ge.leafStates.erase agentID} := by simp only [GroupEngine.removeLeaf,hleaf]
    have heval (x : LeafState) : (ge.removeLeaf agentID).evaluate x=ge.evaluate x := by
      rw [hstate]
      rfl
    refine ⟨?_,fun g a => ?_,fun a => ?_⟩
    · rw [hstate]
      exact clean_foldl_removeMember _ h.clean _
    · rw [GroupEngine.removeLeaf_holds hleaf,h.holds,hk,← hgroups]
      by_cases ha : agentID=a
      · subst ha
        simp [hl]
      · simp [ha,Ne.symm ha,heval]
    · rw [hstate]
      change (ge.leafStates.erase agentID).get? a=_
      rw [SortedMap.get?_erase,h.leaves,hk]
      by_cases ha : agentID=a
      · simp [ha]
      · simp only [Ne.symm ha,ha,if_false]
        rfl

theorem indexed_run (rules : List GroupRule) (calls : List GroupCall) :
    Indexed (supplied calls) (calls.foldl GroupCall.apply (.new rules)) := by
  induction calls using List.reverseRecOn with
  | nil => exact ⟨clean_empty,fun g a => by simp [supplied,GroupEngine.new,
      not_holds_empty],fun a => rfl⟩
  | append_singleton calls c ih =>
    rw [foldl_append]
    cases c with
    | updateLeaf leaf => exact ih.updateLeaf leaf fun a => supplied_append calls _ a
    | removeLeaf agentID => exact ih.removeLeaf agentID fun a => supplied_append calls _ a

theorem rules_apply (ge : GroupEngine) (c : GroupCall) : (c.apply ge).rules=ge.rules := by
  cases c with
  | updateLeaf leaf => rfl
  | removeLeaf agentID =>
    simp only [GroupCall.apply,GroupEngine.removeLeaf]
    split <;> rfl

theorem Indexed.members_iff (h : Indexed known ge) (g a : String) :
    a∈ge.getGroupMembers g ↔ ∃ leaf, known a=some leaf ∧ g∈ge.evaluate leaf := by
  rw [GroupEngine.getGroupMembers,mem_keys_iff_holds h.clean,h.holds]

theorem Indexed.exact
    (h : Indexed known ge) : GroupsExact known ge where
  members g a := by simp only [h.members_iff,GroupEngine.mem_evaluate]
  nonempty g ms hms := by
    intro hkeys
    have hnil : ms.entries=[] := map_eq_nil_iff.mp hkeys
    exact h.clean.nonempty g ms hms (by rw [SortedMap.size,hnil,length_nil])
  leaves := h.leaves
  groups a leaf hleaf g := by
    obtain ⟨l,hl,hgroups⟩ := map_eq_some_iff.mp ((h.leaves a).symm.trans hleaf)
    rw [h.members_iff,← hgroups]
    simp [hl]

/-- After any calls the index holds exactly the agents whose last supplied labels match. -/
theorem groups_exact_of_calls (rules : List GroupRule) (calls : List GroupCall) :
    GroupsExact (supplied calls) (calls.foldl GroupCall.apply (.new rules)) ∧
      (calls.foldl GroupCall.apply (.new rules)).rules=rules := by
  refine ⟨(indexed_run rules calls).exact,?_⟩
  induction calls using List.reverseRecOn with
  | nil => rfl
  | append_singleton calls c ih =>
    rw [foldl_append]
    exact (rules_apply _ c).trans ih

end OpsAgent.Federation
