import OpsAgent.Federation.ConfigDistributor

/-!
# The federation hub (`federation/server.go`, `federation/hub.go`)

`Register` and `Heartbeat` hold the lock all the while, so a run is a sequence of calls. The tables
of the server and of the group engine hold the same pointer for an agent.
-/

namespace OpsAgent.Federation
open Lib SortedMap

variable {β : Type}

structure FedAgentRegistration where
  (agentId hostname ip version : String)
  (labels autoLabels : Labels)

structure FedRegisterResponse where
  accepted : Bool
  assignedRegion : String
  assignedGroups : List String
  (configVersion rejectionReason : String)
  deriving DecidableEq

structure FedHeartbeatRequest where
  agentId : String
  labels : Labels

structure FedHeartbeatResponse where
  ok : Bool
  configVersion : String
  configUpdateAvailable : Bool
  deriving DecidableEq

structure HubServer (β : Type) where
  region : String
  maxLeaves : Int
  engine : GroupEngine
  levels : ConfigLevels β
  leaves : SortedMap String LeafState
  configPushCh : SortedMap String Nat

namespace HubServer

def new (region : String) (maxLeaves : Int) (rules : List GroupRule) (levels : ConfigLevels β) :
    HubServer β :=
  ⟨region,maxLeaves,.new rules,levels,.empty,.empty⟩

/- `configVersion, _ := GetConfigVersion(…)` -/
def configVersion (D : Digest β) (s : HubServer β) (agentID : String) (groups : List String) :
    String :=
  match getConfigVersion D s.levels agentID s.region groups with
  | .ok version => version
  | .error _ => ""

def setLeaf (s : HubServer β) (leaf : LeafState) : HubServer β :=
  { s with
    leaves := s.leaves.insert leaf.agentID leaf
    engine := {s.engine with leafStates := s.engine.leafStates.insert leaf.agentID leaf} }

def register (D : Digest β) (s : HubServer β) (req : FedAgentRegistration) (now : Int) :
    HubServer β × FedRegisterResponse :=
  if (s.leaves.size : Int) ≥ s.maxLeaves then
    (s,⟨false,"",[],"","hub capacity full ("++toString s.leaves.size++"/" ++
      toString s.maxLeaves++")"⟩)
  else
    let leaf : LeafState := ⟨req.agentId,req.hostname,req.ip,req.version,req.labels,
      req.autoLabels,[],now,.online,""⟩
    let groups:=s.engine.evaluate leaf
    let leaf := {leaf with groups}
    let s := {s with engine := s.engine.updateLeaf leaf}
    let version:=s.configVersion D req.agentId groups
    let s:=s.setLeaf {leaf with configVersion := version}
    ({s with configPushCh := s.configPushCh.insert req.agentId 10},
      ⟨true,s.region,groups,version,""⟩)

def heartbeat (D : Digest β) (s : HubServer β) (req : FedHeartbeatRequest) (now : Int) :
    HubServer β × FedHeartbeatResponse :=
  match s.leaves.get? req.agentId with
  | none => (s,⟨false,"",false⟩)
  | some leaf =>
    let leaf := {leaf with lastSeen := now, status := .online}
    let (engine,leaf) :=
      if req.labels.size > 0 then
        let leaf := {leaf with labels := req.labels}
        (s.engine.updateLeaf leaf,{leaf with groups := s.engine.evaluate leaf})
      else (s.engine,leaf)
    let s := {s with engine}.setLeaf leaf
    let version:=s.configVersion D req.agentId leaf.groups
    (s,⟨true,version,version != leaf.configVersion⟩)

def updateLevels (s : HubServer β) (levels : ConfigLevels β) : HubServer β := {s with levels}

end HubServer

inductive HubCall (β : Type) where
  | register (req : FedAgentRegistration) (now : Int)
  | heartbeat (req : FedHeartbeatRequest) (now : Int)
  | updateLevels (levels : ConfigLevels β)

structure Returned where
  (agentID version : String)
  byRegistration : Bool

structure Session (β : Type) where
  hub : HubServer β
  returned : List Returned

namespace Session

def call (D : Digest β) (σ : Session β) : HubCall β → Session β
  | .register req now =>
    let r:=σ.hub.register D req now
    ⟨r.1,if r.2.accepted then ⟨req.agentId,r.2.configVersion,true⟩::σ.returned
      else σ.returned⟩
  | .heartbeat req now =>
    let r:=σ.hub.heartbeat D req now
    ⟨r.1,if r.2.ok then ⟨req.agentId,r.2.configVersion,false⟩::σ.returned else σ.returned⟩
  | .updateLevels levels => ⟨σ.hub.updateLevels levels,σ.returned⟩

def start (hub : HubServer β) : Session β := ⟨hub,[]⟩
def run (D : Digest β) (σ : Session β) (calls : List (HubCall β)) : Session β :=
  calls.foldl (call D) σ
def lastVersion (σ : Session β) (agentID : String) : Option String :=
  (σ.returned.find? fun r => r.agentID=agentID).map Returned.version
def registeredVersion (σ : Session β) (agentID : String) : Option String :=
  (σ.returned.find? fun r => r.agentID=agentID&&r.byRegistration).map Returned.version

end Session

namespace HubServer

variable (D : Digest β) (s : HubServer β) (leaf : LeafState)

@[simp] theorem setLeaf_leafStates :
    (s.setLeaf leaf).engine.leafStates=s.engine.leafStates.insert leaf.agentID leaf := rfl

variable {s : HubServer β} {req : FedHeartbeatRequest}

theorem register_full (h : (s.leaves.size : Int) ≥ s.maxLeaves)
    (req : FedAgentRegistration) (now : Int) :
    (s.register D req now).1=s ∧ (s.register D req now).2.accepted=false := by
  rw [register,if_pos h]
  exact ⟨rfl,rfl⟩

def registeredLeaf (req : FedAgentRegistration) (now : Int) : LeafState :=
  let leaf : LeafState := ⟨req.agentId,req.hostname,req.ip,req.version,req.labels,
    req.autoLabels,[],now,.online,""⟩
  { leaf with
    groups := s.engine.evaluate leaf
    configVersion := s.configVersion D req.agentId (s.engine.evaluate leaf)}

theorem register_accepted (h : ¬(s.leaves.size : Int) ≥ s.maxLeaves)
    (req : FedAgentRegistration) (now : Int) : (s.register D req now).1.leaves =
        s.leaves.insert req.agentId (s.registeredLeaf D req now) ∧
      (∃ leaf, (s.register D req now).1.engine.leafStates =
        (s.engine.leafStates.insert req.agentId leaf).insert req.agentId (s.registeredLeaf D req now)) ∧
      (s.register D req now).1.configPushCh=s.configPushCh.insert req.agentId 10 ∧
      (s.register D req now).1.maxLeaves=s.maxLeaves ∧ (s.register D req now).2.accepted ∧
      (s.register D req now).2.configVersion=(s.registeredLeaf D req now).configVersion := by
  rw [register,if_neg h]
  exact ⟨rfl,⟨_,rfl⟩,rfl,rfl,rfl,rfl⟩

theorem heartbeat_unknown
    (h : s.leaves.get? req.agentId=none) (now : Int) : s.heartbeat D req now=(s,⟨false,"",false⟩) := by
  rw [heartbeat,h]

def refreshedLeaf (leaf : LeafState) (req : FedHeartbeatRequest) (now : Int) : LeafState :=
  let leaf := {leaf with lastSeen := now, status := .online}
  if req.labels.size > 0 then
    let leaf := {leaf with labels := req.labels}
    {leaf with groups := s.engine.evaluate leaf}
  else leaf

theorem refreshedLeaf_agentID (req : FedHeartbeatRequest) (now : Int) :
    (s.refreshedLeaf leaf req now).agentID=leaf.agentID := by
  rw [refreshedLeaf]
  split <;> rfl
theorem refreshedLeaf_configVersion (req : FedHeartbeatRequest) (now : Int) :
    (s.refreshedLeaf leaf req now).configVersion=leaf.configVersion := by
  rw [refreshedLeaf]
  split <;> rfl

theorem heartbeat_known {leaf : LeafState}
    (h : s.leaves.get? req.agentId=some leaf) (now : Int) : (s.heartbeat D req now).1.leaves =
        s.leaves.insert leaf.agentID (s.refreshedLeaf leaf req now) ∧
      (∀ a, ((s.heartbeat D req now).1.engine.leafStates.get? a).isSome =
        (decide (a=leaf.agentID)||(s.engine.leafStates.get? a).isSome)) ∧
      (s.heartbeat D req now).1.configPushCh=s.configPushCh ∧
      (s.heartbeat D req now).1.maxLeaves=s.maxLeaves ∧ (s.heartbeat D req now).2 =
        ⟨true,s.configVersion D req.agentId (s.refreshedLeaf leaf req now).groups,
          s.configVersion D req.agentId (s.refreshedLeaf leaf req now).groups !=
            leaf.configVersion⟩ := by
  rw [heartbeat,h,refreshedLeaf]
  by_cases hl : req.labels.size > 0
  · simp only [if_pos hl]
    refine ⟨rfl,fun a => ?_,rfl,rfl,rfl⟩
    rw [setLeaf_leafStates,isSome_get?_insert]
    have hup:=isSome_get?_insert s.engine.leafStates leaf.agentID a
    by_cases ha : a=leaf.agentID
    · simp [ha]
    · simp only [ha,decide_false,Bool.false_or] at hup ⊢
      exact hup _
  · simp only [if_neg hl]
    refine ⟨rfl,fun a => ?_,rfl,rfl,rfl⟩
    rw [setLeaf_leafStates,isSome_get?_insert]

end HubServer

structure TablesAgree (s : HubServer β) : Prop where
  size : s.leaves.size ≤ s.maxLeaves.toNat
  engine : ∀ a, (s.leaves.get? a).isSome=(s.engine.leafStates.get? a).isSome
  channels : ∀ a, (s.leaves.get? a).isSome=(s.configPushCh.get? a).isSome
  self : ∀ a leaf, s.leaves.get? a=some leaf → leaf.agentID=a

theorem tablesAgree_new (region : String) (maxLeaves : Int) (rules : List GroupRule)
    (levels : ConfigLevels β) : TablesAgree (HubServer.new region maxLeaves rules levels) where
  size := Nat.zero_le _
  engine _ := rfl
  channels _ := rfl
  self a leaf h := by cases h

theorem TablesAgree.register (D : Digest β) {s : HubServer β} (h : TablesAgree s)
    (req : FedAgentRegistration) (now : Int) : TablesAgree (s.register D req now).1 := by
  by_cases hfull : (s.leaves.size : Int) ≥ s.maxLeaves
  · rw [(HubServer.register_full D hfull req now).1]
    exact h
  obtain ⟨hl,⟨leaf,he⟩,hc,hm,-,-⟩ := HubServer.register_accepted D hfull req now
  refine ⟨?_,fun a => ?_,fun a => ?_,fun a leaf' ha => ?_⟩
  · rw [hl,hm,size_insert]
    have hsize:=h.size
    split <;> omega
  · rw [hl,he]
    simp only [isSome_get?_insert,h.engine]
    cases decide (a=req.agentId) <;> simp
  · rw [hl,hc]
    simp only [isSome_get?_insert,h.channels]
  · rw [hl,SortedMap.get?_insert] at ha
    split at ha
    case isTrue heq =>
      cases ha
      exact heq.symm
    case isFalse => exact h.self a leaf' ha

theorem TablesAgree.heartbeat (D : Digest β) {s : HubServer β} (h : TablesAgree s)
    (req : FedHeartbeatRequest) (now : Int) : TablesAgree (s.heartbeat D req now).1 := by
  cases hget : s.leaves.get? req.agentId with
  | none =>
    rw [HubServer.heartbeat_unknown D hget]
    exact h
  | some leaf =>
    obtain ⟨hl,he,hc,hm,-⟩ := HubServer.heartbeat_known D hget now
    have hid:=h.self _ _ hget
    have hknown (a : String) (ha : a=leaf.agentID) : (s.leaves.get? a).isSome := by
      rw [ha,hid,hget]
      rfl
    have hleaves (a : String) :
        ((s.heartbeat D req now).1.leaves.get? a).isSome=(s.leaves.get? a).isSome := by
      rw [hl,isSome_get?_insert]
      by_cases ha : a=leaf.agentID
      · simp [hknown a ha]
      · simp [ha]
    refine ⟨?_,fun a => ?_,fun a => ?_,fun a leaf' ha => ?_⟩
    · rw [hl,hm,size_insert,if_pos (hknown _ rfl)]
      exact h.size
    · rw [hleaves,he,← h.engine]
      by_cases ha : a=leaf.agentID
      · simp [hknown a ha]
      · simp [ha]
    · rw [hleaves,hc,h.channels]
    · rw [hl,SortedMap.get?_insert] at ha
      split at ha
      case isTrue heq =>
        cases ha
        rw [HubServer.refreshedLeaf_agentID,heq]
      case isFalse => exact h.self a leaf' ha

variable {σ : Session β}

theorem TablesAgree.call (D : Digest β) (h : TablesAgree σ.hub) (c : HubCall β) :
    TablesAgree (σ.call D c).hub := by
  cases c with
  | register req now => exact h.register D req now
  | heartbeat req now => exact h.heartbeat D req now
  | updateLevels levels => exact ⟨h.size,h.engine,h.channels,h.self⟩

theorem tablesAgree_run (D : Digest β) (σ : Session β) (h : TablesAgree σ.hub)
    (calls : List (HubCall β)) : TablesAgree (σ.run D calls).hub := by
  induction calls generalizing σ with
  | nil => exact h
  | cons c calls ih => exact ih (σ.call D c) (h.call D c)

theorem maxLeaves_call (D : Digest β) (σ : Session β) (c : HubCall β) :
    (σ.call D c).hub.maxLeaves=σ.hub.maxLeaves := by
  cases c with
  | register req now =>
    by_cases hfull : (σ.hub.leaves.size : Int) ≥ σ.hub.maxLeaves
    · exact congrArg HubServer.maxLeaves (HubServer.register_full D hfull req now).1
    · exact (HubServer.register_accepted D hfull req now).2.2.2.1
  | heartbeat req now =>
    cases hget : σ.hub.leaves.get? req.agentId with
    | none => exact congrArg (fun r => r.1.maxLeaves) (HubServer.heartbeat_unknown D hget now)
    | some leaf => exact (HubServer.heartbeat_known D hget now).2.2.2.1
  | updateLevels levels => rfl

theorem maxLeaves_run (D : Digest β) (σ : Session β) (calls : List (HubCall β)) :
    (σ.run D calls).hub.maxLeaves=σ.hub.maxLeaves := by
  induction calls generalizing σ with
  | nil => rfl
  | cons c calls ih => exact (ih (σ.call D c)).trans (maxLeaves_call D σ c)

/-- The tables have the same agents, at most `MaxLeaves`; registering again needs room too. -/
theorem hub_tables_and_reregistration (D : Digest β) (region : String) (maxLeaves : Int)
    (rules : List GroupRule) (levels : ConfigLevels β) (calls : List (HubCall β))
    (req : FedAgentRegistration) (now : Int) :
    let s:=((Session.start (.new region maxLeaves rules levels)).run D calls).hub
    s.leaves.size ≤ maxLeaves.toNat ∧ s.leaves.keys=s.engine.leafStates.keys ∧
      s.leaves.keys=s.configPushCh.keys ∧
      ((s.leaves.get? req.agentId).isSome=true →
        ((s.register D req now).2.accepted=true ↔ (s.leaves.size : Int) < maxLeaves) ∧
          (s.register D req now).1.leaves.size=s.leaves.size) := by
  intro s
  have h : TablesAgree s :=
    tablesAgree_run D _ (tablesAgree_new region maxLeaves rules levels) calls
  have hm : s.maxLeaves=maxLeaves := maxLeaves_run D _ calls
  refine ⟨hm ▸ h.size,keys_eq h.engine,keys_eq h.channels,fun hknown => ?_⟩
  by_cases hfull : (s.leaves.size : Int) ≥ s.maxLeaves
  · obtain ⟨hs,ha⟩ := HubServer.register_full D hfull req now
    rw [hs,ha]
    refine ⟨⟨fun h => absurd h (by decide),fun hlt => ?_⟩,rfl⟩
    omega
  · obtain ⟨hl,-,-,-,ha,-⟩ := HubServer.register_accepted D hfull req now
    rw [hl,ha,size_insert,if_pos hknown]
    refine ⟨⟨fun _ => ?_,fun _ => rfl⟩,rfl⟩
    omega

def noLevels : ConfigLevels Nat := ⟨.empty,.empty,.empty,.empty⟩
def leafA : FedAgentRegistration := ⟨"a","host","10.0.0.5","1.0",.empty,.empty⟩

theorem reregistered_below_capacity :
    ((((Session.start (.new "eu" 2 [] noLevels)).run flatDigest [.register leafA 0]).hub.register
      flatDigest leafA 1).2.accepted=true ↔ (1 : Int)<2) ∧
    ((((Session.start (.new "eu" 2 [] noLevels)).run flatDigest [.register leafA 0]).hub.register
      flatDigest leafA 1).1.leaves.size=1) :=
  (hub_tables_and_reregistration flatDigest "eu" 2 [] noLevels
    [.register leafA 0] leafA 1).2.2.2 rfl

theorem reregistration_refused :
    let s:=((Session.start (.new "eu" 1 [] noLevels)).run flatDigest [.register leafA 0]).hub
    (s.leaves.get? "a").isSome=true ∧
      (s.register flatDigest leafA 1).2=⟨false,"",[],"","hub capacity full (1/1)"⟩ := by
  decide +kernel

def Versioned (σ : Session β) : Prop :=
  ∀ a leaf, σ.hub.leaves.get? a=some leaf →
    σ.registeredVersion a=some leaf.configVersion ∧ (σ.lastVersion a).isSome

theorem lastVersion_cons (hub : HubServer β) (r : Returned) (rs : List Returned) (a : String) :
    Session.lastVersion ⟨hub,r::rs⟩ a =
      if r.agentID=a then some r.version else Session.lastVersion ⟨hub,rs⟩ a := by
  by_cases h : r.agentID=a <;> simp [Session.lastVersion,h]

theorem registeredVersion_cons (hub : HubServer β) (r : Returned) (rs : List Returned) (a : String) :
    Session.registeredVersion ⟨hub,r::rs⟩ a = if r.agentID=a ∧ r.byRegistration=true then some r.version
      else Session.registeredVersion ⟨hub,rs⟩ a := by
  by_cases h : r.agentID=a <;> cases hr : r.byRegistration <;>
    simp [Session.registeredVersion,h,hr]

theorem Versioned.register (D : Digest β) (h : Versioned σ)
    (req : FedAgentRegistration) (now : Int) : Versioned (σ.call D (.register req now)) := by
  by_cases hfull : (σ.hub.leaves.size : Int) ≥ σ.hub.maxLeaves
  · obtain ⟨hs,ha⟩ := HubServer.register_full D hfull req now
    rw [Session.call,hs,ha]
    exact h
  obtain ⟨hl,-,-,-,ha,hv⟩ := HubServer.register_accepted D hfull req now
  rw [Session.call,ha,hv]
  intro a leaf hget
  simp only [if_true] at hget ⊢
  rw [hl,SortedMap.get?_insert] at hget
  rw [registeredVersion_cons,lastVersion_cons]
  by_cases heq : a=req.agentId
  · rw [if_pos heq] at hget
    cases hget
    simp [heq]
  · rw [if_neg heq] at hget
    simp only [Ne.symm heq,false_and,if_false]
    exact h a leaf hget

theorem Versioned.heartbeat (D : Digest β) (hid : TablesAgree σ.hub)
    (h : Versioned σ) (req : FedHeartbeatRequest) (now : Int) :
    Versioned (σ.call D (.heartbeat req now)) := by
  cases hget : σ.hub.leaves.get? req.agentId with
  | none =>
    rw [Session.call,HubServer.heartbeat_unknown D hget]
    exact h
  | some leaf =>
    obtain ⟨hl,-,-,-,hresp⟩ := HubServer.heartbeat_known D hget now
    have hself:=hid.self _ _ hget
    rw [Session.call,hresp]
    intro a leaf' hget'
    simp only [if_true] at hget' ⊢
    rw [hl,SortedMap.get?_insert] at hget'
    rw [registeredVersion_cons,lastVersion_cons]
    by_cases heq : a=leaf.agentID
    · rw [if_pos heq] at hget'
      cases hget'
      rw [HubServer.refreshedLeaf_configVersion]
      refine ⟨?_,by simp [heq,hself]⟩
      simp only [Bool.false_eq_true,and_false,if_false]
      rw [heq,hself]
      exact (h _ _ hget).1
    · rw [if_neg heq] at hget'
      rw [hself] at heq
      simp only [Ne.symm heq,false_and,if_false]
      exact h a leaf' hget'

theorem Versioned.call (D : Digest β) (hid : TablesAgree σ.hub) (h : Versioned σ)
    (c : HubCall β) : Versioned (σ.call D c) := by
  cases c with
  | register req now => exact h.register D req now
  | heartbeat req now => exact h.heartbeat D hid req now
  | updateLevels levels => exact h

theorem versioned_run (D : Digest β) (σ : Session β) (hid : TablesAgree σ.hub) (h : Versioned σ)
    (calls : List (HubCall β)) : Versioned (σ.run D calls) := by
  induction calls generalizing σ with
  | nil => exact h
  | cons c calls ih => exact ih (σ.call D c) (hid.call D c) (h.call D hid c)

theorem ne_iff_ne_iff {α : Type*} (v r l : α) : ((v≠r ↔ v≠l) ↔ l=r ∨ v≠r ∧ v≠l) := by
  constructor
  · intro h
    by_cases hr : v=r
    · have hl : v=l := not_not.mp fun hl => h.mpr hl hr
      exact .inl (hl.symm.trans hr)
    · exact .inr ⟨hr,h.mp hr⟩
  · intro h
    rcases h with heq | ⟨hr,hl⟩
    · rw [heq]
    · exact ⟨fun _ => hl,fun _ => hr⟩

/-- A heartbeat reply is right about an update exactly if the last version of the leaf is that of its
registration, or the version that the levels give to its groups now is neither. -/
theorem heartbeat_update_right_iff (D : Digest β) (region : String) (maxLeaves : Int)
    (rules : List GroupRule) (levels : ConfigLevels β) (calls : List (HubCall β))
    (req : FedHeartbeatRequest) (now : Int) (leaf : LeafState)
    (hleaf : ((Session.start (.new region maxLeaves rules levels)).run D calls).hub.leaves.get?
      req.agentId=some leaf) :
    let σ:=(Session.start (.new region maxLeaves rules levels)).run D calls
    let current:=σ.hub.configVersion D req.agentId (σ.hub.refreshedLeaf leaf req now).groups
    let resp:=(σ.hub.heartbeat D req now).2
    ∃ registered last, σ.registeredVersion req.agentId=some registered ∧
      σ.lastVersion req.agentId=some last ∧
      ((resp.configUpdateAvailable=true ↔ resp.configVersion≠last) ↔
        last=registered ∨ current≠registered ∧ current≠last) := by
  intro σ current resp
  have hid:=tablesAgree_new region maxLeaves rules levels
  have hv : Versioned σ := versioned_run D _ hid (fun a leaf h => by cases h) calls
  obtain ⟨hreg,hlast⟩ := hv _ _ hleaf
  obtain ⟨last,hl⟩ := Option.isSome_iff_exists.mp hlast
  have hresp : resp=⟨true,current,current != leaf.configVersion⟩ :=
    (HubServer.heartbeat_known D hleaf now).2.2.2.2
  refine ⟨leaf.configVersion,last,hreg,hl,?_⟩
  rw [hresp,bne_iff_ne]
  exact ne_iff_ne_iff current leaf.configVersion last

def intervalLevels : ConfigLevels Nat :=
  {noLevels with global := twoGroups.global}
def beatA : FedHeartbeatRequest := ⟨"a",.empty⟩

theorem first_heartbeat_right :
    let σ:=(Session.start (.new "eu" 2 [] noLevels)).run flatDigest
      [.register leafA 0,.updateLevels intervalLevels]
    let resp:=(σ.hub.heartbeat flatDigest beatA 1).2
    resp=⟨true,"de4cf3ebc0143f30",true⟩ ∧ ∃ last, σ.lastVersion "a"=some last ∧
      (resp.configUpdateAvailable=true ↔ resp.configVersion≠last) := by
  obtain ⟨registered,last,hr,hl,hiff⟩ := heartbeat_update_right_iff flatDigest "eu" 2 []
    noLevels [.register leafA 0,.updateLevels intervalLevels] beatA 1 _ rfl
  have hsame : last=registered := Option.some.inj (hl.symm.trans hr)
  exact ⟨rfl,last,hl,hiff.mpr (.inl hsame)⟩

/- The second heartbeat after a change announces the version that the first one brought. -/
theorem update_announced_twice :
    let σ:=(Session.start (.new "eu" 2 [] noLevels)).run flatDigest
      [.register leafA 0,.updateLevels intervalLevels,.heartbeat beatA 1]
    σ.lastVersion "a"=some "de4cf3ebc0143f30" ∧
      (σ.hub.heartbeat flatDigest beatA 2).2=⟨true,"de4cf3ebc0143f30",true⟩ := by decide +kernel

end OpsAgent.Federation
