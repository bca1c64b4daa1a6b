import Mathlib.Data.List.Forall2
import OpsAgent.Config.Diff

/-!
# What `Diff` shows of the secrets

Two configurations are indistinct if they differ in secrets only and the masks of the secrets agree.
-/

namespace OpsAgent
open List

namespace GatewayHostConfig

def redact (h : GatewayHostConfig) : GatewayHostConfig :=
  {h with ssh := {h.ssh with password := "" } }

structure Indistinct (h h' : GatewayHostConfig) : Prop where
  rest : h.redact=h'.redact
  mask : maskSecret h.ssh.password=maskSecret h'.ssh.password

theorem eq_of_redact {h h' : GatewayHostConfig} (hrest : h.redact=h'.redact)
    (hpassword : h.ssh.password=h'.ssh.password) : h=h' := by
  simp only [redact,GatewayHostConfig.mk.injEq,GatewaySSHConfig.mk.injEq] at hrest
  obtain ⟨hid,haddr,hmode,huser,-,hkey,hport⟩ := hrest
  exact GatewayHostConfig.ext hid haddr hmode (GatewaySSHConfig.ext huser hpassword hkey hport)

end GatewayHostConfig

namespace Config

def redact (c : Config) : Config :=
  { c with
    grpc := {c.grpc with enrollToken := "" }
    gateway := {c.gateway with hosts := c.gateway.hosts.map GatewayHostConfig.redact} }
def masks (c : Config) : List (List UInt8) :=
  maskSecret c.grpc.enrollToken::c.gateway.hosts.map fun h => maskSecret h.ssh.password

structure Indistinct (c c' : Config) : Prop where
  rest : c.redact=c'.redact
  masks : c.masks=c'.masks

theorem validate_redact (c : Config) : c.redact.validate=c.validate := by
  have hhosts : (c.gateway.hosts.map GatewayHostConfig.redact).zipIdx.flatMap
      (fun h => checkGatewayHost h.1 h.2) =
        c.gateway.hosts.zipIdx.flatMap fun h => checkGatewayHost h.1 h.2 := by
    rw [zipIdx_map,flatMap_map]
    rfl
  have hgateway : c.redact.checkGateway=c.checkGateway := by
    simp only [checkGateway,redact,hhosts]
    rfl
  have hchecks : c.redact.checks=c.checks := by
    simp only [checks,hgateway]
    rfl
  rw [validate,validate,hchecks]

section Indistinct
variable {c c' : Config} (h : c.Indistinct c')
include h

theorem Indistinct.validate : c.validate=c'.validate := by
  rw [← validate_redact c,← validate_redact c',h.rest]

theorem Indistinct.hosts :
    List.Forall₂ GatewayHostConfig.Indistinct c.gateway.hosts c'.gateway.hosts := by
  have hrest : c.gateway.hosts.map GatewayHostConfig.redact =
      c'.gateway.hosts.map GatewayHostConfig.redact :=
    congrArg (fun c : Config => c.gateway.hosts) h.rest
  have hmasks : c.gateway.hosts.map (fun h => maskSecret h.ssh.password) =
      c'.gateway.hosts.map (fun h => maskSecret h.ssh.password) := (cons.inj h.masks).2
  revert hrest hmasks
  generalize c.gateway.hosts=hs, c'.gateway.hosts=hs'
  intro hrest hmasks
  induction hs generalizing hs' with
  | nil =>
    have hnil : hs' = [] := map_eq_nil_iff.mp hrest.symm
    rw [hnil]
    exact .nil
  | cons x xs ih =>
    cases hs' with
    | nil => cases hrest
    | cons x' xs' =>
      simp only [map_cons,cons.injEq] at hrest hmasks
      exact .cons ⟨hrest.1,hmasks.1⟩ (ih xs' hrest.2 hmasks.2)

end Indistinct

/- The pairs of a host before and after the change show the same: the password has changed in
both or in none of them, and a host that is reported as a whole has the same passwords. -/
structure SeenAlike (oh nh oh' nh' : GatewayHostConfig) : Prop where
  changed : oh.ssh.password=nh.ssh.password ↔ oh'.ssh.password=nh'.ssh.password
  whole : oh.id≠nh.id ∨ oh.addr≠nh.addr ∨ oh.mode≠nh.mode →
    oh.ssh.password=oh'.ssh.password ∧ nh.ssh.password=nh'.ssh.password

theorem changeIf_eq_changeIf {d d' : Bool} {field : String} {old new : FieldVal} :
    changeIf d field old new=changeIf d' field old new ↔ d=d' := by
  cases d <;> cases d' <;> simp [changeIf]
theorem bne_eq_bne_iff {x y x' y' : String} : (x != y)=(x' != y') ↔ (x=y ↔ x' = y') := by
  rw [Bool.eq_iff_iff,bne_iff_ne,bne_iff_ne]
  exact not_iff_not

theorem diffHost_eq_iff {oh nh oh' nh' : GatewayHostConfig} (ho : oh.Indistinct oh')
    (hn : nh.Indistinct nh') (i : Nat) :
    diffHost oh nh i=diffHost oh' nh' i ↔ SeenAlike oh nh oh' nh' := by
  have hrest:=ho.rest
  have hrest' := hn.rest
  simp only [GatewayHostConfig.redact,GatewayHostConfig.mk.injEq,GatewaySSHConfig.mk.injEq]
    at hrest hrest'
  obtain ⟨hid,haddr,hmode,huser,-,hkey,hport⟩ := hrest
  obtain ⟨hid',haddr',hmode',huser',-,hkey',hport'⟩ := hrest'
  simp only [diffHost,changeOf,FieldVal.secret,ho.mask,hn.mask,hid,haddr,hmode,huser,hkey,hport,hid',haddr',
    hmode',huser',hkey',hport',append_cancel_right_eq]
  cases hmoved : (oh'.id != nh'.id||oh'.addr != nh'.addr||oh'.mode != nh'.mode) with
  | false =>
    have hsame : ¬ (oh.id≠nh.id ∨ oh.addr≠nh.addr ∨ oh.mode≠nh.mode) := by
      simpa [hid,haddr,hmode,hid',haddr',hmode',and_assoc] using hmoved
    rw [show changeIf false s!"gateway.hosts[{i}]" (.host oh) (.host nh) =
        changeIf false s!"gateway.hosts[{i}]" (.host oh') (.host nh') from rfl,
      append_cancel_left_eq,changeIf_eq_changeIf,bne_eq_bne_iff]
    exact ⟨fun hpassword => ⟨hpassword,fun hwhole => absurd hwhole hsame⟩,SeenAlike.changed⟩
  | true =>
    have hwhole : oh.id≠nh.id ∨ oh.addr≠nh.addr ∨ oh.mode≠nh.mode := by
      simpa [hid,haddr,hmode,hid',haddr',hmode',or_assoc] using hmoved
    constructor
    · intro heq
      simp only [changeIf,if_true,cons_append,cons.injEq,
        NonReloadableChange.mk.injEq,FieldVal.host.injEq] at heq
      obtain ⟨⟨-,rfl,rfl⟩,-⟩ := heq
      exact ⟨Iff.rfl,fun _ => ⟨rfl,rfl⟩⟩
    · intro hseen
      obtain ⟨hp,hp'⟩ := hseen.whole hwhole
      rw [GatewayHostConfig.eq_of_redact ho.rest hp,GatewayHostConfig.eq_of_redact hn.rest hp']

/-! ### The list of the hosts

The fields of a host's changes hold its index, which tells the changes of different hosts
apart. -/

def hostIndex (field : String) : List Char := (field.toList.drop 14).takeWhile (· != ']')

theorem hostIndex_text (i : Nat) {tail : String} {rest : List Char} (htail : tail.toList = ']' :: rest) :
    hostIndex ("gateway.hosts["++toString i++tail)=Nat.toDigits 10 i := by
  have hdigits : ∀ c∈Nat.toDigits 10 i, (c != ']')=true := by
    intro c hc
    have hdigit : c.isDigit := Nat.isDigit_of_mem_toDigits (by decide) (by decide) hc
    rw [bne_iff_ne]
    intro heq
    rw [heq] at hdigit
    exact absurd hdigit (by decide)
  have hdrop : ("gateway.hosts["++toString i++tail).toList.drop 14 =
      Nat.toDigits 10 i ++ ']' :: rest := by simp [htail]
  rw [hostIndex,hdrop,takeWhile_append_of_pos hdigits]
  simp

variable {c : NonReloadableChange}
  {i : Nat} {α : Type*}

theorem mem_changeIf {d : Bool} {field : String} {old new : FieldVal}
    (h : c∈changeIf d field old new) : c.field=field := by
  unfold changeIf at h
  split at h
  · rw [mem_singleton.mp h]
  · cases h

theorem hostIndex_diffHost {oh nh : GatewayHostConfig}
    (h : c∈diffHost oh nh i) : hostIndex c.field=Nat.toDigits 10 i := by
  simp only [diffHost,mem_append] at h
  rcases h with (((h | h) | h) | h) | h <;> rw [mem_changeIf h] <;> exact hostIndex_text i rfl

/- Two lists are equal if their first parts and their second parts are, provided that a property
tells the parts apart. -/
theorem append_eq_append_of_sep (p : α → Bool) {a a' b b' : List α}
    (ha : ∀ x∈a, p x) (ha' : ∀ x∈a', p x) (hb : ∀ x∈b, p x=false) (hb' : ∀ x∈b', p x=false) :
    a++b=a' ++ b' ↔ a=a' ∧ b=b' := by
  constructor
  · intro h
    have hfilter:=congrArg (filter p) h
    rw [filter_append,filter_append,filter_eq_self.mpr ha,
      filter_eq_self.mpr ha',filter_eq_nil_iff.mpr (fun x hx => by simp [hb x hx]),
      filter_eq_nil_iff.mpr (fun x hx => by simp [hb' x hx]),append_nil,append_nil] at hfilter
    subst hfilter
    exact ⟨rfl,append_cancel_left h⟩
  · rintro ⟨rfl,rfl⟩
    rfl

def hostChanges (i : Nat) (pairs : List (GatewayHostConfig × GatewayHostConfig)) :
    List NonReloadableChange :=
  (pairs.zipIdx i).flatMap fun h => diffHost h.1.1 h.1.2 h.2

theorem hostIndex_hostChanges {pairs : List (GatewayHostConfig × GatewayHostConfig)} (h : c∈hostChanges i pairs) :
    ∃ j ≥ i, hostIndex c.field=Nat.toDigits 10 j := by
  simp only [hostChanges,mem_flatMap] at h
  obtain ⟨⟨pair,j⟩,hpair,hc⟩ := h
  exact ⟨j,(mem_zipIdx hpair).1,hostIndex_diffHost hc⟩

theorem hostChanges_eq_iff {pairs pairs' : List (GatewayHostConfig × GatewayHostConfig)}
    (h : List.Forall₂ (fun p p' => p.1.Indistinct p'.1 ∧ p.2.Indistinct p'.2) pairs pairs') (i : Nat) :
    hostChanges i pairs=hostChanges i pairs' ↔
      List.Forall₂ (fun p p' => SeenAlike p.1 p.2 p'.1 p'.2) pairs pairs' := by
  induction h generalizing i with
  | nil => simp [hostChanges]
  | @cons p p' ps ps' hp _ ih =>
    have hlater : ∀ (qs : List (GatewayHostConfig × GatewayHostConfig)),
        ∀ c∈hostChanges (i+1) qs, (hostIndex c.field == Nat.toDigits 10 i)=false := by
      intro qs c hc
      obtain ⟨j,hj,hindex⟩ := hostIndex_hostChanges hc
      rw [hindex,beq_eq_false_iff_ne]
      intro heq
      have hvalue:=congrArg (Nat.ofDigitChars 10 · 0) heq
      simp only [Nat.ofDigitChars_ten_toDigits] at hvalue
      omega
    have hfirst : ∀ q : GatewayHostConfig × GatewayHostConfig,
        ∀ c∈diffHost q.1 q.2 i, (hostIndex c.field == Nat.toDigits 10 i) := by
      intro q c hc
      rw [hostIndex_diffHost hc,beq_self_eq_true]
    have hcons : ∀ q qs, hostChanges i (q::qs)=diffHost q.1 q.2 i++hostChanges (i+1) qs :=
      fun _ _ => rfl
    rw [hcons,hcons,append_eq_append_of_sep _ (hfirst p) (hfirst p') (hlater ps) (hlater ps'),
      diffHost_eq_iff hp.1 hp.2,ih,forall₂_cons]

theorem forall₂_zip {r : α → α → Prop} {xs xs' ys ys' : List α}
    (hx : List.Forall₂ r xs xs') (hy : List.Forall₂ r ys ys') :
    List.Forall₂ (fun p p' => r p.1 p'.1 ∧ r p.2 p'.2) (xs.zip ys) (xs'.zip ys') := by
  induction hx generalizing ys ys' with
  | nil => exact .nil
  | cons h _ ih =>
    cases hy with
    | nil => exact .nil
    | cons h' hy => exact .cons ⟨h,h'⟩ (ih hy)

def HostsSeenAlike (ohs nhs ohs' nhs' : List GatewayHostConfig) : Prop :=
  ohs.length=nhs.length →
    List.Forall₂ (fun p p' => SeenAlike p.1 p.2 p'.1 p'.2) (ohs.zip nhs) (ohs'.zip nhs')

theorem diffHosts_eq_iff {ohs nhs ohs' nhs' : List GatewayHostConfig}
    (ho : List.Forall₂ GatewayHostConfig.Indistinct ohs ohs')
    (hn : List.Forall₂ GatewayHostConfig.Indistinct nhs nhs') :
    diffHosts ohs nhs=diffHosts ohs' nhs' ↔ HostsSeenAlike ohs nhs ohs' nhs' := by
  unfold diffHosts HostsSeenAlike
  rw [← ho.length_eq,← hn.length_eq]
  by_cases hlength : ohs.length=nhs.length
  · rw [if_neg (not_not.mpr hlength),if_neg (not_not.mpr hlength),forall_prop_of_true hlength]
    exact hostChanges_eq_iff (forall₂_zip ho hn) 0
  · rw [if_pos hlength,if_pos hlength]
    exact iff_of_true rfl fun h => absurd h hlength

def beforeToken (old new : Config) : List NonReloadableChange :=
  diffAgent old new++diffServer old new++changeOf old new "grpc.server_addr" (·.grpc.serverAddr) .str
def tokenChange (old new : Config) : List NonReloadableChange :=
  changeOf old new "grpc.enroll_token" (·.grpc.enrollToken) .secret

def behindToken (c : Config) : Config :=
  { c with
    agent := plain.agent
    server := plain.server
    grpc := {c.grpc with serverAddr := "", enrollToken := "" }
    gateway := {c.gateway with hosts := []} }

def afterToken (old new : Config) : List NonReloadableChange :=
  nonReloadable old.behindToken new.behindToken

theorem changeIf_self {α : Type} [BEq α] [LawfulBEq α] (x : α) (field : String) (old new : FieldVal) :
    changeIf (x != x) field old new=[] := by
  rw [bne_self_eq_false]
  rfl

theorem nonReloadable_split (old new : Config) : nonReloadable old new=beforeToken old new ++
      (tokenChange old new ++ (afterToken old new++diffHosts old.gateway.hosts new.gateway.hosts)) := by
  have hnil : diffHosts [] []=[] := rfl
  simp only [nonReloadable,diffAgent,diffServer,diffGRPC,diffGateway,beforeToken,tokenChange,
    afterToken,behindToken,diffExecutor,changeOf,changeIf_self,hnil,append_nil,nil_append,append_assoc]

theorem field_afterToken (old new : Config) : ∀ c∈afterToken old new, c.field≠"grpc.enroll_token" := by
  have hnil : diffHosts [] []=[] := rfl
  have hfield : ∀ field : String, field≠"grpc.enroll_token" → ∀ d old new,
      ∀ c∈changeIf d field old new, c.field≠"grpc.enroll_token" := by
    intro field h d old new c hc
    rw [mem_changeIf hc]
    exact h
  simp only [afterToken,behindToken,nonReloadable,diffAgent,diffServer,diffGRPC,diffExecutor,
    diffGateway,changeOf,changeIf_self,hnil,append_nil,nil_append,forall_mem_append]
  and_intros <;> exact hfield _ (by decide) _ _ _

theorem field_diffHosts (ohs nhs : List GatewayHostConfig) :
    ∀ c∈diffHosts ohs nhs, c.field≠"grpc.enroll_token" := by
  intro c hc
  unfold diffHosts at hc
  split at hc
  · rw [mem_singleton.mp hc]
    show "gateway.hosts"≠"grpc.enroll_token"
    decide
  · obtain ⟨j,-,hindex⟩ := hostIndex_hostChanges hc
    intro heq
    have hk : 'k' ∈ Nat.toDigits 10 j := by
      rw [← hindex,heq]
      decide
    exact absurd (Nat.isDigit_of_mem_toDigits (by decide) (by decide) hk) (by decide)

section Pairs
variable {old new old' new' : Config} (ho : old.Indistinct old') (hn : new.Indistinct new')
include ho hn

theorem beforeToken_eq : beforeToken old new=beforeToken old' new' := by
  change beforeToken old.redact new.redact=beforeToken old'.redact new'.redact
  rw [ho.rest,hn.rest]
theorem afterToken_eq : afterToken old new=afterToken old' new' := by
  change afterToken old.redact new.redact=afterToken old'.redact new'.redact
  rw [ho.rest,hn.rest]

theorem tokenChange_eq_iff : tokenChange old new=tokenChange old' new' ↔
      (old.grpc.enrollToken=new.grpc.enrollToken ↔ old'.grpc.enrollToken=new'.grpc.enrollToken) := by
  have hmask : maskSecret old.grpc.enrollToken=maskSecret old'.grpc.enrollToken :=
    (cons.inj ho.masks).1
  have hmask' : maskSecret new.grpc.enrollToken=maskSecret new'.grpc.enrollToken :=
    (cons.inj hn.masks).1
  simp only [tokenChange,changeOf,FieldVal.secret,hmask,hmask',changeIf_eq_changeIf,bne_eq_bne_iff]

theorem nonReloadable_eq_iff : nonReloadable old new=nonReloadable old' new' ↔
      (old.grpc.enrollToken=new.grpc.enrollToken ↔ old'.grpc.enrollToken=new'.grpc.enrollToken) ∧
      HostsSeenAlike old.gateway.hosts new.gateway.hosts old'.gateway.hosts new'.gateway.hosts := by
  have htoken : ∀ o n : Config, ∀ c∈tokenChange o n,
      (c.field == "grpc.enroll_token") :=
    fun o n c hc => beq_iff_eq.mpr (mem_changeIf hc)
  have hrest : ∀ o n : Config, ∀ c∈afterToken o n++diffHosts o.gateway.hosts n.gateway.hosts,
      (c.field == "grpc.enroll_token")=false := by
    intro o n c hc
    rw [beq_eq_false_iff_ne]
    rcases mem_append.mp hc with hc | hc
    · exact field_afterToken o n c hc
    · exact field_diffHosts _ _ c hc
  rw [nonReloadable_split,nonReloadable_split,beforeToken_eq ho hn,append_cancel_left_eq,
    append_eq_append_of_sep _ (htoken old new) (htoken old' new') (hrest old new)
      (hrest old' new'),afterToken_eq ho hn,append_cancel_left_eq,tokenChange_eq_iff ho hn,
    diffHosts_eq_iff ho.hosts hn.hosts]

end Pairs

/- For two pairs of configurations that differ in secrets with equal masks, the same changes
are reported exactly if each secret has changed in both pairs or in none, and the hosts that
are reported as a whole have the same passwords. -/
theorem diff_hides_secrets_iff (old new old' new' : Config) (ho : old.Indistinct old')
    (hn : new.Indistinct new') : (diff old new).map Prod.snd=(diff old' new').map Prod.snd ↔
      new.validate≠none ∨ (old.grpc.enrollToken=new.grpc.enrollToken ↔
          old'.grpc.enrollToken=new'.grpc.enrollToken) ∧
        HostsSeenAlike old.gateway.hosts new.gateway.hosts old'.gateway.hosts new'.gateway.hosts := by
  rw [← nonReloadable_eq_iff ho hn]
  simp only [diff,← hn.validate]
  cases hvalid : new.validate with
  | some err | none => simp [Except.map]

def withHost (token addr password : String) : Config :=
  { plain with
    grpc := {plain.grpc with enrollToken := token}
    gateway := ⟨false,"",0,0,0,[⟨"h1",addr,"proxy",⟨"ops",password,"",22⟩⟩]⟩}
def rotation (token password token' password' : String) :
    Except String (List NonReloadableChange) :=
  (diff (withHost token "10.0.0.1:22" password) (withHost token' "10.0.0.1:22" password')).map
    Prod.snd

theorem diff_hides_secrets_rotation : rotation "enroll-01" "pw-alpha-1" "enroll-02" "pw-alpha-2" =
      rotation "en-old-01" "pw-beta-1" "en-new-02" "pw-beta-2" :=
  (diff_hides_secrets_iff (withHost "enroll-01" "10.0.0.1:22" "pw-alpha-1")
    (withHost "enroll-02" "10.0.0.1:22" "pw-alpha-2")
    (withHost "en-old-01" "10.0.0.1:22" "pw-beta-1")
    (withHost "en-new-02" "10.0.0.1:22" "pw-beta-2")
    ⟨rfl,by decide +kernel⟩ ⟨rfl,by decide +kernel⟩).mpr
      (.inr ⟨by decide,fun _ => .cons ⟨by decide,by decide⟩ .nil⟩)

def relocation (password : String) : Except String (List NonReloadableChange) :=
  (diff (withHost "" "10.0.0.1:22" password) (withHost "" "10.0.0.2:22" password)).map Prod.snd

/- The hosts are reported with their passwords, so that two passwords with one mask are told
apart. -/
theorem diff_shows_password :
    Indistinct (withHost "" "10.0.0.1:22" "pw-alpha-1") (withHost "" "10.0.0.1:22" "pw-beta-1") ∧
      Indistinct (withHost "" "10.0.0.2:22" "pw-alpha-1") (withHost "" "10.0.0.2:22" "pw-beta-1") ∧
      relocation "pw-alpha-1" = .ok [⟨"gateway.hosts[0]",
          .host ⟨"h1","10.0.0.1:22","proxy",⟨"ops","pw-alpha-1","",22⟩⟩,
          .host ⟨"h1","10.0.0.2:22","proxy",⟨"ops","pw-alpha-1","",22⟩⟩⟩] ∧
      relocation "pw-alpha-1"≠relocation "pw-beta-1" := by
  refine ⟨⟨rfl,by decide +kernel⟩,⟨rfl,by decide +kernel⟩,rfl,?_⟩
  decide +kernel

end Config
end OpsAgent
