import Mathlib.Data.Set.Subsingleton
import OpsAgent.Lib.Exec
import OpsAgent.Lib.TokenBucket

/-!
# The rate limit (`server/middleware.go`)

`rate.Limiter` is a token bucket; a token is a billion units, so that its refill in a nanosecond is a whole
number. A limiter that is evicted stays with the requests that have it: it is named by its address and how
many there were before.
-/

namespace OpsAgent.RateLimit
open Lib.Exec Lib.TokenBucket List Option

def second : Nat := 1000000000
def minute : Nat := 60*second

/- `newRateLimiter(10, 20)` -/
def rate : Nat := 10
def burst : Nat := 20
def limits : Plan where
  capacity := burst*second
  refill := rate
  cost := second

structure VisitorEntry where
  (limiter lastSeen : Nat)

/- A request between `getLimiter` and `Allow`. -/
structure Waiting where
  remoteAddr : String
  (limiter since : Nat)

structure RateLimiter where
  visitors : String → Option VisitorEntry
  limiters : String → List Bucket
  waiting : Nat → Option Waiting
  now : Nat
  -- the remote addresses and times of the requests that were let through
  admitted : List (String × Nat)

inductive Label where
  | getLimiter (request : Nat) (remoteAddr : String) (t : Nat)
  | allow (request : Nat) (t : Nat)
  -- the turn of the loop in `evictionLoop` that deletes the entry
  | evict (remoteAddr : String) (t : Nat)

namespace RateLimiter

def new : RateLimiter := ⟨fun _ => none,fun _ => [],fun _ => none,0,[]⟩

def getLimiter (s : RateLimiter) (request : Nat) (ip : String) (t : Nat) : RateLimiter :=
  match s.visitors ip with
  | some entry =>
    { s with
      visitors := Function.update s.visitors ip (some {entry with lastSeen := t})
      waiting := Function.update s.waiting request (some ⟨ip,entry.limiter,t⟩)
      now := t}
  | none =>
    { s with
      visitors := Function.update s.visitors ip (some ⟨(s.limiters ip).length,t⟩)
      limiters := Function.update s.limiters ip (s.limiters ip++[limits.full t])
      waiting := Function.update s.waiting request (some ⟨ip,(s.limiters ip).length,t⟩)
      now := t}

def allow (s : RateLimiter) (request : Nat) (w : Waiting) (b : Bucket) (t : Nat) : RateLimiter :=
  match limits.take b t with
  | some b' =>
    { s with
      limiters := Function.update s.limiters w.remoteAddr
        ((s.limiters w.remoteAddr).set w.limiter b')
      waiting := Function.update s.waiting request none
      now := t
      admitted := s.admitted++[(w.remoteAddr,t)]}
  | none => {s with waiting := Function.update s.waiting request none, now := t}

def evict (s : RateLimiter) (ip : String) (t : Nat) : RateLimiter :=
  {s with visitors := Function.update s.visitors ip none, now := t}

def step (s : RateLimiter) : Label → Option RateLimiter
  | .getLimiter request ip t =>
    if s.now≤t ∧ (s.waiting request).isNone then some (s.getLimiter request ip t) else none
  | .allow request t =>
    if s.now≤t then
      (s.waiting request).bind fun w =>
        (s.limiters w.remoteAddr)[w.limiter]?.map fun b => s.allow request w b t
    else none
  | .evict ip t =>
    if s.now≤t then match s.visitors ip with
      | some entry => if 10*minute<t-entry.lastSeen then some (s.evict ip t) else none
      | none => none
    else none

variable {s s' : RateLimiter} {t request : Nat} {ip : String}
  {i : Nat}
  {l : Label} {entry : VisitorEntry}

theorem step_cases {t : RateLimiter} (h : s.step l=some t) :
    (∃ request ip x, l=.getLimiter request ip x ∧ s.now≤x ∧ t=s.getLimiter request ip x) ∨
    (∃ request x w b, l=.allow request x ∧ s.now≤x ∧ s.waiting request=some w ∧
      (s.limiters w.remoteAddr)[w.limiter]?=some b ∧ t=s.allow request w b x) ∨
    (∃ ip x entry, l=.evict ip x ∧ s.now≤x ∧ s.visitors ip=some entry ∧
      10*minute<x-entry.lastSeen ∧ t=s.evict ip x) := by
  cases l with
  | getLimiter request ip x =>
    simp only [step] at h
    split at h
    next hx =>
      cases h
      exact .inl ⟨request,ip,x,rfl,hx.1,rfl⟩
    next => cases h
  | allow request x =>
    simp only [step] at h
    split at h
    next hx =>
      obtain ⟨w,hw,h⟩ := bind_eq_some_iff.mp h
      obtain ⟨b,hb,h⟩ := map_eq_some_iff.mp h
      exact .inr (.inl ⟨request,x,w,b,rfl,hx,hw,hb,h.symm⟩)
    next => cases h
  | evict ip x =>
    simp only [step] at h
    split at h
    next hx =>
      split at h
      next entry hentry =>
        split at h
        next hold =>
          cases h
          exact .inr (.inr ⟨ip,x,entry,rfl,hx,hentry,hold,rfl⟩)
        next => cases h
      next => cases h
    next => cases h

theorem update_eq_some {α β : Type*} [DecidableEq α] {f : α → Option β} {x y : α}
    {o : Option β} {b : β} (h : Function.update f x o y=some b) :
    (y=x ∧ o=some b) ∨ (y≠x ∧ f y=some b) := by
  by_cases heq : y=x
  · rw [heq,Function.update_self] at h
    exact .inl ⟨heq,h⟩
  · rw [Function.update_of_ne heq] at h
    exact .inr ⟨heq,h⟩

theorem allow_frame (s : RateLimiter) (request : Nat) (w : Waiting) (b : Bucket) (t : Nat) :
    (s.allow request w b t).visitors=s.visitors ∧
      (s.allow request w b t).waiting=Function.update s.waiting request none ∧
      (s.allow request w b t).now=t ∧
      ∀ ip, ip≠w.remoteAddr → (s.allow request w b t).limiters ip=s.limiters ip := by
  unfold allow
  cases limits.take b t with
  | none => exact ⟨rfl,rfl,rfl,fun _ _ => rfl⟩
  | some b' => exact ⟨rfl,rfl,rfl,fun ip hip => Function.update_of_ne hip _ _⟩

def level (s : RateLimiter) (ip : String) (t : Nat) : Nat :=
  match s.visitors ip with
  | none => limits.capacity
  | some entry => match (s.limiters ip)[entry.limiter]? with
    | none => limits.capacity
    | some b => limits.levelAt b t

def times (s : RateLimiter) (ip : String) : List Nat :=
  (s.admitted.filter fun x => x.1 == ip).map Prod.snd
def patience : Nat := 10*minute-2*second
def prompt (s : RateLimiter) : Label → Bool
  | .allow request t => (s.waiting request).all fun w => decide (t≤w.since+patience)
  | _ => true

theorem level_le_capacity (s : RateLimiter) (ip : String) (t : Nat) : s.level ip t≤limits.capacity := by
  unfold level
  split
  · exact Nat.le_refl _
  · split
    · exact Nat.le_refl _
    · exact limits.levelAt_le_capacity _ _

theorem level_le_add (s : RateLimiter) (ip : String) {u : Nat} (h : t≤u) :
    s.level ip u ≤ s.level ip t+limits.refill*(u-t) := by
  unfold level
  split
  · exact Nat.le_add_right _ _
  · split
    · exact Nat.le_add_right _ _
    · exact limits.levelAt_le_add _ h

structure Sound (ip : String) (s : RateLimiter) : Prop where
  seen : ∀ entry, s.visitors ip=some entry → entry.lastSeen ≤ s.now
  used : ∀ entry b, s.visitors ip=some entry → (s.limiters ip)[entry.limiter]?=some b →
    b.last≤entry.lastSeen+patience
  -- a request has the limiter of the entry, or it has waited for too long
  pending : ∀ request w, s.waiting request=some w → w.remoteAddr=ip →
    (∃ entry, s.visitors ip=some entry ∧ entry.limiter=w.limiter ∧
      w.since≤entry.lastSeen) ∨ w.since+10*minute<s.now
  accounted : limits.Accounted (s.times ip) s.now (s.level ip s.now)

theorem sound_new (ip : String) : Sound ip new :=
  ⟨nofun,nofun,nofun,Plan.Accounted.nil (level_le_capacity _ _ _)⟩
theorem Sound.wait (h : Sound ip s) (ht : s.now≤t) : limits.Accounted (s.times ip) t (s.level ip t) :=
  h.accounted.wait ht (level_le_add s ip ht) (level_le_capacity s ip t)

theorem Sound.frame (h : Sound ip s) (ht : s.now ≤ s'.now)
    (hvisitors : s'.visitors ip=s.visitors ip) (hlimiters : s'.limiters ip=s.limiters ip)
    (hwaiting : ∀ request w, s'.waiting request=some w → w.remoteAddr=ip → s.waiting request=some w)
    (htimes : s'.times ip=s.times ip) : Sound ip s' := by
  have hlevel : s'.level ip s'.now=s.level ip s'.now := by rw [level,level,hvisitors,hlimiters]
  refine ⟨?_,?_,?_,?_⟩
  · rw [hvisitors]
    exact fun entry hentry => Nat.le_trans (h.seen entry hentry) ht
  · rw [hvisitors,hlimiters]
    exact h.used
  · rw [hvisitors]
    intro request w hw hip
    rcases h.pending request w (hwaiting request w hw hip) hip with hattached | hlate
    · exact .inl hattached
    · exact .inr (Nat.lt_of_lt_of_le hlate ht)
  · rw [hlevel,htimes]
    exact h.wait ht

theorem sound_evict {ip' : String}
    (h : Sound ip s) (ht : s.now≤t) (hentry : s.visitors ip' = some entry)
    (hold : 10*minute<t-entry.lastSeen) : Sound ip (s.evict ip' t) := by
  by_cases hip : ip=ip'
  · subst hip
    have hnone : (s.evict ip t).visitors ip=none := Function.update_self ..
    -- the limiter was not asked for long enough to be full
    have hfull : s.level ip t=limits.capacity := by
      simp only [level,hentry]
      cases hb : (s.limiters ip)[entry.limiter]? with
      | none => rfl
      | some b =>
        have hused:=h.used entry b hentry hb
        refine limits.levelAt_of_rested ?_
        simp only [limits,burst,rate,patience,minute,second] at hused hold ⊢
        omega
    refine ⟨by rw [hnone]; exact nofun,by rw [hnone]; exact nofun,?_,?_⟩
    · intro request w hw hwip
      refine .inr ?_
      change w.since+10*minute<t
      rcases h.pending request w hw hwip with ⟨entry',hentry',-,hsince⟩ | hlate
      · cases hentry.symm.trans hentry'
        omega
      · omega
    · have hlevel : (s.evict ip t).level ip (s.evict ip t).now=s.level ip t := by
        rw [level,hnone,hfull]
      rw [hlevel]
      exact h.wait ht
  · exact h.frame ht (Function.update_of_ne hip _ _) rfl (fun _ _ hw _ => hw) rfl

/- What `getLimiter` does: the request has the limiter `i`, which is that of the entry or a
new one. -/
structure LookedUp (s : RateLimiter) (request : Nat) (ip : String) (t i : Nat)
    (s' : RateLimiter) : Prop where
  now : s'.now=t
  admitted : s'.admitted=s.admitted
  waiting : s'.waiting=Function.update s.waiting request (some ⟨ip,i,t⟩)
  own : s'.visitors ip=some ⟨i,t⟩
  others : ∀ ip' ≠ ip, s'.visitors ip' = s.visitors ip' ∧ s'.limiters ip' = s.limiters ip'
  limiter : (∃ entry, s.visitors ip=some entry ∧ i=entry.limiter ∧
      s'.limiters ip=s.limiters ip) ∨
    s.visitors ip=none ∧ (s'.limiters ip)[i]?=some (limits.full t)

theorem getLimiter_lookedUp (s : RateLimiter) (request : Nat) (ip : String) (t : Nat) :
    ∃ i, LookedUp s request ip t i (s.getLimiter request ip t) := by
  cases hv : s.visitors ip with
  | some entry =>
    refine ⟨entry.limiter,?_⟩
    simp only [getLimiter,hv]
    exact ⟨rfl,rfl,rfl,Function.update_self ..,fun _ hne => ⟨Function.update_of_ne hne _ _,rfl⟩,
      .inl ⟨entry,hv,rfl,rfl⟩⟩
  | none =>
    refine ⟨(s.limiters ip).length,?_⟩
    simp only [getLimiter,hv]
    refine ⟨rfl,rfl,rfl,Function.update_self ..,fun _ hne => ?_,.inr ⟨hv,?_⟩⟩
    · exact ⟨Function.update_of_ne hne _ _,Function.update_of_ne hne _ _⟩
    · simp

theorem LookedUp.level_eq (hl : LookedUp s request ip t i s') : s'.level ip t=s.level ip t := by
  rcases hl.limiter with ⟨entry,hentry,rfl,hsame⟩ | ⟨hnone,hfull⟩
  · simp only [level,hl.own,hentry,hsame]
  · simp only [level,hl.own,hnone,hfull,limits.levelAt_full]

theorem sound_lookedUp_own (h : Sound ip s) (ht : s.now≤t)
    (hl : LookedUp s request ip t i s') : Sound ip s' := by
  have htimes : s'.times ip=s.times ip := by rw [times,times,hl.admitted]
  have hused : ∀ b, (s'.limiters ip)[i]?=some b → b.last≤t+patience := by
    intro b hb
    rcases hl.limiter with ⟨entry,hentry,rfl,hsame⟩ | ⟨-,hfull⟩
    · rw [hsame] at hb
      have hbefore:=h.used entry b hentry hb
      have hseen:=h.seen entry hentry
      omega
    · cases hfull.symm.trans hb
      exact Nat.le_add_right _ _
  refine ⟨?_,?_,?_,?_⟩
  · rw [hl.own,hl.now]
    intro entry hentry
    cases hentry
    exact Nat.le_refl t
  · rw [hl.own]
    intro entry b hentry hb
    cases hentry
    exact hused b hb
  · rw [hl.own,hl.now,hl.waiting]
    intro request' w hw hip
    rcases update_eq_some hw with ⟨-,heq⟩ | ⟨-,hw⟩
    · cases heq
      exact .inl ⟨_,rfl,rfl,Nat.le_refl t⟩
    · rcases h.pending request' w hw hip with ⟨entry,hentry,hlimiter,hsince⟩ | hlate
      · rcases hl.limiter with ⟨entry',hentry',rfl,-⟩ | ⟨hnone,-⟩
        · cases hentry.symm.trans hentry'
          have hseen:=h.seen entry hentry
          exact .inl ⟨_,rfl,hlimiter,Nat.le_trans hsince (Nat.le_trans hseen ht)⟩
        · cases hnone.symm.trans hentry
      · exact .inr (Nat.lt_of_lt_of_le hlate ht)
  · rw [hl.now,htimes,hl.level_eq]
    exact h.wait ht

theorem sound_getLimiter (h : Sound ip s)
    (ht : s.now≤t) (request : Nat) (ip' : String) : Sound ip (s.getLimiter request ip' t) := by
  obtain ⟨i,hl⟩ := getLimiter_lookedUp s request ip' t
  by_cases hip : ip=ip'
  · subst hip
    exact sound_lookedUp_own h ht hl
  · refine h.frame (by rw [hl.now]; exact ht) (hl.others ip hip).1 (hl.others ip hip).2 ?_ ?_
    · intro request' w hw hwip
      rw [hl.waiting] at hw
      rcases update_eq_some hw with ⟨-,heq⟩ | ⟨-,hw⟩
      · cases heq
        exact absurd hwip.symm hip
      · exact hw
    · rw [times,times,hl.admitted]

theorem times_allow (s : RateLimiter) (request : Nat) (w : Waiting) (b : Bucket) (t : Nat)
    (ip : String) : (s.allow request w b t).times ip =
      s.times ip ++ if w.remoteAddr=ip ∧ (limits.take b t).isSome then [t] else [] := by
  unfold allow
  cases limits.take b t with
  | none => simp [times]
  | some b' => by_cases hip : w.remoteAddr=ip <;> simp [times,hip]

variable {w : Waiting} {b : Bucket} {b' : Bucket}

theorem limiter_allow (request : Nat)
    (hb : (s.limiters w.remoteAddr)[w.limiter]?=some b) (htake : limits.take b t=some b') :
    ((s.allow request w b t).limiters w.remoteAddr)[w.limiter]?=some b' := by
  simp only [allow,htake,Function.update_self]
  exact getElem?_set_self (List.getElem?_eq_some_iff.mp hb).1

theorem sound_admit (h : Sound w.remoteAddr s)
    (ht : s.now≤t) (hentry : s.visitors w.remoteAddr=some entry)
    (hlimiter : entry.limiter=w.limiter) (hsince : w.since≤entry.lastSeen)
    (hb : (s.limiters w.remoteAddr)[w.limiter]?=some b) (htake : limits.take b t=some b')
    (hprompt : t≤w.since+patience) : Sound w.remoteAddr (s.allow request w b t) := by
  obtain ⟨hvisitors,hwaiting,hnow,-⟩ := allow_frame s request w b t
  obtain ⟨hlast,htaken⟩ := limits.take_spec htake
  have hnew:=limiter_allow request hb htake
  rw [← hlimiter] at hnew
  have htimes : (s.allow request w b t).times w.remoteAddr=s.times w.remoteAddr++[t] := by
    rw [times_allow,if_pos ⟨rfl,by rw [htake]; rfl⟩]
  have hbefore : s.level w.remoteAddr t=limits.levelAt b t := by
    simp only [level,hentry,hlimiter,hb]
  have hafter : (s.allow request w b t).level w.remoteAddr t=limits.levelAt b' t := by
    simp only [level,hvisitors,hentry,hnew]
  refine ⟨?_,?_,?_,?_⟩
  · rw [hvisitors,hnow]
    exact fun entry' h' => Nat.le_trans (h.seen entry' h') ht
  · rw [hvisitors,hentry]
    intro entry' c h' hc
    cases h'
    cases hnew.symm.trans hc
    omega
  · rw [hvisitors,hwaiting,hnow]
    intro request' w' hw' hip'
    rcases update_eq_some hw' with ⟨-,heq⟩ | ⟨-,hw'⟩
    · cases heq
    · rcases h.pending request' w' hw' hip' with hattached | hlate
      · exact .inl hattached
      · exact .inr (Nat.lt_of_lt_of_le hlate ht)
  · have hwait:=h.wait ht
    rw [hbefore] at hwait
    rw [hnow,htimes,hafter]
    exact hwait.event htaken

theorem sound_allow (h : Sound ip s) (ht : s.now≤t)
    (hw : s.waiting request=some w) (hb : (s.limiters w.remoteAddr)[w.limiter]?=some b)
    (hprompt : t≤w.since+patience) : Sound ip (s.allow request w b t) := by
  obtain ⟨hvisitors,hwaiting,hnow,hothers⟩ := allow_frame s request w b t
  have hkept : ∀ request' w', (s.allow request w b t).waiting request' = some w' →
      w'.remoteAddr=ip → s.waiting request' = some w' := by
    rw [hwaiting]
    intro request' w' hw' _
    rcases update_eq_some hw' with ⟨-,heq⟩ | ⟨-,hw'⟩
    · cases heq
    · exact hw'
  by_cases hip : w.remoteAddr=ip
  · subst hip
    cases htake : limits.take b t with
    | none =>
      refine h.frame (by rw [hnow]; exact ht) (by rw [hvisitors]) ?_ hkept ?_
      · simp only [allow,htake]
      · rw [times_allow,htake,if_neg (by simp),append_nil]
    | some b' =>
      rcases h.pending request w hw rfl with ⟨entry,hentry,hlimiter,hsince⟩ | hlate
      · exact sound_admit h ht hentry hlimiter hsince hb htake hprompt
      · simp only [patience,minute,second] at hprompt hlate
        omega
  · refine h.frame (by rw [hnow]; exact ht) (by rw [hvisitors]) (hothers ip (Ne.symm hip)) hkept ?_
    rw [times_allow,if_neg (fun h' => hip h'.1),append_nil]

theorem sound_step {t : RateLimiter} (h : Sound ip s)
    (hprompt : s.prompt l) (hs : s.step l=some t) : Sound ip t := by
  rcases step_cases hs with ⟨request,ip',x,-,hx,rfl⟩ | ⟨request,x,w,b,rfl,hx,hw,hb,rfl⟩ |
    ⟨ip',x,entry,-,hx,hentry,hold,rfl⟩
  · exact sound_getLimiter h hx request ip'
  · rw [prompt,hw,all_some,decide_eq_true_iff] at hprompt
    exact sound_allow h hx hw hb hprompt
  · exact sound_evict h hx hentry hold

end RateLimiter

def Label.remoteAddr? : Label → Option String
  | .getLimiter _ ip _ => some ip
  | _ => none
def host (remoteAddr : String) : String :=
  String.ofList ((remoteAddr.toList.reverse.dropWhile (· != ':')).drop 1).reverse

namespace RateLimiter

def admittedIn (s : RateLimiter) (client : String) (u v : Nat) : Nat :=
  s.admitted.countP fun x => host x.1 == client&&(decide (u≤x.2)&&decide (x.2≤v))

/- The addresses of the requests satisfy `P`. -/
structure Within (P : String → Prop) (s : RateLimiter) : Prop where
  admitted : ∀ x∈s.admitted, P x.1
  waiting : ∀ request w, s.waiting request=some w → P w.remoteAddr

theorem within_new (P : String → Prop) : Within P new := ⟨nofun,nofun⟩

variable {s : RateLimiter} {ip : String}
  {n : Nat} {l : Label}

theorem within_step {P : String → Prop} {t : RateLimiter} (h : Within P s)
    (hl : ∀ ip∈l.remoteAddr?, P ip) (hs : s.step l=some t) : Within P t := by
  rcases step_cases hs with ⟨request,ip,x,rfl,-,rfl⟩ | ⟨request,x,w,b,-,-,hw,-,rfl⟩ |
    ⟨ip,x,entry,-,-,-,-,rfl⟩
  · obtain ⟨i,hlooked⟩ := getLimiter_lookedUp s request ip x
    refine ⟨by rw [hlooked.admitted]; exact h.admitted,?_⟩
    rw [hlooked.waiting]
    intro request' w hw
    rcases update_eq_some hw with ⟨-,heq⟩ | ⟨-,hw⟩
    · cases heq
      exact hl ip rfl
    · exact h.waiting request' w hw
  · obtain ⟨-,hwaiting,-⟩ := allow_frame s request w b x
    refine ⟨?_,?_⟩
    · unfold allow
      cases limits.take b x with
      | none => exact h.admitted
      | some b' =>
        intro y hy
        rcases mem_append.mp hy with hy | hy
        · exact h.admitted y hy
        · rw [mem_singleton.mp hy]
          exact h.waiting request w hw
    · rw [hwaiting]
      intro request' w' hw'
      rcases update_eq_some hw' with ⟨-,heq⟩ | ⟨-,hw'⟩
      · cases heq
      · exact h.waiting request' w' hw'
  · exact ⟨h.admitted,h.waiting⟩

theorem admittedIn_le {client : String} (h : Sound ip s)
    (hwithin : Within (fun a => host a=client → a=ip) s) (u d : Nat) :
    s.admittedIn client u (u+d)*second≤burst*second+rate*d := by
  have hcount : s.admittedIn client u (u+d) ≤
      (s.times ip).countP fun t => decide (u≤t)&&decide (t≤u+d) := by
    rw [times,countP_map,countP_filter]
    refine countP_mono_left fun x hx hp => ?_
    simp only [Bool.and_eq_true,beq_iff_eq] at hp
    simp only [Function.comp_apply,Bool.and_eq_true,beq_iff_eq]
    exact ⟨hp.2,hwithin.admitted x hx hp.1⟩
  have hwindow:=h.accounted.windows u (u+d) (Nat.le_add_right u d)
  rw [Nat.add_sub_cancel_left] at hwindow
  exact Nat.le_trans (Nat.mul_le_mul_right second hcount) hwindow

def volley (ip : String) : Nat → List Label
  | 0 => []
  | n+1 => volley ip n++[.getLimiter 0 ip 0,.allow 0 0]

/- The state after `n` requests of `ip` at the time 0. -/
structure Fired (s : RateLimiter) (ip : String) (n : Nat) (s' : RateLimiter) : Prop where
  now : s'.now=0
  idle : s'.waiting 0=none
  admitted : s'.admitted=s.admitted++replicate n (ip,0)
  limiter : ∀ entry, s'.visitors ip=some entry → ∃ b, (s'.limiters ip)[entry.limiter]?=some b
  level : s'.level ip 0+n*second=burst*second
  others : ∀ ip' ≠ ip, s'.visitors ip' = s.visitors ip'

theorem fired_zero (hnow : s.now=0) (hidle : s.waiting 0=none)
    (hnone : s.visitors ip=none) : Fired s ip 0 s := by
  have hlevel : s.level ip 0=burst*second := by
    rw [level,hnone]
    rfl
  exact ⟨hnow,hidle,(append_nil _).symm,by rw [hnone]; exact nofun,
    by rw [hlevel,Nat.zero_mul,Nat.add_zero],fun _ _ => rfl⟩

theorem fired_round {s' : RateLimiter} (h : Fired s ip n s') (hn : n<burst) :
    ∃ t, exec step s' [.getLimiter 0 ip 0,.allow 0 0]=some t ∧
      guarded step prompt s' [.getLimiter 0 ip 0,.allow 0 0] ∧ Fired s ip (n+1) t := by
  obtain ⟨i,hl⟩ := getLimiter_lookedUp s' 0 ip 0
  have hget : step s' (.getLimiter 0 ip 0)=some (s'.getLimiter 0 ip 0) := by
    simp only [step,h.now,h.idle]
    rfl
  have hwaiting : (s'.getLimiter 0 ip 0).waiting 0=some ⟨ip,i,0⟩ := by
    rw [hl.waiting,Function.update_self]
  obtain ⟨b,hb⟩ : ∃ b, ((s'.getLimiter 0 ip 0).limiters ip)[i]?=some b := by
    rcases hl.limiter with ⟨entry,hentry,rfl,hsame⟩ | ⟨-,hfull⟩
    · rw [hsame]
      exact h.limiter entry hentry
    · exact ⟨_,hfull⟩
  have hlevel : limits.levelAt b 0=s'.level ip 0 := by
    rw [← hl.level_eq]
    simp only [RateLimiter.level,hl.own,hb]
  have hcost : limits.cost≤limits.levelAt b 0 := by
    have hspent:=h.level
    have hmul:=Nat.mul_le_mul_right second hn
    rw [hlevel]
    change second ≤ s'.level ip 0
    rw [Nat.succ_mul] at hmul
    omega
  obtain ⟨b',htake⟩ : ∃ b', limits.take b 0=some b' := ⟨_,if_pos hcost⟩
  have hallow : step (s'.getLimiter 0 ip 0) (.allow 0 0) =
      some ((s'.getLimiter 0 ip 0).allow 0 ⟨ip,i,0⟩ b 0) := by
    rw [step,if_pos (Nat.le_of_eq hl.now),hwaiting,bind_some,hb,map_some]
  have hprompt : (s'.getLimiter 0 ip 0).prompt (.allow 0 0) := by
    rw [prompt,hwaiting,all_some,decide_eq_true_iff]
    exact Nat.zero_le _
  obtain ⟨hvisitors,hdone,hnow,-⟩ := allow_frame (s'.getLimiter 0 ip 0) 0 ⟨ip,i,0⟩ b 0
  refine ⟨(s'.getLimiter 0 ip 0).allow 0 ⟨ip,i,0⟩ b 0,?_,?_,?_⟩
  · rw [exec,hget,bind_some,exec,hallow]
    rfl
  · rw [guarded,hget]
    dsimp only
    rw [guarded,hprompt,hallow]
    rfl
  · have hnew:=limiter_allow 0 (w := ⟨ip,i,0⟩) hb htake
    refine ⟨hnow,?_,?_,?_,?_,?_⟩
    · rw [hdone,Function.update_self]
    · simp only [allow,htake,hl.admitted,h.admitted]
      rw [append_assoc,replicate_succ']
    · rw [hvisitors,hl.own]
      intro entry hentry
      cases hentry
      exact ⟨b',hnew⟩
    · have hafter : ((s'.getLimiter 0 ip 0).allow 0 ⟨ip,i,0⟩ b 0).level ip 0 =
          limits.levelAt b' 0 := by simp only [RateLimiter.level,hvisitors,hl.own,hnew]
      have htaken:=(limits.take_spec htake).2
      have hspent:=h.level
      change limits.levelAt b' 0+second=_ at htaken
      rw [hafter,Nat.succ_mul]
      omega
    · intro ip' hne
      rw [hvisitors,(hl.others ip' hne).1,h.others ip' hne]

theorem fired_volley (h : Fired s ip 0 s) (n : Nat) (hn : n≤burst) :
    ∃ t, exec step s (volley ip n)=some t ∧ guarded step prompt s (volley ip n) ∧ Fired s ip n t := by
  induction n with
  | zero => exact ⟨s,rfl,rfl,h⟩
  | succ n ih =>
    obtain ⟨t,hr,hg,hfired⟩ := ih (by omega)
    obtain ⟨u,hr',hg',hfired'⟩ := fired_round hfired hn
    refine ⟨u,?_,guarded_append hr hg hg',hfired'⟩
    rw [volley,exec_append_of hr,hr']

theorem remoteAddr?_volley (h : l∈volley ip n) : ∀ ip' ∈ l.remoteAddr?, ip' = ip := by
  induction n with
  | zero => cases h
  | succ n ih =>
    rcases mem_append.mp h with h | h
    · exact ih h
    · simp only [mem_cons,not_mem_nil,or_false] at h
      rcases h with rfl | rfl
      · intro ip' h'
        exact (some.inj h').symm
      · intro ip' h'
        cases h'

/- However many connections a client has: in every window it gets at most the burst and what
the rate allows, exactly if all of them have one remote address. -/
theorem admitted_bounded_iff (client : String) (addrs : Set String)
    (haddrs : ∀ ip∈addrs, host ip=client) :
    (∀ ls s, exec step new ls=some s → guarded step prompt new ls=true →
        (∀ l∈ls, ∀ ip∈l.remoteAddr?, host ip=client → ip∈addrs) →
        ∀ u d, s.admittedIn client u (u+d)*second≤burst*second+rate*d) ↔ addrs.Subsingleton := by
  constructor
  · intro h a ha b hb
    by_contra hne
    obtain ⟨s,hs,hgs,hfired⟩ := fired_volley
      (@fired_zero new a rfl rfl rfl) burst (Nat.le_refl _)
    obtain ⟨t,ht,hgt,hfired'⟩ := fired_volley
      (fired_zero hfired.now hfired.idle (hfired.others b (Ne.symm hne))) burst
      (Nat.le_refl _)
    have hrun : exec step new (volley a burst++volley b burst)=some t := by
      rw [exec_append_of hs,ht]
    have hfrom : ∀ l∈volley a burst++volley b burst, ∀ ip∈l.remoteAddr?,
        host ip=client → ip∈addrs := by
      intro l hl ip hip _
      rcases mem_append.mp hl with hl | hl
      · rw [remoteAddr?_volley hl ip hip]
        exact ha
      · rw [remoteAddr?_volley hl ip hip]
        exact hb
    have hcount : t.admittedIn client 0 0=burst+burst := by
      rw [admittedIn,hfired'.admitted,hfired.admitted]
      simp [new,countP_replicate,haddrs a ha,haddrs b hb]
    have hbound:=h _ t hrun (guarded_append hs hgs hgt) hfrom 0 0
    rw [hcount] at hbound
    simp only [burst,second,rate] at hbound
    omega
  · intro hone ls s hr hg hfrom u d
    have hsound : ∀ ip, Sound ip s := fun ip =>
      exec_invariant (I := Sound ip) (fun _ _ _ h hp hs => sound_step h hp hs) (sound_new ip) hg hr
    have hwithin : Within (fun ip => host ip=client → ip∈addrs) s :=
      exec_stable_of_mem (I := Within fun ip => host ip=client → ip∈addrs)
        (fun _ l _ hl h hs => within_step h (hfrom l hl) hs) (within_new _) hr
    rcases addrs.eq_empty_or_nonempty with hempty | ⟨a,ha⟩
    · refine admittedIn_le (hsound "") ⟨fun x hx hhost => ?_,fun r w hw hhost => ?_⟩ u d
      · have hmem:=hwithin.admitted x hx hhost
        rw [hempty] at hmem
        cases hmem
      · have hmem:=hwithin.waiting r w hw hhost
        rw [hempty] at hmem
        cases hmem
    · refine admittedIn_le (hsound a) ⟨fun x hx hhost => ?_,fun r w hw hhost => ?_⟩ u d
      · exact hone (hwithin.admitted x hx hhost) ha
      · exact hone (hwithin.waiting r w hw hhost) ha

theorem admitted_bounded_single : ∃ s, exec step new (volley "10.0.0.5:40001" burst)=some s ∧
      ∀ u d, s.admittedIn "10.0.0.5" u (u+d)*second≤burst*second+rate*d := by
  obtain ⟨s,hr,hg,-⟩ := fired_volley (@fired_zero new "10.0.0.5:40001" rfl rfl rfl) burst
    (Nat.le_refl _)
  refine ⟨s,hr,(admitted_bounded_iff "10.0.0.5" {"10.0.0.5:40001"} (by
    intro ip hip
    rw [hip]
    decide)).mpr Set.subsingleton_singleton _ s hr hg ?_⟩
  exact fun l hl ip hip _ => remoteAddr?_volley hl ip hip

theorem admitted_twice_burst :
    ∃ s, exec step new (volley "10.0.0.5:40001" 20++volley "10.0.0.5:40002" 20)=some s ∧
      s.admittedIn "10.0.0.5" 0 0=40 ∧ burst*second+rate*0<40*second := by
  obtain ⟨s,hr,hcount⟩ := exists_exec step new
    (volley "10.0.0.5:40001" 20++volley "10.0.0.5:40002" 20)
    (fun s => s.admittedIn "10.0.0.5" 0 0=40) (by decide +kernel)
  exact ⟨s,hr,hcount,by simp [burst,rate,second]⟩

end RateLimiter
end OpsAgent.RateLimit
