import OpsAgent.Config.Diff
import OpsAgent.GrpcClient.Client
import OpsAgent.Lib.GoTime

/-!
# The delays of `connectLoop` (`grpcclient/client.go`, `app/agent.go`)

The timers between two calls of `connect`.
-/

namespace OpsAgent.GrpcClient
open Lib.Exec List Option Int64
open Lib.GoTime (Duration)

def second : Duration := 1000000000

/- `ReconnectMaxSec` of the client that `NewAgent` makes. -/
def reconnectMaxSec (cfg : Config) : Int :=
  let sec:=cfg.grpc.reconnectMaxBackoffMS.tdiv 1000
  if sec≤0 then 60 else sec
def maxBackoff (cfg : Config) : Duration := Int64.ofInt (reconnectMaxSec cfg)*second
def nextBackoff (max backoff : Duration) : Duration :=
  if backoff*2 > max then max else backoff*2

structure Wait where
  retry : Bool
  delay : Duration
  deriving DecidableEq

variable {α : Type} {b : Duration}

structure Timed (α : Type) where
  client : Client α
  backoff : Duration
  waits : List Wait

def LoopPc.waiting : LoopPc α → Bool
  | .backoff => true
  | _ => false

def LoopPc.site : LoopPc α → Option Site
  | .dial site => some site
  | .openStream site _ => some site
  | .register site _ => some site
  | .store site _ => some site
  | .notifyUp site => some site
  | .replayDrain site => some site
  | .replayStream site _ => some site
  | .replaySend site _ _ => some site
  | .recache site _ => some site
  | _ => none

namespace Timed

def observe (max : Duration) (t : Timed α) (s : Client α) : Timed α :=
  if s.loop.waiting&&!t.client.loop.waiting then
    let retry:=t.client.loop.site == some .retry
    let delay := if retry then nextBackoff max t.backoff else second
    ⟨s,delay,t.waits++[⟨retry,delay⟩]⟩
  else {t with client := s}

def step [Inhabited α] (max : Duration) (encodable : α → Bool) (t : Timed α) (l : Label α) :
    Option (Timed α) :=
  (t.client.step encodable l).map (t.observe max)
def new [Inhabited α] (cacheMaxSize : Int) (onStateChange : Bool) : Timed α :=
  ⟨newClient cacheMaxSize onStateChange,second,[]⟩

end Timed

/- No delay is longer than the configured maximum, and none is shorter than the one before it if
the reconnect between them has failed. -/
structure Paced (maxMS : Int) (waits : List Wait) : Prop where
  bounded : ∀ w∈waits, w.delay.toInt ≤ maxMS*1000000
  rising : waits.IsChain fun w w' => w'.retry → w.delay≤w'.delay

theorem toInt_second : second.toInt=1000000000 := by decide

theorem toInt_double (hlow : 0≤b.toInt) (hhigh : b.toInt<1 <<< 62) : (b*2).toInt=b.toInt*2 := by
  have htwo : (2 : Duration).toInt=2 := by decide
  rw [toInt_mul,htwo,Int.bmod_def]
  split <;> omega

def Within (max b : Duration) : Prop := second.toInt≤b.toInt ∧ b.toInt ≤ max.toInt

variable {max : Duration} {t : Timed α}

theorem nextBackoff_within (hmax : max.toInt<1 <<< 62) (h : Within max b) :
    Within max (nextBackoff max b) ∧ b≤nextBackoff max b := by
  obtain ⟨hlow,hhigh⟩ := h
  have hdouble:=toInt_double (b := b) (by rw [toInt_second] at hlow; omega) (by omega)
  simp only [Within,Int64.le_iff_toInt_le,toInt_second] at hlow ⊢
  unfold nextBackoff
  split
  · omega
  next hle =>
    have hfits : (b*2).toInt ≤ max.toInt := Int64.le_iff_toInt_le.mp (Int64.not_lt.mp hle)
    omega

structure Steady (max : Duration) (t : Timed α) : Prop where
  current : Within max t.backoff
  waits : ∀ w∈t.waits, Within max w.delay
  rising : t.waits.IsChain fun w w' => w'.retry → w.delay≤w'.delay
  last : ∀ w∈t.waits.getLast?, w.delay=t.backoff

theorem Steady.observe (hmax : max.toInt<1 <<< 62)
    (hlong : Within max second) (h : Steady max t) (s : Client α) : Steady max (t.observe max s) := by
  unfold Timed.observe
  split
  · obtain ⟨hnext,hle⟩ := nextBackoff_within hmax h.current
    generalize (t.client.loop.site == some Site.retry)=retry
    dsimp only
    have hdelay : Within max (if retry then nextBackoff max t.backoff else second) := by
      cases retry with
      | true => exact hnext
      | false => exact hlong
    refine ⟨hdelay,?_,?_,by simp⟩
    · intro w hw
      rcases mem_append.mp hw with hw | hw
      · exact h.waits w hw
      · rw [mem_singleton.mp hw]
        exact hdelay
    · refine isChain_append.mpr ⟨h.rising,isChain_singleton _,?_⟩
      intro w hw w' hw' hretry
      cases hw'
      dsimp only at hretry ⊢
      rw [hretry,h.last w hw]
      exact hle
  · exact ⟨h.current,h.waits,h.rising,h.last⟩

def delay (max : Duration) : Nat → Duration
  | 0 => second
  | n+1 => nextBackoff max (delay max n)

variable [Inhabited α]

def failures (n : Nat) : List (Label α) :=
  [.start,.loop .fail]++(replicate n [.loop .timer,.loop .fail]).flatten

theorem exec_failedRetry (max : Duration) (encodable : α → Bool)
    (hloop : t.client.loop=.backoff) :
    exec (Timed.step max encodable) t [.loop .timer,.loop .fail] =
      some ⟨{t.client with loop := .backoff},nextBackoff max t.backoff,
        t.waits++[⟨true,nextBackoff max t.backoff⟩]⟩ := by
  have htimer : Timed.step max encodable t (.loop .timer) =
      some {t with client := {t.client with loop := .dial .retry} } := by
    simp [Timed.step,Client.step,Client.stepLoop,hloop,Timed.observe,LoopPc.waiting]
  rw [exec,htimer]
  rfl

theorem exec_failures (max : Duration) (encodable : α → Bool) (size : Int) (callback : Bool) (n : Nat) :
    ∃ t : Timed α, exec (Timed.step max encodable) (.new size callback) (failures n)=some t ∧
      t.client.loop=.backoff ∧ t.backoff=delay max n ∧
      t.waits=(range (n+1)).map fun k => ⟨decide (k≠0),delay max k⟩ := by
  induction n with
  | zero => exact ⟨_,rfl,rfl,rfl,rfl⟩
  | succ n ih =>
    obtain ⟨t,ht,hloop,hback,hwaits⟩ := ih
    have hmore : (failures (n+1) : List (Label α))=failures n++[.loop .timer,.loop .fail] := by
      rw [failures,failures,replicate_succ',flatten_append,append_assoc]
      rfl
    rw [hmore,exec_append_of ht,exec_failedRetry max encodable hloop]
    refine ⟨_,rfl,rfl,by rw [hback,delay],?_⟩
    rw [range_succ (n := n+1),map_append,← hwaits,hback]
    simp [delay]

theorem delay_le_of_rising {n : Nat}
    (h : ((range (n+2)).map fun k => (⟨decide (k≠0),delay max k⟩ : Wait)).IsChain
      fun w w' => w'.retry=true → w.delay≤w'.delay) : delay max n≤delay max (n+1) := by
  have hpair:=isChain_iff_getElem.mp h n (by simp)
  simpa using hpair

theorem delay_pow (hmax : 1 <<< 62 ≤ max.toInt) (n : Nat) (hn : n≤32) :
    (delay max n).toInt=1000000000*2^n := by
  induction n with
  | zero => exact toInt_second
  | succ n ih =>
    have hd:=ih (by omega)
    have hpow : (2 : Int)^n≤2^31 := pow_le_pow_right₀ (by decide) (by omega)
    have hpos : (0 : Int)<2^n := by positivity
    have hdouble:=toInt_double (b := delay max n) (by omega) (by omega)
    have hle : ¬ delay max n*2 > max := by
      rw [gt_iff_lt,lt_iff_toInt_lt,hdouble]
      omega
    rw [delay,nextBackoff,if_neg hle,hdouble,hd,pow_succ]
    ring

theorem delay_overflows (hmax : 1 <<< 62 ≤ max.toInt) : delay max 34<delay max 33 := by
  have hlast:=delay_pow hmax 32 (Nat.le_refl 32)
  have hdouble:=toInt_double (b := delay max 32) (by omega) (by omega)
  have hlong : 1 <<< 62≤(delay max 33).toInt := by
    rw [delay,nextBackoff]
    split <;> omega
  have hwrap : (delay max 33*2).toInt<0 := by
    have htwo : (2 : Duration).toInt=2 := by decide
    have hfit:=toInt_lt (delay max 33)
    rw [toInt_mul,htwo,Int.bmod_def]
    split <;> omega
  have hle : ¬ delay max 33*2 > max := by
    rw [gt_iff_lt,lt_iff_toInt_lt]
    omega
  rw [delay,nextBackoff,if_neg hle,lt_iff_toInt_lt]
  omega

theorem maxBackoff_le {cfg : Config} (h : 1000≤cfg.grpc.reconnectMaxBackoffMS) :
    (maxBackoff cfg).toInt≤cfg.grpc.reconnectMaxBackoffMS*1000000 := by
  generalize hms : cfg.grpc.reconnectMaxBackoffMS=ms at h
  have hsec : reconnectMaxSec cfg=ms / 1000 := by
    rw [reconnectMaxSec,hms,Int.tdiv_eq_ediv_of_nonneg (by omega)]
    exact if_neg (by omega)
  have hmul : (maxBackoff cfg).toInt=(ms / 1000*1000000000).bmod 18446744073709551616 := by
    rw [maxBackoff,hsec,toInt_mul,toInt_ofInt,toInt_second]
    exact Int.bmod_mul_bmod
  have hwrap:=Lib.GoTime.bmod_le_self (n := ms / 1000*1000000000) (by omega)
  omega

/-- The delays stay within the configured maximum and do not shrink between failures exactly if the
maximum is at least a second and fits twice into a duration. -/
theorem delays_paced_iff (cfg : Config) (encodable : α → Bool) : (∀ size callback ls (t : Timed α),
        exec (Timed.step (maxBackoff cfg) encodable) (.new size callback) ls=some t →
        Paced cfg.grpc.reconnectMaxBackoffMS t.waits) ↔
      1000≤cfg.grpc.reconnectMaxBackoffMS ∧ second ≤ maxBackoff cfg ∧ (maxBackoff cfg).toInt<1 <<< 62 := by
  constructor
  · intro h
    have hfailures : ∀ n, Paced cfg.grpc.reconnectMaxBackoffMS
        ((range (n+1)).map fun k => ⟨decide (k≠0),delay (maxBackoff cfg) k⟩) := by
      intro n
      obtain ⟨t,ht,-,-,hwaits⟩ := exec_failures (α := α) (maxBackoff cfg) encodable 0 false n
      rw [← hwaits]
      exact h 0 false (failures n) t ht
    have hfirst:=(hfailures 0).bounded ⟨false,second⟩ mem_cons_self
    have hsecond : second≤nextBackoff (maxBackoff cfg) second :=
      delay_le_of_rising (n := 0) (hfailures 1).rising
    rw [toInt_second] at hfirst
    refine ⟨?_,?_,?_⟩
    · omega
    · unfold nextBackoff at hsecond
      split at hsecond
      · exact hsecond
      next hle => exact Int64.le_trans (by decide) (Int64.not_lt.mp hle)
    · by_contra hlong
      have hle:=delay_le_of_rising (n := 33) (hfailures 34).rising
      exact absurd (delay_overflows (by omega)) (Int64.not_lt.mpr hle)
  · rintro ⟨hms,hlow,hhigh⟩ size callback ls t ht
    have hlong : Within (maxBackoff cfg) second :=
      ⟨Int.le_refl _,Int64.le_iff_toInt_le.mp hlow⟩
    have hinit : Steady (maxBackoff cfg) (Timed.new size callback : Timed α) :=
      ⟨hlong,fun w hw => absurd hw not_mem_nil,.nil,fun w hw => by cases hw⟩
    have hsteady : Steady (maxBackoff cfg) t := by
      refine exec_stable (I := Steady (maxBackoff cfg)) ?_ hinit ht
      intro s l u hs hstep
      obtain ⟨c,-,rfl⟩ := map_eq_some_iff.mp hstep
      exact hs.observe hhigh hlong c
    refine ⟨fun w hw => ?_,hsteady.rising⟩
    exact Int.le_trans (hsteady.waits w hw).2 (maxBackoff_le hms)

def halfSecond : Config :=
  {Config.plain with grpc := {Config.plain.grpc with reconnectMaxBackoffMS := 500} }

theorem delays_exceed_maximum : halfSecond.validate=none ∧ maxBackoff halfSecond=60*second ∧
      ∃ t : Timed Nat, exec (Timed.step (maxBackoff halfSecond) fun _ => true) (.new 0 false)
          (failures 2)=some t ∧ t.waits=[⟨false,second⟩,⟨true,2*second⟩,⟨true,4*second⟩] ∧
        ¬ Paced 500 t.waits := by
  refine ⟨by decide +kernel,by decide +kernel,?_⟩
  obtain ⟨t,ht,-,-,hwaits⟩ := exec_failures (α := Nat) (maxBackoff halfSecond) (fun _ => true) 0 false 2
  have hlist : t.waits=[⟨false,second⟩,⟨true,2*second⟩,⟨true,4*second⟩] :=
    hwaits.trans (by decide)
  refine ⟨t,ht,hlist,fun h => ?_⟩
  have hbound:=h.bounded ⟨false,second⟩ (by rw [hlist]; exact mem_cons_self)
  exact absurd hbound (by decide)

end OpsAgent.GrpcClient
