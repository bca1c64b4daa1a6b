import OpsAgent.Lib.FirstByKey
import OpsAgent.Lib.GoStrings
import OpsAgent.Lib.SortedMap

/-!
# A discovery run (`discovery/discovery.go`, `discovery/proc.go`)

What a layer answers is a parameter, except for the layer that reads `/proc`. It ranges over a map,
and the order is any order of the entries.
-/

namespace OpsAgent.Discovery
open Lib Lib.GoStrings Lib.FirstByKey List

inductive ServiceType
  | process | systemd | container | cloudMetadata

def ServiceType.text : ServiceType → GoString
  | .process => utf8 "process"
  | .systemd => utf8 "systemd"
  | .container => utf8 "container"
  | .cloudMetadata => utf8 "cloud_metadata"

structure Service where
  name : GoString
  type : ServiceType
  pid : Int
  ports : List Nat
  metadata : List (GoString × GoString)
  discoveredAt : Nat

def dedupKey (s : Service) : GoString := s.type.text++utf8 ":"++s.name

abbrev LayerResult := Except String (List Service)

def addService (now : Nat) (acc : List GoString × List Service) (svc : Service) :
    List GoString × List Service :=
  if dedupKey svc∈acc.1 then acc
  else (dedupKey svc::acc.1,acc.2++[{svc with discoveredAt := now}])
def addLayer (now : Nat) (acc : List GoString × List Service) : LayerResult → List GoString × List Service
  | .error _ => acc
  | .ok services => services.foldl (addService now) acc
def discover (now : Nat) (layers : List LayerResult) : List Service :=
  (layers.foldl (addLayer now) ([],[])).2

structure Conn where
  status : GoString
  pid : Int
  port : Nat
  deriving DecidableEq

def Conn.listening (c : Conn) : Bool := c.status=utf8 "LISTEN"&&c.pid≠0&&c.port≠0

def addConn (pidMap : SortedMap Int (List Nat)) (c : Conn) : SortedMap Int (List Nat) :=
  if c.listening then
    let ports:=(pidMap.get? c.pid).getD []
    pidMap.insert c.pid (if c.port∈ports then ports else ports++[c.port])
  else pidMap
def pidMap (conns : List Conn) : SortedMap Int (List Nat) := conns.foldl addConn .empty

/-- What the system says of a process: its name, its command line and the file `comm`. -/
structure ProcInfo where
  (name cmdline comm : Option GoString)

def procDetails (pid : Int) (p : ProcInfo) : GoString × GoString :=
  let name:=p.name.getD []
  let name := if name=[] then (p.comm.map trimSpaces).getD [] else name
  (if name=[] then utf8 "pid-"++decimal pid else name,p.cmdline.getD [])

variable (proc : Int → ProcInfo) (now : Nat)

def procService (e : Int × List Nat) : Service :=
  let (name,cmdline) := procDetails e.1 (proc e.1)
  ⟨name,.process,e.1,e.2,[(utf8 "cmdline",cmdline)],now⟩

/- `ctxErr` is the answer of `ctx.Err` in each turn. -/
def procServices (ctxErr : Nat → Option String) : List (Int × List Nat) → LayerResult
  | [] => .ok []
  | e::order => match ctxErr 0 with
    | some err => .error err
    | none => (procServices (fun i => ctxErr (i+1)) order).map (procService proc now e :: ·)

/- `order` is the order in which the loop visits the map. -/
def procDiscover (conns : Except String (List Conn)) (ctxErr : Nat → Option String)
    (order : List (Int × List Nat)) : LayerResult :=
  match conns with
  | .error err => .error ("proc: failed to get connections: "++err)
  | .ok _ => procServices proc now ctxErr order

theorem pidMap_concat (conns : List Conn) (c : Conn) : pidMap (conns++[c])=addConn (pidMap conns) c :=
  foldl_concat ..

theorem port_mem_pidMap {conns : List Conn} {c : Conn} (hc : c∈conns) (h : c.listening) :
    ∃ ports, (pidMap conns).get? c.pid=some ports ∧ c.port∈ports := by
  induction conns using List.reverseRecOn with
  | nil => cases hc
  | append_singleton conns d ih =>
    rw [pidMap_concat,addConn]
    rcases mem_append.mp hc with hc | hc
    · obtain ⟨ports,hget,hport⟩ := ih hc
      split
      · rw [SortedMap.get?_insert]
        split
        next hpid =>
          rw [← hpid,hget]
          refine ⟨_,rfl,?_⟩
          split
          · exact hport
          · exact mem_append_left _ hport
        next => exact ⟨ports,hget,hport⟩
      · exact ⟨ports,hget,hport⟩
    · cases mem_singleton.mp hc
      rw [if_pos h,SortedMap.get?_insert_self]
      refine ⟨_,rfl,?_⟩
      split
      · assumption
      · exact mem_append_right _ mem_cons_self

theorem listening_of_pidMap {conns : List Conn} {pid : Int} (h : ((pidMap conns).get? pid).isSome) :
    ∃ c∈conns, c.listening ∧ c.pid=pid := by
  induction conns using List.reverseRecOn with
  | nil => cases h
  | append_singleton conns d ih =>
    by_cases hd : d.listening ∧ d.pid=pid
    · exact ⟨d,mem_append_right _ mem_cons_self,hd⟩
    · have hsome : ((pidMap conns).get? pid).isSome := by
        rw [pidMap_concat,addConn] at h
        split at h
        next hl =>
          rwa [SortedMap.get?_insert_of_ne _ _ fun heq => hd ⟨hl,heq.symm⟩] at h
        next => exact h
      obtain ⟨c,hc,hspec⟩ := ih hsome
      exact ⟨c,mem_append_left _ hc,hspec⟩

def found : LayerResult → List Service
  | .error _ => []
  | .ok services => services
def stamp (svc : Service) : Service := {svc with discoveredAt := now}
def stamped (layers : List LayerResult) : List Service := (layers.flatMap found).map (stamp now)

theorem discover_eq (layers : List LayerResult) :
    discover now layers=firsts dedupKey (stamped now layers) := by
  have hlayer : addLayer now=fun acc r => (found r).foldl (addService now) acc := by
    funext acc r
    cases r <;> rfl
  have hadd : addService now=fun acc svc => keep dedupKey acc (stamp now svc) := by
    funext acc svc
    by_cases h : dedupKey svc∈acc.1
    · exact (if_pos h).trans (if_pos h).symm
    · exact (if_neg h).trans (if_neg h).symm
  have hfold:=congrArg Prod.snd (foldl_keep dedupKey (stamped now layers))
  rw [stamped,foldl_map,foldl_flatMap] at hfold
  rw [discover,hlayer,hadd]
  exact hfold

theorem procServices_ok (order : List (Int × List Nat)) :
    procServices proc now (fun _ => none) order=.ok (order.map (procService proc now)) := by
  induction order with
  | nil => rfl
  | cons e order ih =>
    rw [procServices,ih]
    rfl

variable (before after : List LayerResult) (conns : List Conn) (order : List (Int × List Nat))

/-- A run whose context is not cancelled and where the connections can be listed. -/
def run : List Service :=
  discover now (before++procDiscover proc now (.ok conns) (fun _ => none) order::after)

theorem run_eq : run proc now before after conns order =
    firsts dedupKey (stamped now before++(order.map (procService proc now)++stamped now after)) := by
  have hstamp : (order.map (procService proc now)).map (stamp now)=order.map (procService proc now) := by
    rw [map_map]
    rfl
  simp only [run,discover_eq,procDiscover,procServices_ok,stamped,flatMap_append,flatMap_cons,map_append,
    found,hstamp]

theorem process_key {a b : Service} (ha : a.type=.process) (h : dedupKey b=dedupKey a) :
    b.type=.process ∧ b.name=a.name := by
  rw [dedupKey,dedupKey,ha] at h
  cases hb : b.type with
  | process =>
    rw [hb] at h
    exact ⟨rfl,append_cancel_left h⟩
  | systemd | container | cloudMetadata =>
    rw [hb] at h
    cases h

def NamesDistinct : Prop :=
  ∀ c∈conns, ∀ d∈conns, c.listening → d.listening →
    (procDetails c.pid (proc c.pid)).1=(procDetails d.pid (proc d.pid)).1 → c.pid=d.pid

variable {proc now before after conns order}
  (hother : ∀ r∈before++after, ∀ svc∈found r, svc.type≠.process)
  (horder : order.Perm (pidMap conns).entries) {svc : Service}

include horder in
theorem nodup_keys (h : NamesDistinct proc conns) :
    ((order.map (procService proc now)).map dedupKey).Nodup := by
  rw [map_map,(horder.map _).nodup_iff]
  refine Nodup.map_on ?_ (Nodup.of_map Prod.fst (pidMap conns).nodup_keys)
  intro e he f hf hkey
  have hget:=SortedMap.mem_entries.mp he
  have hget':=SortedMap.mem_entries.mp hf
  obtain ⟨c,hc,hlc,hpc⟩ := listening_of_pidMap (Option.isSome_of_eq_some hget)
  obtain ⟨d,hd,hld,hpd⟩ := listening_of_pidMap (Option.isSome_of_eq_some hget')
  have hpid : e.1=f.1 := by
    rw [← hpc,← hpd]
    refine h c hc d hd hlc hld ?_
    rw [hpc,hpd]
    exact (process_key rfl hkey).2
  rw [hpid,hget'] at hget
  exact Prod.ext hpid (Option.some.inj hget).symm

include hother in
theorem other_type (h : svc∈stamped now before++stamped now after) : svc.type≠.process := by
  rw [stamped,stamped,← map_append,← flatMap_append] at h
  obtain ⟨s,hs,rfl⟩ := mem_map.mp h
  obtain ⟨r,hr,hs⟩ := mem_flatMap.mp hs
  exact hother r hr s hs

include hother in
theorem name_of_process (h : svc∈run proc now before after conns order)
    (ht : svc.type=.process) : svc.name=(procDetails svc.pid (proc svc.pid)).1 := by
  rw [run_eq] at h
  have hmem:=mem_of_mem_firsts h
  rw [mem_append,mem_append] at hmem
  rcases hmem with hmem | hmem | hmem
  · exact absurd ht (other_type hother (mem_append_left _ hmem))
  · obtain ⟨e,-,rfl⟩ := mem_map.mp hmem
    rfl
  · exact absurd ht (other_type hother (mem_append_right _ hmem))

include hother horder in
theorem run_perm (h : NamesDistinct proc conns) : (run proc now before after conns order).Perm
    (order.map (procService proc now)++firsts dedupKey (stamped now before++stamped now after)) := by
  rw [run_eq]
  refine firsts_insert (nodup_keys horder h) ?_
  intro a ha b hb hkey
  obtain ⟨e,-,rfl⟩ := mem_map.mp ha
  exact other_type hother hb (process_key rfl hkey).1

/-- Every port that a process listens on is found, and the result is the same up to its order for
every order of the map, exactly if no two of the processes share a name. -/
theorem discovery_complete_iff (proc : Int → ProcInfo) (now : Nat) (before after : List LayerResult)
    (hother : ∀ r∈before++after, ∀ svc∈found r, svc.type≠.process) (conns : List Conn) :
    (∀ order : List (Int × List Nat), order.Perm (pidMap conns).entries →
      (∀ c∈conns, c.listening → ∃ svc∈run proc now before after conns order,
        svc.type=.process ∧ svc.pid=c.pid ∧ c.port∈svc.ports) ∧
      ∀ order' : List (Int × List Nat), order'.Perm (pidMap conns).entries →
        (run proc now before after conns order).Perm (run proc now before after conns order')) ↔
      NamesDistinct proc conns := by
  constructor
  · intro h c hc d hd hlc hld hname
    obtain ⟨a,ha,hta,hpa,-⟩ := (h _ (.refl _)).1 c hc hlc
    obtain ⟨b,hb,htb,hpb,-⟩ := (h _ (.refl _)).1 d hd hld
    have hkey : dedupKey a=dedupKey b := by
      rw [dedupKey,dedupKey,hta,htb,name_of_process hother ha hta,name_of_process hother hb htb,hpa,hpb,
        hname]
    rw [run_eq] at ha hb
    rw [← hpa,← hpb,key_unique ha hb hkey]
  · intro h order horder
    have hrun : (run proc now before after conns order).Perm _ := run_perm hother horder h
    refine ⟨fun c hc hlc => ?_,fun order' horder' => ?_⟩
    · obtain ⟨ports,hget,hport⟩ := port_mem_pidMap hc hlc
      have hmem:=mem_map_of_mem (f := procService proc now)
        (horder.mem_iff.mpr (SortedMap.mem_entries.mpr hget))
      exact ⟨_,hrun.mem_iff.mpr (mem_append_left _ hmem),rfl,rfl,hport⟩
    · have hsame:=(horder.trans horder'.symm).map (procService proc now)
      exact hrun.trans ((hsame.append_right _).trans (run_perm hother horder' h).symm)

def twoConns : List Conn := [⟨utf8 "LISTEN",10,80⟩,⟨utf8 "LISTEN",20,8080⟩]

theorem discovery_complete_unnamed : ∃ svc∈run (fun _ => ⟨none,none,none⟩) 0 [] [] twoConns
    (pidMap twoConns).entries, svc.type=.process ∧ svc.pid=20 ∧ 8080∈svc.ports := by
  have hnames : NamesDistinct (fun _ => ⟨none,none,none⟩) twoConns := by
    unfold NamesDistinct
    decide
  have h:=(discovery_complete_iff _ 0 [] [] (by simp) twoConns).mpr hnames
  exact (h _ (.refl _)).1 ⟨utf8 "LISTEN",20,8080⟩ (by decide) (by decide)

theorem discovery_loses_namesake :
    let found (order : List (Int × List Nat)) : List (Int × List Nat) :=
      (run (fun _ => ⟨some (utf8 "nginx"),none,none⟩) 0 [] [] twoConns order).map fun svc => (svc.pid,svc.ports)
    (pidMap twoConns).entries=[(10,[80]),(20,[8080])] ∧
      found [(10,[80]),(20,[8080])]=[(10,[80])] ∧ found [(20,[8080]),(10,[80])]=[(20,[8080])] := by
  decide

end OpsAgent.Discovery
