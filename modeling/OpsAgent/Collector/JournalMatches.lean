import OpsAgent.Collector.Journald
import OpsAgent.Lib.MatchGroups

/-!
# Which entries of the journal the journald input selects

Fields of a group are all required, values of a field are alternatives, and so are groups.
-/

namespace OpsAgent.Collector.Journald
open Lib Lib.GoValue List
open Lib.MatchGroups

/- What `Gather` calls on the journal before it seeks. -/
inductive MatchCall where
  | addMatch (text : String)
  | addDisjunction

def unitMatches (j : JournaldInput) : List String :=
  j.units.map fun u => "_SYSTEMD_UNIT="++unitSuffix u
def priorityMatches (j : JournaldInput) : List String :=
  (range (j.priorityVal+1)).map fun i => "PRIORITY="++toString i
def matchCalls (j : JournaldInput) : List MatchCall :=
  (unitMatches j).map .addMatch ++ .addDisjunction::(priorityMatches j).map .addMatch

/- The journal cuts a match at its first `=`. -/
def splitMatch (text : String) : String × String :=
  (String.ofList (text.toList.takeWhile (· != '=')),
    String.ofList ((text.toList.dropWhile (· != '=')).drop 1))
def MatchCall.meaning : MatchCall → Call String String
  | .addMatch text => .addMatch (splitMatch text)
  | .addDisjunction => .addDisjunction

/- The filter of the journal when `Gather` starts to read. -/
def journalFilter (j : JournaldInput) : Filter String String :=
  Filter.build ((matchCalls j).map MatchCall.meaning)
def Entry.has (e : Entry) (field value : String) : Bool := e.fields.lookup field == some value

theorem splitMatch_of {text field v : String} (htext : text.toList=field.toList ++ '=' :: v.toList)
    (hfield : field.toList.all (· != '=')=true) : splitMatch text=(field,v) := by
  rw [all_eq_true] at hfield
  have htake : text.toList.takeWhile (· != '=')=field.toList := by
    rw [htext,takeWhile_append_of_pos hfield]
    simp
  have hdrop : text.toList.dropWhile (· != '=') = '=' :: v.toList := by
    rw [htext,dropWhile_append_of_pos hfield]
    simp
  simp [splitMatch,htake,hdrop]

theorem journalFilter_eq (j : JournaldInput) : journalFilter j =
      ⟨[(j.units.map unitSuffix).map ("_SYSTEMD_UNIT",·)],
        ((range (j.priorityVal+1)).map fun i => toString i).map ("PRIORITY",·)⟩ := by
  have hunit : ∀ v, splitMatch ("_SYSTEMD_UNIT="++v)=("_SYSTEMD_UNIT",v) :=
    fun v => splitMatch_of (by simp) (by decide)
  have hpriority : ∀ v, splitMatch ("PRIORITY="++v)=("PRIORITY",v) :=
    fun v => splitMatch_of (by simp) (by decide)
  rw [journalFilter,← Filter.build_disjunction]
  simp only [matchCalls,unitMatches,priorityMatches,map_append,map_cons,
    map_map,Function.comp_def,MatchCall.meaning,hunit,hpriority]

/- The entries that the journal lets pass are those that `Gather` goes through. -/
theorem accepts_journalFilter (j : JournaldInput) (e : Entry) :
    (journalFilter j).accepts e.has=passes j e := by
  rw [journalFilter_eq,Filter.accepts_two _ _ _ _ _ (by simp)]
  simp only [any_map,passes]
  rfl

/- The unit is a configured one, and the priority is that of `j` or a more severe one. -/
structure Wanted (quote : String → String) (j : JournaldInput) (e : Entry) : Prop where
  unit : j.units=[] ∨
    ∃ u∈j.units, e.fields.lookup "_SYSTEMD_UNIT"=some (unitSuffix u)
  priority : ∃ p, parsePriority quote j.priority=.ok p ∧
    ∃ i≤p, e.fields.lookup "PRIORITY"=some (toString i)

variable {j : JournaldInput} {quote : String → String}

theorem passes_of_no_units (hunits : j.units=[]) (e : Entry) : passes j e ↔
      ∃ i≤j.priorityVal, e.fields.lookup "PRIORITY"=some (toString i) := by
  simp [passes,hunits,Nat.lt_succ_iff]

theorem init_priority {settings : List (String × Val)} (h : init quote (some settings)=.ok j) :
    parsePriority quote j.priority=.ok j.priorityVal := by
  simp only [init] at h
  cases hunits : parseUnits (settings.lookup "units") with
  | error err => simp [hunits,bind,Except.bind] at h
  | ok units =>
    cases hname : parseString "priority" "info" (settings.lookup "priority") with
    | error err => simp [hunits,hname,bind,Except.bind] at h
    | ok priority =>
      cases hpath : parseString "cursor_persist_path" "" (settings.lookup "cursor_persist_path") with
      | error err => simp [hunits,hname,hpath,bind,Except.bind] at h
      | ok path =>
        cases hvalue : parsePriority quote priority with
        | error err => simp [hunits,hname,hpath,hvalue,bind,Except.bind] at h
        | ok value =>
          simp only [hunits,hname,hpath,hvalue,bind,Except.bind,pure,Except.pure,
            Except.ok.injEq] at h
          subst h
          exact hvalue

def kernelEntry (priority : String) : Entry :=
  ⟨(∅ : StringMap String).insert "PRIORITY" priority,0⟩

theorem passes_kernelEntry (j : JournaldInput) : passes j (kernelEntry "0") := by
  simp only [passes,Bool.or_eq_true,any_eq_true]
  exact .inr ⟨0,by simp,by decide⟩

theorem not_wanted_kernelEntry (hunits : j.units≠[]) : ¬ Wanted quote j (kernelEntry "0") := by
  intro hwanted
  rcases hwanted.unit with hnil | ⟨u,-,hu⟩
  · exact hunits hnil
  · have hnone : (kernelEntry "0").fields.lookup "_SYSTEMD_UNIT"=none := by decide
    cases hnone.symm.trans hu

/- Exactly the wanted entries are selected if no units are configured and the settings are not
a nil map, and only then. -/
theorem selects_wanted_iff (quote : String → String) (cfg : AnyMap) (j : JournaldInput)
    (h : init quote cfg=.ok j) : (∀ e, (journalFilter j).accepts e.has=true ↔ Wanted quote j e) ↔
      j.units=[] ∧ cfg≠none := by
  simp only [accepts_journalFilter]
  constructor
  · intro hsel
    have hunits : j.units=[] := by
      by_contra hne
      exact not_wanted_kernelEntry hne ((hsel _).mp (passes_kernelEntry j))
    refine ⟨hunits,?_⟩
    -- without settings the priority stays 0, although it is called `info`
    intro hnone
    subst hnone
    simp only [init,Except.ok.injEq] at h
    subst h
    have hinfo : Wanted quote ⟨[],"info","",0⟩ (kernelEntry "6") :=
      ⟨.inl rfl,6,rfl,6,Nat.le_refl 6,by decide⟩
    have hpass:=(hsel _).mpr hinfo
    exact absurd hpass (by decide)
  · rintro ⟨hunits,hcfg⟩ e
    obtain ⟨settings,rfl⟩ := Option.ne_none_iff_exists'.mp hcfg
    have hpriority:=init_priority h
    rw [passes_of_no_units hunits]
    constructor
    · intro hi
      exact ⟨.inl hunits,j.priorityVal,hpriority,hi⟩
    · intro hwanted
      obtain ⟨p,hp,hi⟩ := hwanted.priority
      rw [hpriority,Except.ok.injEq] at hp
      rw [hp]
      exact hi

def errSettings : AnyMap := some [("priority",.str "err")]

theorem selects_wanted_errors : ∃ j, init id errSettings=.ok j ∧
      ∀ e, (journalFilter j).accepts e.has=true ↔ Wanted id j e :=
  ⟨⟨[],"err","",3⟩,rfl,
    (selects_wanted_iff id errSettings ⟨[],"err","",3⟩ rfl).mpr ⟨rfl,by decide⟩⟩

def nginxSettings : AnyMap := some [("units",.seq [.str "nginx"]),("priority",.str "err")]
def unitEntry (unit priority : String) : Entry :=
  ⟨((∅ : StringMap String).insert "_SYSTEMD_UNIT" unit).insert "PRIORITY" priority,0⟩

/- Errors of `nginx` are asked for. Errors of another unit are selected too, and so are the
debug messages of `nginx`. -/
theorem selects_unwanted : ∃ j, init id nginxSettings=.ok j ∧
      (journalFilter j).accepts (unitEntry "sshd.service" "3").has=true ∧
      ¬ Wanted id j (unitEntry "sshd.service" "3") ∧
      (journalFilter j).accepts (unitEntry "nginx.service" "7").has=true ∧
      ¬ Wanted id j (unitEntry "nginx.service" "7") := by
  refine ⟨⟨["nginx"],"err","",3⟩,rfl,by decide +kernel,?_,by decide +kernel,?_⟩
  · intro hwanted
    have hunit:=hwanted.unit
    revert hunit
    decide
  · intro hwanted
    obtain ⟨p,hp,i,hi,hlookup⟩ := hwanted.priority
    have hthree : p=3 := (Except.ok.inj hp).symm
    have hbelow : ∀ i≤3, some "7"≠some (toString i) := by decide
    subst hthree
    exact hbelow i hi hlookup

end OpsAgent.Collector.Journald
