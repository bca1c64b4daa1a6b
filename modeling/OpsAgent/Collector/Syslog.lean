import OpsAgent.Lib.GoSlices
import OpsAgent.Lib.TimeLayout

/-!
# The syslog parser (`collector/inputs/syslog/parser.go`)

A panic is `none`, an error is in the `Except` below it, so that every slice expression of the
source is here with its bounds.
-/

namespace OpsAgent.Collector.Syslog
open Lib Lib.GoSlices Lib.TimeLayout List Option
open Lib.Atoi (atoi AtoiError isDigit)
open Lib.GoStrings (GoString utf8)
open Lib.GoTime (Time)

structure Message where
  (facility severity : Int)
  timestamp : Time
  (hostname appName procID msgID message : GoString)

def Message.empty : Message := ⟨0,0,0,[],[],[],[],[]⟩

/- `none` is a panic. -/
abbrev Result (α : Type) := ExceptT String Option α

def decodePriority (pri : Int) : Int × Int := (pri.tdiv 8,pri.tmod 8)

def cutField (err : String) (data : GoString) : Result (GoString × GoString) :=
  match indexByte data 0x20 with
  | none => throw err
  | some space => do
    let text ← sliceTo data space
    let rest ← sliceFrom data (space+1)
    return (text,rest)

def skipSpace (data : GoString) : GoString :=
  match data with
  | 0x20::rest => rest
  | _ => data

/- `2006-01-02T15:04:05.999999999Z07:00` -/
def rfc3339Nano : Layout :=
  [([],.longYear),(utf8 "-",.zeroMonth),(utf8 "-",.zeroDay),(utf8 "T",.hour),
    (utf8 ":",.zeroMinute),(utf8 ":",.zeroSecond),([],.fracSecond9),([],.iso8601ColonTZ)]

def skipStructuredData (data : GoString) : Result GoString :=
  if data.head?=some 0x2d then return skipSpace (data.drop 1)
  else match indexByte data 0x5d with
    | some idx => do
      let rest ← sliceFrom data (idx+1)
      return skipSpace rest
    | none => return data

def parseRFC5424 (data : GoString) (msg : Message) : Result Message := do
  let (_,data) ← cutField "syslog 5424: missing version" data
  let (stamp,data) ← cutField "syslog 5424: missing timestamp" data
  let msg := {msg with timestamp := (TimeLayout.parse rfc3339Nano stamp).getD msg.timestamp}
  let (hostname,data) ← cutField "syslog 5424: missing hostname" data
  let (appName,data) ← cutField "syslog 5424: missing appname" data
  let (procID,data) ← cutField "syslog 5424: missing procid" data
  let (msgID,data) ← cutField "syslog 5424: missing msgid" data
  let data ← skipStructuredData data
  return { msg with
    hostname := hostname, appName := appName, procID := procID, msgID := msgID, message := data}

/- `Jan  2 15:04:05`, and with one blank `Jan 2 15:04:05` -/
def stampLayout (blanks : GoString) : Layout :=
  [([],.month),(blanks,.day),(utf8 " ",.hour),(utf8 ":",.zeroMinute),(utf8 ":",.zeroSecond)]

def cutStamp (data : GoString) : Result (Time × GoString) := do
  let head ← sliceTo data 15
  match TimeLayout.parse (stampLayout (utf8 "  ")) head with
  | some ts =>
    let rest ← sliceFrom data 16
    return (ts,rest)
  | none =>
    let head ← sliceTo data 14
    match TimeLayout.parse (stampLayout (utf8 " ")) head with
    | some ts =>
      let rest ← sliceFrom data 15
      return (ts,rest)
    | none => throw "syslog 3164: cannot parse timestamp"

def splitApp (appPart : GoString) : Result (GoString × Option GoString) :=
  match indexByte appPart 0x5b with
  | none => return (appPart,none)
  | some idx => do
    let name ← sliceTo appPart idx
    let bracket ← sliceFrom appPart idx
    match indexByte bracket 0x5d with
    | none => return (name,none)
    | some last =>
      let pid ← slice appPart (idx+1) (idx+last)
      return (name,some pid)

def parseRFC3164 (data : GoString) (msg : Message) : Result Message := do
  if data.length<15 then throw "syslog 3164: too short"
  let (stamp,data) ← cutStamp data
  let msg := {msg with timestamp := stamp}
  let (hostname,data) ← cutField "syslog 3164: missing hostname" data
  let msg := {msg with hostname := hostname}
  match indexByte data 0x3a with
  | none => return {msg with message := data}
  | some colon =>
    let appPart ← sliceTo data colon
    let data ← sliceFrom data (colon+1)
    let (appName,procID) ← splitApp appPart
    return { msg with
      appName := appName, procID := procID.getD msg.procID, message := skipSpace data}

def invalidPriority (quote : GoString → String) (num : GoString) : AtoiError → String
  | .invalid => "syslog: invalid priority: strconv.Atoi: parsing "++quote num++": invalid syntax"
  | .outOfRange =>
    "syslog: invalid priority: strconv.Atoi: parsing "++quote num++": value out of range"

def parse (quote : GoString → String) (data : GoString) : Result Message := do
  if data.head? ≠ some 0x3c then throw "syslog: missing priority"
  match indexByte data 0x3e with
  | none => throw "syslog: unclosed priority"
  | some last =>
    let num ← slice data 1 last
    match atoi num with
    | .error err => throw (invalidPriority quote num err)
    | .ok pri =>
      let msg := { Message.empty with
        facility := (decodePriority pri).1, severity := (decodePriority pri).2}
      let rest ← sliceFrom data (last+1)
      match rest.head? with
      | none => throw "syslog: empty message after priority"
      | some b => if isDigit b then parseRFC5424 rest msg else parseRFC3164 rest msg

theorem lift_bind {α β : Type} (a : α) (f : α → Result β) : (liftM (some a) : Result α) >>= f=f a := rfl
theorem cutField_append (err : String) {a : GoString} (h : 0x20∉a) (b : GoString) :
    cutField err (a++0x20::b)=pure (a,b) := by
  simp only [cutField,indexByte_append h,sliceTo_append,sliceFrom_append,lift_bind]

def Returns {α : Type} (r : Result α) : Prop := ∃ x, r.run=some x

theorem returns_cutField {α : Type} {f : GoString × GoString → Result α} (err : String)
    (data : GoString) (h : ∀ x, Returns (f x)) : Returns (cutField err data >>= f) := by
  rcases indexByte_cases data 0x20 with ⟨-,hnone⟩ | ⟨a,b,rfl,ha,-⟩
  · refine ⟨.error err,?_⟩
    rw [cutField,hnone]
    rfl
  · rw [cutField_append err ha,pure_bind]
    exact h (a,b)

variable (data : GoString) {num : GoString}
  (msg : Message) (quote : GoString → String)

theorem skipStructuredData_returns : ∃ d, skipStructuredData data=pure d := by
  rw [skipStructuredData]
  split
  · exact ⟨_,rfl⟩
  · rcases indexByte_cases data 0x5d with ⟨-,hnone⟩ | ⟨a,b,rfl,-,hsome⟩
    · rw [hnone]
      exact ⟨_,rfl⟩
    · simp only [hsome,sliceFrom_append,lift_bind]
      exact ⟨_,rfl⟩

theorem parseRFC5424_returns : Returns (parseRFC5424 data msg) := by
  unfold parseRFC5424
  iterate 6 refine returns_cutField _ _ fun x => ?_
  obtain ⟨msgID,rest⟩ := x
  obtain ⟨d,hd⟩ := skipStructuredData_returns rest
  dsimp only
  rw [hd]
  exact ⟨_,rfl⟩

theorem splitApp_returns (appPart : GoString) : ∃ x, splitApp appPart=pure x := by
  rw [splitApp]
  rcases indexByte_cases appPart 0x5b with ⟨-,hnone⟩ | ⟨a,b,rfl,-,hsome⟩
  · rw [hnone]
    exact ⟨_,rfl⟩
  · have hbracket : sliceFrom (a++0x5b::b) a.length=some (0x5b::b) := by
      rw [sliceFrom,if_pos (by simp),drop_left]
    simp only [hsome,sliceTo_append,hbracket,lift_bind]
    rcases indexByte_cases (0x5b::b) 0x5d with ⟨-,hnone⟩ | ⟨c,d,heq,-,hlast⟩
    · rw [hnone]
      exact ⟨_,rfl⟩
    · cases c with
      | nil => exact absurd (cons.inj heq).1 (by decide)
      | cons x c =>
        have hlen:=congrArg length heq
        simp only [length_cons,length_append] at hlen
        rw [hlast]
        dsimp only
        rw [slice,if_pos (by simp; omega)]
        exact ⟨_,rfl⟩

theorem cutStamp_run {data : GoString} (h : 15≤data.length) : (cutStamp data).run=none ↔
      data.length=15 ∧ (TimeLayout.parse (stampLayout (utf8 "  ")) data).isSome := by
  have htake : sliceTo data 15=some (data.take 15) := if_pos h
  have htake' : sliceTo data 14=some (data.take 14) := if_pos (by omega)
  have hrest : sliceFrom data 15=some (data.drop 15) := if_pos h
  have hwhole : data.length=15 → data.take 15=data :=
    fun hlen => by rw [← hlen,take_length]
  simp only [cutStamp,htake,lift_bind]
  cases hstamp : TimeLayout.parse (stampLayout (utf8 "  ")) (data.take 15) with
  | some ts =>
    by_cases hlen : data.length=15
    · have hpanic : sliceFrom data 16=none := if_neg (by omega)
      rw [hwhole hlen] at hstamp
      dsimp only
      rw [hpanic,hstamp]
      exact ⟨fun _ => ⟨hlen,rfl⟩,fun _ => rfl⟩
    · have hslice : sliceFrom data 16=some (data.drop 16) := if_pos (by omega)
      dsimp only
      rw [hslice]
      exact ⟨nofun,fun h => absurd h.1 hlen⟩
  | none =>
    refine ⟨fun hnone => ?_,fun ⟨hlen,hsome⟩ => ?_⟩
    · simp only [htake',lift_bind] at hnone
      split at hnone
      · rw [hrest] at hnone
        cases hnone
      · cases hnone
    · rw [hwhole hlen] at hstamp
      rw [hstamp] at hsome
      cases hsome

theorem run_bind_eq_none {α β : Type} {x : Result α} {f : α → Result β} (h : ∀ a, Returns (f a)) :
    (x >>= f).run=none ↔ x.run=none := by
  have hrun : (x >>= f).run=x.run.bind (ExceptT.bindCont f) := rfl
  rw [hrun]
  cases x.run with
  | none => exact ⟨fun _ => rfl,fun _ => rfl⟩
  | some r => cases r with
    | error e => exact ⟨nofun,nofun⟩
    | ok a =>
      obtain ⟨y,hy⟩ := h a
      refine ⟨fun hnone => ?_,nofun⟩
      have hsome : (f a).run=none := hnone
      cases hy.symm.trans hsome

theorem parseRFC3164_run : (parseRFC3164 data msg).run=none ↔
    data.length=15 ∧ (TimeLayout.parse (stampLayout (utf8 "  ")) data).isSome := by
  unfold parseRFC3164
  split
  next hshort => exact ⟨nofun,fun h => by omega⟩
  next hlong =>
    rw [← cutStamp_run (not_lt.mp hlong)]
    refine run_bind_eq_none fun x => ?_
    obtain ⟨stamp,rest⟩ := x
    refine returns_cutField _ _ fun x => ?_
    obtain ⟨hostname,rest⟩ := x
    dsimp only
    rcases indexByte_cases rest 0x3a with ⟨-,hnone⟩ | ⟨a,b,rfl,-,hcolon⟩
    · rw [hnone]
      exact ⟨_,rfl⟩
    · obtain ⟨app,happ⟩ := splitApp_returns a
      simp only [hcolon,sliceTo_append,sliceFrom_append,lift_bind,happ,pure_bind]
      exact ⟨_,rfl⟩

def withPriority (pri : Int) : Message :=
  {Message.empty with facility := (decodePriority pri).1, severity := (decodePriority pri).2}

theorem parse_split (h : 0x3e∉num) (rest : GoString) :
    parse quote (0x3c::(num++0x3e::rest)) = match atoi num with
      | .error err => throw (invalidPriority quote num err)
      | .ok pri => match rest.head? with
        | none => throw "syslog: empty message after priority"
        | some b =>
          if isDigit b then parseRFC5424 rest (withPriority pri)
          else parseRFC3164 rest (withPriority pri) := by
  have hmem : 0x3e∉(0x3c : UInt8)::num := by
    rw [mem_cons,not_or]
    exact ⟨by decide,h⟩
  have hlast:=indexByte_append hmem rest
  have hnum : slice (0x3c::num++0x3e::rest) 1 (0x3c::num).length=some num := by
    rw [slice,if_pos (by simp),take_left]
    rfl
  have hrest:=sliceFrom_append (0x3c::num) 0x3e rest
  rw [cons_append] at hlast hnum hrest
  simp only [parse,head?_cons,ne_eq,not_true_eq_false,if_false,hlast,hnum,hrest,lift_bind]
  rfl

theorem parse_run (h : 0x3e∉num) (rest : GoString) : (parse quote (0x3c::(num++0x3e::rest))).run=none ↔
      (∃ pri, atoi num=.ok pri) ∧ rest.head?.all (fun b => !isDigit b)=true ∧
        rest.length=15 ∧ (TimeLayout.parse (stampLayout (utf8 "  ")) rest).isSome := by
  rw [parse_split quote h]
  cases hpri : atoi num with
  | error err => exact ⟨nofun,fun ⟨⟨pri,hok⟩,_⟩ => by cases hok⟩
  | ok pri =>
    cases rest with
    | nil => exact ⟨nofun,fun ⟨_,_,hlen,_⟩ => by cases hlen⟩
    | cons b rest =>
      simp only [head?_cons,all_some,Bool.not_eq_eq_eq_not,Bool.not_true]
      by_cases hdigit : isDigit b
      · obtain ⟨x,hx⟩ := parseRFC5424_returns (b::rest) (withPriority pri)
        rw [if_pos hdigit]
        refine ⟨fun hnone => ?_,fun ⟨_,hno,_⟩ => absurd (hdigit.symm.trans hno) (by decide)⟩
        have hsome:=hx.symm.trans hnone
        cases hsome
      · rw [if_neg hdigit]
        refine (parseRFC3164_run (b::rest) _).trans ⟨fun hpanic => ?_,fun hcond => hcond.2.2⟩
        exact ⟨⟨pri,rfl⟩,Bool.eq_false_iff.mpr hdigit,hpanic⟩

/-- A message panics exactly if it ends with its timestamp: the text is cut one byte behind it. -/
theorem parse_panics_iff (quote : GoString → String) (data : GoString) : (parse quote data).run=none ↔
      ∃ num rest, data=0x3c::(num++0x3e::rest) ∧ 0x3e∉num ∧ (∃ pri, atoi num=.ok pri) ∧
        rest.head?.all (fun b => !isDigit b)=true ∧ rest.length=15 ∧
        (TimeLayout.parse (stampLayout (utf8 "  ")) rest).isSome=true := by
  refine ⟨fun hnone => ?_,fun ⟨num,rest,hdata,hnum,hcond⟩ => ?_⟩
  · by_cases hhead : data.head?=some 0x3c
    · rcases indexByte_cases data 0x3e with ⟨-,hend⟩ | ⟨a,rest,rfl,ha,-⟩
      · rw [parse,if_neg (not_not.mpr hhead),hend] at hnone
        cases hnone
      · cases a with
        | nil => exact absurd (some.inj hhead) (by decide)
        | cons b num =>
          cases hhead
          have hnum : 0x3e∉num := fun hmem => ha (mem_cons_of_mem _ hmem)
          exact ⟨num,rest,rfl,hnum,(parse_run quote hnum rest).mp hnone⟩
    · rw [parse,if_pos hhead] at hnone
      cases hnone
  · rw [hdata]
    exact (parse_run quote hnum rest).mpr hcond

/- The message `<13>Jan  2 15:04:05` has a timestamp and nothing else. -/
theorem parse_panics : utf8 "<13>Jan  2 15:04:05"=0x3c::(utf8 "13"++0x3e::utf8 "Jan  2 15:04:05") ∧
      ∀ quote : GoString → String, (parse quote (utf8 "<13>Jan  2 15:04:05")).run=none := by
  have hdata : utf8 "<13>Jan  2 15:04:05" =
      0x3c::(utf8 "13"++0x3e::utf8 "Jan  2 15:04:05") := by decide +kernel
  refine ⟨hdata,fun quote => ?_⟩
  have hstamp : (TimeLayout.parse (stampLayout (utf8 "  ")) (utf8 "Jan  2 15:04:05")).isSome =
      true := by decide +kernel
  have hpri : atoi (utf8 "13")=.ok 13 := by decide +kernel
  rw [hdata]
  refine (parse_run quote ?_ _).mpr ⟨⟨13,hpri⟩,?_,?_,hstamp⟩ <;> decide +kernel

end OpsAgent.Collector.Syslog
