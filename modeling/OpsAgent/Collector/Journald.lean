import OpsAgent.Collector.Metric
import OpsAgent.Config.Types
import OpsAgent.Lib.LogReader

/-!
# The journald input (`collector/inputs/journald/journald.go`)

The cursor of an entry is its position in the journal. After `SeekCursor`, `Next` reads the cursor's
entry first; the position from which it reads after `SeekTail`, with a filter set, is the variable `tail`.
-/

namespace OpsAgent.Collector.Journald
open Lib Lib.GoValue List LogReader
open Lib.GoTime (Time)
open Lib.LogReader (following)

structure Entry where
  fields : StringMap String
  realtimeTimestamp : UInt64

structure JournaldInput where
  units : List String
  (priority cursorPersistPath : String)
  priorityVal : Nat

def parsePriority (quote : String → String) : String → Except String Nat
  | "emerg" => .ok 0
  | "alert" => .ok 1
  | "crit" => .ok 2
  | "err" => .ok 3
  | "warning" => .ok 4
  | "warn" => .ok 4
  | "notice" => .ok 5
  | "info" => .ok 6
  | "debug" => .ok 7
  | s => .error ("journald: unknown priority "++quote s)

def parseUnit : Val → Except String String
  | .str s => .ok s
  | _ => .error "journald: unit must be a string"
def parseUnits : Option Val → Except String (List String)
  | none => .ok []
  | some (.seq arr) => arr.mapM parseUnit
  | some _ => .error "journald: units must be a list"
def parseString (key default : String) : Option Val → Except String String
  | none => .ok default
  | some (.str s) => .ok s
  | some _ => .error ("journald: "++key++" must be a string")

def init (quote : String → String) : AnyMap → Except String JournaldInput
  | none => .ok ⟨[],"info","",0⟩
  | some cfg => do
    let units ← parseUnits (cfg.lookup "units")
    let priority ← parseString "priority" "info" (cfg.lookup "priority")
    let path ← parseString "cursor_persist_path" "" (cfg.lookup "cursor_persist_path")
    let priorityVal ← parsePriority quote priority
    return ⟨units,priority,path,priorityVal⟩

def unitSuffix (unit : String) : String :=
  if unit.toList.contains '.' then unit else unit++".service"
def passes (j : JournaldInput) (e : Entry) : Bool :=
  (j.units.any fun unit => e.fields.lookup "_SYSTEMD_UNIT" == some (unitSuffix unit)) ||
    (range (j.priorityVal+1)).any fun i => e.fields.lookup "PRIORITY" == some (toString i)

inductive CursorFile where
  | missing | unreadable
  | cursor (position : Nat)

/-- The errors that the calls of one `Gather` return; those of the loop for each of its turns. -/
structure Calls where
  newJournal : Option String
  addMatch : String → Option String
  (addDisjunction seekCursor seekTail : Option String)
  (ctxErr next getCursor getEntry : Nat → Option String)
  saveCursor : Option (String × CursorFile)

def Calls.ok : Calls :=
  ⟨none,fun _ => none,none,none,none,fun _ => none,fun _ => none,fun _ => none,
    fun _ => none,none⟩

structure Gathered where
  emitted : List (Entry × Nat)
  error : Option String

def addMatches (quote : String → String) (c : Calls) : List String → Option String
  | [] => none
  | m::ms => match c.addMatch m with
    | some err => some ("journald: add match "++quote m++": "++err)
    | none => addMatches quote c ms

def addFilters (quote : String → String) (j : JournaldInput) (c : Calls) : Option String :=
  match c.newJournal with
  | some err => some ("journald: failed to open journal: "++err)
  | none => match addMatches quote c (j.units.map fun u => "_SYSTEMD_UNIT="++unitSuffix u) with
    | some err => some err
    | none => match c.addDisjunction with
      | some err => some ("journald: add disjunction: "++err)
      | none => addMatches quote c
          ((List.range (j.priorityVal+1)).map fun i => "PRIORITY="++toString i)

def loadCursor (j : JournaldInput) (file : CursorFile) : Option Nat :=
  if j.cursorPersistPath="" then none
  else match file with
    | .cursor position => some position
    | _ => none

def seek (c : Calls) (tail : Nat) (cursor : Option Nat) : Except String Nat :=
  match cursor, c.seekCursor with
  | some position, none => .ok position
  | _, _ => match c.seekTail with
    | some err => .error ("journald: seek tail: "++err)
    | none => .ok tail

structure Loop where
  emitted : List (Entry × Nat)
  lastCursor : Option Nat
  error : Option String

def maxGetEntryErrors : Nat := 10

def loop (c : Calls) (turn count errors : Nat) (lastCursor : Option Nat) :
    List (Entry × Nat) → Loop
  | [] =>
    if count<1000 then match c.ctxErr turn, c.next turn with
      | some err, _ => ⟨[],lastCursor,some err⟩
      | none, some err => ⟨[],lastCursor,some ("journald: next: "++err)⟩
      | none, none => ⟨[],lastCursor,none⟩
    else ⟨[],lastCursor,none⟩
  | x::xs =>
    if count<1000 then match c.ctxErr turn, c.next turn with
      | some err, _ => ⟨[],lastCursor,some err⟩
      | none, some err => ⟨[],lastCursor,some ("journald: next: "++err)⟩
      | none, none =>
        let lastCursor := if (c.getCursor turn).isNone then some x.2 else lastCursor
        match c.getEntry turn with
        | some err =>
          if maxGetEntryErrors≤errors+1 then
            ⟨[],lastCursor,
              some ("journald: too many consecutive GetEntry errors (last: "++err++")")⟩
          else loop c (turn+1) count (errors+1) lastCursor xs
        | none =>
          let r:=loop c (turn+1) (count+1) 0 lastCursor xs
          {r with emitted := x::r.emitted}
    else ⟨[],lastCursor,none⟩

def saveCursor (j : JournaldInput) (c : Calls) (file : CursorFile) (position : Nat) :
    CursorFile × Option String :=
  if j.cursorPersistPath="" then (file,none)
  else match c.saveCursor with
    | some (err,left) => (left,some ("journald: save cursor: "++err))
    | none => (.cursor position,none)

def gather (tail : (Entry → Bool) → List Entry → Nat) (quote : String → String) (j : JournaldInput)
    (c : Calls) (journal : List Entry) (file : CursorFile) : Gathered × CursorFile :=
  match addFilters quote j c with
  | some err => (⟨[],some err⟩,file)
  | none => match seek c (tail (passes j) journal) (loadCursor j file) with
    | .error err => (⟨[],some err⟩,file)
    | .ok position =>
      let r:=loop c 0 0 0 none (following (passes j) position journal)
      match r.error, r.lastCursor with
      | none, some cursor =>
        let saved:=saveCursor j c file cursor
        (⟨r.emitted,saved.2⟩,saved.1)
      | _, _ => (⟨r.emitted,r.error⟩,file)

variable {file : CursorFile} {j : JournaldInput} {journal : List Entry}

variable (tail : (Entry → Bool) → List Entry → Nat) (quote : String → String)

def gathers (tail : (Entry → Bool) → List Entry → Nat) (quote : String → String) (j : JournaldInput) :
    List Entry → CursorFile → List (List Entry × Calls) → List Gathered
  | _, _, [] => []
  | journal, file, (appended,c)::rounds =>
    let r:=gather tail quote j c (journal++appended) file
    r.1::gathers tail quote j (journal++appended) r.2 rounds

section Cursor
variable {j : JournaldInput} (hpath : j.cursorPersistPath≠"")
include hpath

variable (position : Nat)

end Cursor

def stored : JournaldInput := ⟨[],"emerg","/var/lib/opsagent",0⟩

/-- What the documentation of `SeekTail` says: `Next` then gives the last entry. -/
def lastEntry (p : Entry → Bool) (journal : List Entry) : Nat :=
  ((following p 0 journal).getLast?.map Prod.snd).getD journal.length

end OpsAgent.Collector.Journald
