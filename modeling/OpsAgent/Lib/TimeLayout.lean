import OpsAgent.Lib.Atoi
import OpsAgent.Lib.GoTime

/-!
# `time.Parse`

A layout is a list of chunks, each the text before a standard element and the element. Texts of
errors and locations are left out.
-/

namespace OpsAgent.Lib.TimeLayout
open Lib.Atoi (isDigit digitValue value)
open Lib.GoStrings (GoString utf8)
open Lib.GoTime (Time)

inductive Std where
  | longYear | month | zeroMonth | day | zeroDay | hour | zeroMinute | zeroSecond | fracSecond9
  | iso8601ColonTZ
  deriving DecidableEq

abbrev Layout := List (GoString × Std)

structure Fields where
  year : Nat
  (month day : Option Nat)
  (hour min sec nsec : Nat)
  zone : Int

def Fields.empty : Fields := ⟨0,none,none,0,0,0,0,0⟩
def cutspace (s : GoString) : GoString := s.dropWhile (· == 0x20)

def skip : Nat → GoString → GoString → Option GoString
  | 0, _, value => some value
  | _, [], value => some value
  | n+1, p::ps, value =>
    if p=0x20 then
      if value.head?.all (· == 0x20) then skip n (cutspace ps) (cutspace value) else none
    else match value with
      | v::vs => if v=p then skip n ps vs else none
      | [] => none

/- One or two digits; exactly two if `fixed`. -/
def getnum (fixed : Bool) : GoString → Option (Nat × GoString)
  | [] => none
  | a::s =>
    if !isDigit a then none
    else match s with
      | b::s' =>
        if isDigit b then some (digitValue a*10+digitValue b,s')
        else if fixed then none else some (digitValue a,s)
      | [] => if fixed then none else some (digitValue a,s)

def matchByte (a b : UInt8) : Bool :=
  a == b||((a ||| 0x20) == (b ||| 0x20)&&decide (0x61≤(a ||| 0x20)) &&
    decide ((a ||| 0x20)≤0x7a))
def matchName (name s : GoString) : Bool :=
  decide (name.length ≤ s.length)&&(s.zip name).all fun x => matchByte x.1 x.2
def shortMonthNames : List GoString :=
  ["Jan","Feb","Mar","Apr","May","Jun","Jul","Aug","Sep","Oct","Nov","Dec"].map utf8
def lookup (names : List GoString) (s : GoString) : Option (Nat × GoString) :=
  (names.zipIdx.find? fun x => matchName x.1 s).map fun x => (x.2,s.drop x.1.length)
def commaOrPeriod (b : UInt8) : Bool := b == 0x2c||b == 0x2e
def nanoseconds (digits : GoString) : Nat :=
  let digits:=digits.take 9
  value 0 digits*10^(9-digits.length)

def fraction : GoString → Option (Nat × GoString)
  | p::d::s =>
    if commaOrPeriod p&&isDigit d then
      some (nanoseconds ((d::s).takeWhile isDigit),(d::s).dropWhile isDigit)
    else none
  | _ => none

def within (n low high : Nat) : Option Nat := if low≤n ∧ n≤high then some n else none

def parseStd (std : Std) (next : Option Std) (f : Fields) (s : GoString) :
    Option (Fields × GoString) :=
  match std with
  | .longYear =>
    if decide (4 ≤ s.length)&&(s.take 4).all isDigit then
      some ({f with year := value 0 (s.take 4)},s.drop 4)
    else none
  | .month => do
    let (i,s) ← lookup shortMonthNames s
    return ({f with month := some (i+1)},s)
  | .zeroMonth => do
    let (n,s) ← getnum true s
    let n ← within n 1 12
    return ({f with month := some n},s)
  | .day => do
    let (n,s) ← getnum false s
    return ({f with day := some n},s)
  | .zeroDay => do
    let (n,s) ← getnum true s
    return ({f with day := some n},s)
  | .hour => do
    let (n,s) ← getnum false s
    let n ← within n 0 23
    return ({f with hour := n},s)
  | .zeroMinute => do
    let (n,s) ← getnum true s
    let n ← within n 0 59
    return ({f with min := n},s)
  | .zeroSecond => do
    let (n,s) ← getnum true s
    let n ← within n 0 59
    -- a fraction that the layout does not have
    match if next=some .fracSecond9 then none else fraction s with
    | some (nsec,s) => return ({f with sec := n, nsec := nsec},s)
    | none => return ({f with sec := n},s)
  | .fracSecond9 =>
    match fraction s with
    | some (nsec,s) => some ({f with nsec := nsec},s)
    | none => some (f,s)
  | .iso8601ColonTZ =>
    match s with
    | 0x5a::s => some (f,s)
    | sign::h₁::h₂::0x3a::m₁::m₂::s => do
      let (hr,_) ← getnum true [h₁,h₂]
      let (mm,_) ← getnum true [m₁,m₂]
      let hr ← within hr 0 24
      let mm ← within mm 0 60
      let offset : Int := (hr*60+mm)*60
      if sign=0x2b then return ({f with zone := offset},s)
      else if sign=0x2d then return ({f with zone := -offset},s)
      else none
    | _ => none

def isLeap (year : Nat) : Bool := year % 4 == 0&&(year % 100 != 0||year % 400 == 0)
def daysIn (month year : Nat) : Nat :=
  if month=2 then if isLeap year then 29 else 28
  else if month∈[4,6,9,11] then 30 else 31
def dayNumber (year month day : Nat) : Int :=
  let y : Int := year-1
  365*y+y / 4-y / 100+y / 400 +
    ((List.range' 1 (month-1)).map fun m => daysIn m year).sum+(day-1)

def Fields.time (f : Fields) : Option Time :=
  let month:=f.month.getD 1
  let day:=f.day.getD 1
  if 1≤day ∧ day≤daysIn month f.year then
    let seconds : Int := dayNumber f.year month day*86400+f.hour*3600+f.min*60+f.sec-f.zone
    some (seconds*1000000000+f.nsec)
  else none

def parseFrom (f : Fields) : Layout → GoString → Option Time
  | [], s => if s=[] then f.time else none
  | (before,std)::layout, s => do
    let s ← skip before.length before s
    let (f,s) ← parseStd std (layout.head?.map Prod.snd) f s
    parseFrom f layout s

def parse (layout : Layout) (s : GoString) : Option Time := parseFrom .empty layout s

end OpsAgent.Lib.TimeLayout
