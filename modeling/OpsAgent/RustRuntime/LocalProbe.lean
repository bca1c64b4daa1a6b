import OpsAgent.Lib.FloatArith
import OpsAgent.Lib.RustStr

/-!
# The checks of the local probe (`rust-runtime/src/handlers/local_probe.rs`)

A subtraction of unsigned numbers below zero, in a build with overflow checks, and a cut inside a
character end a check with a panic. In another build the difference wraps around.
-/

namespace OpsAgent.RustRuntime.LocalProbe
open Lib.GoStrings Lib.TextLines Lib.TextTrim Lib.RustText Lib.RustStr Lib.GoValue List

inductive Status
  | pass | warn | fail

inductive Outcome
  | ok (status : Status) (detail : String)
  | err (message : String)
  | panicked

def parseMeminfoValue (line : List Char) : Nat := (((splitWhitespace line)[1]?).bind parseU64).getD 0

structure Meminfo where
  memTotal : Nat := 0
  memAvailable : Nat := 0

def Meminfo.read (m : Meminfo) (line : List Char) : Meminfo :=
  if "MemTotal:".toList.isPrefixOf line then {m with memTotal := parseMeminfoValue line}
  else if "MemAvailable:".toList.isPrefixOf line then {m with memAvailable := parseMeminfoValue line}
  else m
def meminfo (text : List Char) : Meminfo := (lines text).foldl Meminfo.read {}
def Meminfo.usedPct (m : Meminfo) : Float64 :=
  ((Float64.ofInt ((m.memTotal+2^64-m.memAvailable) % 2^64 : Nat)).div (Float64.ofInt m.memTotal)).mul (Float64.ofInt 100)

/-- `file` is the text of an error or the bytes that were read. -/
def readToString (file : Except String GoString) : Except String (List Char) :=
  match file with
  | .error e => .error e
  | .ok bs => match decode? bs with
    | none => .error "stream did not contain valid UTF-8"
    | some text => .ok text

def checkMemoryPressure (overflowChecks : Bool) (threshold : Float64) (file : Except String GoString) :
    Outcome :=
  match readToString file with
  | .error e => .err ("failed to read /proc/meminfo: "++e)
  | .ok text =>
    let m:=meminfo text
    if m.memTotal=0 then .err "MemTotal is zero"
    else if overflowChecks&&m.memTotal < m.memAvailable then .panicked
    else
      let status := if threshold.le m.usedPct then .warn else .pass
      .ok status (toString (Float64.roundHalfEven m.usedPct.value)++"% used")

/-- The last 64 KiB of a longer text. -/
def truncate (stdout : GoString) : Option GoString :=
  if 65536<stdout.length then sliceFrom stdout (stdout.length-65536) else some stdout

/-- `dmesg` is the output of the command, `none` if it cannot be run. -/
def checkOomKiller (dmesg : Option GoString) : Outcome :=
  match dmesg with
  | none => .ok .pass "dmesg unavailable, skipped"
  | some output => match truncate (encode (lossy output)) with
    | none => .panicked
    | some truncated =>
      let oomCount:=countFrom (utf8 "Out of memory") 0 truncated
      if 0<oomCount then .ok .fail (toString oomCount++" OOM events found")
      else .ok .pass "no OOM events"

/-- There is no more memory available than there is in total. -/
def Meminfo.Consistent (m : Meminfo) : Prop := m.memTotal=0 ∨ m.memAvailable ≤ m.memTotal

/-- A character begins 64 KiB before the end of a longer text. -/
def Cuttable (text : List Char) : Prop :=
  (encode text).length≤65536 ∨ ∃ cs ds, text=cs++ds ∧ (encode ds).length=65536

theorem checkMemoryPressure_panics_iff (overflowChecks : Bool) (threshold : Float64)
    (file : Except String GoString) : checkMemoryPressure overflowChecks threshold file=.panicked ↔
      overflowChecks ∧ ∃ text, readToString file=.ok text ∧ ¬ (meminfo text).Consistent := by
  rw [checkMemoryPressure]
  cases readToString file with
  | error e => simp
  | ok text =>
    simp only [Except.ok.injEq,exists_eq_left',Meminfo.Consistent]
    split
    · simp [*]
    · split
      · simp_all
      · simp_all

theorem truncate_eq_none_iff (text : List Char) : truncate (encode text)=none ↔ ¬ Cuttable text := by
  rw [truncate,Cuttable]
  split
  · rename_i hlong
    have hcut : isCharBoundary (encode text) ((encode text).length-65536)=true ↔
        ∃ cs ds, text=cs++ds ∧ (encode ds).length=65536 := by
      constructor
      · intro h
        obtain ⟨cs,ds,rfl,hcs⟩ := split_of_boundary h
        rw [encode_append,length_append] at hcs hlong
        exact ⟨cs,ds,rfl,by omega⟩
      · rintro ⟨cs,ds,rfl,hds⟩
        have hcs : (encode (cs++ds)).length-65536=(encode cs).length := by
          rw [encode_append,length_append,hds,Nat.add_sub_cancel]
        rw [hcs]
        exact isCharBoundary_append cs ds
    rw [sliceFrom,← hcut]
    simp [hlong]
  · simp [*]

theorem checkOomKiller_panics_iff (dmesg : Option GoString) :
    checkOomKiller dmesg=.panicked ↔ ∃ output, dmesg=some output ∧ ¬ Cuttable (lossy output) := by
  cases dmesg with
  | none => simp [checkOomKiller]
  | some output =>
    simp only [Option.some.injEq,exists_eq_left',← truncate_eq_none_iff,checkOomKiller]
    split
    · simp [*]
    · split <;> simp [*]

/-- The checks return in every build for consistent numbers and a text that can be cut, and only
then. -/
theorem checks_return_iff (threshold : Float64) (file : Except String GoString) (dmesg : Option GoString) :
    ((∀ overflowChecks, checkMemoryPressure overflowChecks threshold file ≠ .panicked) ∧
        checkOomKiller dmesg ≠ .panicked) ↔
      (∀ text, readToString file=.ok text → (meminfo text).Consistent) ∧
      ∀ output, dmesg=some output → Cuttable (lossy output) := by
  simp only [Ne,checkMemoryPressure_panics_iff,checkOomKiller_panics_iff]
  push Not
  exact and_congr ⟨fun h => h true rfl,fun h _ _ => h⟩ Iff.rfl

theorem checks_panic :
    checkMemoryPressure true (Float64.ofInt 90) (.ok (utf8 "MemTotal: 1 kB\nMemAvailable: 2 kB\n"))=.panicked ∧
    checkOomKiller (some (encode (replicate 21846 '€')))=.panicked := by
  have hlength (n : Nat) : (encode (replicate n '€')).length=n*3 := by simp [encode,Char.utf8Size]
  constructor
  · refine (checkMemoryPressure_panics_iff _ _ _).mpr ⟨rfl,"MemTotal: 1 kB\nMemAvailable: 2 kB\n".toList,?_,?_⟩
    · rw [readToString,utf8_eq_encode,decode?_encode]
    · have hread : (meminfo "MemTotal: 1 kB\nMemAvailable: 2 kB\n".toList).memTotal=1 ∧
          (meminfo "MemTotal: 1 kB\nMemAvailable: 2 kB\n".toList).memAvailable=2 := by decide +kernel
      rw [Meminfo.Consistent,hread.1,hread.2]
      decide
  · refine (checkOomKiller_panics_iff _).mpr ⟨_,rfl,?_⟩
    rw [lossy_encode]
    rintro (h | ⟨cs,ds,hsplit,hds⟩)
    · rw [hlength] at h
      omega
    · obtain ⟨-,-,hrep⟩ := append_eq_replicate_iff.mp hsplit.symm
      rw [hrep,hlength] at hds
      omega

end OpsAgent.RustRuntime.LocalProbe
