import OpsAgent.Checker.Executor
import OpsAgent.Lib.GoPath

/-!
# The sysctl check (`checker/kernel/sysctl.go`)

The parameters are what `json.Unmarshal` makes of the text; `os.ReadFile` gives the content or an
error. The path is tested as it is written, and `..` in it is left to the system.
-/

namespace OpsAgent.Checker
open Lib.GoStrings Lib.GoPath List

structure SysctlParams where
  (path expected : GoString)

/-- `Check`: the files that are read, and the result or the error. -/
def sysctlCheck (quote : GoString → GoString) (readFile : GoString → Except GoString GoString)
    (elapsed : Int) (params : Except GoString SysctlParams) :
    List GoString × Except GoString CheckResult :=
  match params with
  | .error err => ([],.error (utf8 "sysctl_check: invalid params: "++err))
  | .ok p =>
    if p.path=[] then ([],.error (utf8 "sysctl_check: path is required"))
    else if !hasPrefix p.path (utf8 "/proc/sys/") then
      ([],.error (utf8 "sysctl_check: path must start with /proc/sys/, got "++quote p.path))
    else
      ([p.path],.ok <| match readFile p.path with
        | .error err =>
          { status := .error, duration := elapsed,
            message := utf8 "failed to read "++p.path++utf8 ": "++err}
        | .ok data => .compared (utf8 "sysctl "++p.path) (trimSpaces data) p.expected elapsed)

theorem sysctlCheck_reads (quote : GoString → GoString) (readFile : GoString → Except GoString GoString)
    (elapsed : Int) (params : Except GoString SysctlParams) (path : GoString) :
    path∈(sysctlCheck quote readFile elapsed params).1 ↔
      ∃ p, params=.ok p ∧ hasPrefix p.path (utf8 "/proc/sys/") ∧ path=p.path := by
  unfold sysctlCheck
  cases params with
  | error err => simp
  | ok p =>
    have hnil : hasPrefix p.path (utf8 "/proc/sys/") → p.path≠[] := by
      intro hstart hnil
      rw [hnil] at hstart
      exact absurd hstart (by decide +kernel)
    dsimp only
    split_ifs with hempty hstart
    · simp only [not_mem_nil,Except.ok.injEq,exists_eq_left',false_iff]
      exact fun h => hnil h.1 hempty
    · simp_all
    · simp_all

/-- The file lies below `/proc/sys` exactly if, once `.` and `..` are resolved, the path still begins with
these two names and a third one follows. -/
theorem sysctl_reads_below_iff (quote : GoString → GoString)
    (readFile : GoString → Except GoString GoString) (elapsed : Int)
    (params : Except GoString SysctlParams) : (∀ path∈(sysctlCheck quote readFile elapsed params).1,
      hasPrefix (clean path) (utf8 "/proc/sys/")=true) ↔
      ∀ p, params=.ok p → hasPrefix p.path (utf8 "/proc/sys/") →
        ∃ rest, rest≠[] ∧ elements p.path=[utf8 "proc",utf8 "sys"]++rest := by
  have hdir : elements (utf8 "/proc/sys")=[utf8 "proc",utf8 "sys"] := by decide +kernel
  have hstart : clean (utf8 "/proc/sys")++[slash]=utf8 "/proc/sys/" := by decide +kernel
  have hbelow : ∀ path, hasPrefix path (utf8 "/proc/sys/") →
      (hasPrefix (clean path) (utf8 "/proc/sys/")=true ↔
        ∃ rest, rest≠[] ∧ elements path=[utf8 "proc",utf8 "sys"]++rest) := by
    intro path hpath
    obtain ⟨rest,rfl⟩ : utf8 "/proc/sys/" <+: path := by
      simpa [hasPrefix, isPrefixOf_iff_prefix] using hpath
    rw [← hstart,hasPrefix_clean_iff (by rw [hdir]; exact cons_ne_nil _ _),hdir]
    exact and_iff_right rfl
  constructor
  · intro h p hp hpath
    exact (hbelow p.path hpath).mp (h _ ((sysctlCheck_reads _ _ _ _ _).mpr ⟨p,hp,hpath,rfl⟩))
  · intro h path hread
    obtain ⟨p,hp,hpath,rfl⟩ := (sysctlCheck_reads _ _ _ _ _).mp hread
    exact (hbelow p.path hpath).mpr (h p hp hpath)

def sysctlParams (path : String) : Except GoString SysctlParams := .ok ⟨utf8 path,[0x31]⟩

theorem sysctl_reads_shadow :
    (sysctlCheck id (fun _ => .ok []) 0 (sysctlParams "/proc/sys/../../etc/shadow")).1 =
      [utf8 "/proc/sys/../../etc/shadow"] ∧
    clean (utf8 "/proc/sys/../../etc/shadow")=utf8 "/etc/shadow" ∧
    hasPrefix (clean (utf8 "/proc/sys/../../etc/shadow")) (utf8 "/proc/sys/")=false := by
  decide +kernel

end OpsAgent.Checker
