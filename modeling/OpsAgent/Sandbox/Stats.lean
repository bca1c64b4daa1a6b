import OpsAgent.Lib.LineScanner
import OpsAgent.Sandbox.Nsjail

/-!
# Statistics of a cgroup (`sandbox/stats.go`)
-/

namespace OpsAgent.Sandbox
open Lib.GoStrings Lib.GoPath Lib.Atoi Lib.LineScanner List

structure Stats where
  peakMemoryBytes : Int := 0
  cpuTimeUserMs : Int := 0
  cpuTimeSystemMs : Int := 0
  processCount : Int := 0
  bytesWritten : Int := 0
  bytesRead : Int := 0

/-- `strconv.ParseInt(s, 10, 64)` -/
def parseInt (s : GoString) : Option Int := (atoi s).toOption

/-- The lines that a `bufio.Scanner` gives, if the file can be opened. -/
def scanned (file : Option GoString) : List GoString := file.elim [] fun data => (scan 65536 data).lines

def cpuLine (s : Stats) (line : GoString) : Stats :=
  match fields line with
  | [key,number] =>
    match parseInt number with
    | none => s
    | some val =>
      if key=utf8 "user_usec" then {s with cpuTimeUserMs := val.tdiv 1000}
      else if key=utf8 "system_usec" then {s with cpuTimeSystemMs := val.tdiv 1000}
      else s
  | _ => s

def ioField (s : Stats) (key number : GoString) : Stats :=
  if key=utf8 "rbytes" then
    (parseInt number).elim s fun v => {s with bytesRead := int64 (s.bytesRead+v)}
  else if key=utf8 "wbytes" then
    (parseInt number).elim s fun v => {s with bytesWritten := int64 (s.bytesWritten+v)}
  else s

/-- The loop over the fields of a line, from the one at `i` on. -/
def ioFields (s : Stats) : List GoString → Stats
  | key::number::rest => ioFields (ioField s key number) (number::rest)
  | _ => s
def ioLine (s : Stats) (line : GoString) : Stats := ioFields s (fields line).tail

/-- The files are those that can be read. -/
def readCgroupStats (files : GoString → Option GoString) (cgroupPath : GoString) : Stats :=
  let file name := files (join [cgroupPath,utf8 name])
  let readSingleInt name := (file name).bind fun data => parseInt (trimSpaces data)
  let s : Stats := {peakMemoryBytes := (readSingleInt "memory.peak").getD 0}
  let s:=(scanned (file "cpu.stat")).foldl cpuLine s
  let s := {s with processCount := ((readSingleInt "pids.current").getD 0).bmod 4294967296}
  (scanned (file "io.stat")).foldl ioLine s

/-- A counter of the kernel, and its name. -/
structure IoEntry where
  key : GoString
  value : Nat
  plain : ∀ b∈key, b∉spaceBytes

structure IoDevice where
  (major minor : Nat)
  entries : List IoEntry

def IoEntry.word (e : IoEntry) : GoString := e.key++0x3d::decimal e.value
def IoDevice.name (d : IoDevice) : GoString := decimal d.major++0x3a::decimal d.minor
def IoDevice.line (d : IoDevice) : GoString := d.name++(d.entries.map (·.word)).flatMap (32 :: ·)
def ioStat (ds : List IoDevice) : GoString := ds.flatMap fun d => d.line++[10]

/-- The sum of the values with a key over all lines. -/
def ioTotal (key : String) (ds : List IoDevice) : Nat :=
  (((ds.flatMap (·.entries)).filter (·.key=utf8 key)).map (·.value)).sum

variable {d : IoDevice} {ds : List IoDevice} {b : UInt8}

theorem decimal_plain (n : Nat) : ∀ b∈decimal (n : Int), b∉spaceBytes := by
  have hall : (spaceBytes.all fun b => !isDigit b)=true := by decide
  intro b hb hmem
  have hdigit:=(decimal_spec n).2.1 b hb
  have hno:=all_eq_true.mp hall b hmem
  rw [hdigit] at hno
  cases hno

theorem words_plain : ∀ v∈d.name::d.entries.map (·.word), v≠[] ∧ ∀ b∈v, b∉spaceBytes := by
  have hsep (x y : GoString) (c : UInt8) (hx : ∀ b∈x, b∉spaceBytes) (hc : c∉spaceBytes) (n : Nat)
      (hy : y=decimal n) : x++c::y≠[] ∧ ∀ b∈x++c::y, b∉spaceBytes := by
    subst hy
    refine ⟨append_ne_nil_of_right_ne_nil x (cons_ne_nil c _),fun b hb => ?_⟩
    rcases mem_append.mp hb with hb | hb
    · exact hx b hb
    · rcases mem_cons.mp hb with rfl | hb
      · exact hc
      · exact decimal_plain n b hb
  intro v hv
  rcases mem_cons.mp hv with rfl | hv
  · exact hsep _ _ _ (decimal_plain d.major) (by decide) d.minor rfl
  · obtain ⟨e,-,rfl⟩ := mem_map.mp hv
    exact hsep _ _ _ e.plain (by decide) e.value rfl

theorem line_byte (hb : b∈d.line) : b=32 ∨ b∉spaceBytes := by
  rcases mem_append.mp hb with hb | hb
  · exact .inr ((words_plain _ mem_cons_self).2 b hb)
  · obtain ⟨v,hv,hb⟩ := mem_flatMap.mp hb
    rcases mem_cons.mp hb with rfl | hb
    · exact .inl rfl
    · exact .inr ((words_plain v (mem_cons_of_mem _ hv)).2 b hb)

theorem mem_scan_ioStat {line : GoString} {max : Nat} (h : line∈(scan max (ioStat ds)).lines) :
    ∃ d∈ds, line=d.line := by
  induction ds with
  | nil => cases h
  | cons d ds ih =>
    have h10 : 10∉d.line := fun hb => (line_byte hb).elim (by decide) (absurd (by decide))
    have h13 : 13∉d.line := fun hb => (line_byte hb).elim (by decide) (absurd (by decide))
    rw [ioStat,flatMap_cons,append_assoc,singleton_append,← ioStat] at h
    obtain rfl | h := mem_scanFrom_line h10 h
    · refine ⟨d,mem_cons_self,?_⟩
      rw [nil_append,dropCR,if_neg fun hlast => h13 (mem_of_getLast? hlast)]
    · obtain ⟨x,hx,hline⟩ := ih h
      exact ⟨x,mem_cons_of_mem d hx,hline⟩

variable (s : Stats)

theorem ioFields_eq {fs : List GoString} (h : ∀ f∈fs, 0x3d∈f) : ioFields s fs=s := by
  fun_induction ioFields s fs with
  | case1 s key number rest ih =>
    have hkey (name : GoString) (hname : 0x3d∉name) : key≠name := by
      rintro rfl
      exact hname (h key mem_cons_self)
    have hsame : ioField s key number=s := by
      rw [ioField,if_neg (hkey _ (by decide +kernel)),if_neg (hkey _ (by decide +kernel))]
    rw [hsame] at ih ⊢
    exact ih fun f hf => h f (mem_cons_of_mem key hf)
  | case2 => rfl

theorem ioLine_line (d : IoDevice) : ioLine s d.line=s := by
  rw [ioLine,IoDevice.line,fields_words words_plain,tail_cons]
  apply ioFields_eq
  intro f hf
  obtain ⟨e,-,rfl⟩ := mem_map.mp hf
  exact mem_append_right e.key mem_cons_self

theorem foldl_ioLine {lines : List GoString} (h : ∀ line∈lines, ∃ d, line=IoDevice.line d) :
    lines.foldl ioLine s=s := by
  induction lines with
  | nil => rfl
  | cons line lines ih =>
    obtain ⟨d,rfl⟩ := h line mem_cons_self
    rw [foldl_cons,ioLine_line]
    exact ih fun x hx => h x (mem_cons_of_mem _ hx)

theorem foldl_cpuLine (lines : List GoString) :
    (lines.foldl cpuLine s).bytesRead=s.bytesRead ∧ (lines.foldl cpuLine s).bytesWritten=s.bytesWritten := by
  induction lines generalizing s with
  | nil => exact ⟨rfl,rfl⟩
  | cons line lines ih =>
    have hline : (cpuLine s line).bytesRead=s.bytesRead ∧ (cpuLine s line).bytesWritten=s.bytesWritten := by
      unfold cpuLine
      grind
    rw [foldl_cons,← hline.1,← hline.2]
    exact ih _

theorem io_bytes_zero {files : GoString → Option GoString} {cgroupPath : GoString}
    (hfile : files (join [cgroupPath,utf8 "io.stat"])=some (ioStat ds)) :
    (readCgroupStats files cgroupPath).bytesRead=0 ∧
      (readCgroupStats files cgroupPath).bytesWritten=0 := by
  have hlines : ∀ line∈scanned (some (ioStat ds)), ∃ d, line=IoDevice.line d := by
    intro line hline
    obtain ⟨d,-,hd⟩ := mem_scan_ioStat hline
    exact ⟨d,hd⟩
  simp only [readCgroupStats,hfile,foldl_ioLine _ hlines,foldl_cpuLine,and_self]

/-- No bytes are ever counted, so the sums are right exactly if they are zero. -/
theorem io_bytes_iff (files : GoString → Option GoString) (cgroupPath : GoString) (ds : List IoDevice)
    (hfile : files (join [cgroupPath,utf8 "io.stat"])=some (ioStat ds)) :
    ((readCgroupStats files cgroupPath).bytesRead=ioTotal "rbytes" ds ∧
      (readCgroupStats files cgroupPath).bytesWritten=ioTotal "wbytes" ds) ↔
    ioTotal "rbytes" ds=0 ∧ ioTotal "wbytes" ds=0 := by
  rw [(io_bytes_zero hfile).1,(io_bytes_zero hfile).2]
  omega

/-- One disk, of which `r` bytes were read. -/
def oneDisk (r : Nat) : List IoDevice :=
  [⟨8,0,[⟨utf8 "rbytes",r,by decide +kernel⟩,⟨utf8 "wbytes",0,by decide +kernel⟩]⟩]

theorem io_bytes_idle : ioStat (oneDisk 0)=utf8 "8:0 rbytes=0 wbytes=0\n" ∧
    (readCgroupStats (fun _ => some (ioStat (oneDisk 0))) []).bytesRead=ioTotal "rbytes" (oneDisk 0) :=
  ⟨by decide +kernel,((io_bytes_iff _ [] (oneDisk 0) rfl).mpr (by decide +kernel)).1⟩
theorem io_bytes_missed : ioStat (oneDisk 4096)=utf8 "8:0 rbytes=4096 wbytes=0\n" ∧
    ioTotal "rbytes" (oneDisk 4096)=4096 ∧
    (readCgroupStats (fun _ => some (ioStat (oneDisk 4096))) []).bytesRead=0 :=
  ⟨by decide +kernel,by decide +kernel,(io_bytes_zero rfl).1⟩

end OpsAgent.Sandbox
