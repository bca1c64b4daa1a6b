import OpsAgent.Lib.GoStrings
import OpsAgent.Lib.GoTime

/-!
# Local commands (`executor/executor.go`, `executor/whitelist.go`)

The process itself is a parameter: what it wrote to each stream and how it ended.
-/

namespace OpsAgent.Commands
open Lib.GoStrings List Bool
open Lib.GoTime (Duration)

structure LimitedBuffer where
  buf : GoString
  max : Int
  truncated : Bool

def newLimitedBuffer (max : Int) : LimitedBuffer where
  buf := []
  max := max
  truncated := false

namespace LimitedBuffer

def write (b : LimitedBuffer) (p : GoString) : LimitedBuffer × Nat :=
  if b.max≤0 then (b,p.length)
  else
    let remaining:=b.max-b.buf.length
    if 0<remaining then
      if remaining<p.length then
        ({b with buf := b.buf++p.take remaining.toNat, truncated := true},p.length)
      else ({b with buf := b.buf++p},p.length)
    else ({b with truncated := true},p.length)

def writeAll (b : LimitedBuffer) : List GoString → LimitedBuffer × List Nat
  | [] => (b,[])
  | p::ps =>
    let (b,n) := b.write p
    let (b,ns) := b.writeAll ps
    (b,n::ns)

structure Keeps (b : LimitedBuffer) (max : Nat) (s : GoString) : Prop where
  max_eq : b.max=max
  buf_eq : b.buf=s.take max
  truncated_iff : b.truncated ↔ max<s.length

theorem keeps_new (max : Nat) : (newLimitedBuffer max).Keeps max [] where
  max_eq := rfl
  buf_eq := take_nil.symm
  truncated_iff := by simp [newLimitedBuffer]
theorem write_snd (b : LimitedBuffer) (p : GoString) : (b.write p).2=p.length := by
  simp only [write]
  split_ifs <;> rfl

theorem write_keeps {b : LimitedBuffer} {max : Nat} {s p : GoString} (h : b.Keeps max s)
    (hmax : 0 < max) (hp : p≠[]) : (b.write p).1.Keeps max (s++p) := by
  obtain ⟨hm,hb,ht⟩ := h
  have hplen : 0<p.length := length_pos_iff.mpr hp
  have hlen : b.buf.length=min max s.length := by rw [hb,length_take]
  have hpos : ¬ b.max≤0 := by omega
  rw [write,if_neg hpos]
  rcases Nat.lt_or_ge s.length max with hroom | hfull
  · -- nothing was cut off before, so the buffer holds all of `s`
    have hall : b.buf=s := by rw [hb,take_of_length_le (by omega)]
    have hremaining : 0<b.max-b.buf.length := by omega
    have hnot : b.truncated=false := eq_false_iff.mpr (mt ht.mp (by omega))
    rw [if_pos hremaining]
    split_ifs with hcut
    · refine ⟨hm,?_,?_⟩
      · have hn : (b.max-b.buf.length).toNat=max-s.length := by omega
        show b.buf++p.take _=_
        rw [hn,hall,take_append,take_of_length_le (Nat.le_of_lt hroom)]
      · simp only [length_append,true_iff]
        omega
    · refine ⟨hm,?_,?_⟩
      · simp only [hall]
        rw [take_of_length_le (by rw [length_append]; omega)]
      · simp only [hnot,false_eq_true,length_append,false_iff]
        omega
  · have hremaining : ¬ 0<b.max-b.buf.length := by omega
    rw [if_neg hremaining]
    refine ⟨hm,?_,?_⟩
    · rw [hb,take_append_of_le_length hfull]
    · simp only [length_append,true_iff]
      omega

theorem writeAll_keeps {b : LimitedBuffer} {max : Nat} {s : GoString} (ps : List GoString)
    (h : b.Keeps max s) (hmax : 0 < max) (hps : ∀ p∈ps, p≠[]) :
    (b.writeAll ps).1.Keeps max (s++ps.flatten) := by
  induction ps generalizing b s with
  | nil => simpa [writeAll] using h
  | cons p ps ih =>
    have hone:=write_keeps h hmax (hps p mem_cons_self)
    have hall:=ih hone fun q hq => hps q (mem_cons_of_mem p hq)
    rwa [append_assoc] at hall

theorem writeAll_snd (b : LimitedBuffer) (ps : List GoString) : (b.writeAll ps).2=ps.map length := by
  induction ps generalizing b with
  | nil => rfl
  | cons p ps ih => simp [writeAll,write_snd,ih]

end LimitedBuffer

/-- The buffer has the first `max` bytes of what was written, all writes are accepted whole, and the mark
is set exactly if there were more bytes. -/
theorem limitedBuffer_holds_output (max : Int) (ps : List GoString) (hmax : 0 < max)
    (hps : ∀ p∈ps, p≠[]) :
    let total : Int := ps.flatten.length
    let (b,reported) := (newLimitedBuffer max).writeAll ps
    b.buf=ps.flatten.take (min total max).toNat ∧
      reported=ps.map List.length ∧ (b.truncated=true ↔ max<total) := by
  obtain ⟨n,rfl⟩ := Int.eq_ofNat_of_zero_le (Int.le_of_lt hmax)
  have hkeeps:=LimitedBuffer.writeAll_keeps ps (LimitedBuffer.keeps_new n) (by omega) hps
  rw [nil_append] at hkeeps
  refine ⟨?_,LimitedBuffer.writeAll_snd _ ps,?_⟩
  · have hmin : (min (ps.flatten.length : Int) n).toNat=min n ps.flatten.length := by omega
    rw [hkeeps.buf_eq,hmin,← take_eq_take_min]
  · rw [hkeeps.truncated_iff]
    omega

theorem limitedBuffer_holds_hello :
    let ps := [utf8 "he",utf8 "l",utf8 "lo"]
    (∀ p∈ps, p≠[]) ∧
      ((newLimitedBuffer 4).writeAll ps).1.buf=ps.flatten.take (min 5 4 : Int).toNat :=
  ⟨by decide,(limitedBuffer_holds_output 4 _ (by decide) (by decide)).1⟩

def defaultAllowedCommands : List GoString :=
  ["uptime","df","free","whoami","hostname","ip","ss"].map utf8
def buildWhitelist (commands : List GoString) : List GoString :=
  (commands.map trimSpaces).filter (· ≠ [])

structure Executor where
  allowed : List GoString
  defaultTimeout : Duration
  maxOutputBytes : Int
  output_pos : 0 < maxOutputBytes

def new (allowedCommands : List GoString) (defaultTimeout : Duration) (maxOutputBytes : Int) :
    Executor where
  allowed := buildWhitelist (if allowedCommands=[] then defaultAllowedCommands else allowedCommands)
  defaultTimeout := if defaultTimeout≤0 then 10*1000000000 else defaultTimeout
  maxOutputBytes := if maxOutputBytes≤0 then 64*1024 else maxOutputBytes
  output_pos := by split_ifs <;> omega

structure Request where
  command : GoString
  args : List GoString
  timeoutSeconds : Int64

structure Result where
  exitCode : Int
  (stdout stderr : GoString)
  durationMS : Int

inductive RunError where
  | exit (code : Int)
  | other (text : GoString)

structure Finished where
  (stdout stderr : List GoString)
  err : Option RunError
  deadlineExceeded : Bool
  duration : Duration
  stdout_nonempty : ∀ p∈stdout, p≠[]
  stderr_nonempty : ∀ p∈stderr, p≠[]

def maxArgLength : Nat := 4096

def validateArgs (i : Nat) : List GoString → Except GoString Unit
  | [] => .ok ()
  | arg::args =>
    if arg.contains 0 then .error (utf8 "argument "++decimal i++utf8 " contains null byte")
    else if maxArgLength<arg.length then
      .error (utf8 "argument "++decimal i++utf8 " too long ("++decimal arg.length ++
        utf8 " bytes, max "++decimal maxArgLength++utf8 ")")
    else validateArgs (i+1) args

def truncatedMark : GoString := utf8 "\n[truncated]"
def streamText (max : Int) (ps : List GoString) : GoString :=
  let b:=((newLimitedBuffer max).writeAll ps).1
  if b.truncated then b.buf++truncatedMark else b.buf

def resultOf (e : Executor) (fin : Finished) : Except GoString Result :=
  let result : Result :=
    { exitCode := 0
      stdout := streamText e.maxOutputBytes fin.stdout
      stderr := streamText e.maxOutputBytes fin.stderr
      durationMS := fin.duration.toInt.tdiv 1000000}
  match fin.err with
  | none => .ok result
  | some err =>
    if fin.deadlineExceeded then
      .ok { result with
        exitCode := -1
        stderr := if result.stderr=[] then utf8 "command timed out" else result.stderr}
    else match err with
      | .exit code => .ok {result with exitCode := code}
      | .other text => .error text

def timeoutOf (e : Executor) (req : Request) : Duration :=
  if 0<req.timeoutSeconds then req.timeoutSeconds*1000000000 else e.defaultTimeout

/-- `Execute`. The last two parameters are the verb `%q` of `fmt` and `cmd.Run` on a name,
arguments and a timeout. -/
def execute (e : Executor) (req : Request) (quote : GoString → GoString)
    (run : GoString → List GoString → Duration → Finished) : Except GoString Result :=
  let cmdName:=trimSpaces req.command
  if cmdName=[] then .error (utf8 "command is required")
  else if cmdName∉e.allowed then
    .error (utf8 "command "++quote cmdName++utf8 " is not allowed")
  else match validateArgs 0 req.args with
    | .error err => .error (utf8 "invalid arguments: "++err)
    | .ok () =>
      match resultOf e (run cmdName req.args (timeoutOf e req)) with
      | .ok result => .ok result
      | .error text => .error (utf8 "execute command "++quote cmdName++utf8 ": "++text)

def excerpt (max : Nat) (s : GoString) : GoString :=
  s.take max ++ if max<s.length then truncatedMark else []

theorem streamText_eq (max : Int) (ps : List GoString) (hmax : 0 < max) (hps : ∀ p∈ps, p≠[]) :
    streamText max ps=excerpt max.toNat ps.flatten := by
  obtain ⟨n,rfl⟩ := Int.eq_ofNat_of_zero_le (Int.le_of_lt hmax)
  have hkeeps:=LimitedBuffer.writeAll_keeps ps (LimitedBuffer.keeps_new n) (by omega) hps
  rw [nil_append] at hkeeps
  simp only [streamText,excerpt,hkeeps.truncated_iff,hkeeps.buf_eq,Int.toNat_natCast]
  split_ifs
  · rfl
  · rw [append_nil]

theorem resultOf_streams {e : Executor} {fin : Finished} {r : Result} (h : resultOf e fin=.ok r) :
    r.stdout=excerpt e.maxOutputBytes.toNat fin.stdout.flatten ∧
      (r.stderr=excerpt e.maxOutputBytes.toNat fin.stderr.flatten ∨
        r.stderr=utf8 "command timed out") := by
  simp only [resultOf,streamText_eq _ _ e.output_pos fin.stdout_nonempty,
    streamText_eq _ _ e.output_pos fin.stderr_nonempty] at h
  cases herr : fin.err with
  | none =>
    simp only [herr,Except.ok.injEq] at h
    subst h
    exact ⟨rfl,.inl rfl⟩
  | some err =>
    simp only [herr] at h
    cases hdead : fin.deadlineExceeded with
    | true =>
      simp only [hdead,if_true,Except.ok.injEq] at h
      subst h
      refine ⟨rfl,?_⟩
      dsimp only
      split_ifs
      · exact .inr rfl
      · exact .inl rfl
    | false =>
      cases err with
      | exit code =>
        simp only [hdead,false_eq_true,if_false,Except.ok.injEq] at h
        subst h
        exact ⟨rfl,.inl rfl⟩
      | other text => simp [hdead] at h

/-- A command that was run is on the whitelist and has valid arguments, and its result shows
an excerpt of each stream. -/
theorem execute_result {e : Executor} {req : Request} {quote : GoString → GoString}
    {run : GoString → List GoString → Duration → Finished} {r : Result}
    (h : execute e req quote run=.ok r) :
    trimSpaces req.command∈e.allowed ∧ validateArgs 0 req.args=.ok () ∧
      let fin:=run (trimSpaces req.command) req.args (timeoutOf e req)
      r.stdout=excerpt e.maxOutputBytes.toNat fin.stdout.flatten ∧
        (r.stderr=excerpt e.maxOutputBytes.toNat fin.stderr.flatten ∨
          r.stderr=utf8 "command timed out") := by
  simp only [execute] at h
  split_ifs at h with hempty hallowed
  cases hargs : validateArgs 0 req.args with
  | error err => simp [hargs] at h
  | ok u =>
    simp only [hargs] at h
    split at h
    next result hresult =>
      cases h
      exact ⟨hallowed,rfl,resultOf_streams hresult⟩
    next => cases h

def upRun : Finished := ⟨[utf8 "up"],[],none,false,0,by decide,by decide⟩

theorem execute_result_uptime : ∃ r, execute (new [] 0 1) ⟨utf8 " uptime",[],0⟩ id (fun _ _ _ => upRun)=.ok r ∧
    utf8 "uptime"∈(new [] 0 1).allowed ∧ r.stdout=utf8 "u\n[truncated]" := by
  obtain ⟨r,h⟩ : ∃ r, execute (new [] 0 1) ⟨utf8 " uptime",[],0⟩ id (fun _ _ _ => upRun)=.ok r := ⟨_,rfl⟩
  obtain ⟨hallowed,-,hout,-⟩ := execute_result h
  exact ⟨r,h,hallowed,hout⟩

end OpsAgent.Commands
