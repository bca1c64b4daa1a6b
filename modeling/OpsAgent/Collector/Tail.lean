import Mathlib.Data.String.Basic
import OpsAgent.Lib.LineScanner
import OpsAgent.Lib.SortedMap

/-!
# Tailed files (`collector/inputs/tail/tail.go`, `collector/accumulator.go`, `scheduler.go`)

What the file system and the context answer during a call is an input of the model.
-/

namespace OpsAgent.Collector.Tail
open Lib Lib.GoStrings Lib.LineScanner List Bool

structure Accumulator (α : Type) where
  metrics : List α
  maxSize : Int

namespace Accumulator
variable {α : Type}

def new (maxSize : Int) : Accumulator α := ⟨[],maxSize⟩
def add (a : Accumulator α) (m : α) : Accumulator α :=
  if (a.metrics.length : Int) ≥ a.maxSize then a else {a with metrics := a.metrics++[m]}
def addAll (a : Accumulator α) (ms : List α) : Accumulator α := ms.foldl add a

theorem addAll_metrics (ms : List α) (a : Accumulator α) (h : (a.metrics.length : Int)≤a.maxSize) :
    (a.addAll ms).metrics=(a.metrics++ms).take a.maxSize.toNat := by
  induction ms generalizing a with
  | nil =>
    rw [append_nil,take_of_length_le (by omega)]
    rfl
  | cons m ms ih =>
    rw [addAll,foldl_cons]
    by_cases hfull : (a.metrics.length : Int) ≥ a.maxSize
    · have hadd : a.add m=a := if_pos hfull
      have hlen : a.maxSize.toNat=a.metrics.length := by omega
      rw [hadd]
      refine (ih a h).trans ?_
      rw [hlen,take_left,take_left]
    · have hadd : a.add m = {a with metrics := a.metrics++[m]} := if_neg hfull
      rw [hadd]
      refine (ih _ ?_).trans ?_
      · simp only [length_append,length_singleton]
        omega
      · rw [append_assoc,singleton_append]

end Accumulator

structure TailInput where
  files : List String
  fromBeginning : Bool
  maxLineBytes : Int
  offsets : SortedMap String Int

/- The gauge `tail` with the tag `file` and the field `message`. -/
structure TailMetric where
  file : String
  message : GoString
  deriving DecidableEq

structure FileAnswer where
  (openErr statErr seekErr : Option String)
  readErr : Option (Nat × String)
  tellErr : Option String
  content : GoString

/- What the file system and the context answer during a call of `Gather`. -/
structure Round where
  glob : String → Except String (Option (List String))
  ctxErr : Nat → Option String
  file : Nat → FileAnswer

structure Move where
  path : String
  content : GoString
  (start stop : Int)
  read : Bool

structure Outcome where
  err : Option String
  input : TailInput
  emitted : List TailMetric
  moves : List Move

def TailInput.offset (t : TailInput) (path : String) : Int := (t.offsets.get? path).getD 0
def TailInput.setOffset (t : TailInput) (path : String) (offset : Int) : TailInput :=
  {t with offsets := t.offsets.insert path offset}
def maxTokenSize (maxLineBytes : Int) : Nat :=
  if maxLineBytes > 0 then maxLineBytes.toNat else 64*1024

def expandGlobs (glob : String → Except String (Option (List String))) :
    List String → Except String (List String)
  | [] => .ok []
  | pattern::patterns =>
    match glob pattern with
    | .error err => .error ("invalid glob "++pattern.quote++": "++err)
    | .ok found => match expandGlobs glob patterns with
      | .error err => .error err
      | .ok rest => .ok (found.getD [pattern]++rest)

/- A first run without `FromBeginning`. -/
def TailInput.seeksEnd (t : TailInput) (path : String) : Bool := !t.fromBeginning&&t.offset path == 0

def FileAnswer.bytes (a : FileAnswer) (offset : Int) : GoString :=
  match a.readErr with
  | none => a.content.drop offset.toNat
  | some (n,_) => (a.content.drop offset.toNat).take n

def gatherFile (t : TailInput) (path : String) (a : FileAnswer) : Outcome :=
  let fail (what : String) (err : String) (emitted : List TailMetric) : Outcome :=
    ⟨some ("tail: "++what++" "++path++": "++err),t,emitted,[]⟩
  match a.openErr with
  | some err => fail "open" err []
  | none =>
    let offset:=t.offset path
    if t.seeksEnd path then
      match a.statErr with
      | some err => fail "stat" err []
      | none =>
        let size : Int := a.content.length
        ⟨none,t.setOffset path size,[],[⟨path,a.content,offset,size,false⟩]⟩
    else
      let seekErr := if offset<0 then some "invalid argument" else a.seekErr
      match seekErr with
      | some err => fail "seek" err []
      | none =>
        let scanned:=scan (maxTokenSize t.maxLineBytes) (a.bytes offset)
        let emitted:=scanned.lines.map fun line => (⟨path,line⟩ : TailMetric)
        if scanned.tooLong then fail "scan" "bufio.Scanner: token too long" emitted
        else match a.readErr with
          | some (_,err) => fail "scan" err emitted
          | none => match a.tellErr with
            | some err => fail "tell" err emitted
            | none =>
              let newOffset:=offset+(a.bytes offset).length
              ⟨none,t.setOffset path newOffset,emitted,[⟨path,a.content,offset,newOffset,true⟩]⟩

def gatherFiles (t : TailInput) (r : Round) (k : Nat) : List String → Outcome
  | [] => ⟨none,t,[],[]⟩
  | path::paths =>
    match r.ctxErr k with
    | some err => ⟨some err,t,[],[]⟩
    | none =>
      let o:=gatherFile t path (r.file k)
      match o.err with
      | some err => ⟨some err,o.input,o.emitted,o.moves⟩
      | none =>
        let rest:=gatherFiles o.input r (k+1) paths
        ⟨rest.err,rest.input,o.emitted++rest.emitted,o.moves++rest.moves⟩

def gather (t : TailInput) (r : Round) : Outcome :=
  match expandGlobs r.glob t.files with
  | .error err => ⟨some ("tail: expanding globs: "++err),t,[],[]⟩
  | .ok paths => gatherFiles t r 0 paths
def defaultAccumulatorSize : Int := 1000

def delivered (accSize : Int) (o : Outcome) : List TailMetric :=
  match o.err with
  | some _ => []
  | none =>
    ((Accumulator.new (if accSize≤0 then defaultAccumulatorSize else accSize)).addAll
      o.emitted).metrics

/- The calls of `Gather` that the scheduler makes, one after the other. -/
def run (t : TailInput) : List Round → List Outcome
  | [] => []
  | r::rs => gather t r::run (gather t r).input rs
def Move.bytes (m : Move) : GoString :=
  (m.content.drop m.start.toNat).take (m.stop-m.start).toNat
def Move.metrics (m : Move) : List TailMetric := (splitLines m.bytes).map (⟨m.path,·⟩)
def Outcome.passed (o : Outcome) : List TailMetric := o.moves.flatMap Move.metrics

/- Those of a first call without `FromBeginning`, which seeks to the end. -/
def Outcome.skipped (o : Outcome) : List TailMetric :=
  (o.moves.filter fun m => !m.read).flatMap Move.metrics
def accBound (accSize : Int) : Nat :=
  (if accSize≤0 then defaultAccumulatorSize else accSize).toNat
def Outcome.readLines (o : Outcome) : List TailMetric :=
  (o.moves.filter fun m => m.read).flatMap Move.metrics

section
variable {t : TailInput} {path : String} {a : FileAnswer}

def TailInput.unread (t : TailInput) (path : String) (a : FileAnswer) : GoString :=
  a.content.drop (t.offset path).toNat
def TailInput.atEnd (t : TailInput) (path : String) (a : FileAnswer) : TailInput :=
  t.setOffset path (t.offset path+(t.unread path a).length)

/-- Every call on the file succeeds and no line that is read is too long. -/
def FileAnswer.good (t : TailInput) (path : String) (a : FileAnswer) : Bool :=
  a.openErr.isNone && if t.seeksEnd path then a.statErr.isNone
    else decide (0≤t.offset path)&&a.seekErr.isNone&&a.readErr.isNone&&a.tellErr.isNone &&
      !(scan (maxTokenSize t.maxLineBytes) (t.unread path a)).tooLong

theorem metrics_to_end (read : Bool) : Move.metrics ⟨path,a.content,t.offset path,
      t.offset path+(t.unread path a).length,read⟩=(splitLines (t.unread path a)).map (⟨path,·⟩) := by
  have hlen : (t.offset path+((t.unread path a).length : Int)-t.offset path).toNat =
      (t.unread path a).length := by omega
  simp only [Move.metrics,Move.bytes,hlen]
  rw [← TailInput.unread,take_length]

theorem gatherFile_good (h : a.good t path) : gatherFile t path a=⟨none,t.atEnd path a,
      if t.seeksEnd path then [] else (splitLines (t.unread path a)).map (⟨path,·⟩),
      [⟨path,a.content,t.offset path,t.offset path+(t.unread path a).length,!t.seeksEnd path⟩]⟩ := by
  rw [FileAnswer.good,and_eq_true,Option.isNone_iff_eq_none] at h
  obtain ⟨hopen,h⟩ := h
  by_cases hskip : t.seeksEnd path
  · have hzero : t.offset path=0 := by simpa [TailInput.seeksEnd] using ((and_eq_true _ _).mp hskip).2
    simp only [hskip,if_true,Option.isNone_iff_eq_none] at h
    simp [gatherFile,hopen,hskip,h,TailInput.atEnd,TailInput.unread,hzero]
  · simp only [hskip,false_eq_true,if_false,and_eq_true,decide_eq_true_eq,Option.isNone_iff_eq_none,
      not_eq_true'] at h
    obtain ⟨⟨⟨⟨hpos,hseek⟩,hread⟩,htell⟩,hfit⟩ := h
    have hbytes : a.bytes (t.offset path)=t.unread path a := by rw [FileAnswer.bytes,hread]; rfl
    simp [gatherFile,hopen,hskip,not_lt.mpr hpos,hseek,hread,htell,hbytes,hfit,scan_lines _ _ hfit,
      TailInput.atEnd]

theorem gatherFile_bad (h : a.good t path=false) :
    (gatherFile t path a).err≠none ∧ (gatherFile t path a).moves=[] := by
  unfold gatherFile
  cases hopen : a.openErr with
  | some err => exact ⟨nofun,rfl⟩
  | none =>
    by_cases hskip : t.seeksEnd path
    · cases hstat : a.statErr with
      | some err => simp [hskip]
      | none => simp [FileAnswer.good,hopen,hskip,hstat] at h
    · simp only [hskip,false_eq_true,if_false]
      split
      · exact ⟨nofun,rfl⟩
      next hseek =>
        split
        · exact ⟨nofun,rfl⟩
        next hfit =>
          cases hread : a.readErr with
          | some err => exact ⟨nofun,rfl⟩
          | none =>
            cases htell : a.tellErr with
            | some err => exact ⟨nofun,rfl⟩
            | none =>
              have hbytes : a.bytes (t.offset path)=t.unread path a := by rw [FileAnswer.bytes,hread]; rfl
              rw [hbytes,not_eq_true] at hfit
              have hpos : ¬t.offset path<0 := fun hneg => by simp [hneg] at hseek
              rw [if_neg hpos] at hseek
              simp [FileAnswer.good,hopen,hskip,hseek,hread,htell,hfit,not_lt.mp hpos] at h

theorem gatherFile_emitted (h : (gatherFile t path a).err=none) :
    (gatherFile t path a).emitted=(gatherFile t path a).readLines := by
  cases hgood : a.good t path with
  | false => exact absurd h (gatherFile_bad hgood).1
  | true =>
    rw [gatherFile_good hgood]
    cases hskip : t.seeksEnd path <;> simp [Outcome.readLines,metrics_to_end]

end

variable {t : TailInput}
  {r : Round} {o : Outcome}

theorem gatherFiles_emitted {k : Nat} {paths : List String} (h : (gatherFiles t r k paths).err=none) :
    (gatherFiles t r k paths).emitted=(gatherFiles t r k paths).readLines := by
  induction paths generalizing t k with
  | nil => rfl
  | cons path paths ih =>
    rw [gatherFiles] at h ⊢
    cases hc : r.ctxErr k with
    | some err => simp [hc] at h
    | none =>
      cases he : (gatherFile t path (r.file k)).err with
      | some err => simp [hc,he] at h
      | none =>
        simp only [hc,he] at h ⊢
        rw [gatherFile_emitted he,ih h]
        simp [Outcome.readLines]

theorem length_passed (o : Outcome) : o.passed.length=o.readLines.length+o.skipped.length := by
  obtain ⟨err,input,emitted,moves⟩ := o
  simp only [Outcome.passed,Outcome.readLines,Outcome.skipped]
  induction moves with
  | nil => rfl
  | cons m moves ih =>
    cases hm : m.read <;> simp [hm,ih] <;> omega

theorem passed_eq_readLines (h : o.skipped=[]) : o.passed=o.readLines := by
  obtain ⟨err,input,emitted,moves⟩ := o
  simp only [Outcome.passed,Outcome.readLines,Outcome.skipped] at h ⊢
  induction moves with
  | nil => rfl
  | cons m moves ih =>
    cases hm : m.read with
    | true =>
      simp only [filter_cons,hm,Bool.not_true,false_eq_true,if_false,if_true,flatMap_cons] at h ⊢
      rw [ih h]
    | false =>
      simp only [filter_cons,hm,Bool.not_false,false_eq_true,if_false,if_true,
        flatMap_cons,append_eq_nil_iff] at h ⊢
      rw [h.1,nil_append,ih h.2]

theorem delivered_of_ok {accSize : Int} (h : o.err=none) :
    delivered accSize o=o.emitted.take (accBound accSize) := by
  rw [delivered,h]
  refine (Accumulator.addAll_metrics o.emitted _ ?_).trans rfl
  simp only [Accumulator.new,length_nil,defaultAccumulatorSize]
  split <;> omega

/-- Nothing is lost from the `k`-th file on, before which `n` new lines were read: while every call
succeeds, a file that is not read has no line, and at the end the lines fit into the accumulator; if a call
fails there is no line to lose. -/
def Keeps (bound : Nat) (r : Round) : TailInput → Nat → Nat → List String → Prop
  | _, _, n, [] => n≤bound
  | t, k, n, path::paths =>
    let lines:=splitLines (t.unread path (r.file k))
    if r.ctxErr k=none ∧ (r.file k).good t path then
      if t.seeksEnd path then lines=[] ∧ Keeps bound r (t.atEnd path (r.file k)) (k+1) n paths
      else Keeps bound r (t.atEnd path (r.file k)) (k+1) (n+lines.length) paths
    else n=0
def CallKeeps (accSize : Int) (t : TailInput) (r : Round) : Prop :=
  match expandGlobs r.glob t.files with
  | .error _ => True
  | .ok paths => Keeps (accBound accSize) r t 0 0 paths

theorem gatherFiles_keeps (bound k n : Nat) (paths : List String) : Keeps bound r t k n paths ↔
    (gatherFiles t r k paths).skipped=[] ∧ match (gatherFiles t r k paths).err with
      | none => n+(gatherFiles t r k paths).readLines.length≤bound
      | some _ => n=0 ∧ (gatherFiles t r k paths).readLines=[] := by
  induction paths generalizing t k n with
  | nil => simp [Keeps,gatherFiles,Outcome.skipped,Outcome.readLines]
  | cons path paths ih =>
    rw [Keeps,gatherFiles]
    cases hctx : r.ctxErr k with
    | some err => simp [Outcome.skipped,Outcome.readLines]
    | none =>
      cases hgood : (r.file k).good t path with
      | false =>
        obtain ⟨herr,hmoves⟩ := gatherFile_bad hgood
        obtain ⟨err,herr⟩ := Option.ne_none_iff_exists'.mp herr
        simp [herr,hmoves,Outcome.skipped,Outcome.readLines]
      | true =>
        rw [gatherFile_good hgood]
        cases hskip : t.seeksEnd path with
        | true =>
          simp [ih,Outcome.skipped,Outcome.readLines,metrics_to_end]
          tauto
        | false =>
          simp only [ih,Outcome.skipped,Outcome.readLines]
          cases (gatherFiles (t.atEnd path (r.file k)) r (k+1) paths).err with
          | none => simp [metrics_to_end,Nat.add_assoc]
          | some err =>
            simp [metrics_to_end]
            tauto

theorem gather_keeps_iff (accSize : Int) (t : TailInput) (r : Round) :
    (gather t r).passed.Sublist (delivered accSize (gather t r)) ↔ CallKeeps accSize t r := by
  rw [CallKeeps,gather]
  cases hglob : expandGlobs r.glob t.files with
  | error err => exact iff_of_true (nil_sublist _) trivial
  | ok paths =>
    simp only [gatherFiles_keeps,Nat.zero_add]
    generalize ho : gatherFiles t r 0 paths=o
    have hlength:=length_passed o
    cases he : o.err with
    | some err =>
      have hnone : delivered accSize o=[] := by rw [delivered,he]
      rw [hnone,sublist_nil]
      constructor
      · intro hpassed
        rw [hpassed,length_nil] at hlength
        exact ⟨length_eq_zero_iff.mp (by omega),trivial,length_eq_zero_iff.mp (by omega)⟩
      · rintro ⟨hskip,-,hread⟩
        rw [hskip,hread] at hlength
        exact length_eq_zero_iff.mp hlength
    | none =>
      have hem : o.emitted=o.readLines := by
        rw [← ho] at he ⊢
        exact gatherFiles_emitted he
      rw [delivered_of_ok he,hem]
      constructor
      · intro hsub
        have hlen:=hsub.length_le
        rw [hlength,length_take] at hlen
        exact ⟨length_eq_zero_iff.mp (by omega),by omega⟩
      · rintro ⟨hskip,hle⟩
        rw [take_of_length_le hle,passed_eq_readLines hskip]

/- The state in which each call is made, and the call. -/
def calls (t : TailInput) : List Round → List (TailInput × Round)
  | [] => []
  | r::rs => (t,r)::calls (gather t r).input rs

/-- Every line that an offset has moved past was delivered exactly if the files, the limits and the answers
of each call are such that nothing is lost. -/
theorem tail_delivers_iff (accSize : Int) (t : TailInput) (rounds : List Round) :
    (∀ o∈run t rounds, o.passed.Sublist (delivered accSize o)) ↔
      ∀ c∈calls t rounds, CallKeeps accSize c.1 c.2 := by
  induction rounds generalizing t with
  | nil => simp [run,calls]
  | cons r rounds ih => simp [run,calls,gather_keeps_iff,ih]

def readable (content : GoString) : FileAnswer := ⟨none,none,none,none,none,content⟩
def missing : FileAnswer := ⟨some "no such file or directory",none,none,none,none,[]⟩
def callWith (answers : List FileAnswer) : Round where
  glob _ := .ok none
  ctxErr _ := none
  file k := answers.getD k missing
def twoFiles (fromBeginning : Bool) : TailInput := ⟨["/a","/b"],fromBeginning,8,.empty⟩
def report (accSize : Int) (t : TailInput) (rounds : List Round) :
    List (List TailMetric × List TailMetric) :=
  (run t rounds).map fun o => (o.passed,delivered accSize o)

/- The line of `/a` is passed and lost because `/b` cannot be opened, because `/b` has a line
of more than eight bytes, because the accumulator takes one metric, or because `/a` was empty
when it was seen first. -/
theorem tail_loses_lines : report 10 (twoFiles true) [callWith [readable (utf8 "x\n"),missing]] =
        [([⟨"/a",utf8 "x"⟩],[])] ∧ report 10 (twoFiles true)
          [callWith [readable (utf8 "x\n"),readable (utf8 "far too long\n")]] =
        [([⟨"/a",utf8 "x"⟩],[])] ∧
      report 1 (twoFiles true) [callWith [readable (utf8 "x\n"),readable (utf8 "y\n")]] =
        [([⟨"/a",utf8 "x"⟩,⟨"/b",utf8 "y"⟩],[⟨"/a",utf8 "x"⟩])] ∧
      report 10 (twoFiles false) [callWith [readable [],readable []],
          callWith [readable (utf8 "x\n"),readable []]] = [([],[]),([⟨"/a",utf8 "x"⟩],[])] := by
  decide +kernel

end OpsAgent.Collector.Tail
