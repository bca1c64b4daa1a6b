import OpsAgent.Lib.BoundedHeap
import Mathlib.Data.List.Pairwise
import Mathlib.Data.Prod.Lex
import Mathlib.Data.String.Basic

/-!
# Scanning a directory tree (`rust-runtime/src/handlers/fs_scan.rs`)

The walk is the sequence of its results, and a pattern says which names it matches. A `BinaryHeap` of
`Reverse` pairs gives its least pair first, and its `into_sorted_vec` begins with the largest one.
-/

namespace OpsAgent.RustRuntime.FsScan
open Lib.BoundedHeap List

def maxFiles : Nat := 1000000

/-- The size and the path of a file, in the order of pairs. -/
abbrev Found := Nat ×ₗ String

structure DirEntry where
  isFile : Bool
  /-- `none` if the metadata cannot be read -/
  size : Option Nat
  (fileName path : String)
  extension : Option String

structure Request where
  minSize : Nat
  patterns : List (String → Bool)

structure Totals where
  totalFiles : Nat := 0
  totalSize : Nat := 0
  byExtension : String → Nat := fun _ => 0
  largest : List Found := []

/-- The size of an entry that the scan counts; `none` is a `continue`. -/
def Request.counts (r : Request) (entry : DirEntry) : Option Nat :=
  if !entry.isFile then none
  else entry.size.filter fun size =>
    (r.patterns.isEmpty||r.patterns.any (· entry.fileName))&&r.minSize ≤ size
def countExtension (counts : String → Nat) (ext : Option String) : String → Nat :=
  match ext with
  | none => counts
  | some ext => fun e => if e="."++ext then counts e+1 else counts e

inductive Stop where
  | err (message : String)
  | panicked

/-- One round of the loop; an entry that cannot be read is `none`. In a build without overflow checks
the sum of the sizes wraps around. -/
def visit (overflowChecks : Bool) (r : Request) (s : Totals) (entry : Option DirEntry) :
    Except Stop Totals :=
  match entry.bind fun e => (r.counts e).map (e,·) with
  | none => .ok s
  | some (e,size) =>
    if overflowChecks&&2^64 ≤ s.totalSize+size then .error .panicked
    else if s.totalFiles+1 > maxFiles then .error (.err "too many files: safety limit exceeded")
    else .ok
      { totalFiles := s.totalFiles+1
        totalSize := (s.totalSize+size) % 2^64
        byExtension := countExtension s.byExtension e.extension
        largest := offer (fun f => (ofLex f).1) 10 s.largest (toLex (size,e.path))}

/-- `largest_files`: the vector of the heap, reversed. -/
def Totals.largestFiles (s : Totals) : List (String × Nat) :=
  let sortedVec:=s.largest.reverse
  (sortedVec.map fun f => ((ofLex f).2,(ofLex f).1)).reverse
def scan (overflowChecks : Bool) (r : Request) (walk : List (Option DirEntry)) : Except Stop Totals :=
  walk.foldlM (visit overflowChecks r) {}
def Request.matched (r : Request) (walk : List (Option DirEntry)) : List (String × Nat) :=
  walk.filterMap fun entry => entry.bind fun e => (r.counts e).map (e.path,·)

/-- What `largest_files` is for: ten of the files or all, no other one larger, the largest first. -/
structure Largest (files reported : List (String × Nat)) : Prop where
  length : reported.length=min 10 files.length
  split : ∃ rest, reported++rest ~ files ∧ ∀ f∈reported, ∀ g∈rest, g.2≤f.2
  order : reported.Pairwise fun f g => g.2≤f.2

variable {overflowChecks : Bool} {r : Request} {s t : Totals} {walk : List (Option DirEntry)}
  {files : List (String × Nat)}

def found (f : String × Nat) : Found := toLex (f.2,f.1)

theorem size_monotone : Monotone fun f : Found => (ofLex f).1 := Prod.Lex.monotone_fst

theorem visit_keeps {entry : Option DirEntry}
    (hs : Keeps (fun f => (ofLex f).1) 10 (files.map found) s.largest) (h : visit overflowChecks r s entry=.ok t) :
    Keeps (fun f => (ofLex f).1) 10 ((files++r.matched [entry]).map found) t.largest := by
  have hmatched : r.matched [entry] =
      ((entry.bind fun e => (r.counts e).map (e,·)).map fun p => (p.1.path,p.2)).toList := by
    cases entry with
    | none => rfl
    | some e => cases hcounts : r.counts e <;> simp [Request.matched,hcounts]
  rw [hmatched]
  unfold visit at h
  split at h
  · rename_i hnone
    cases h
    rw [hnone]
    simpa using hs
  · rename_i e size hsome
    rw [hsome]
    split_ifs at h
    cases h
    have hoffer:=hs.offer size_monotone (toLex (size,e.path))
    simpa [found] using hoffer

theorem scan_keeps (hs : Keeps (fun f => (ofLex f).1) 10 (files.map found) s.largest)
    (h : walk.foldlM (visit overflowChecks r) s=.ok t) :
    Keeps (fun f => (ofLex f).1) 10 ((files++r.matched walk).map found) t.largest := by
  induction walk generalizing s files with
  | nil =>
    cases h
    simpa [Request.matched] using hs
  | cons entry walk ih =>
    rw [foldlM_cons] at h
    cases hvisit : visit overflowChecks r s entry with
    | error err =>
      rw [hvisit] at h
      cases h
    | ok u =>
      rw [hvisit] at h
      have hrest:=ih (visit_keeps hs hvisit) h
      have hcons : r.matched (entry::walk)=r.matched [entry]++r.matched walk :=
        filterMap_append (l := [entry])
      rwa [append_assoc,← hcons] at hrest

theorem largestFiles_eq (s : Totals) :
    s.largestFiles=s.largest.map fun f => ((ofLex f).2,(ofLex f).1) := by
  rw [Totals.largestFiles,map_reverse,reverse_reverse]

theorem scan_reports (h : scan overflowChecks r walk=.ok t) :
    t.largestFiles.length=min 10 (r.matched walk).length ∧
    (∃ rest, t.largestFiles++rest ~ r.matched walk ∧ ∀ f∈t.largestFiles, ∀ g∈rest, g.2≤f.2) ∧
    t.largestFiles.Pairwise fun f g => f.2≤g.2 := by
  obtain ⟨hsorted,hlength,rest,hsplit,hle⟩ := @scan_keeps overflowChecks r {} t walk [] (keeps_nil _ 10) h
  have hback : ∀ files : List (String × Nat),
      (files.map found).map (fun f => ((ofLex f).2,(ofLex f).1))=files := by
    intro files
    rw [map_map]
    exact map_id files
  rw [nil_append,length_map] at hlength
  rw [largestFiles_eq]
  refine ⟨by rw [length_map,hlength],⟨rest.map fun f => ((ofLex f).2,(ofLex f).1),?_,?_⟩,?_⟩
  · have hperm:=hsplit.map fun f => ((ofLex f).2,(ofLex f).1)
    rwa [nil_append,hback,map_append] at hperm
  · intro f hf g hg
    obtain ⟨x,hx,rfl⟩ := mem_map.mp hf
    obtain ⟨y,hy,rfl⟩ := mem_map.mp hg
    exact hle x hx y hy
  · exact pairwise_map.mpr (hsorted.imp fun hxy => size_monotone hxy)

/-- As many files as are reported have the largest size there is. -/
def OneSize (files : List (String × Nat)) : Prop :=
  ∃ size, (∀ f∈files, f.2 ≤ size) ∧ min 10 files.length ≤ files.countP (·.2 == size)

/-- Of the largest files all have one size exactly if all that are reported have. -/
theorem oneSize_iff {files reported rest : List (String × Nat)} (hlength : reported.length=min 10 files.length)
    (hperm : reported++rest ~ files) (hle : ∀ f∈reported, ∀ g∈rest, g.2≤f.2) :
    OneSize files ↔ ∀ f∈reported, ∀ g∈reported, f.2=g.2 := by
  have hcount (size : Nat) : files.countP (·.2 == size) =
      reported.countP (·.2 == size)+rest.countP (·.2 == size) := by
    rw [← hperm.countP_eq,countP_append]
  constructor
  · rintro ⟨size,hmax,hmany⟩
    have hall : ∀ f∈reported, f.2=size := by
      intro f hf
      by_contra hne
      have hlt : f.2<size := Nat.lt_of_le_of_ne
        (hmax f (hperm.subset (mem_append_left _ hf))) hne
      have hrest : rest.countP (·.2 == size)=0 := by
        rw [countP_eq_zero]
        intro g hg heq
        have := hle f hf g hg
        have := beq_iff_eq.mp heq
        omega
      have hfew : reported.countP (·.2 == size)<reported.length := by
        refine Nat.lt_of_le_of_ne countP_le_length fun heq => hne ?_
        exact beq_iff_eq.mp (countP_eq_length.mp heq f hf)
      rw [hcount] at hmany
      omega
    exact fun f hf g hg => (hall f hf).trans (hall g hg).symm
  · intro hsame
    cases hreported : reported with
    | nil =>
      rw [hreported,length_nil] at hlength
      have hnil : files=[] := length_eq_zero_iff.mp (by omega)
      rw [hnil]
      exact ⟨0,nofun,Nat.zero_le _⟩
    | cons f0 tail =>
      have hf0 : f0∈reported := hreported ▸ mem_cons_self
      refine ⟨f0.2,fun f hf => ?_,?_⟩
      · rcases mem_append.mp (hperm.symm.subset hf) with hf | hf
        · exact (hsame f hf f0 hf0).le
        · exact hle f0 hf0 f hf
      · have hall : reported.countP (·.2 == f0.2)=reported.length :=
          countP_eq_length.mpr fun f hf => beq_iff_eq.mpr (hsame f hf f0 hf0)
        rw [hcount,hall,hlength]
        exact Nat.le_add_right _ _

/-- The largest files are reported with the smallest first, which is right exactly if they have one
size. -/
theorem largest_files_iff (overflowChecks : Bool) (r : Request) (walk : List (Option DirEntry))
    (t : Totals) (h : scan overflowChecks r walk=.ok t) :
    Largest (r.matched walk) t.largestFiles ↔ OneSize (r.matched walk) := by
  obtain ⟨hlength,⟨rest,hperm,hle⟩,hup⟩ := scan_reports h
  rw [oneSize_iff hlength hperm hle]
  constructor
  · intro hlargest f hf g hg
    have hsymm : Std.Symm fun f g : String × Nat => f.2=g.2 := ⟨fun _ _ => Eq.symm⟩
    have hsame : t.largestFiles.Pairwise fun f g => f.2=g.2 :=
      (hup.and hlargest.order).imp fun hfg => Nat.le_antisymm hfg.1 hfg.2
    exact Pairwise.forall_of_forall (R := fun f g : String × Nat => f.2=g.2) (fun _ _ => rfl) hsame
      hf hg
  · intro hsame
    exact ⟨hlength,⟨rest,hperm,hle⟩,
      pairwise_of_forall_mem_list fun f hf g hg => (hsame g hg f hf).le⟩

def logFile (name : String) (size : Nat) : Option DirEntry := some ⟨true,some size,name,name,some "log"⟩

theorem largest_files_equal : ∃ t, scan true ⟨0,[]⟩ [logFile "a.log" 7,logFile "b.log" 7]=.ok t ∧
    Largest [("a.log",7),("b.log",7)] t.largestFiles := by
  refine ⟨_,rfl,(largest_files_iff true ⟨0,[]⟩ [logFile "a.log" 7,logFile "b.log" 7] _ rfl).mpr ?_⟩
  exact ⟨7,by decide,by decide⟩

theorem largest_files_ascending : ∃ t, scan true ⟨0,[]⟩ [logFile "a.log" 7,logFile "b.log" 9]=.ok t ∧
    t.largestFiles=[("a.log",7),("b.log",9)] ∧ ¬ Largest [("a.log",7),("b.log",9)] t.largestFiles := by
  have hfiles (t : Totals) (ht : t.largestFiles=[("a.log",7),("b.log",9)]) :
      ¬ Largest [("a.log",7),("b.log",9)] t.largestFiles := by
    intro h
    have horder:=h.order
    rw [ht] at horder
    revert horder
    decide
  refine ⟨_,rfl,?_,hfiles _ ?_⟩
  · rw [largestFiles_eq]
    decide +kernel
  · rw [largestFiles_eq]
    decide +kernel

end OpsAgent.RustRuntime.FsScan
