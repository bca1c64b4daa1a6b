import OpsAgent.Collector.Tail

/-!
# Files that grow, are truncated or replaced (`collector/inputs/tail/tail.go`, `cursor.go`)

A call may open a file several times, when several patterns match it, or not at all.
-/

namespace OpsAgent.Collector.Tail
open Lib Lib.GoStrings Lib.LineScanner List

def openedFrom (t : TailInput) (r : Round) (k : Nat) : List String → List (String × FileAnswer)
  | [] => []
  | path::paths =>
    match r.ctxErr k with
    | some _ => []
    | none => (path,r.file k) :: match (gatherFile t path (r.file k)).err with
      | some _ => []
      | none => openedFrom (gatherFile t path (r.file k)).input r (k+1) paths

def opened (t : TailInput) (r : Round) : List (String × FileAnswer) :=
  match expandGlobs r.glob t.files with
  | .error _ => []
  | .ok paths => openedFrom t r 0 paths
def openedIn (t : TailInput) : List Round → List (String × FileAnswer)
  | [] => []
  | r::rs => opened t r++openedIn (gather t r).input rs

def reads (t : TailInput) : List (String × FileAnswer) → TailInput × List TailMetric
  | [] => (t,[])
  | (path,a)::rest =>
    ((reads (gatherFile t path a).input rest).1,
      (gatherFile t path a).emitted++(reads (gatherFile t path a).input rest).2)

theorem reads_append (t : TailInput) (as bs : List (String × FileAnswer)) :
    reads t (as++bs)=((reads (reads t as).1 bs).1,(reads t as).2++(reads (reads t as).1 bs).2) := by
  induction as generalizing t with
  | nil => rfl
  | cons a as ih =>
    rw [cons_append,reads,ih,reads,append_assoc]

theorem gatherFiles_eq_reads (t : TailInput) (r : Round) (k : Nat) (paths : List String) :
    ((gatherFiles t r k paths).input,(gatherFiles t r k paths).emitted) =
      reads t (openedFrom t r k paths) := by
  induction paths generalizing t k with
  | nil => rfl
  | cons path paths ih =>
    rw [gatherFiles,openedFrom]
    cases r.ctxErr k with
    | some err => rfl
    | none =>
      dsimp only
      rw [reads]
      cases (gatherFile t path (r.file k)).err with
      | some err => simp [reads]
      | none =>
        dsimp only
        rw [← ih]

theorem gather_eq_reads (t : TailInput) (r : Round) :
    ((gather t r).input,(gather t r).emitted)=reads t (opened t r) := by
  rw [gather,opened]
  cases expandGlobs r.glob t.files with
  | error err => rfl
  | ok paths => exact gatherFiles_eq_reads t r 0 paths

theorem run_emitted (t : TailInput) (rounds : List Round) :
    (run t rounds).flatMap Outcome.emitted=(reads t (openedIn t rounds)).2 := by
  induction rounds generalizing t with
  | nil => rfl
  | cons r rounds ih =>
    rw [run,openedIn,reads_append,← gather_eq_reads,flatMap_cons,ih]

structure Agrees (path : String) (t u : TailInput) : Prop where
  fromBeginning : t.fromBeginning=u.fromBeginning
  maxLineBytes : t.maxLineBytes=u.maxLineBytes
  offset : t.offset path=u.offset path

theorem offset_setOffset_self (t : TailInput) (path : String) (n : Int) :
    (t.setOffset path n).offset path=n := by simp [TailInput.offset,TailInput.setOffset]

variable {path : String} {t u : TailInput} {chunks : List GoString}

theorem Agrees.setOffset (h : Agrees path t u) (n : Int) :
    Agrees path (t.setOffset path n) (u.setOffset path n) :=
  ⟨h.fromBeginning,h.maxLineBytes,by rw [offset_setOffset_self,offset_setOffset_self]⟩
theorem agrees_setOffset_of_ne {other : String} (h : path≠other) (t : TailInput) (n : Int) :
    Agrees path (t.setOffset other n) t :=
  ⟨rfl,rfl,by simp [TailInput.offset,TailInput.setOffset,SortedMap.get?_insert_of_ne _ _ h]⟩
theorem Agrees.trans {v : TailInput} (h : Agrees path t u) (h' : Agrees path u v) : Agrees path t v :=
  ⟨h.fromBeginning.trans h'.fromBeginning,h.maxLineBytes.trans h'.maxLineBytes,
    h.offset.trans h'.offset⟩

theorem gatherFile_effect (t : TailInput) (path : String) (a : FileAnswer) :
    ((gatherFile t path a).input=t ∨ ∃ n, (gatherFile t path a).input=t.setOffset path n) ∧
      ∀ m∈(gatherFile t path a).emitted, m.file=path := by
  have hmap : ∀ (ls : List GoString), ∀ m∈ls.map fun line => (⟨path,line⟩ : TailMetric),
      m.file=path := by
    intro ls m hm
    obtain ⟨line,-,rfl⟩ := mem_map.mp hm
    rfl
  have hnil : ∀ m∈([] : List TailMetric), m.file=path := fun m hm => absurd hm not_mem_nil
  unfold gatherFile
  dsimp only
  split
  · exact ⟨.inl rfl,hnil⟩
  split
  · split
    · exact ⟨.inl rfl,hnil⟩
    · exact ⟨.inr ⟨_,rfl⟩,hnil⟩
  split
  · exact ⟨.inl rfl,hnil⟩
  split
  · exact ⟨.inl rfl,hmap _⟩
  split
  · exact ⟨.inl rfl,hmap _⟩
  split
  · exact ⟨.inl rfl,hmap _⟩
  · exact ⟨.inr ⟨_,rfl⟩,hmap _⟩

theorem gatherFile_agrees (h : Agrees path t u) (a : FileAnswer) :
    (gatherFile t path a).emitted=(gatherFile u path a).emitted ∧
      Agrees path (gatherFile t path a).input (gatherFile u path a).input := by
  have hfirst : t.seeksEnd path=u.seeksEnd path := by
    rw [TailInput.seeksEnd,TailInput.seeksEnd,h.fromBeginning,h.offset]
  unfold gatherFile
  dsimp only
  rw [hfirst,h.maxLineBytes,h.offset]
  split
  · exact ⟨rfl,h⟩
  split
  · split
    · exact ⟨rfl,h⟩
    · exact ⟨rfl,h.setOffset _⟩
  split
  · exact ⟨rfl,h⟩
  split
  · exact ⟨rfl,h⟩
  split
  · exact ⟨rfl,h⟩
  split
  · exact ⟨rfl,h⟩
  · exact ⟨rfl,h.setOffset _⟩

theorem reads_filter (h : Agrees path t u) (as : List (String × FileAnswer)) :
    (reads t as).2.filter (fun m => m.file=path)=(reads u (as.filter fun f => f.1=path)).2 := by
  induction as generalizing t u with
  | nil => rfl
  | cons f as ih =>
    obtain ⟨other,a⟩ := f
    obtain ⟨hinput,hfile⟩ := gatherFile_effect t other a
    rw [reads,filter_append]
    by_cases hp : other=path
    · subst hp
      obtain ⟨hemitted,hagrees⟩ := gatherFile_agrees h a
      have hall : (gatherFile t other a).emitted.filter (fun m => m.file=other) =
          (gatherFile t other a).emitted :=
        filter_eq_self.mpr fun m hm => decide_eq_true (hfile m hm)
      rw [filter_cons_of_pos (by simp),reads,hall,hemitted,ih hagrees]
    · have hnone : (gatherFile t other a).emitted.filter (fun m => m.file=path)=[] := by
        refine filter_eq_nil_iff.mpr fun m hm => ?_
        rw [hfile m hm,decide_eq_true_eq]
        exact hp
      have hagrees : Agrees path (gatherFile t other a).input u := by
        rcases hinput with hsame | ⟨n,hset⟩
        · rwa [hsame]
        · rw [hset]
          exact (agrees_setOffset_of_ne (Ne.symm hp) t n).trans h
      rw [filter_cons_of_neg (by simp [hp]),hnone,nil_append,ih hagrees]

def linesOf (path : String) (t : TailInput) (rounds : List Round) : List GoString :=
  (((run t rounds).flatMap Outcome.emitted).filter fun m => m.file=path).map TailMetric.message
def answersOf (path : String) (t : TailInput) (rounds : List Round) : List FileAnswer :=
  ((openedIn t rounds).filter fun f => f.1=path).map Prod.snd
def follow (t : TailInput) (path : String) (answers : List FileAnswer) : List GoString :=
  (reads t (answers.map (path,·))).2.map TailMetric.message

theorem follow_cons (t : TailInput) (path : String) (a : FileAnswer) (answers : List FileAnswer) :
    follow t path (a::answers)=(gatherFile t path a).emitted.map TailMetric.message ++
      follow (gatherFile t path a).input path answers := by
  rw [follow,map_cons,reads,map_append]
  rfl

theorem linesOf_eq_follow (path : String) (t : TailInput) (rounds : List Round) :
    linesOf path t rounds=follow t path (answersOf path t rounds) := by
  have hpairs : (answersOf path t rounds).map (path,·) =
      (openedIn t rounds).filter fun f => f.1=path := by
    rw [answersOf,map_map]
    refine (map_congr_left ?_).trans (map_id _)
    intro f hf
    have hpath : f.1=path := of_decide_eq_true (mem_filter.mp hf).2
    exact Prod.ext hpath.symm rfl
  rw [linesOf,run_emitted,reads_filter ⟨rfl,rfl,rfl⟩,follow,hpairs]

def growth (base : GoString) : List GoString → List GoString
  | [] => []
  | c::cs => (base++c)::growth (base++c) cs

theorem gatherFile_first (hend : t.fromBeginning=false) (hoff : t.offset path=0) (content : GoString) :
    gatherFile t path (readable content) =
      ⟨none,t.setOffset path content.length,[],[⟨path,content,0,content.length,false⟩]⟩ := by
  simp [gatherFile,readable,TailInput.seeksEnd,hend,hoff]

theorem gatherFile_rest (content : GoString) {n : Nat} (hoff : t.offset path=n)
    (hreads : t.fromBeginning ∨ n≠0)
    (hfit : (scan (maxTokenSize t.maxLineBytes) (content.drop n)).tooLong=false) :
    (gatherFile t path (readable content)).emitted.map TailMetric.message = splitLines (content.drop n) ∧
      (gatherFile t path (readable content)).input =
        t.setOffset path (n+(content.drop n).length : Nat) := by
  have hfirst : t.seeksEnd path=false := by
    rcases hreads with hbeg | hne
    · simp [TailInput.seeksEnd,hbeg]
    · simp [TailInput.seeksEnd,hoff,hne]
  have hunread : t.unread path (readable content)=content.drop n := by
    rw [TailInput.unread,hoff]
    rfl
  have hgood : (readable content).good t path := by
    simp [FileAnswer.good,readable,hfirst,hoff] at hunread ⊢
    rwa [hunread]
  rw [gatherFile_good hgood,TailInput.atEnd,hfirst,hunread,hoff]
  simp [Function.comp_def]

theorem follow_growth {base : GoString}
    (hoff : t.offset path=base.length) (hreads : t.fromBeginning ∨ base≠[])
    (hfit : ∀ c∈chunks, (scan (maxTokenSize t.maxLineBytes) c).tooLong=false) :
    follow t path ((growth base chunks).map readable)=chunks.flatMap splitLines := by
  induction chunks generalizing t base with
  | nil => rfl
  | cons c cs ih =>
    obtain ⟨hc,hcs⟩ := forall_mem_cons.mp hfit
    have hdrop : (base++c).drop base.length=c := drop_left
    obtain ⟨hemitted,hinput⟩ := gatherFile_rest (base++c) hoff
      (hreads.imp_right fun hne hzero => hne (length_eq_zero_iff.mp hzero)) (by rwa [hdrop])
    have hreads' : t.fromBeginning ∨ base++c≠[] :=
      hreads.imp_right fun hne => append_ne_nil_of_left_ne_nil hne c
    have hrest:=ih (t := t.setOffset path (base++c).length) (offset_setOffset_self t path _)
      hreads' hcs
    rw [hdrop] at hemitted hinput
    rw [← length_append] at hinput
    rw [growth,map_cons,follow_cons,hemitted,hinput,hrest,flatMap_cons]

/-- The lines of a growing file, read from its beginning, are those of the whole file exactly if no line
is cut by the end of a read. -/
theorem tail_growth_iff (t : TailInput) (path : String) (rounds : List Round) (chunks : List GoString)
    (hbeg : t.fromBeginning=true) (hnew : t.offset path=0)
    (hanswers : answersOf path t rounds=(growth [] chunks).map readable)
    (hfit : (scan (maxTokenSize t.maxLineBytes) chunks.flatten).tooLong=false) :
    linesOf path t rounds=splitLines chunks.flatten ↔ chunks.Pairwise fun c d => Ended c ∨ d=[] := by
  have hlines : follow t path ((growth [] chunks).map readable)=chunks.flatMap splitLines :=
    follow_growth hnew (.inl hbeg) (scan_chunk hfit)
  rw [linesOf_eq_follow,hanswers,hlines]
  exact flatMap_splitLines_iff chunks

def oneFile (fromBeginning : Bool) : TailInput := ⟨["/log"],fromBeginning,0,.empty⟩
def grownCalls (contents : List GoString) : List Round :=
  contents.map fun content => callWith [readable content]

theorem tail_growth_two_lines :
    linesOf "/log" (oneFile true) (grownCalls (growth [] [utf8 "a\n",utf8 "b\n"])) =
      splitLines [utf8 "a\n",utf8 "b\n"].flatten :=
  (tail_growth_iff (oneFile true) "/log" (grownCalls (growth [] [utf8 "a\n",utf8 "b\n"]))
    [utf8 "a\n",utf8 "b\n"] rfl rfl rfl (by decide +kernel)).mpr (by decide +kernel)

-- The second line does not fit, and the first one, which is emitted again, is taken for it.
example : linesOf "/log" ⟨["/log"],true,2,.empty⟩ (grownCalls (growth [] [utf8 "x\nx\r\n",[]])) =
    splitLines (utf8 "x\nx\r\n") ∧ (scan 2 (utf8 "x\nx\r\n")).tooLong := by decide +kernel

theorem tail_cuts_line :
    linesOf "/log" (oneFile true) (grownCalls [utf8 "ab",utf8 "abc\n"])=[utf8 "ab",utf8 "c"] ∧
      splitLines (utf8 "abc\n")=[utf8 "abc"] := by decide +kernel

theorem follow_empty_iff (hend : t.fromBeginning=false) (hoff : t.offset path=0)
    (hfit : ∀ c∈chunks, (scan (maxTokenSize t.maxLineBytes) c).tooLong=false) :
    follow t path ((growth [] chunks).map readable)=chunks.flatMap splitLines ↔ ∀ c∈chunks, c=[] := by
  induction chunks generalizing t with
  | nil => exact iff_of_true rfl fun c hc => absurd hc not_mem_nil
  | cons c cs ih =>
    obtain ⟨hc,hcs⟩ := forall_mem_cons.mp hfit
    have hoff' := offset_setOffset_self t path (c.length : Int)
    rw [growth,nil_append,map_cons,follow_cons,gatherFile_first hend hoff,
      map_nil,nil_append,flatMap_cons,forall_mem_cons]
    dsimp only
    by_cases hempty : c=[]
    · -- the file is still empty, and the next call counts as the first one again
      subst hempty
      have hnone : splitLines []=[] := rfl
      rw [hnone,nil_append,ih (t := t.setOffset path _) hend hoff' hcs]
      exact (and_iff_right rfl).symm
    · rw [follow_growth (t := t.setOffset path _) hoff' (.inr hempty) hcs]
      refine iff_of_false (fun heq => ?_) fun h => hempty h.1
      exact splitLines_ne_nil hempty (self_eq_append_left.mp heq)

/-- The lines appended after the first call are emitted once each exactly if the file was not empty then
or nothing is appended. -/
theorem tail_appends_iff (t : TailInput) (path : String) (rounds : List Round) (init : GoString)
    (chunks : List GoString) (hend : t.fromBeginning=false) (hnew : t.offset path=0)
    (hanswers : answersOf path t rounds=(init::growth init chunks).map readable)
    (hwhole : ∀ c∈chunks, Ended c)
    (hfit : (scan (maxTokenSize t.maxLineBytes) chunks.flatten).tooLong=false) :
    linesOf path t rounds=splitLines chunks.flatten ↔ init≠[] ∨ ∀ c∈chunks, c=[] := by
  have hlines : chunks.flatMap splitLines=splitLines chunks.flatten := by
    refine (flatMap_splitLines_iff chunks).mpr (pairwise_of_forall_mem_list ?_)
    exact fun c hc _ _ => .inl (hwhole c hc)
  have hoff:=offset_setOffset_self t path (init.length : Int)
  rw [linesOf_eq_follow,hanswers,map_cons,follow_cons,gatherFile_first hend hnew,
    map_nil,nil_append,← hlines]
  dsimp only
  by_cases hinit : init=[]
  · subst hinit
    rw [follow_empty_iff (t := t.setOffset path _) hend hoff (scan_chunk hfit)]
    exact (or_iff_right (not_not_intro rfl)).symm
  · rw [follow_growth (t := t.setOffset path _) hoff (.inr hinit) (scan_chunk hfit)]
    exact iff_of_true rfl (.inl hinit)

theorem tail_appends_after_line : linesOf "/log" (oneFile false)
        (grownCalls (utf8 "a\n"::growth (utf8 "a\n") [utf8 "b\n",utf8 "c\n"])) =
      splitLines [utf8 "b\n",utf8 "c\n"].flatten :=
  (tail_appends_iff (oneFile false) "/log"
    (grownCalls (utf8 "a\n"::growth (utf8 "a\n") [utf8 "b\n",utf8 "c\n"])) (utf8 "a\n")
    [utf8 "b\n",utf8 "c\n"] rfl rfl rfl (by decide +kernel) (by decide +kernel)).mpr
    (.inl (by decide +kernel))

theorem tail_skips_line :
    linesOf "/log" (oneFile false) (grownCalls [[],utf8 "a\n",utf8 "a\nb\n"])=[utf8 "b"] ∧
      splitLines (utf8 "a\nb\n")=[utf8 "a",utf8 "b"] := by decide +kernel

variable {n : Nat} {kept : GoString}

theorem follow_kept (hoff : t.offset path=n) (hreads : t.fromBeginning ∨ n≠0)
    (hn : n≤kept.length) (hended : Ended (kept.drop n)) (hwhole : ∀ c∈chunks, Ended c) (hne : chunks≠[])
    (hfit : (scan (maxTokenSize t.maxLineBytes) (kept.drop n++chunks.flatten)).tooLong=false) :
    follow t path ((growth kept chunks).map readable) =
      splitLines (kept.drop n)++splitLines chunks.flatten := by
  obtain ⟨c,cs,rfl⟩ := exists_cons_of_ne_nil hne
  have hlength : (kept.take n).length=n := length_take_of_le hn
  -- the first call reads what is left and the first chunk
  have hgrowth : growth kept (c::cs)=growth (kept.take n) ((kept.drop n++c)::cs) := by
    rw [growth,growth,← append_assoc,take_append_drop]
  have hbase : t.fromBeginning ∨ kept.take n≠[] := by
    refine hreads.imp_right fun hpos hnil => hpos ?_
    rw [← hlength,hnil,length_nil]
  have hlines : (c::cs).flatMap splitLines=splitLines (c::cs).flatten := by
    refine (flatMap_splitLines_iff _).mpr (pairwise_of_forall_mem_list ?_)
    exact fun d hd _ _ => .inl (hwhole d hd)
  rw [hgrowth,follow_growth (by rw [hoff,hlength]) hbase (scan_chunk (by
    rw [flatten_cons,append_assoc]
    exact hfit)),← hlines,flatMap_cons,flatMap_cons,splitLines_append hended,append_assoc]

theorem answersOf_single (hfiles : t.files=[path]) (a : FileAnswer) :
    answersOf path t [callWith [a]]=[a] := by
  have hopened : opened t (callWith [a])=[(path,a)] := by
    rw [opened,hfiles]
    change openedFrom t (callWith [a]) 0 [path]=_
    simp only [openedFrom,callWith,getD_cons_zero]
    split <;> rfl
  simp [answersOf,openedIn,hopened]

/-- A file that now holds `kept`, with the cursor at `n`, is followed without a gap exactly if `n` lies within
it, is not a 0 that means the end, and what is left ends with a line. -/
theorem tail_truncated_iff (path : String) (fromBeginning : Bool) (maxLineBytes : Int)
    (kept : GoString) (n : Nat) (hfit : (scan (maxTokenSize maxLineBytes) (kept.drop n)).tooLong=false) :
    (∀ (t : TailInput) rounds chunks, t.fromBeginning=fromBeginning → t.maxLineBytes=maxLineBytes →
        t.offset path=(n : Int) → answersOf path t rounds=(growth kept chunks).map readable →
        (∀ c∈chunks, Ended c) →
        (scan (maxTokenSize maxLineBytes) (kept.drop n++chunks.flatten)).tooLong=false →
        ∃ old, old <+: kept.drop n ∧ Ended old ∧
          linesOf path t rounds=splitLines old++splitLines chunks.flatten) ↔
      (fromBeginning=true ∨ n≠0) ∧ n≤kept.length ∧ Ended (kept.drop n) := by
  constructor
  · intro h
    obtain ⟨t,hfiles,hbeg,hmax,hoff⟩ : ∃ t : TailInput, t.files=[path] ∧
        t.fromBeginning=fromBeginning ∧ t.maxLineBytes=maxLineBytes ∧ t.offset path=(n : Int) :=
      ⟨(⟨[path],fromBeginning,maxLineBytes,.empty⟩ : TailInput).setOffset path n,rfl,rfl,rfl,
        offset_setOffset_self _ path n⟩
    -- one call, after `c` was appended
    have hcall : ∀ c, Ended c →
        (scan (maxTokenSize maxLineBytes) (kept.drop n++c)).tooLong=false →
        ∃ old, old <+: kept.drop n ∧ Ended old ∧
          (gatherFile t path (readable (kept++c))).emitted.map TailMetric.message =
            splitLines old++splitLines c := by
      intro c hc hfits
      have hone:=h t [callWith [readable (kept++c)]] [c] hbeg hmax hoff
        (answersOf_single hfiles _) (forall_mem_singleton.mpr hc)
        (by rwa [flatten_singleton])
      rw [linesOf_eq_follow,answersOf_single hfiles,follow_cons,flatten_singleton] at hone
      rw [← append_nil (map _ _)]
      exact hone
    have hemits : (gatherFile t path (readable (kept++[10]))).emitted≠[] := by
      intro hnil
      obtain ⟨old,-,-,hlines⟩ := hcall [10] (.inr rfl) (scanFrom_newline (by
        unfold maxTokenSize
        split <;> omega) hfit)
      rw [hnil] at hlines
      exact cons_ne_nil _ _ (append_eq_nil_iff.mp hlines.symm).2
    have hreads : t.fromBeginning=true ∨ n≠0 := by
      by_contra hfirst
      rw [not_or,Bool.not_eq_true,not_not] at hfirst
      refine hemits ?_
      rw [gatherFile_first hfirst.1 (by rw [hoff,hfirst.2]; rfl)]
    have hn : n≤kept.length := by
      by_contra hlt
      have hdrop : (kept++[10]).drop n=[] := by simp; omega
      have hlines:=(gatherFile_rest (kept++[10]) hoff hreads (by rw [hdrop]; rfl)).1
      rw [hdrop] at hlines
      exact hemits (map_eq_nil_iff.mp hlines)
    refine ⟨by rwa [← hbeg],hn,?_⟩
    obtain ⟨old,⟨rest,hrest⟩,hold,hlines⟩ := hcall [] (.inl rfl) (by rwa [append_nil])
    rw [append_nil,(gatherFile_rest kept hoff hreads (by rwa [hmax])).1,← hrest,
      splitLines_append hold,append_cancel_left_eq] at hlines
    by_cases hnil : rest=[]
    · rw [← hrest,hnil,append_nil]
      exact hold
    · exact absurd hlines (splitLines_ne_nil hnil)
  · intro ⟨hreads,hn,hended⟩ t rounds chunks hbeg hmax hoff hanswers hwhole hfits
    rw [linesOf_eq_follow,hanswers]
    by_cases hne : chunks=[]
    · subst hne
      exact ⟨[], nil_prefix,.inl rfl,rfl⟩
    · refine ⟨kept.drop n,prefix_refl _,hended,?_⟩
      exact follow_kept hoff (by rwa [hbeg]) hn hended hwhole hne (by rwa [hmax])

theorem tail_truncated_to_offset : ∃ old, old <+: (utf8 "a\n").drop 2 ∧ Ended old ∧
      linesOf "/log" ((oneFile true).setOffset "/log" 2) (grownCalls (growth (utf8 "a\n") [utf8 "b\n"])) =
        splitLines old++splitLines [utf8 "b\n"].flatten :=
  (tail_truncated_iff "/log" true 0 (utf8 "a\n") 2 (by decide +kernel)).mpr
    ⟨.inl rfl,by decide +kernel,by decide +kernel⟩ ((oneFile true).setOffset "/log" 2)
    (grownCalls (growth (utf8 "a\n") [utf8 "b\n"])) [utf8 "b\n"] rfl rfl rfl rfl (by decide +kernel)
    (by decide +kernel)

/- The file is replaced by a shorter one: two of its lines are lost, and one is read from its middle. -/
theorem tail_loses_replaced_lines :
    linesOf "/log" (oneFile true) (grownCalls [utf8 "aaaa\nbbbb\n",utf8 "c\n",utf8 "c\nddd\neeeeee\n"]) =
        [utf8 "aaaa",utf8 "bbbb",utf8 "ee"] ∧
      splitLines (utf8 "c\nddd\neeeeee\n")=[utf8 "c",utf8 "ddd",utf8 "eeeeee"] := by decide +kernel

end OpsAgent.Collector.Tail
