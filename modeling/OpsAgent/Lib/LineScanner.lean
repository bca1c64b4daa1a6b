import OpsAgent.Lib.GoStrings

/-!
# Reading lines (`bufio.Scanner` with `ScanLines`)

An unterminated rest is a line too. The scanner gives up when its buffer of `max` bytes is full
and has no newline in it.
-/

namespace OpsAgent.Lib.LineScanner
open Lib.GoStrings List

def dropCR (line : GoString) : GoString :=
  if line.getLast?=some 13 then line.dropLast else line
def splitFrom (line : GoString) : GoString → List GoString
  | [] => if line=[] then [] else [dropCR line]
  | b::bs => if b=10 then dropCR line::splitFrom [] bs else splitFrom (line++[b]) bs
def splitLines (bs : GoString) : List GoString := splitFrom [] bs

structure Scan where
  lines : List GoString
  tooLong : Bool

def scanFrom (max : Nat) (line : GoString) : GoString → Scan
  | [] =>
    if line=[] then ⟨[],false⟩
    else if max≤line.length then ⟨[],true⟩
    else ⟨[dropCR line],false⟩
  | b::bs =>
    if max≤line.length then ⟨[],true⟩
    else if b=10 then
      let r:=scanFrom max [] bs
      ⟨dropCR line::r.lines,r.tooLong⟩
    else scanFrom max (line++[b]) bs

def scan (max : Nat) (bs : GoString) : Scan := scanFrom max [] bs

theorem scanFrom_lines (max : Nat) (line bs : GoString) (h : (scanFrom max line bs).tooLong=false) :
    (scanFrom max line bs).lines=splitFrom line bs := by
  induction bs generalizing line with
  | nil =>
    rw [scanFrom,splitFrom] at *
    split at h
    case isTrue hnil => simp [hnil]
    case isFalse hnil =>
      split at h
      · cases h
      case isFalse hlen => simp [hnil,hlen]
  | cons b bs ih =>
    rw [scanFrom,splitFrom] at *
    split at h
    · cases h
    case isFalse hlen =>
      rw [if_neg hlen]
      by_cases hb : b=10
      · simp only [if_pos hb] at h ⊢
        rw [ih [] h]
      · simp only [if_neg hb] at h ⊢
        exact ih (line++[b]) h

theorem scan_lines (max : Nat) (bs : GoString) (h : (scan max bs).tooLong=false) :
    (scan max bs).lines=splitLines bs := scanFrom_lines max [] bs h

variable {max : Nat}

theorem mem_scanFrom_line {start line rest x : GoString} (h : 10∉line)
    (hx : x∈(scanFrom max start (line++10::rest)).lines) :
    x=dropCR (start++line) ∨ x∈(scan max rest).lines := by
  induction line generalizing start with
  | nil =>
    rw [nil_append,scanFrom] at hx
    split at hx
    · cases hx
    · rw [append_nil]
      exact mem_cons.mp hx
  | cons b line ih =>
    rw [mem_cons,not_or] at h
    rw [cons_append,scanFrom] at hx
    split at hx
    · cases hx
    · rw [if_neg (Ne.symm h.1)] at hx
      have hrest:=ih h.2 hx
      rwa [append_assoc,singleton_append] at hrest

def Ended (bs : GoString) : Prop := bs=[] ∨ bs.getLast?=some 10

instance (bs : GoString) : Decidable (Ended bs) := inferInstanceAs (Decidable (_ ∨ _))

theorem splitFrom_append_newline (line x y : GoString) :
    splitFrom line (x++10::y)=splitFrom line (x++[10])++splitLines y := by
  induction x generalizing line with
  | nil => simp [splitFrom,splitLines]
  | cons b x ih =>
    simp only [cons_append,splitFrom]
    by_cases hb : b=10
    · rw [if_pos hb,if_pos hb,ih,cons_append]
    · rw [if_neg hb,if_neg hb,ih]

variable {x y line : GoString} (chunks : List GoString)

theorem splitLines_append (hx : Ended x) (y : GoString) :
    splitLines (x++y)=splitLines x++splitLines y := by
  rcases hx with rfl | hlast
  · rfl
  · obtain ⟨init,rfl⟩ := getLast?_eq_some_iff.mp hlast
    rw [append_assoc,singleton_append]
    exact splitFrom_append_newline [] init y

theorem length_splitFrom (line line' : GoString) (hy : y≠[]) :
    (splitFrom line y).length=(splitFrom line' y).length := by
  induction y generalizing line line' with
  | nil => exact absurd rfl hy
  | cons b y ih =>
    rw [splitFrom,splitFrom]
    by_cases hb : b=10
    · simp [hb]
    · rw [if_neg hb,if_neg hb]
      cases y with
      | nil => simp [splitFrom]
      | cons c y => exact ih _ _ (cons_ne_nil c y)

theorem length_splitFrom_append (hne : line++x≠[]) (hcut : x.getLast? ≠ some 10) (hy : y≠[]) :
    (splitFrom line (x++y)).length+1=(splitFrom line x).length+(splitLines y).length := by
  induction x generalizing line with
  | nil =>
    rw [append_nil] at hne
    have hsame:=length_splitFrom line [] hy
    rw [nil_append,hsame,splitFrom,if_neg hne,splitLines,length_singleton]
    omega
  | cons b x ih =>
    rw [cons_append,splitFrom,splitFrom]
    by_cases hb : b=10
    · have hx : x≠[] := by
        rintro rfl
        exact hcut (by rw [hb]; rfl)
      have hlast : x.getLast? ≠ some 10 := by
        rw [getLast?_cons_of_ne_nil hx] at hcut
        exact hcut
      have hrest : (splitFrom [] (x++y)).length+1 =
          (splitFrom [] x).length+(splitLines y).length := ih (by rwa [nil_append]) hlast
      rw [if_pos hb,if_pos hb,length_cons,length_cons]
      omega
    · have hlast : x.getLast? ≠ some 10 := by
        cases x with
        | nil => simp
        | cons c x =>
          rw [getLast?_cons_of_ne_nil (cons_ne_nil c x)] at hcut
          exact hcut
      rw [if_neg hb,if_neg hb]
      exact ih (by simp) hlast

theorem length_splitLines_append (hx : ¬ Ended x) (hy : y≠[]) :
    (splitLines (x++y)).length+1=(splitLines x).length+(splitLines y).length := by
  rw [Ended,not_or] at hx
  exact length_splitFrom_append hx.1 hx.2 hy

theorem splitFrom_ne_nil (hline : line≠[]) (bs : GoString) : splitFrom line bs≠[] := by
  induction bs generalizing line with
  | nil => simp [splitFrom,hline]
  | cons b bs ih =>
    rw [splitFrom]
    split
    · exact cons_ne_nil _ _
    · exact ih (by simp)

theorem splitLines_ne_nil (hy : y≠[]) : splitLines y≠[] := by
  cases y with
  | nil => exact absurd rfl hy
  | cons b y =>
    rw [splitLines,splitFrom]
    split
    · exact cons_ne_nil _ _
    · exact splitFrom_ne_nil (by simp) y

theorem length_splitLines_flatten_le :
    (splitLines chunks.flatten).length≤(chunks.flatMap splitLines).length := by
  induction chunks with
  | nil => exact Nat.le_refl _
  | cons c cs ih =>
    rw [flatten_cons,flatMap_cons,length_append]
    by_cases hc : Ended c
    · rw [splitLines_append hc,length_append]
      omega
    · by_cases hcs : cs.flatten=[]
      · rw [hcs,append_nil]
        omega
      · have hcut:=length_splitLines_append hc hcs
        omega

theorem flatMap_splitLines_iff :
    chunks.flatMap splitLines=splitLines chunks.flatten ↔ chunks.Pairwise fun c d => Ended c ∨ d=[] := by
  induction chunks with
  | nil => exact iff_of_true rfl .nil
  | cons c cs ih =>
    rw [flatten_cons,flatMap_cons,pairwise_cons]
    by_cases hc : Ended c
    · rw [splitLines_append hc,append_cancel_left_eq,ih]
      exact ⟨fun h => ⟨fun _ _ => .inl hc,h⟩,fun h => h.2⟩
    · by_cases hcs : cs.flatten=[]
      · have hempty : ∀ d∈cs, d=[] := flatten_eq_nil_iff.mp hcs
        have hnone : cs.flatMap splitLines=[] := by
          rw [flatMap_eq_nil_iff]
          intro d hd
          rw [hempty d hd]
          rfl
        have hpair : cs.Pairwise fun c d => Ended c ∨ d=[] :=
          pairwise_of_forall_mem_list fun _ _ d hd => .inr (hempty d hd)
        rw [hcs,hnone,append_nil,append_nil]
        exact iff_of_true rfl ⟨fun d hd => .inr (hempty d hd),hpair⟩
      · refine iff_of_false (fun heq => ?_) fun h => ?_
        · have hlength:=congrArg length heq
          have hcut:=length_splitLines_append hc hcs
          have hle:=length_splitLines_flatten_le cs
          rw [length_append] at hlength
          omega
        · refine hcs (flatten_eq_nil_iff.mpr fun d hd => ?_)
          exact (h.1 d hd).resolve_left hc

theorem scanFrom_shorter {line' : GoString} (hle : line'.length≤line.length)
    (h : (scanFrom max line y).tooLong=false) : (scanFrom max line' y).tooLong=false := by
  induction y generalizing line line' with
  | nil =>
    rw [scanFrom] at h ⊢
    split
    · rfl
    next hne =>
      have hline : line≠[] := by
        rintro rfl
        exact hne (length_eq_zero_iff.mp (Nat.le_zero.mp hle))
      rw [if_neg hline] at h
      split at h
      · cases h
      next hlen => rw [if_neg (by omega)]
  | cons b y ih =>
    rw [scanFrom] at h ⊢
    split at h
    · cases h
    next hlen =>
      rw [if_neg (by omega)]
      by_cases hb : b=10
      · rw [if_pos hb] at h ⊢
        exact h
      · rw [if_neg hb] at h ⊢
        exact ih (by simpa using hle) h

theorem scanFrom_append (h : (scanFrom max line (x++y)).tooLong=false) :
    (scanFrom max line x).tooLong=false ∧ (scan max y).tooLong=false := by
  induction x generalizing line with
  | nil =>
    refine ⟨?_,scanFrom_shorter (Nat.zero_le _) h⟩
    cases y with
    | nil => exact h
    | cons b y =>
      rw [nil_append,scanFrom] at h
      split at h
      · cases h
      next hlen =>
        rw [scanFrom,if_neg hlen]
        split
        · rfl
        · rfl
  | cons b x ih =>
    rw [cons_append,scanFrom] at h
    rw [scanFrom]
    split at h
    · cases h
    next hlen =>
      rw [if_neg hlen]
      by_cases hb : b=10
      · rw [if_pos hb] at h ⊢
        exact ih h
      · rw [if_neg hb] at h ⊢
        exact ih h

theorem scanFrom_newline (hmax : 0 < max) (h : (scanFrom max line y).tooLong=false) :
    (scanFrom max line (y++[10])).tooLong=false := by
  induction y generalizing line with
  | nil =>
    have hlen : ¬ max≤line.length := by
      intro hle
      rw [scanFrom,if_neg (ne_nil_of_length_pos (by omega)),if_pos hle] at h
      cases h
    rw [nil_append,scanFrom,if_neg hlen]
    rfl
  | cons b y ih =>
    rw [cons_append,scanFrom]
    rw [scanFrom] at h
    split at h
    · cases h
    next hlen =>
      rw [if_neg hlen]
      by_cases hb : b=10
      · rw [if_pos hb] at h ⊢
        exact ih h
      · rw [if_neg hb] at h ⊢
        exact ih h

theorem scan_chunk {chunks : List GoString}
    (h : (scan max chunks.flatten).tooLong=false) : ∀ c∈chunks, (scan max c).tooLong=false := by
  induction chunks with
  | nil => exact fun c hc => absurd hc not_mem_nil
  | cons c cs ih =>
    obtain ⟨hc,hcs⟩ := scanFrom_append h
    exact forall_mem_cons.mpr ⟨hc,ih hcs⟩

end OpsAgent.Lib.LineScanner
