import OpsAgent.Lib.GoStrings

/-!
# Lexical paths (`path/filepath` on Unix)

The elements of a path are put on a stack: empty elements and `.` are left out, and `..` takes the
element before it away.
-/

namespace OpsAgent.Lib.GoPath
open Lib.GoStrings List Bool

def slash : UInt8 := 0x2f
def dot : GoString := [0x2e]
def dotdot : GoString := [0x2e,0x2e]

/-- `filepath.IsAbs` -/
def isAbs (p : GoString) : Bool := p.head? == some slash

def push (rooted : Bool) (stack : List GoString) (e : GoString) : List GoString :=
  if e=[] ∨ e=dot then stack
  else if e=dotdot then
    match stack with
    | [] => if rooted then [] else [dotdot]
    | top::rest => if top=dotdot then dotdot::top::rest else rest
  else e::stack

def stack (p : GoString) : List GoString := (p.splitOn slash).foldl (push (isAbs p)) []
def elements (p : GoString) : List GoString := (stack p).reverse
def joinElements (es : List GoString) : GoString := [slash].intercalate es

/-- `filepath.Clean` -/
def clean (p : GoString) : GoString :=
  if isAbs p then slash::joinElements (elements p)
  else if elements p=[] then dot
  else joinElements (elements p)

/-- `filepath.Join` -/
def join (es : List GoString) : GoString :=
  match es.filter (· ≠ []) with
  | [] => []
  | e::rest => clean (joinElements (e::rest))

structure Plain (e : GoString) : Prop where
  ne_nil : e≠[]
  ne_dot : e≠dot
  ne_dotdot : e≠dotdot
  no_slash : slash∉e

/-- What `push` leaves on the stack: no `..` after a name, and none at all below a root. -/
def Settled (rooted : Bool) : List GoString → Prop
  | [] => True
  | e::rest => e≠[] ∧ e≠dot ∧ slash∉e ∧
      (e=dotdot → rooted=false ∧ ∀ x∈rest, x=dotdot) ∧ Settled rooted rest

variable {rooted : Bool} {e p dir n m : GoString} {st es : List GoString} {q : GoString}

theorem push_plain (he : Plain e) (st : List GoString) : push rooted st e=e::st := by
  unfold push
  rw [if_neg (not_or.mpr ⟨he.ne_nil,he.ne_dot⟩),if_neg he.ne_dotdot]

theorem push_settled (st : List GoString) (e : GoString) (hs : slash∉e)
    (h : Settled rooted st) : Settled rooted (push rooted st e) := by
  unfold push
  split
  · exact h
  · rename_i hne
    obtain ⟨hnil,hdot⟩ := not_or.mp hne
    split
    · rename_i hdd
      cases st with
      | nil =>
        cases rooted with
        | true => exact trivial
        | false => exact ⟨by decide,by decide,by decide,fun _ => ⟨rfl,nofun⟩,trivial⟩
      | cons top rest =>
        by_cases ht : top=dotdot
        · simp only [ht,if_true]
          have hrest:=h.2.2.2.1
          refine ⟨by decide,by decide,by decide,fun _ => ⟨(hrest ht).1,?_⟩,ht ▸ h⟩
          intro x hx
          rcases mem_cons.mp hx with rfl | hx
          · rfl
          · exact (hrest ht).2 x hx
        · simp only [ht,if_false]
          exact h.2.2.2.2
    · exact ⟨hnil,hdot,hs,fun hdd => absurd hdd ‹_›,h⟩

theorem not_mem_of_mem_splitOn (p e : GoString) (h : e∈p.splitOn slash) : slash∉e := by
  induction p generalizing e with
  | nil =>
    rw [splitOn_nil,mem_singleton] at h
    rw [h]
    exact not_mem_nil
  | cons c p ih =>
    rw [splitOn_cons_eq_if_modifyHead] at h
    split at h
    · rcases mem_cons.mp h with rfl | h
      · exact not_mem_nil
      · exact ih e h
    · rename_i hc
      cases hsplit : p.splitOn slash with
      | nil =>
        rw [hsplit] at h
        cases h
      | cons first rest =>
        rw [hsplit,modifyHead_cons] at h
        rcases mem_cons.mp h with rfl | h
        · have hfirst:=ih first (hsplit ▸ mem_cons_self)
          intro hmem
          rcases mem_cons.mp hmem with rfl | hmem
          · exact hc (beq_self_eq_true _)
          · exact hfirst hmem
        · exact ih e (hsplit ▸ mem_cons_of_mem first h)

theorem foldl_push_settled (es : List GoString) (hs : ∀ e∈es, slash∉e) (st : List GoString)
    (h : Settled rooted st) : Settled rooted (es.foldl (push rooted) st) := by
  induction es generalizing st with
  | nil => exact h
  | cons e es ih =>
    exact ih (fun x hx => hs x (mem_cons_of_mem e hx)) _
      (push_settled st e (hs e mem_cons_self) h)

theorem stack_settled (p : GoString) : Settled (isAbs p) (stack p) :=
  foldl_push_settled _ (not_mem_of_mem_splitOn p) [] trivial

theorem foldl_push_reverse (st : List GoString) (h : Settled rooted st) :
    st.reverse.foldl (push rooted) []=st := by
  induction st with
  | nil => rfl
  | cons e rest ih =>
    obtain ⟨hnil,hdot,-,hdd,hrest⟩ := h
    rw [reverse_cons,foldl_append,ih hrest,foldl_cons,foldl_nil]
    unfold push
    rw [if_neg (not_or.mpr ⟨hnil,hdot⟩)]
    split
    · rename_i he
      obtain ⟨hroot,hall⟩ := hdd he
      cases rest with
      | nil => rw [hroot,he]; rfl
      | cons top rest =>
        have ht : top=dotdot := hall top mem_cons_self
        simp [ht,he]
    · rfl

theorem Settled.of_mem (h : Settled rooted st) : ∀ e∈st, e≠[] ∧ slash∉e := by
  induction st with
  | nil => exact nofun
  | cons x rest ih =>
    intro e he
    rcases mem_cons.mp he with rfl | he
    · exact ⟨h.1,h.2.2.1⟩
    · exact ih h.2.2.2.2 e he

theorem elements_spec (p : GoString) : ∀ e∈elements p, e≠[] ∧ slash∉e := by
  intro e he
  exact (stack_settled p).of_mem e (mem_reverse.mp he)
theorem joinElements_singleton (e : GoString) : joinElements [e]=e := by
  simp [joinElements,intercalate]

theorem joinElements_cons (e : GoString) (h : es≠[]) :
    joinElements (e::es)=e++slash::joinElements es := by
  cases es with
  | nil => exact absurd rfl h
  | cons x es => simp [joinElements,intercalate]

theorem joinElements_concat (es : List GoString) (n : GoString) :
    joinElements (es++[n])=(es.flatMap fun e => e++[slash])++n := by
  induction es with
  | nil => simp [joinElements,intercalate]
  | cons e es ih =>
    rw [cons_append,joinElements_cons e (by simp),ih,flatMap_cons]
    simp

theorem splitOn_joinElements (es : List GoString) (hne : es≠[]) (h : ∀ e∈es, slash∉e) :
    (joinElements es).splitOn slash=es :=
  splitOn_intercalate slash h hne

theorem isAbs_joinElements (es : List GoString) (hne : es≠[])
    (h : ∀ e∈es, e≠[] ∧ slash∉e) : isAbs (joinElements es)=false := by
  cases es with
  | nil => exact absurd rfl hne
  | cons e rest =>
    obtain ⟨hnil,hs⟩ := h e mem_cons_self
    cases e with
    | nil => exact absurd rfl hnil
    | cons c e =>
      have hc : c≠slash := fun hc => hs (hc ▸ mem_cons_self)
      cases rest with
      | nil => simpa [isAbs,joinElements,intercalate] using hc
      | cons x rest => simpa [isAbs,joinElements_cons _ (cons_ne_nil x rest)] using hc

theorem joinElements_ne_nil (es : List GoString) (hne : es≠[]) (h : ∀ e∈es, e≠[]) :
    joinElements es≠[] := by
  cases es with
  | nil => exact absurd rfl hne
  | cons e rest =>
    have he:=h e mem_cons_self
    cases rest with
    | nil => rwa [joinElements_singleton]
    | cons x rest =>
      rw [joinElements_cons e (cons_ne_nil x rest)]
      exact append_ne_nil_of_left_ne_nil he _

theorem clean_ne_nil (p : GoString) : clean p≠[] := by
  unfold clean
  split
  · exact cons_ne_nil _ _
  · split
    · decide
    · exact joinElements_ne_nil _ ‹_› fun e he => (elements_spec p e he).1

theorem isAbs_clean (p : GoString) : isAbs (clean p)=isAbs p := by
  unfold clean
  split
  · rename_i h
    rw [h]
    rfl
  · rename_i h
    rw [not_eq_true] at h
    rw [h]
    split
    · rfl
    · exact isAbs_joinElements _ ‹_› (elements_spec p)

theorem foldl_push_joinElements (st : List GoString) (h : Settled rooted st) :
    ((joinElements st.reverse).splitOn slash).foldl (push rooted) []=st := by
  by_cases hst : st=[]
  · rw [hst]
    rfl
  · have hne : st.reverse≠[] := fun hr => hst (reverse_eq_nil_iff.mp hr)
    rw [splitOn_joinElements _ hne fun e he => (h.of_mem e (mem_reverse.mp he)).2]
    exact foldl_push_reverse st h

theorem elements_clean (p : GoString) : elements (clean p)=elements p := by
  have hfold:=foldl_push_joinElements (stack p) (stack_settled p)
  have habs:=isAbs_clean p
  have hstack : stack (clean p)=stack p := by
    unfold stack
    rw [habs]
    unfold clean
    split
    · rw [splitOn_cons_eq_if_modifyHead,if_pos (beq_self_eq_true slash)]
      exact hfold
    · split
      · rename_i hnil
        have hp : stack p=[] := reverse_eq_nil_iff.mp hnil
        rw [← stack,hp]
        rfl
      · exact hfold
  rw [elements,hstack,elements]

example : clean (utf8 "../a//b/./../../c/")=utf8 "../c" := by decide

def childPrefix (dir : GoString) : GoString :=
  (if isAbs dir then [slash] else [])++(elements dir).flatMap fun e => e++[slash]

theorem isAbs_append (h : p≠[]) (q : GoString) : isAbs (p++q)=isAbs p := by
  cases p with
  | nil => exact absurd rfl h
  | cons c p => rfl
theorem stack_append (hdir : dir≠[]) (q : GoString) :
    stack (dir++slash::q)=(q.splitOn slash).foldl (push (isAbs dir)) (stack dir) := by
  unfold stack
  rw [isAbs_append hdir,splitOn_append_cons_self,foldl_append]
theorem elements_child (hdir : dir≠[]) (hn : Plain n) : elements (dir++slash::n)=elements dir++[n] := by
  rw [elements,stack_append hdir,splitOn_eq_singleton hn.no_slash,foldl_cons,
    foldl_nil,push_plain hn,reverse_cons]
  rfl
theorem elements_plain (hn : Plain n) : elements n=[n] := by
  unfold elements stack
  rw [splitOn_eq_singleton hn.no_slash,foldl_cons,foldl_nil,push_plain hn]
  rfl

theorem clean_plain (hn : Plain n) : clean n=n := by
  have habs : isAbs n=false := by
    have h:=isAbs_joinElements [n] (cons_ne_nil n []) (by
      intro e he
      rw [mem_singleton.mp he]
      exact ⟨hn.ne_nil,hn.no_slash⟩)
    rwa [joinElements_singleton] at h
  rw [clean,habs,elements_plain hn,joinElements_singleton]
  simp

theorem join_nil_name (hn : Plain n) : join [[],n]=n := by
  have hj : join [[],n]=clean (joinElements [n]) := by simp [join,hn.ne_nil]
  rw [hj,joinElements_singleton,clean_plain hn]
theorem join_pair (hdir : dir≠[]) (hp : p≠[]) : join [dir,p]=clean (dir++slash::p) := by
  have hj : join [dir,p]=clean (joinElements [dir,p]) := by simp [join,hdir,hp]
  rw [hj,joinElements_cons dir (cons_ne_nil p []),joinElements_singleton]
theorem join_of_ne_nil (hdir : dir≠[]) (hn : Plain n) : join [dir,n]=clean (dir++slash::n) :=
  join_pair hdir hn.ne_nil

theorem join_name (dir : GoString) (hn : Plain n) : join [dir,n]=childPrefix dir++n := by
  by_cases hdir : dir=[]
  · rw [hdir,join_nil_name hn]
    rfl
  · rw [join_of_ne_nil hdir hn,clean,isAbs_append hdir,elements_child hdir hn,
      joinElements_concat,childPrefix]
    split <;> simp

theorem elements_join (dir : GoString) (hn : Plain n) : elements (join [dir,n])=elements dir++[n] := by
  by_cases hdir : dir=[]
  · rw [hdir,join_nil_name hn,elements_plain hn]
    rfl
  · rw [join_of_ne_nil hdir hn,elements_clean,elements_child hdir hn]

structure DirectChild (dir p : GoString) : Prop where
  clean_eq : clean p=p
  isAbs_eq : isAbs p=isAbs dir
  name : ∃ n, Plain n ∧ elements p=elements dir++[n]

theorem clean_clean (p : GoString) : clean (clean p)=clean p := by
  rw [clean,isAbs_clean,elements_clean]
  rfl
theorem isAbs_join (hdir : dir≠[]) (hn : Plain n) : isAbs (join [dir,n])=isAbs dir := by
  rw [join_of_ne_nil hdir hn,isAbs_clean,isAbs_append hdir]
theorem directChild_join (hdir : dir≠[]) (hn : Plain n) : DirectChild dir (join [dir,n]) := by
  refine ⟨?_,isAbs_join hdir hn,n,hn,elements_join dir hn⟩
  rw [join_of_ne_nil hdir hn,clean_clean]

def inside (dir p : GoString) : Bool := p == dir||(dir++[slash]).isPrefixOf p

theorem inside_join (dir : GoString) (hm : Plain m) (hn : Plain n) :
    inside (join [dir,m]) (join [dir,n]) ↔ m=n := by
  rw [join_name dir hm,join_name dir hn,inside,or_eq_true,beq_iff_eq,
    isPrefixOf_iff_prefix,append_assoc,prefix_append_right_inj,append_right_inj]
  constructor
  · rintro (h | h)
    · exact h.symm
    · exact absurd (h.subset (by simp)) hn.no_slash
  · exact fun h => .inl h.symm

/-- `filepath.Base` -/
def baseOf (p : GoString) : GoString :=
  if p=[] then dot else (((p.splitOn slash).filter (·≠[])).getLast?).getD [slash]

def relElements : List GoString → List GoString → Option (List GoString)
  | b::bs, t::ts =>
    if b=t then relElements bs ts
    else if b=dotdot then none
    else some (replicate (bs.length+1) dotdot++t::ts)
  | bs, ts => some (replicate bs.length dotdot++ts)

/-- `filepath.Rel` -/
def rel (base target : GoString) : Option GoString :=
  if clean base=clean target then some dot
  else if isAbs base≠isAbs target then none
  else (relElements (elements base) (elements target)).map joinElements

/-- `filepath.Dir` -/
def dirOf (p : GoString) : GoString := clean (p.reverse.dropWhile (· != slash)).reverse

/-- Where the text of the path leads is below where that of the directory leads. -/
structure Below (dir p : GoString) : Prop where
  isAbs_eq : isAbs p=isAbs dir
  rest : ∃ rest, rest≠[] ∧ dotdot∉rest ∧ elements p=elements dir++rest

theorem Below.clean (h : Below dir p) : Below dir (clean p) :=
  ⟨(isAbs_clean p).trans h.isAbs_eq,by rw [elements_clean]; exact h.rest⟩

theorem clean_congr (habs : isAbs p=isAbs q) (h : elements p=elements q) :
    clean p=clean q := by rw [clean,clean,habs,h]

theorem dirOf_append (hdir : dir≠[]) (hn : slash∉n) : dirOf (dir++slash::n)=clean dir := by
  have hrev : (dir++slash::n).reverse=n.reverse++slash::dir.reverse := by simp
  have hall : ∀ c∈n.reverse, (c != slash)=true := by
    intro c hc
    rw [bne_iff_ne]
    rintro rfl
    exact hn (mem_reverse.mp hc)
  have hdrop : (n.reverse++slash::dir.reverse).dropWhile (· != slash)=slash::dir.reverse := by
    rw [dropWhile_append_of_pos hall,dropWhile_cons_of_neg (by simp)]
  rw [dirOf,hrev,hdrop,reverse_cons,reverse_reverse]
  apply clean_congr (isAbs_append hdir _)
  rw [elements,stack_append hdir]
  rfl

theorem joinElements_append {fs : List GoString} (hes : es≠[]) (hfs : fs≠[]) :
    joinElements (es++fs)=joinElements es++slash::joinElements fs := by
  induction es with
  | nil => exact absurd rfl hes
  | cons e es ih =>
    by_cases hnil : es=[]
    · rw [hnil,joinElements_singleton]
      exact joinElements_cons e hfs
    · have hne : es++fs≠[] := append_ne_nil_of_left_ne_nil hnil fs
      rw [cons_append,joinElements_cons e hne,ih hnil,joinElements_cons e hnil,
        append_assoc,cons_append]

theorem clean_eq_append {rest : List GoString} (hdir : elements dir≠[])
    (hrest : rest≠[]) (habs : isAbs p=isAbs dir) (h : elements p=elements dir++rest) :
    clean p=clean dir++slash::joinElements rest := by
  have hp : elements p≠[] := by
    rw [h]
    exact append_ne_nil_of_left_ne_nil hdir rest
  unfold clean
  rw [if_neg hp,if_neg hdir,habs,h,joinElements_append hdir hrest]
  split
  · rfl
  · rfl

theorem splitOn_clean (h : elements p≠[]) :
    (clean p).splitOn slash=(if isAbs p then [[]] else [])++elements p := by
  have hsplit:=splitOn_joinElements (elements p) h fun e he => (elements_spec p e he).2
  unfold clean
  rw [if_neg h]
  split
  · rw [splitOn_cons_eq_if_modifyHead,if_pos (beq_self_eq_true slash),hsplit]
    rfl
  · rw [hsplit]
    rfl

theorem length_clean_of_nil (h : elements p=[]) : (clean p).length=1 := by
  unfold clean
  rw [h]
  split
  · rfl
  · rfl

theorem hasPrefix_clean_iff (hdir : elements dir≠[]) : hasPrefix (clean p) (clean dir++[slash]) ↔
      isAbs p=isAbs dir ∧ ∃ rest, rest≠[] ∧ elements p=elements dir++rest := by
  rw [hasPrefix, isPrefixOf_iff_prefix]
  constructor
  · rintro ⟨t,ht⟩
    rw [append_assoc,singleton_append] at ht
    have habs : isAbs p=isAbs dir := by
      rw [← isAbs_clean p,← ht,isAbs_append (clean_ne_nil dir),isAbs_clean]
    have hp : elements p≠[] := by
      intro hnil
      have hlen:=congrArg length ht
      have hpos:=length_pos_iff.mpr (clean_ne_nil dir)
      rw [length_clean_of_nil hnil,length_append,length_cons] at hlen
      omega
    have hsplit:=congrArg (splitOn slash) ht
    rw [splitOn_append_cons_self,splitOn_clean hp,splitOn_clean hdir,habs,
      append_assoc,append_right_inj] at hsplit
    exact ⟨habs,t.splitOn slash,splitOn_ne_nil slash t,hsplit.symm⟩
  · rintro ⟨habs,rest,hrest,h⟩
    refine ⟨joinElements rest,?_⟩
    rw [clean_eq_append hdir hrest habs h,append_assoc,singleton_append]

theorem Settled.dotdot_notMem (he : e≠dotdot) (st rest : List GoString)
    (h : Settled rooted (st++e::rest)) : dotdot∉st := by
  induction st with
  | nil => exact not_mem_nil
  | cons x st ih =>
    intro hmem
    rcases mem_cons.mp hmem with hx | hmem
    · exact he ((h.2.2.2.1 hx.symm).2 e (by simp))
    · exact ih h.2.2.2.2 hmem

theorem below_iff (hdir : elements dir=es++[n]) (hn : n≠dotdot) :
    Below dir p ↔ isAbs p=isAbs dir ∧ ∃ rest, rest≠[] ∧ elements p=elements dir++rest := by
  constructor
  · rintro ⟨habs,rest,hrest,-,h⟩
    exact ⟨habs,rest,hrest,h⟩
  · rintro ⟨habs,rest,hrest,h⟩
    refine ⟨habs,rest,hrest,?_,h⟩
    have hstack : stack p=rest.reverse++n::es.reverse := by
      have hrev:=congrArg reverse h
      rw [elements,reverse_reverse,hdir] at hrev
      simpa using hrev
    have hsettled:=stack_settled p
    rw [hstack] at hsettled
    intro hmem
    exact hsettled.dotdot_notMem hn _ _ (mem_reverse.mpr hmem)

theorem dotdot_mem_push (h : dotdot∈st) (e : GoString) : dotdot∈push rooted st e := by
  unfold push
  split
  · exact h
  · split
    · cases st with
      | nil => cases h
      | cons top rest =>
        by_cases ht : top=dotdot
        · simp only [ht,if_true]
          exact mem_cons_self
        · simp only [ht,if_false]
          exact (mem_cons.mp h).resolve_left (Ne.symm ht)
    · exact mem_cons_of_mem e h

theorem push_append (h : dotdot∉push false st e)
    (base : List GoString) : push rooted (st++base) e=push false st e++base := by
  unfold push at h ⊢
  split
  · rfl
  · rename_i hne
    rw [if_neg hne] at h
    split
    · rename_i hdd
      rw [if_pos hdd] at h
      cases st with
      | nil => exact absurd mem_cons_self h
      | cons top rest =>
        by_cases ht : top=dotdot
        · simp only [ht,if_true] at h
          exact absurd mem_cons_self h
        · simp [ht]
    · rfl

theorem foldl_push_append (es st base : List GoString) (h : dotdot∉es.foldl (push false) st) :
    es.foldl (push rooted) (st++base)=es.foldl (push false) st++base := by
  induction es generalizing st with
  | nil => rfl
  | cons e es ih =>
    have hpush : dotdot∉push false st e := by
      intro hmem
      have hkeep : ∀ (xs st : List GoString), dotdot∈st → dotdot∈xs.foldl (push false) st := by
        intro xs
        induction xs with
        | nil => exact fun _ h => h
        | cons x xs ih => exact fun st h => ih _ (dotdot_mem_push h x)
      exact h (hkeep es _ hmem)
    rw [foldl_cons,push_append hpush,foldl_cons]
    exact ih _ h

/-- The elements of a path that is looked up in a directory. -/
def within (p : GoString) : List GoString := ((p.splitOn slash).foldl (push false) []).reverse

theorem elements_append_within (hdir : dir≠[]) (hdd : dotdot∉within p) :
    elements (dir++slash::p)=elements dir++within p := by
  have hfold : dotdot∉(p.splitOn slash).foldl (push false) [] :=
    fun hmem => hdd (mem_reverse.mpr hmem)
  rw [elements,stack_append hdir]
  exact (congrArg reverse (foldl_push_append _ [] (stack dir) hfold)).trans reverse_append

theorem elements_append (hdir : dir≠[]) (hp : isAbs p=false)
    (hdd : dotdot∉elements p) : elements (dir++slash::p)=elements dir++elements p := by
  have hwithin : within p=elements p := by rw [elements,stack,hp,within]
  rw [← hwithin] at hdd ⊢
  exact elements_append_within hdir hdd

theorem join_ne_nil (dir : GoString) (hn : Plain n) : join [dir,n]≠[] := by
  rw [join_name dir hn]
  exact append_ne_nil_of_right_ne_nil _ hn.ne_nil
theorem clean_join (dir : GoString) (hn : Plain n) : clean (join [dir,n])=join [dir,n] := by
  by_cases hdir : dir=[]
  · rw [hdir,join_nil_name hn,clean_plain hn]
  · rw [join_of_ne_nil hdir hn,clean_clean]

theorem join_join (dir : GoString) (hm : Plain m) (hn : Plain n) :
    join [dir,m,n]=join [join [dir,m],n] := by
  rw [join_of_ne_nil (join_ne_nil dir hm) hn]
  by_cases hdir : dir=[]
  · have hj : join [[],m,n]=clean (joinElements [m,n]) := by simp [join,hm.ne_nil,hn.ne_nil]
    rw [hdir,hj,joinElements_cons m (cons_ne_nil n []),joinElements_singleton,join_nil_name hm]
  · have hj : join [dir,m,n]=clean (joinElements [dir,m,n]) := by
      simp [join,hdir,hm.ne_nil,hn.ne_nil]
    have htext : joinElements [dir,m,n]=(dir++slash::m)++slash::n := by
      rw [joinElements_cons dir (by simp),joinElements_cons m (by simp),joinElements_singleton]
      simp
    have hne : dir++slash::m≠[] := append_ne_nil_of_left_ne_nil hdir _
    rw [hj,htext]
    apply clean_congr
    · rw [isAbs_append hne,isAbs_append (join_ne_nil dir hm),isAbs_join hdir hm,isAbs_append hdir]
    · rw [elements_child hne hn,elements_child (join_ne_nil dir hm) hn,elements_join dir hm,
        elements_child hdir hm]

theorem dirOf_join (dir : GoString) (hm : Plain m) (hn : Plain n) :
    dirOf (join [dir,m,n])=join [dir,m] := by
  have helems : elements (join [dir,m])≠[] := by
    rw [elements_join dir hm]
    simp
  have htext : join [join [dir,m],n]=join [dir,m]++slash::n := by
    rw [join_of_ne_nil (join_ne_nil dir hm) hn,
      clean_eq_append helems (cons_ne_nil n []) (isAbs_append (join_ne_nil dir hm) _)
        (elements_child (join_ne_nil dir hm) hn),clean_join dir hm,joinElements_singleton]
  rw [join_join dir hm hn,htext,dirOf_append (join_ne_nil dir hm) hn.no_slash,clean_join dir hm]

end OpsAgent.Lib.GoPath
