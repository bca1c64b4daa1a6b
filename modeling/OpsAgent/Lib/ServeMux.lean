import OpsAgent.Lib.Atoi
import OpsAgent.Lib.GoPath

/-!
# Routing of requests (`net/http`, Go 1.22 and later)

Patterns without a method and a host, compared with a path segment by segment after escapes have
been resolved. In the name of a wildcard, bytes beyond ASCII are taken for letters.
-/

namespace OpsAgent.Lib.ServeMux
open GoStrings GoPath List Option
open Atoi (isDigit)

def percent : UInt8 := 0x25

def hexValue (c : UInt8) : Option UInt8 :=
  if 0x30≤c ∧ c≤0x39 then some (c-0x30)
  else if 0x41≤c ∧ c≤0x46 then some (c-0x41+10)
  else if 0x61≤c ∧ c≤0x66 then some (c-0x61+10)
  else none

/-- `url.PathUnescape` -/
def unescape : GoString → Option GoString
  | [] => some []
  | c::s =>
    if c=percent then match s with
      | a::b::rest => (hexValue a).bind fun x => (hexValue b).bind fun y =>
          (unescape rest).map fun t => (x*16+y)::t
      | _ => none
    else (unescape s).map fun t => c::t

def unescapeSegment (s : GoString) : GoString := (unescape s).getD s

theorem unescape_cons {c : UInt8} (h : c≠percent) (s : GoString) :
    unescape (c::s)=(unescape s).map fun t => c::t := by
  conv_lhs => unfold unescape
  rw [if_neg h]

theorem unescape_percent (a b : UInt8) (s : GoString) :
    unescape (percent::a::b::s)=(hexValue a).bind fun x => (hexValue b).bind fun y =>
      (unescape s).map fun t => (x*16+y)::t := by
  conv_lhs => unfold unescape
  rw [if_pos rfl]

theorem unescape_percent_short {s : GoString} (h : s.length<2) : unescape (percent::s)=none := by
  unfold unescape
  rw [if_pos rfl]
  match s, h with
  | [], _ | [_], _ => rfl

theorem unescape_slash (a b : GoString) : unescape (a++slash::b) =
      (unescape a).bind fun x => (unescape b).map fun y => x++slash::y := by
  have hslash : slash≠percent := by decide
  have hhex : hexValue slash=none := by decide
  match a with
  | [] =>
    rw [nil_append,unescape_cons hslash]
    rfl
  | c::s =>
    by_cases hc : c=percent
    · subst hc
      match s with
      | [] =>
        rw [unescape_percent_short (s := []) (by decide)]
        cases b with
        | nil => exact unescape_percent_short (by decide)
        | cons d b =>
          change unescape (percent::slash::d::b)=none
          rw [unescape_percent,hhex,bind_none]
      | [d] =>
        rw [unescape_percent_short (s := [d]) (by simp)]
        change unescape (percent::d::slash::b)=none
        rw [unescape_percent,hhex]
        cases hexValue d <;> rfl
      | d::e::s =>
        change unescape (percent::d::e::(s++slash::b))=_
        rw [unescape_percent,unescape_percent,unescape_slash s b]
        cases hexValue d <;> cases hexValue e <;> cases unescape s <;> cases unescape b <;> rfl
    · rw [cons_append,unescape_cons hc,unescape_cons hc,unescape_slash s b]
      cases unescape s <;> cases unescape b <;> rfl

theorem unescape_of_notMem {s : GoString} (h : percent∉s) : unescape s=some s := by
  induction s with
  | nil => rfl
  | cons c s ih =>
    rw [mem_cons,not_or] at h
    rw [unescape_cons (Ne.symm h.1),ih h.2]
    rfl

theorem unescape_joinElements {es : List GoString} (hne : es≠[]) {u : GoString}
    (h : unescape (joinElements es)=some u) :
    ∃ us, es.mapM unescape=some us ∧ u=joinElements us ∧ us≠[] := by
  induction es generalizing u with
  | nil => exact absurd rfl hne
  | cons e es ih =>
    by_cases hes : es=[]
    · subst hes
      rw [joinElements_singleton] at h
      exact ⟨[u],by simp [h],(joinElements_singleton u).symm,cons_ne_nil u []⟩
    · rw [joinElements_cons e hes,unescape_slash] at h
      obtain ⟨x,hx,h⟩ := bind_eq_some_iff.mp h
      obtain ⟨y,hy,rfl⟩ := map_eq_some_iff.mp h
      obtain ⟨us,hus,rfl,hne'⟩ := ih hes hy
      exact ⟨x::us,by simp [hx,hus],(joinElements_cons x hne').symm,cons_ne_nil x us⟩

def segmentsOf : List GoString → List GoString
  | [] => []
  | [last] => if last=[] then [[slash]] else [unescapeSegment last]
  | s::rest => unescapeSegment s::segmentsOf rest
def pathSegments : GoString → List GoString
  | [] => []
  | _::rest => segmentsOf (rest.splitOn slash)

theorem segmentsOf_eq {es us : List GoString} (hu : es.mapM unescape=some us)
    (h : [slash]∉segmentsOf es) : segmentsOf es=us := by
  induction es generalizing us with
  | nil =>
    cases hu
    rfl
  | cons e es ih =>
    rw [mapM_cons] at hu
    obtain ⟨x,hx,hu⟩ := bind_eq_some_iff.mp hu
    obtain ⟨xs,hxs,hu⟩ := bind_eq_some_iff.mp hu
    cases hu
    have hself : unescapeSegment e=x := by rw [unescapeSegment,hx,getD_some]
    cases es with
    | nil =>
      cases hxs
      rw [segmentsOf] at h ⊢
      split at h
      · exact absurd mem_cons_self h
      · rename_i hne
        rw [if_neg hne,hself]
        rfl
    | cons e' es =>
      have hcons : segmentsOf (e::e' :: es)=unescapeSegment e::segmentsOf (e' :: es) := rfl
      rw [hcons,mem_cons,not_or] at h
      rw [hcons,ih hxs h.2,hself]

structure Segment where
  s : GoString
  (wild multi : Bool)

def brace : UInt8 := 0x7b
def closingBrace : UInt8 := 0x7d
def isLetter (c : UInt8) : Bool :=
  (0x41≤c&&c≤0x5a)||(0x61≤c&&c≤0x7a)||0x80≤c

/-- `isValidWildcardName` -/
def isWildcardName : GoString → Bool
  | [] => false
  | c::cs => (isLetter c||c == 0x5f)&&cs.all fun d => isLetter d||d == 0x5f||isDigit d
def wildcardText (seg : GoString) : Option GoString :=
  match seg with
  | c::rest => if c=brace ∧ rest.getLast?=some closingBrace then some rest.dropLast else none
  | [] => none
def dollar : GoString := [0x24]
def dots : GoString := [0x2e,0x2e,0x2e]

def parseParts (seen : List GoString) : List GoString → Option (List Segment)
  | [] => some []
  | part::rest =>
    if part=[] ∧ rest=[] then some [⟨[],true,true⟩]
    else if brace∉part then (parseParts seen rest).map (⟨unescapeSegment part,false,false⟩ :: ·)
    else (wildcardText part).bind fun text =>
      if text=dollar then if rest=[] then some [⟨[slash],false,false⟩] else none
      else
        let multi:=dots.isSuffixOf text
        let name := if multi then text.take (text.length-dots.length) else text
        if (multi ∧ rest≠[]) ∨ isWildcardName name=false ∨ name∈seen then none
        else (parseParts (name::seen) rest).map (⟨name,true,multi⟩ :: ·)

/-- `parsePattern`, for a pattern that begins with a slash. A blank would end a method,
and no method has a slash in it. -/
def parsePattern : GoString → Option (List Segment)
  | [] => none
  | c::rest =>
    if c=slash ∧ 0x20∉rest ∧ 0x09∉rest then parseParts [] (rest.splitOn slash) else none

inductive Relationship where
  | equivalent | moreGeneral | moreSpecific | disjoint | overlaps
  deriving DecidableEq

def Relationship.inverse : Relationship → Relationship
  | .moreGeneral => .moreSpecific
  | .moreSpecific => .moreGeneral
  | r => r

/-- `combineRelationships` -/
def Relationship.combine : Relationship → Relationship → Relationship
  | .equivalent, r => r
  | .disjoint, _ => .disjoint
  | .overlaps, r => if r=.disjoint then .disjoint else .overlaps
  | r, .equivalent => r
  | r, r' => if r' = r.inverse then .overlaps else r'

def compareSegments (s t : Segment) : Relationship :=
  if s.multi&&t.multi then .equivalent
  else if s.multi then .moreGeneral
  else if t.multi then .moreSpecific
  else if s.wild&&t.wild then .equivalent
  else if s.wild then if t.s=[slash] then .disjoint else .moreGeneral
  else if t.wild then if s.s=[slash] then .disjoint else .moreSpecific
  else if s.s=t.s then .equivalent
  else .disjoint

def endsMulti (ss : List Segment) : Bool := ss.getLast?.any fun s => s.multi

/-- The loop of `comparePaths`; the patterns end in a wildcard for the rest of the path or
not. -/
def compareFrom (multi multi' : Bool) : Relationship → List Segment → List Segment → Relationship
  | rel, [], [] => rel
  | rel, [], _::_ => if multi then rel.combine .moreGeneral else .disjoint
  | rel, _::_, [] => if multi' then rel.combine .moreSpecific else .disjoint
  | rel, s::ss, t::ts =>
    let rel:=rel.combine (compareSegments s t)
    if rel=.disjoint then .disjoint else compareFrom multi multi' rel ss ts

/-- `comparePaths` -/
def comparePaths (ss ts : List Segment) : Relationship :=
  if ss.length≠ts.length ∧ endsMulti ss=false ∧ endsMulti ts=false then .disjoint
  else compareFrom (endsMulti ss) (endsMulti ts) .equivalent ss ts
def conflicts (ss ts : List Segment) : Bool :=
  comparePaths ss ts == .equivalent||comparePaths ss ts == .overlaps

structure Entry (α : Type*) where
  segments : List Segment
  handler : α

abbrev Mux (α : Type*) := List (Entry α)

section
variable {α : Type*}

/-- `Handle`, which panics for a pattern that is wrong or conflicts with another one. -/
def Mux.handle (mux : Mux α) (pattern : GoString) (handler : α) : Option (Mux α) :=
  (parsePattern pattern).bind fun segments =>
    if mux.any fun e => conflicts segments e.segments then none
    else some (mux++[⟨segments,handler⟩])
def Mux.handleAll (mux : Mux α) : List (GoString × α) → Option (Mux α)
  | [] => some mux
  | r::rs => (mux.handle r.1 r.2).bind fun mux => mux.handleAll rs

theorem Mux.mem_handleAll {routes : List (GoString × α)} {mux mux' : Mux α} {e : Entry α}
    (h : mux.handleAll routes=some mux') (he : e∈mux') :
    e∈mux ∨ ∃ r∈routes, parsePattern r.1=some e.segments ∧ e.handler=r.2 := by
  induction routes generalizing mux with
  | nil =>
    cases h
    exact .inl he
  | cons r rs ih =>
    obtain ⟨mux₁,hr,hrest⟩ := bind_eq_some_iff.mp h
    rcases ih hrest with hmem | ⟨r',hr',hp⟩
    · obtain ⟨ss,hparse,hif⟩ := bind_eq_some_iff.mp hr
      split at hif
      · cases hif
      · cases hif
        rcases mem_append.mp hmem with hmem | hmem
        · exact .inl hmem
        · cases mem_singleton.mp hmem
          exact .inr ⟨r,mem_cons_self,hparse,rfl⟩
    · exact .inr ⟨r',mem_cons_of_mem r hr',hp⟩

/-- A node of the tree: the entries below it, with the segments that are still to match. -/
abbrev Node (α : Type*) := List (List Segment × Entry α)

def Segment.key (s : Segment) : GoString := if s.wild then [] else s.s
def Node.findChild (node : Node α) (key : GoString) : Node α :=
  node.filterMap fun e => match e.1 with
    | s::ss => if !s.multi&&s.key == key then some (ss,e.2) else none
    | [] => none
def Node.multiChild (node : Node α) : Option (Entry α) :=
  (node.find? fun e => match e.1 with
    | [s] => s.multi
    | _ => false).map Prod.snd

def Node.matchPath : Node α → List GoString → Option (Entry α)
  | node, [] => (node.find? fun e => e.1.isEmpty).map Prod.snd
  | node, seg::rest =>
    (Node.matchPath (node.findChild seg) rest).or
      ((if seg=[slash] then none else Node.matchPath (node.findChild []) rest).or node.multiChild)

def Mux.lookup (mux : Mux α) (path : GoString) : Option (Entry α) :=
  Node.matchPath (mux.map fun e => (e.segments,e)) (pathSegments path)
def exactMatch (e : Option (Entry α)) (path : GoString) : Bool :=
  e.any fun e => !endsMulti e.segments ||
    ((path.isEmpty||path.getLast? == some slash)&&e.segments.length == path.count slash)
def Mux.redirectsToSlash (mux : Mux α) (path : GoString) : Bool :=
  !exactMatch (mux.lookup path) path&&path.getLast? != some slash&&!path.isEmpty &&
    exactMatch (mux.lookup (path++[slash])) (path++[slash])

def cleanPath (p : GoString) : GoString :=
  if p=[] then [slash]
  else
    let p := if isAbs p then p else slash::p
    let np:=clean p
    if p.getLast?=some slash ∧ np≠[slash] then np++[slash] else np

inductive Outcome (α : Type*) where
  | handler (h : α)
  | redirect | notFound
  deriving DecidableEq

/-- `findHandler`; the path of a `CONNECT` request is not cleaned. -/
def Mux.findHandler (mux : Mux α) (connect : Bool) (escapedPath : GoString) : Outcome α :=
  let path := if connect then escapedPath else cleanPath escapedPath
  if mux.redirectsToSlash path||path != escapedPath then .redirect
  else (mux.lookup path).elim .notFound fun e => .handler e.handler
def Literal (ss : List Segment) : Prop := ∀ s∈ss, s.wild=false ∧ s.multi=false ∧ s.s≠[]

variable {node : Node α} {e : Entry α}

theorem mem_findChild {key : GoString} {ss : List Segment}
    (h : (ss,e)∈node.findChild key) : ∃ s, (s::ss,e)∈node ∧ s.key=key := by
  obtain ⟨⟨rest,e'⟩,hmem,hf⟩ := mem_filterMap.mp h
  cases rest with
  | nil => cases hf
  | cons s rest =>
    simp only [ite_none_right_eq_some,Bool.and_eq_true,beq_iff_eq] at hf
    obtain ⟨⟨-,hkey⟩,hf⟩ := hf
    cases hf
    exact ⟨s,hmem,hkey⟩

theorem mem_multiChild (h : node.multiChild=some e) : ∃ s, ([s],e)∈node ∧ s.multi := by
  obtain ⟨⟨rest,e'⟩,hf,rfl⟩ := map_eq_some_iff.mp h
  have hmem:=mem_of_find?_eq_some hf
  have hp:=find?_some hf
  dsimp only at hp
  split at hp
  · rename_i s
    exact ⟨s,hmem,hp⟩
  · cases hp

theorem matchPath_literal {segs : List GoString} (h : node.matchPath segs=some e) : ∃ ss, (ss,e)∈node ∧ (Literal ss → segs=ss.map Segment.s) := by
  induction segs generalizing node with
  | nil =>
    obtain ⟨⟨ss,e'⟩,hf,rfl⟩ := map_eq_some_iff.mp h
    have hempty:=find?_some hf
    have hnil : ss=[] := List.isEmpty_iff.mp hempty
    exact ⟨ss,mem_of_find?_eq_some hf,fun _ => by rw [hnil,map_nil]⟩
  | cons seg rest ih =>
    rw [Node.matchPath,or_eq_some_iff,or_eq_some_iff] at h
    rcases h with h | ⟨-,h | ⟨-,h⟩⟩
    · obtain ⟨ss,hmem,hlit⟩ := ih h
      obtain ⟨s,hmem,hkey⟩ := mem_findChild hmem
      refine ⟨s::ss,hmem,fun hl => ?_⟩
      have hs:=hl s mem_cons_self
      have hself : s.s=seg := by
        rw [← hkey,Segment.key,hs.1]
        rfl
      rw [map_cons,hself,← hlit fun t ht => hl t (mem_cons_of_mem s ht)]
    · split at h
      · cases h
      · obtain ⟨ss,hmem,-⟩ := ih h
        obtain ⟨s,hmem,hkey⟩ := mem_findChild hmem
        refine ⟨s::ss,hmem,fun hl => ?_⟩
        have hs:=hl s mem_cons_self
        rw [Segment.key,hs.1] at hkey
        exact absurd hkey hs.2.2
    · obtain ⟨s,hmem,hmulti⟩ := mem_multiChild h
      refine ⟨[s],hmem,fun hl => ?_⟩
      have hs:=hl s mem_cons_self
      rw [hmulti] at hs
      cases hs.2.1

theorem findHandler_eq_handler {mux : Mux α} {connect : Bool} {escapedPath : GoString} {h : α}
    (hf : mux.findHandler connect escapedPath=.handler h) :
    (connect=false → cleanPath escapedPath=escapedPath) ∧ ∃ e∈mux, e.handler=h ∧
        (Literal e.segments → pathSegments escapedPath=e.segments.map Segment.s) := by
  unfold Mux.findHandler at hf
  dsimp only at hf
  generalize hpath : (if connect=true then escapedPath else cleanPath escapedPath)=path at hf
  split at hf
  · cases hf
  · rename_i hno
    rw [Bool.or_eq_true,not_or,bne_iff_ne,not_not] at hno
    have hsame : path=escapedPath := hno.2
    subst hsame
    cases hl : mux.lookup path with
    | none =>
      rw [hl] at hf
      cases hf
    | some e =>
      rw [hl] at hf
      cases hf
      obtain ⟨ss,hmem,hlit⟩ := matchPath_literal hl
      obtain ⟨e',he',heq⟩ := List.mem_map.mp hmem
      cases heq
      refine ⟨fun hc => ?_,e,he',rfl,hlit⟩
      rw [hc] at hpath
      exact hpath

end

def plainPath : GoString → Bool
  | [] => false
  | c::rest => c == slash&&(rest.splitOn slash).all fun part =>
      part != []&&part.all fun d => d != percent&&d != brace

theorem exists_of_plainPath {p : GoString} (h : plainPath p) : ∃ rest, p=slash::rest := by
  cases p with
  | nil => cases h
  | cons c rest =>
    rw [plainPath,Bool.and_eq_true,beq_iff_eq] at h
    exact ⟨rest,by rw [h.1]⟩

theorem isAbs_cleanPath (p : GoString) : isAbs (cleanPath p) := by
  have habs : ∀ q : GoString, isAbs q →
      isAbs (if q.getLast?=some slash ∧ clean q≠[slash] then clean q++[slash] else clean q) =
        true := by
    intro q hq
    split
    · rw [isAbs_append (clean_ne_nil q),isAbs_clean,hq]
    · rw [isAbs_clean,hq]
  unfold cleanPath
  split
  · rfl
  · refine habs _ ?_
    split
    · assumption
    · rfl

theorem parseParts_plain {parts : List GoString} {seen : List GoString} {ss : List Segment}
    (h : parseParts seen parts=some ss) (hp : ∀ part∈parts, part≠[] ∧ percent∉part ∧ brace∉part) :
    Literal ss ∧ ss.map Segment.s=parts := by
  induction parts generalizing ss with
  | nil =>
    cases h
    exact ⟨fun s hs => absurd hs not_mem_nil,rfl⟩
  | cons part parts ih =>
    obtain ⟨hne,hpercent,hbrace⟩ := hp part mem_cons_self
    rw [parseParts,if_neg fun hcon => hne hcon.1,if_pos hbrace] at h
    obtain ⟨ts,hts,rfl⟩ := map_eq_some_iff.mp h
    obtain ⟨hlit,hmap⟩ := ih hts fun q hq => hp q (mem_cons_of_mem part hq)
    have hself : unescapeSegment part=part := by
      rw [unescapeSegment,unescape_of_notMem hpercent,getD_some]
    refine ⟨?_,by rw [map_cons,hself,hmap]⟩
    intro s hs
    rcases mem_cons.mp hs with rfl | hs
    · exact ⟨rfl,rfl,by rw [hself]; exact hne⟩
    · exact hlit s hs

theorem parsePattern_plain {rest : GoString} (hplain : plainPath (slash::rest))
    {ss : List Segment} (hparse : parsePattern (slash::rest)=some ss) :
    Literal ss ∧ ss.map Segment.s=rest.splitOn slash := by
  rw [parsePattern] at hparse
  split at hparse
  · refine parseParts_plain hparse ?_
    intro part hpart
    simp only [plainPath,Bool.and_eq_true,List.all_eq_true,bne_iff_ne] at hplain
    obtain ⟨hne,hall⟩ := hplain.2 part hpart
    exact ⟨hne,fun hmem => (hall _ hmem).1 rfl,fun hmem => (hall _ hmem).2 rfl⟩
  · cases hparse

theorem path_eq_of_plain {pattern : GoString} (hplain : plainPath pattern) {ss : List Segment}
    (hparse : parsePattern pattern=some ss) {escapedPath path : GoString}
    (habs : isAbs escapedPath) (hpath : unescape escapedPath=some path)
    (hsegs : Literal ss → pathSegments escapedPath=ss.map Segment.s) : path=pattern := by
  obtain ⟨rest,rfl⟩ := exists_of_plainPath hplain
  obtain ⟨text,rfl⟩ : ∃ text, escapedPath=slash::text := by
    cases escapedPath with
    | nil => cases habs
    | cons c text =>
      rw [isAbs,head?_cons,beq_iff_eq] at habs
      exact ⟨text,by rw [some.inj habs]⟩
  obtain ⟨hlit,hmap⟩ := parsePattern_plain hplain hparse
  have hparts : segmentsOf (text.splitOn slash)=rest.splitOn slash := (hsegs hlit).trans hmap
  rw [unescape_cons (by decide)] at hpath
  obtain ⟨u,hu,rfl⟩ := map_eq_some_iff.mp hpath
  have hjoin : ∀ t : GoString, joinElements (t.splitOn slash)=t := fun t => intercalate_splitOn slash
  rw [← hjoin text] at hu
  obtain ⟨us,hus,rfl,-⟩ := unescape_joinElements (splitOn_ne_nil slash text) hu
  have hsame : segmentsOf (text.splitOn slash)=us := by
    refine segmentsOf_eq hus ?_
    rw [hparts]
    intro hmem
    exact not_mem_of_mem_splitOn rest _ hmem mem_cons_self
  rw [← hsame,hparts,hjoin rest]

end OpsAgent.Lib.ServeMux
