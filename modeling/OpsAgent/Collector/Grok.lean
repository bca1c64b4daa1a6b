import OpsAgent.Lib.GoSlices

/-!
# Grok patterns

The references are expanded round by round, at most ten times, and the rest is given to
`regexp.Compile`.
-/

namespace OpsAgent.Collector.Logparse
open Lib.GoSlices
open Lib.GoStrings (GoString utf8 contains)

def builtinPatterns : List (String × String) :=
  [("IPORHOST",r"(?:%{IP}|%{HOSTNAME})"),
   ("IP",r"(?:%{IPV4}|%{IPV6})"),
   ("IPV4",r"(?:(?:25[0-5]|2[0-4][0-9]|[01]?[0-9][0-9]?)\.){3}(?:25[0-5]|2[0-4][0-9]|[01]?[0-9][0-9]?)"),
   ("IPV6",r"(?:[0-9a-fA-F]{1,4}:){7}[0-9a-fA-F]{1,4}|::(?:[0-9a-fA-F]{1,4}:){0,5}[0-9a-fA-F]{1,4}|[0-9a-fA-F]{1,4}::(?:[0-9a-fA-F]{1,4}:){0,4}[0-9a-fA-F]{1,4}"),
   ("HOSTNAME",r"\b(?:[a-zA-Z0-9](?:[a-zA-Z0-9\-]{0,61}[a-zA-Z0-9])?\.)+[a-zA-Z]{2,}\b"),
   ("NUMBER",r"(?:%{BASE10NUM})"),
   ("BASE10NUM",r"(?:[+-]?(?:[0-9]+(?:\.[0-9]+)?)|[+-]?\.[0-9]+)"),
   ("DATA",".*?"),
   ("GREEDYDATA",".*"),
   ("TIMESTAMP_ISO8601",r"\d{4}-\d{2}-\d{2}[T ]\d{2}:\d{2}:\d{2}(?:\.\d+)?(?:Z|[+-]\d{2}:?\d{2})?"),
   ("LOGLEVEL","(?:EMERG|ALERT|CRIT(?:ICAL)?|ERR(?:OR)?|WARN(?:ING)?|NOTICE|INFO|DEBUG|FATAL|PANIC)"),
   ("WORD",r"\b\w+\b"),
   ("QUOTEDSTRING","\"(?:[^\"\\\\]|\\\\.)*\"|'(?:[^'\\\\]|\\\\.)*'"),
   ("UUID",r"[0-9a-fA-F]{8}-[0-9a-fA-F]{4}-[0-9a-fA-F]{4}-[0-9a-fA-F]{4}-[0-9a-fA-F]{12}")]

abbrev Library := GoString → Option GoString

def merged (custom : Library) : Library := fun name =>
  custom name <|> (builtinPatterns.find? fun p => utf8 p.1 == name).map fun p => utf8 p.2

structure Grok where
  re : GoString
  groups : List GoString

def opening (capture : GoString) : GoString :=
  if capture=[] then utf8 "(?:" else utf8 "(?P<"++capture++utf8 ">"

section
variable (quote : GoString → String) (library : Library)

/- The loop at the position `i`, where `rest` begins. -/
def expandOnce (i : Nat) (rest : GoString) (names : List GoString) :
    Except String (GoString × List GoString) :=
  match rest with
  | [] => .ok ([],names)
  | b::rest =>
    if b=0x25 ∧ rest.head?=some 0x7b then
      match indexByte rest.tail 0x7d with
      | none => .error s!"logparse: unmatched %\x7b in pattern at position {i}"
      | some len =>
        let inner:=rest.tail.take len
        let patternName:=inner.takeWhile (· != 0x3a)
        let captureName:=(inner.dropWhile (· != 0x3a)).tail
        match library patternName with
        | none => .error ("logparse: unknown grok pattern "++quote patternName)
        | some defn => do
          let names := if captureName=[] then names else names++[captureName]
          let (result,names) ← expandOnce (i+len+3) (rest.tail.drop (len+1)) names
          return (opening captureName++defn++utf8 ")"++result,names)
    else do
      let (result,names) ← expandOnce (i+1) rest names
      return (b::result,names)
termination_by rest.length
decreasing_by all_goals simp; try omega

def hasReference (pattern : GoString) : Bool := contains pattern [0x25,0x7b]
def maxIterations : Nat := 10

def expandRounds : Nat → GoString → List GoString → Except String (GoString × List GoString)
  | 0, pattern, names => .ok (pattern,names)
  | n+1, pattern, names =>
    if hasReference pattern then do
      let (pattern,names) ← expandOnce quote library 0 pattern names
      expandRounds n pattern names
    else .ok (pattern,names)

def expandPattern (pattern : GoString) : Except String (GoString × List GoString) :=
  expandRounds quote library maxIterations pattern []

end

/- `compile` is `regexp.Compile`, with the error it answers with. -/
def newGrok (quote : GoString → String) (compile : GoString → Option String) (pattern : GoString)
    (customPatterns : Library) : Except String Grok := do
  let (regex,names) ← expandPattern quote (merged customPatterns) pattern
  let text:=utf8 "^(?:"++regex++utf8 ")$"
  match compile text with
  | some err => .error ("logparse: compiled grok regex is invalid: "++err)
  | none => .ok ⟨text,names⟩

variable {quote : GoString → String} {compile : GoString → Option String} {library : Library}

def expanded (x : Except String (GoString × List GoString)) : Option GoString :=
  x.toOption.map Prod.fst

theorem hasReference_cons (b : UInt8) (s : GoString) : hasReference (b::s) ↔
      (b=0x25 ∧ s.head?=some 0x7b) ∨ hasReference s := by
  have hstart : ([0x25,0x7b] : GoString).isPrefixOf (b::s) ↔
      b=0x25 ∧ s.head?=some 0x7b := by
    cases s with
    | nil => simp [List.isPrefixOf]
    | cons c s => simp [List.isPrefixOf,eq_comm (b := b),eq_comm (b := c)]
  rw [hasReference,contains,List.tails_cons,List.any_cons,Bool.or_eq_true,hstart]
  rfl

theorem hasReference_append (a : GoString) {b : GoString} (h : b.head? ≠ some 0x7b) :
    hasReference (a++b) ↔ hasReference a ∨ hasReference b := by
  induction a with
  | nil => simp [hasReference,contains]
  | cons x a ih =>
    have hhead : (a++b).head?=some 0x7b ↔ a.head?=some 0x7b := by
      cases a with
      | nil => simp [h]
      | cons y a => rfl
    rw [List.cons_append,hasReference_cons,hasReference_cons,ih,hhead,or_assoc]

theorem hasReference_anchored (text : GoString) :
    hasReference (utf8 "^(?:"++text++utf8 ")$")=hasReference text := by
  have hfront : hasReference (utf8 "^(?:"++text) ↔ hasReference text := by
    change hasReference (0x5e::0x28::0x3f::0x3a::text) ↔ _
    simp [hasReference_cons]
  have hend : hasReference (utf8 ")$")=false := by decide
  rw [Bool.eq_iff_iff,hasReference_append _ (by decide),hfront,hend]
  simp

/-! ## References and how deep they nest

A text without an open reference is a list of bytes and references. -/

inductive Piece where
  | byte (b : UInt8)
  | ref (inner : GoString)
  deriving DecidableEq

open Piece

def patternName (inner : GoString) : GoString := inner.takeWhile (· != 0x3a)
def captureName (inner : GoString) : GoString := (inner.dropWhile (· != 0x3a)).tail

/-- The pieces of a text. There are none if a reference is not closed, or if a capture name contains
the beginning of a reference, which the next round would meet. -/
def scan : Option GoString → GoString → Option (List Piece)
  | none, [] => some []
  | none, [b] => some [byte b]
  | none, b::c::rest =>
    if b=0x25 ∧ c=0x7b then scan (some []) rest else (scan none (c::rest)).map (byte b :: ·)
  | some _, [] => none
  | some inner, b::rest =>
    if b=0x7d then
      if hasReference (captureName inner) then none else (scan none rest).map (ref inner :: ·)
    else scan (some (inner++[b])) rest

def text : List Piece → GoString
  | [] => []
  | byte b::ps => b::text ps
  | ref inner::ps => 0x25::0x7b::(inner++0x7d::text ps)

def Scanned : List Piece → Prop
  | [] => True
  | byte b::ps => ¬(b=0x25 ∧ ps.head?=some (byte 0x7b)) ∧ Scanned ps
  | ref inner::ps => (0x7d∉inner ∧ hasReference (captureName inner)=false) ∧ Scanned ps

section
variable (defs : GoString → Option (List Piece))

/-- All references are defined, and those in their definitions, `n` levels deep. -/
def Piece.defined : Nat → Piece → Bool
  | n+1, ref inner => match defs (patternName inner) with
    | some d => d.all (defined n)
    | none => false
  | _, _ => true

/-- The references are defined and nest at most `n` deep. -/
def Piece.within : Nat → Piece → Bool
  | n+1, ref inner => match defs (patternName inner) with
    | some d => d.all (within n)
    | none => false
  | 0, ref _ => false
  | _, byte _ => true

/-- The text with the references down to the level `n` replaced. -/
def Piece.unfolded : Nat → Piece → GoString
  | _, byte b => [b]
  | 0, ref inner => text [ref inner]
  | n+1, ref inner => match defs (patternName inner) with
    | some d => opening (captureName inner)++d.flatMap (unfolded n)++utf8 ")"
    | none => text [ref inner]

def expand : List Piece → Option (List Piece)
  | [] => some []
  | byte b::ps => (expand ps).map (byte b :: ·)
  | ref inner::ps => (defs (patternName inner)).bind fun d => (expand ps).map fun qs =>
    (opening (captureName inner)).map byte++(d++byte 0x29::qs)

end

variable {defs : GoString → Option (List Piece)} {s : GoString} (n : Nat) (ps : List Piece)

theorem text_append (ps qs : List Piece) : text (ps++qs)=text ps++text qs := by
  induction ps with
  | nil => rfl
  | cons p ps ih => cases p <;> simp [text,ih]

theorem text_bytes (s : GoString) : text (s.map byte)=s := by
  induction s with
  | nil => rfl
  | cons b s ih => exact congrArg (b :: ·) ih

theorem head?_text {ps : List Piece} : (text ps).head?=some 0x7b ↔ ps.head?=some (byte 0x7b) := by
  cases ps with
  | nil => simp [text]
  | cons p ps => cases p <;> simp [text]

theorem scan_spec (acc : Option GoString) (s : GoString) (ps : List Piece) (h : scan acc s=some ps)
    (hacc : ∀ inner, acc=some inner → 0x7d∉inner) :
    Scanned ps ∧ text ps=(acc.map fun inner => 0x25::0x7b::inner).getD []++s := by
  induction acc, s using scan.induct generalizing ps with
  | case1 =>
    cases h
    exact ⟨trivial,rfl⟩
  | case2 b =>
    cases h
    exact ⟨⟨by simp,trivial⟩,rfl⟩
  | case3 b c rest hb ih =>
    rw [scan,if_pos hb] at h
    obtain ⟨hs,ht⟩ := ih ps h fun inner hi => by cases hi; exact List.not_mem_nil
    obtain ⟨rfl,rfl⟩ := hb
    exact ⟨hs,ht⟩
  | case4 b c rest hb ih =>
    rw [scan,if_neg hb] at h
    obtain ⟨qs,hqs,rfl⟩ := Option.map_eq_some_iff.mp h
    obtain ⟨hs,ht⟩ := ih qs hqs nofun
    refine ⟨⟨?_,hs⟩,congrArg (b :: ·) ht⟩
    rintro ⟨rfl,hq⟩
    rw [← head?_text,ht] at hq
    exact hb ⟨rfl,Option.some.inj hq⟩
  | case5 inner => cases h
  | case6 inner rest hdirty =>
    rw [scan,if_pos rfl,if_pos hdirty] at h
    cases h
  | case7 inner rest hclean ih =>
    rw [scan,if_pos rfl,if_neg hclean] at h
    obtain ⟨qs,hqs,rfl⟩ := Option.map_eq_some_iff.mp h
    obtain ⟨hs,ht⟩ := ih qs hqs nofun
    refine ⟨⟨⟨hacc inner rfl,Bool.not_eq_true _ ▸ hclean⟩,hs⟩,?_⟩
    rw [text,ht]
    rfl
  | case8 inner b rest hb ih =>
    rw [scan,if_neg hb] at h
    have hnew : ∀ x, some (inner++[b])=some x → 0x7d∉x := by
      rintro x ⟨⟩ hx
      rcases List.mem_append.mp hx with hx | hx
      · exact hacc inner rfl hx
      · exact hb (List.mem_singleton.mp hx).symm
    obtain ⟨hs,ht⟩ := ih ps h hnew
    exact ⟨hs,by simpa using ht⟩

theorem hasReference_text (h : Scanned ps) :
    hasReference (text ps)=false ↔ ps.all (within defs 0) := by
  induction ps with
  | nil => simp [text,hasReference,contains]
  | cons p ps ih =>
    rw [List.all_cons,Bool.and_eq_true]
    cases p with
    | byte b =>
      have hb : ¬(b=0x25 ∧ (text ps).head?=some 0x7b) := by rw [head?_text]; exact h.1
      rw [← ih h.2,← Bool.not_eq_true,← Bool.not_eq_true,text,hasReference_cons]
      simp [hb,within]
    | ref inner => simp [text,hasReference_cons,within,← Bool.not_eq_true]

theorem expanded_bind (x : Except String (GoString × List GoString)) (s : GoString) :
    expanded (do
      let (result,names) ← x
      return (s++result,names))=(expanded x).map (s ++ ·) := by cases x <;> rfl

theorem expandOnce_text (quote : GoString → String) (defs : GoString → Option (List Piece))
    (ps : List Piece) (h : Scanned ps) (i : Nat) (names : List GoString) :
    expanded (expandOnce quote (fun name => (defs name).map text) i (text ps) names) =
      (expand defs ps).map text := by
  induction ps generalizing i names with
  | nil =>
    rw [text,expandOnce]
    rfl
  | cons p ps ih =>
    cases p with
    | byte b =>
      have hb : ¬(b=0x25 ∧ (text ps).head?=some 0x7b) := by rw [head?_text]; exact h.1
      rw [text,expandOnce,if_neg hb,expand,Option.map_map]
      exact (expanded_bind _ [b]).trans (by rw [ih h.2,Option.map_map]; rfl)
    | ref inner =>
      rw [text,expandOnce,if_pos ⟨rfl,rfl⟩,List.tail_cons,indexByte_append h.1.1,expand]
      dsimp only
      rw [List.take_left,← List.drop_drop,List.drop_left]
      change expanded (match (defs (patternName inner)).map text with | none => _ | some defn => _)=_
      cases defs (patternName inner) with
      | none => rfl
      | some d =>
        refine (expanded_bind _ _).trans ?_
        rw [List.drop_one,List.tail_cons,ih h.2]
        cases expand defs ps with
        | none => rfl
        | some qs =>
          simp only [Option.map_some,Option.bind_some,text_append,text_bytes,text]
          simp [captureName]
          rfl

/-! The pieces of an expanded text are those of the expansion: what a round puts together makes no
new reference. -/

theorem scanned_append {ps qs : List Piece} (hp : Scanned ps) (hq : Scanned qs)
    (hhead : qs.head? ≠ some (byte 0x7b)) : Scanned (ps++qs) := by
  induction ps with
  | nil => exact hq
  | cons p ps ih =>
    cases p with
    | byte b =>
      refine ⟨?_,ih hp.2⟩
      rintro ⟨hb,hnext⟩
      cases ps with
      | nil => exact hhead hnext
      | cons p ps => exact hp.1 ⟨hb,hnext⟩
    | ref inner => exact ⟨hp.1,ih hp.2⟩

theorem scanned_bytes (h : hasReference s=false) : Scanned (s.map byte) := by
  induction s with
  | nil => trivial
  | cons b s ih =>
    rw [← Bool.not_eq_true,hasReference_cons,not_or,Bool.not_eq_true] at h
    refine ⟨?_,ih h.2⟩
    rintro ⟨hb,hnext⟩
    exact h.1 ⟨hb,by rw [← text_bytes s]; exact head?_text.mpr hnext⟩

theorem scanned_byte {b : UInt8} (hb : b ≠ 0x25) {qs : List Piece} (hq : Scanned qs) :
    Scanned (byte b::qs) := ⟨fun h => hb h.1,hq⟩

theorem scanned_opening {capture : GoString} (h : hasReference capture=false) {qs : List Piece}
    (hq : Scanned qs) : Scanned ((opening capture).map byte++qs) := by
  unfold opening
  split
  · exact scanned_byte (by decide) (scanned_byte (by decide) (scanned_byte (by decide) hq))
  · have hname : Scanned (capture.map byte++byte 0x3e::qs) :=
      scanned_append (scanned_bytes h) (scanned_byte (by decide) hq) (by simp)
    rw [List.map_append,List.map_append,List.append_assoc,List.append_assoc]
    exact scanned_byte (by decide) (scanned_byte (by decide) (scanned_byte (by decide)
      (scanned_byte (by decide) hname)))

theorem head?_opening (capture : GoString) (qs : List Piece) :
    ((opening capture).map byte++qs).head?=some (byte 0x28) := by
  unfold opening
  split <;> rfl

theorem scanned_expand (hdefs : ∀ name d, defs name=some d → Scanned d) {ps qs : List Piece}
    (h : Scanned ps) (hx : expand defs ps=some qs) :
    Scanned qs ∧ (qs.head?=some (byte 0x7b) → ps.head?=some (byte 0x7b)) := by
  induction ps generalizing qs with
  | nil =>
    cases hx
    exact ⟨trivial,id⟩
  | cons p ps ih =>
    cases p with
    | byte b =>
      obtain ⟨rest,hrest,rfl⟩ := Option.map_eq_some_iff.mp hx
      obtain ⟨hs,hhead⟩ := ih h.2 hrest
      exact ⟨⟨fun hb => h.1 ⟨hb.1,hhead hb.2⟩,hs⟩,id⟩
    | ref inner =>
      obtain ⟨d,hd,hx⟩ := Option.bind_eq_some_iff.mp hx
      obtain ⟨rest,hrest,rfl⟩ := Option.map_eq_some_iff.mp hx
      have hclosed : Scanned (d++byte 0x29::rest) :=
        scanned_append (hdefs _ d hd) (scanned_byte (by decide) (ih h.2 hrest).1) (by simp)
      refine ⟨scanned_opening h.1.2 hclosed,fun hhead => ?_⟩
      rw [head?_opening] at hhead
      exact absurd hhead (by decide)

theorem not_defined_of_expand (hx : expand defs ps=none) : ps.all (defined defs (n+1))=false := by
  induction ps with
  | nil => cases hx
  | cons p ps ih =>
    rw [List.all_cons]
    cases p with
    | byte b => rw [ih (Option.map_eq_none_iff.mp hx),Bool.and_false]
    | ref inner =>
      rw [defined]
      cases hd : defs (patternName inner) with
      | none => rfl
      | some d =>
        rw [expand,hd,Option.bind_some] at hx
        rw [ih (Option.map_eq_none_iff.mp hx),Bool.and_false]

/-- A round takes one level off the nesting. -/
theorem expand_level {ps qs : List Piece} (hx : expand defs ps=some qs) :
    ps.all (defined defs (n+1))=qs.all (defined defs n) ∧
      ps.all (within defs (n+1))=qs.all (within defs n) ∧
      ps.flatMap (unfolded defs (n+1))=qs.flatMap (unfolded defs n) := by
  have hbytes : ∀ s : GoString, (s.map byte).all (defined defs n)=true ∧
      (s.map byte).all (within defs n)=true ∧ (s.map byte).flatMap (unfolded defs n)=s := by
    intro s
    induction s with
    | nil => exact ⟨rfl,rfl,rfl⟩
    | cons b s ih => simp [ih,defined,within,unfolded]
  induction ps generalizing qs with
  | nil =>
    cases hx
    exact ⟨rfl,rfl,rfl⟩
  | cons p ps ih =>
    cases p with
    | byte b =>
      obtain ⟨rest,hrest,rfl⟩ := Option.map_eq_some_iff.mp hx
      obtain ⟨hdef,hin,htext⟩ := ih hrest
      simp [hdef,hin,htext,defined,within,unfolded]
    | ref inner =>
      obtain ⟨d,hd,hx⟩ := Option.bind_eq_some_iff.mp hx
      obtain ⟨rest,hrest,rfl⟩ := Option.map_eq_some_iff.mp hx
      obtain ⟨hdef,hin,htext⟩ := ih hrest
      obtain ⟨hodef,hoin,hotext⟩ := hbytes (opening (captureName inner))
      refine ⟨?_,?_,?_⟩
      · simp [hd,hdef,hodef,defined]
      · simp [hd,hin,hoin,within]
      · have hclose : utf8 ")"=[0x29] := rfl
        simp [hd,htext,hotext,hclose,unfolded]

theorem flatMap_unfolded_zero : ps.flatMap (unfolded defs 0)=text ps := by
  induction ps with
  | nil => rfl
  | cons p ps ih => cases p <;> simp [ih,unfolded,text]

theorem level_of_bytes {ps : List Piece} (h : ps.all (within defs 0)) :
    ps.all (defined defs n)=true ∧ ps.all (within defs n)=true ∧
      ps.flatMap (unfolded defs n)=text ps := by
  induction ps with
  | nil => exact ⟨rfl,rfl,rfl⟩
  | cons p ps ih =>
    rw [List.all_cons,Bool.and_eq_true] at h
    cases p with
    | byte b => simp [ih h.2,defined,within,unfolded,text]
    | ref inner => cases h.1

/-- The rounds give the text with all references down to their number replaced; they fail exactly
if one of these is not defined. -/
theorem expandRounds_text (hdefs : ∀ name d, defs name=some d → Scanned d) (h : Scanned ps)
    (names : List GoString) :
    expanded (expandRounds quote (fun name => (defs name).map text) n (text ps) names) =
        (if ps.all (defined defs n) then some (ps.flatMap (unfolded defs n)) else none) ∧
      (ps.all (defined defs n) →
        (hasReference (ps.flatMap (unfolded defs n))=false ↔ ps.all (within defs n))) := by
  induction n generalizing ps names with
  | zero =>
    have hdefined : ps.all (defined defs 0)=true := List.all_eq_true.mpr fun p _ => by cases p <;> rfl
    rw [flatMap_unfolded_zero,if_pos hdefined]
    exact ⟨rfl,fun _ => hasReference_text ps h⟩
  | succ n ih =>
    rw [expandRounds]
    split
    next =>
      have honce:=expandOnce_text quote defs ps h 0 names
      cases hexpand : expandOnce quote (fun name => (defs name).map text) 0 (text ps) names with
      | error e =>
        rw [hexpand] at honce
        have hnot:=not_defined_of_expand n ps (Option.map_eq_none_iff.mp honce.symm)
        rw [hnot]
        exact ⟨rfl,nofun⟩
      | ok x =>
        rw [hexpand] at honce
        obtain ⟨qs,hqs,hx⟩ := Option.map_eq_some_iff.mp honce.symm
        obtain ⟨hdefined,hwithin,htext⟩ := expand_level n hqs
        rw [hdefined,hwithin,htext]
        have hrest:=ih qs (scanned_expand hdefs h hqs).1 x.2
        rw [hx] at hrest
        exact hrest
    next hnone =>
      rw [Bool.not_eq_true] at hnone
      obtain ⟨hdefined,hwithin,htext⟩ := level_of_bytes (n+1) ((hasReference_text ps h).mp hnone)
      rw [hdefined,hwithin,htext]
      exact ⟨rfl,fun _ => iff_of_true hnone rfl⟩

theorem within_defined (p : Piece) (h : p.within defs n) : p.defined defs n := by
  induction n generalizing p with
  | zero => cases p <;> rfl
  | succ n ih =>
    cases p with
    | byte b => rfl
    | ref inner =>
      rw [within] at h
      rw [defined]
      cases hd : defs (patternName inner) with
      | none =>
        rw [hd] at h
        cases h
      | some d =>
        rw [hd] at h
        refine List.all_eq_true.mpr fun q hq => ?_
        exact ih q (List.all_eq_true.mp h q hq)

/-- After `n` rounds there is nothing left to expand. -/
def NestsWithin (quote : GoString → String) (library : Library) (n : Nat) (pattern : GoString) :
    Prop :=
  ∃ text, expanded (expandRounds quote library n pattern [])=some text ∧ hasReference text=false

abbrev GrokText := {ps : List Piece // Scanned ps}

theorem nestsWithin_text_iff (defs : GoString → Option GrokText) (n : Nat) (ps : GrokText) :
    NestsWithin quote (fun name => (defs name).map fun d => text d.1) n (text ps.1) ↔
      ps.1.all (within (fun name => (defs name).map (·.1)) n) := by
  have hdefs : ∀ name d, (defs name).map (·.1)=some d → Scanned d := by
    intro name d hd
    obtain ⟨t,-,rfl⟩ := Option.map_eq_some_iff.mp hd
    exact t.2
  obtain ⟨hround,hleft⟩ := @expandRounds_text quote _ n ps.1 hdefs ps.2 []
  simp only [Option.map_map] at hround
  constructor
  · rintro ⟨t,ht,hnone⟩
    by_cases hdefined : ps.1.all (defined (fun name => (defs name).map (·.1)) n)
    · rw [if_pos hdefined] at hround
      cases hround.symm.trans ht
      exact (hleft hdefined).mp hnone
    · rw [if_neg hdefined] at hround
      cases hround.symm.trans ht
  · intro hwithin
    have hdefined : ps.1.all (defined (fun name => (defs name).map (·.1)) n) :=
      List.all_eq_true.mpr fun p hp => within_defined n p (List.all_eq_true.mp hwithin p hp)
    rw [if_pos hdefined] at hround
    exact ⟨_,hround,(hleft hdefined).mpr hwithin⟩

theorem builtinPatterns_scanned : ∀ p∈builtinPatterns, (scan none (utf8 p.2)).isSome := by
  decide +kernel

/-- The pieces of the definitions. -/
def definitions (library : Library) (name : GoString) : Option (List Piece) :=
  (library name).bind (scan none)

theorem definitions_text {custom : Library} (h : ∀ name d, custom name=some d → (scan none d).isSome) :
    merged custom=fun name => (definitions (merged custom) name).map text := by
  funext name
  cases hd : merged custom name with
  | none => simp [definitions,hd]
  | some d =>
    have hscan : (scan none d).isSome := by
      unfold merged at hd
      cases hc : custom name with
      | some c =>
        rw [hc] at hd
        cases hd
        exact h name _ hc
      | none =>
        rw [hc] at hd
        obtain ⟨p,hp,rfl⟩ := Option.map_eq_some_iff.mp hd
        exact builtinPatterns_scanned p (List.mem_of_find?_eq_some hp)
    obtain ⟨ps,hps⟩ := Option.isSome_iff_exists.mp hscan
    simp [definitions,hd,hps,(scan_spec none d ps hps nofun).2]

/-- An expression without a reference, or an error, is what there is exactly if the references nest
at most ten deep, one within the first ten levels is not defined, or `regexp.Compile` refuses the
text with these levels replaced. -/
theorem newGrok_expands_iff (quote : GoString → String) (compile : GoString → Option String)
    (pattern : GoString) (custom : Library) (ps : List Piece) (hps : scan none pattern=some ps)
    (hcustom : ∀ name d, custom name=some d → (scan none d).isSome) :
    (∀ g, newGrok quote compile pattern custom=.ok g → hasReference g.re=false) ∧
        (ps.all (within (definitions (merged custom)) 10)=false →
          ∃ e, newGrok quote compile pattern custom=.error e) ↔
      ps.all (within (definitions (merged custom)) 10) ∨
        ps.all (defined (definitions (merged custom)) 10)=false ∨
        (compile (utf8 "^(?:"++ps.flatMap (unfolded (definitions (merged custom)) 10) ++
          utf8 ")$")).isSome := by
  have hlib:=definitions_text hcustom
  have hdefs : ∀ name d, definitions (merged custom) name=some d → Scanned d := by
    intro name d hd
    obtain ⟨source,-,hscan⟩ := Option.bind_eq_some_iff.mp hd
    exact (scan_spec none source d hscan nofun).1
  obtain ⟨hs,ht⟩ := scan_spec none pattern ps hps nofun
  obtain ⟨hround,hleft⟩ := @expandRounds_text quote (definitions (merged custom)) 10 ps hdefs hs []
  rw [← hlib,show text ps=pattern from ht] at hround
  generalize definitions (merged custom)=defs at hround hleft ⊢
  unfold newGrok expandPattern maxIterations
  cases hexpand : expandRounds quote (merged custom) 10 pattern [] with
  | error e =>
    rw [hexpand] at hround
    have hnot : ps.all (defined defs 10)=false := by
      by_contra hdefined
      rw [Bool.not_eq_false] at hdefined
      rw [if_pos hdefined] at hround
      cases hround
    exact iff_of_true ⟨nofun,fun _ => ⟨e,rfl⟩⟩ (.inr (.inl hnot))
  | ok x =>
    rw [hexpand] at hround
    have hdefined : ps.all (defined defs 10)=true := by
      by_contra hnot
      rw [if_neg hnot] at hround
      cases hround
    rw [if_pos hdefined] at hround
    have hx : x.1=ps.flatMap (unfolded defs 10) := Option.some.inj hround
    rw [← hx] at hleft ⊢
    simp only [bind,Except.bind]
    cases hcompile : compile (utf8 "^(?:"++x.1++utf8 ")$") with
    | some err => exact iff_of_true ⟨nofun,fun _ => ⟨_,rfl⟩⟩ (.inr (.inr rfl))
    | none =>
      have hre : hasReference (utf8 "^(?:"++x.1++utf8 ")$")=false ↔ ps.all (within defs 10) := by
        rw [hasReference_anchored,hleft hdefined]
      rw [hdefined]
      constructor
      · intro h
        exact .inl (hre.mp (h.1 _ rfl))
      · rintro (hwithin | hno | hno)
        · refine ⟨?_,fun hnot => ?_⟩
          · rintro g ⟨⟩
            exact hre.mpr hwithin
          · cases hwithin.symm.trans hnot
        · cases hno
        · cases hno

/-- A custom definition on two levels, and a percent sign outside a reference. -/
def loadLibrary : Library := fun name =>
  if name=utf8 "LOAD" then some (utf8 "%\x7bNUMBER:load\x7d%") else none

theorem newGrok_load : (scan none (utf8 "%\x7bIP\x7d %\x7bLOAD\x7d%")).isSome ∧
      ∀ (quote : GoString → String) (compile : GoString → Option String) (g : Grok),
        newGrok quote compile (utf8 "%\x7bIP\x7d %\x7bLOAD\x7d%") loadLibrary=.ok g →
          hasReference g.re=false := by
  have hscan : scan none (utf8 "%\x7bIP\x7d %\x7bLOAD\x7d%") =
      some [ref (utf8 "IP"),byte 0x20,ref (utf8 "LOAD"),byte 0x25] := by decide +kernel
  have hcustom : ∀ name d, loadLibrary name=some d → (scan none d).isSome := by
    intro name d hd
    unfold loadLibrary at hd
    split at hd
    · cases hd
      decide +kernel
    · cases hd
  refine ⟨by rw [hscan]; rfl,fun quote compile => ?_⟩
  exact ((newGrok_expands_iff quote compile _ loadLibrary _ hscan hcustom).mpr
    (.inl (by decide +kernel))).1

def circular : Library := fun name => if name=utf8 "A" then some (utf8 "%\x7bA\x7d") else none
def nested : Nat → GoString
  | 0 => utf8 "%\x7bA\x7d"
  | n+1 => utf8 "(?:"++nested n++utf8 ")"

/- Expressions that `regexp.Compile` accepts: a brace that begins no repetition is a literal. -/
inductive Accepted : GoString → Prop where
  | letter (c) : 0x41≤c ∧ c≤0x5a → Accepted [0x25,0x7b,c,0x7d]
  | group {e} : Accepted e → Accepted (utf8 "(?:"++e++utf8 ")")
  | anchored {e} : Accepted e → Accepted (utf8 "^"++e++utf8 "$")

theorem accepted_nested : Accepted (nested n) := by
  induction n with
  | zero => exact .letter 0x41 (by decide)
  | succ n ih => exact ih.group

theorem newGrok_circular : hasReference (utf8 "^(?:"++nested 10++utf8 ")$")=true ∧
      ∀ (quote : GoString → String) (compile : GoString → Option String),
        (∀ e, Accepted e → compile e=none) → newGrok quote compile (utf8 "%\x7bA\x7d") circular =
          .ok ⟨utf8 "^(?:"++nested 10++utf8 ")$",[]⟩ := by
  refine ⟨by decide,fun quote compile haccepts => ?_⟩
  have hexpand : expandPattern quote (merged circular) (utf8 "%\x7bA\x7d")=.ok (nested 10,[]) := by
    with_unfolding_all rfl
  have hcompile : compile (utf8 "^(?:"++nested 10++utf8 ")$")=none :=
    haccepts _ (accepted_nested 11).anchored
  rw [newGrok,hexpand]
  simp only [bind,Except.bind,hcompile]

end OpsAgent.Collector.Logparse
