import OpsAgent.Collector.Prometheus
import OpsAgent.Lib.TextLines

/-!
# What an exposition says (`collector/outputs/prometheus/prometheus.go`)
-/

namespace OpsAgent.Collector.Prometheus
open List Option
open Lib.GoStrings (GoString)
open Lib.QuotedText (Alphabet replaceAll)
open Lib.TextLines (encode)
open Lib.GoValue (Float64)
open Lib.FloatText (formatFloat)

def charEscapes : Alphabet Char := ⟨'\\', '"', '\n', 'n',by decide⟩
def byteEscapes : Alphabet UInt8 := ⟨92,34,10,110,by decide⟩

/-- `escapeLabelValue` on any string, whose bytes need not be UTF-8. -/
def escapeLabelBytes (s : GoString) : GoString :=
  replaceAll 10 [92,110] (replaceAll 34 [92,34] (replaceAll 92 [92,92] s))

theorem escapeLabelValue_eq (s : List Char) : escapeLabelValue s=charEscapes.escape s := rfl
theorem escapeLabelBytes_eq (s : GoString) : escapeLabelBytes s=byteEscapes.escape s := rfl

theorem encode_replaceAll {c : Char} {b : UInt8} (hb : b.toNat<128) (hc : b.toNat=c.toNat)
    (hcode : String.utf8EncodeChar c=[b]) (new s : List Char) :
    encode (replaceAll c new s)=replaceAll b (encode new) (encode s) := by
  have hone : ∀ d : Char, encode (if d=c then new else [d]) =
      replaceAll b (encode new) (String.utf8EncodeChar d) := by
    intro d
    by_cases hd : d=c
    · subst hd
      rw [if_pos rfl,hcode]
      simp [replaceAll]
    · have hkeep : ∀ b' ∈ String.utf8EncodeChar d, (if b' = b then encode new else [b'])=[b'] := by
        intro b' hb'
        refine if_neg ?_
        rintro rfl
        exact hd (Lib.TextLines.eq_of_mem hb hc hb')
      rw [if_neg hd,replaceAll,flatMap_congr hkeep]
      simp [encode]
  induction s with
  | nil => rfl
  | cons d s ih =>
    have hleft : replaceAll c new (d::s)=(if d=c then new else [d])++replaceAll c new s := rfl
    have hright : encode (d::s)=String.utf8EncodeChar d++encode s := rfl
    rw [hleft,hright,Lib.TextLines.encode_append,hone,ih,Alphabet.replaceAll_append]

theorem encode_escapeLabelValue (s : List Char) :
    encode (escapeLabelValue s)=escapeLabelBytes (encode s) := by
  rw [escapeLabelValue,encode_replaceAll (b := 10) (by decide) (by decide) (by decide),
    encode_replaceAll (b := 34) (by decide) (by decide) (by decide),
    encode_replaceAll (b := 92) (by decide) (by decide) (by decide)]
  rfl

def readLabel (s : List Char) : Option ((List Char × List Char) × List Char) :=
  match s.dropWhile (· != '=') with
  | '=' :: '"' :: t => (charEscapes.read t).map fun r => ((s.takeWhile (· != '='),r.1),r.2)
  | _ => none

def readLabelsFrom : Nat → List Char → Option (List (List Char × List Char) × List Char)
  | 0, _ => none
  | n+1, s => match readLabel s with
    | some (l, ',' :: t) => (readLabelsFrom n t).map fun r => (l::r.1,r.2)
    | some (l, '\x7d' :: t) => some ([l],t)
    | _ => none

def readLabels : List Char → Option (List (List Char × List Char) × List Char)
  | '\x7b' :: t => readLabelsFrom t.length t
  | s => some ([],s)
def meaning (tag : String × String) : List Char × List Char := (sanitizeName tag.1,tag.2.toList)

theorem readLabel_label (tag : String × String) (rest : List Char) :
    readLabel (label tag++rest)=some (meaning tag,rest) := by
  have hname : ∀ c∈sanitizeName tag.1, (c != '=')=true := by
    intro c hc
    rw [bne_iff_ne]
    rintro rfl
    exact not_mem_sanitizeName rfl tag.1 hc
  have htext : label tag++rest =
      sanitizeName tag.1 ++ '=' :: '"' :: (charEscapes.escape tag.2.toList ++ '"' :: rest) := by
    simp [label,escapeLabelValue_eq]
  have hread : charEscapes.read (charEscapes.escape tag.2.toList ++ '"' :: rest) =
      some (tag.2.toList,rest) := charEscapes.read_escape tag.2.toList rest
  have hdrop : ∀ t, (sanitizeName tag.1 ++ '=' :: t).dropWhile (· != '=') = '=' :: t := by
    intro t
    rw [dropWhile_append_of_pos hname]
    rfl
  have htake : ∀ t, (sanitizeName tag.1 ++ '=' :: t).takeWhile (· != '=')=sanitizeName tag.1 := by
    intro t
    rw [takeWhile_append_of_pos hname]
    simp
  rw [htext,readLabel,hdrop,htake]
  simp [hread,meaning]

theorem readLabelsFrom_block (tag : String × String) (tags : List (String × String)) (n : Nat)
    (hn : tags.length<n) (rest : List Char) :
    readLabelsFrom n ([','].intercalate ((tag::tags).map label) ++ '\x7d' :: rest) =
      some ((tag::tags).map meaning,rest) := by
  induction tags generalizing tag n with
  | nil =>
    obtain ⟨n,rfl⟩ := Nat.exists_eq_succ_of_ne_zero (Nat.ne_of_gt hn)
    have htext : [','].intercalate ([tag].map label)=label tag := by simp [intercalate]
    rw [htext,readLabelsFrom,readLabel_label]
    rfl
  | cons tag' tags ih =>
    obtain ⟨n,rfl⟩ := Nat.exists_eq_succ_of_ne_zero (Nat.ne_of_gt (Nat.zero_lt_of_lt hn))
    have htext : [','].intercalate ((tag::tag' :: tags).map label) ++ '\x7d' :: rest =
        label tag ++ ',' :: ([','].intercalate ((tag' :: tags).map label) ++ '\x7d' :: rest) := by
      rw [map_cons,map_cons,intercalate_cons_cons]
      simp
    rw [htext,readLabelsFrom,readLabel_label]
    show Option.map (fun r => (meaning tag::r.1,r.2)) (readLabelsFrom n _)=_
    rw [ih tag' n (Nat.lt_of_succ_lt_succ hn)]
    rfl

theorem readLabels_labels (tags : StringMap String) (rest : List Char) :
    readLabels (labels tags ++ ' ' :: rest)=some ((sortedTags tags).map meaning, ' ' :: rest) := by
  unfold labels
  cases htags : sortedTags tags with
  | nil => rfl
  | cons tag tail =>
    have hlength : ∀ (tag : String × String) (tail : List (String × String)),
        tail.length<([','].intercalate ((tag::tail).map label) ++ '\x7d' :: ' ' :: rest).length := by
      intro tag tail
      induction tail generalizing tag with
      | nil => simp
      | cons tag' tail ih =>
        have h:=ih tag'
        rw [map_cons,map_cons,intercalate_cons_cons]
        rw [map_cons] at h
        simp only [length_append,length_cons,length_nil] at h ⊢
        omega
    have htext : '\x7b' :: ([','].intercalate ((tag::tail).map label)++['\x7d']) ++ ' ' :: rest =
        '\x7b' :: ([','].intercalate ((tag::tail).map label) ++ '\x7d' :: ' ' :: rest) := by simp
    rw [isEmpty_cons,if_neg Bool.false_ne_true,htext,readLabels]
    exact readLabelsFrom_block tag tail _ (hlength tag tail) (' ' :: rest)

theorem labels_eq_iff (tags tags' : StringMap String) :
    labels tags=labels tags' ↔ (sortedTags tags).map meaning=(sortedTags tags').map meaning := by
  constructor
  · intro h
    have hread:=readLabels_labels tags []
    rw [h,readLabels_labels tags' []] at hread
    exact (congrArg Prod.fst (some.inj hread)).symm
  · intro h
    have hlabel : label=(fun l => l.1 ++ '=' :: '"' :: (escapeLabelValue l.2++['"'])) ∘ meaning := rfl
    have hempty : (sortedTags tags).isEmpty=(sortedTags tags').isEmpty := by
      have hlength:=congrArg length h
      simp only [length_map] at hlength
      rw [Bool.eq_iff_iff,isEmpty_iff_length_eq_zero,isEmpty_iff_length_eq_zero,hlength]
    rw [labels,labels,hempty,hlabel,← List.map_map,← List.map_map,h]

/-- Label values are read back from between their quotes, and so are the labels of a sample, which are
alike only for tags with the same names and values. -/
theorem label_values_read_back : (∀ v : GoString, 10∉escapeLabelBytes v ∧
      byteEscapes.hasBareQuote (escapeLabelBytes v)=false ∧
      byteEscapes.unescape (escapeLabelBytes v)=some v) ∧
    (∀ v w : GoString, escapeLabelBytes v=escapeLabelBytes w ↔ v=w) ∧
    (∀ s : List Char, encode (escapeLabelValue s)=escapeLabelBytes (encode s)) ∧
    (∀ tags rest, readLabels (labels tags ++ ' ' :: rest) =
      some ((sortedTags tags).map meaning, ' ' :: rest)) ∧ ∀ tags tags', labels tags=labels tags' ↔
      (sortedTags tags).map meaning=(sortedTags tags').map meaning := by
  refine ⟨fun v => ?_,fun v w => ?_,encode_escapeLabelValue,readLabels_labels,labels_eq_iff⟩
  · rw [escapeLabelBytes_eq]
    exact ⟨byteEscapes.newline_notMem_escape v,byteEscapes.hasBareQuote_escape v,
      byteEscapes.unescape_escape v⟩
  · rw [escapeLabelBytes_eq,escapeLabelBytes_eq]
    exact ⟨byteEscapes.escape_injective,congrArg byteEscapes.escape⟩

def fieldValues (fields : StringMap FieldValue) : List FieldValue := fields.entries.map Sigma.snd

/-- The texts that the loop over some metrics may write; each `range` goes through the fields
in an order of its own. -/
inductive Renders : List TimedMetric → List Char → Prop
  | nil : Renders [] []
  | cons {m ms values text} : values.Perm (fieldValues m.fields) → Renders ms text → Renders (m::ms)
        ((typeLine m ++ '\n' :: (sampleLine (fun _ => values) m++['\n']))++text)

theorem renders_renderPrometheus {order : StringMap FieldValue → List FieldValue}
    (horder : ∀ fields, (order fields).Perm (fieldValues fields)) (p : Output) :
    Renders (exposed p) (renderPrometheus order p) := by
  rw [renderPrometheus]
  generalize exposed p=ms
  induction ms with
  | nil => exact .nil
  | cons m ms ih => exact .cons (horder m.fields) ih

theorem exists_renders (ms : List TimedMetric) : ∃ text, Renders ms text := by
  induction ms with
  | nil => exact ⟨_,.nil⟩
  | cons m ms ih =>
    obtain ⟨text,htext⟩ := ih
    exact ⟨_,.cons (.refl _) htext⟩

def preferred (fields : StringMap FieldValue) : Option Float64 :=
  ["value","count","gauge"].findSome? fun key => (fields.lookup key).bind toFloat64
def numbers (fields : StringMap FieldValue) : List Float64 := (fieldValues fields).filterMap toFloat64
def Settled (fields : StringMap FieldValue) : Prop :=
  (preferred fields).isSome ∨
    ∀ x∈numbers fields, ∀ y∈numbers fields, formatFloat x=formatFloat y

theorem extractNumericValue_eq (values : List FieldValue) (fields : StringMap FieldValue) :
    extractNumericValue (fun _ => values) fields =
      (preferred fields).getD (((values.filterMap toFloat64).head?).getD ⟨0⟩) := by
  rw [head?_filterMap]
  unfold extractNumericValue preferred
  split
  next h => rw [h,getD_some]
  next h => rw [h,getD_none]

theorem exists_perm_head {fields : StringMap FieldValue} {x : Float64} (hx : x∈numbers fields) :
    ∃ values : List FieldValue, values.Perm (fieldValues fields) ∧
      (values.filterMap toFloat64).head?=some x := by
  obtain ⟨v,hv,hvx⟩ := mem_filterMap.mp hx
  obtain ⟨before,after,hsplit⟩ := append_of_mem hv
  refine ⟨v::(before++after),?_,?_⟩
  · rw [hsplit]
    exact perm_middle.symm
  · rw [filterMap_cons,hvx,head?_cons]

theorem settled_iff (fields : StringMap FieldValue) :
    (∀ values values' : List FieldValue, values.Perm (fieldValues fields) →
        values'.Perm (fieldValues fields) → formatFloat (extractNumericValue (fun _ => values) fields) =
        formatFloat (extractNumericValue (fun _ => values') fields)) ↔ Settled fields := by
  simp only [extractNumericValue_eq,Settled]
  cases preferred fields with
  | some x => simp
  | none =>
    simp only [getD_none,isSome_none,Bool.false_eq_true,false_or]
    constructor
    · intro h x hx y hy
      obtain ⟨values,hperm,hhead⟩ := exists_perm_head hx
      obtain ⟨values',hperm',hhead'⟩ := exists_perm_head hy
      have hsame:=h values values' hperm hperm'
      rw [hhead,hhead'] at hsame
      exact hsame
    · intro h values values' hperm hperm'
      have hmem : ∀ x∈values.filterMap toFloat64, x∈numbers fields :=
        fun x => (hperm.filterMap toFloat64).mem_iff.mp
      have hmem' : ∀ y∈values'.filterMap toFloat64, y∈numbers fields :=
        fun y => (hperm'.filterMap toFloat64).mem_iff.mp
      have hlength:=((hperm.trans hperm'.symm).filterMap toFloat64).length_eq
      cases hx : values.filterMap toFloat64 with
      | nil =>
        rw [hx,length_nil] at hlength
        rw [length_eq_zero_iff.mp hlength.symm]
      | cons x xs =>
        cases hy : values'.filterMap toFloat64 with
        | nil =>
          rw [hx,hy] at hlength
          exact absurd hlength (Nat.succ_ne_zero _)
        | cons y ys =>
          exact h x (hmem x (hx ▸ mem_cons_self)) y (hmem' y (hy ▸ mem_cons_self))

theorem sampleLine_eq_iff (values values' : List FieldValue) (m : TimedMetric) :
    sampleLine (fun _ => values) m=sampleLine (fun _ => values') m ↔
      formatFloat (extractNumericValue (fun _ => values) m.fields) =
        formatFloat (extractNumericValue (fun _ => values') m.fields) := by simp [sampleLine]

theorem renders_unique_iff (ms : List TimedMetric) :
    (∀ text text', Renders ms text → Renders ms text' → text=text') ↔ ∀ m∈ms, Settled m.fields := by
  induction ms with
  | nil =>
    refine ⟨fun _ m hm => absurd hm not_mem_nil,?_⟩
    rintro - text text' ⟨⟩ ⟨⟩
    rfl
  | cons m ms ih =>
    rw [forall_mem_cons,← ih,← settled_iff]
    constructor
    · intro h
      constructor
      · -- two orders for the first metric, one text for the others
        intro values values' hperm hperm'
        obtain ⟨text,htext⟩ := exists_renders ms
        have hsame:=h _ _ (.cons hperm htext) (.cons hperm' htext)
        rw [← sampleLine_eq_iff]
        simpa using hsame
      · intro text text' htext htext'
        have hsame:=h _ _ (.cons (.refl _) htext) (.cons (.refl _) htext')
        exact append_cancel_left hsame
    · rintro ⟨hm,hms⟩ text text' (_ | ⟨hperm,htext⟩) (_ | ⟨hperm',htext'⟩)
      rw [(sampleLine_eq_iff _ _ m).mpr (hm _ _ hperm hperm'),hms _ _ htext htext']

/-- One exposition for all orders of `range`, exactly if in each metric a field is found by its
name or all numbers are printed alike. -/
theorem exposition_unique_iff (p : Output) :
    (∀ text text', Renders (exposed p) text → Renders (exposed p) text' → text=text') ↔
      ∀ m∈exposed p, Settled m.fields :=
  renders_unique_iff (exposed p)

def trafficMetric : TimedMetric :=
  ⟨⟨"net",∅,((∅ : StringMap FieldValue).insert "rx" (.int64 1)).insert "tx" (.int64 2),.gauge⟩,
    62135596801*1000000000⟩

theorem exposition_depends_on_order :
    Renders (exposed (written none [[trafficMetric]])) "# TYPE net gauge\nnet 1 1000\n".toList ∧
      Renders (exposed (written none [[trafficMetric]])) "# TYPE net gauge\nnet 2 1000\n".toList := by
  have hrx : renderPrometheus (fun fields => (fieldValues fields).reverse)
      (written none [[trafficMetric]])="# TYPE net gauge\nnet 1 1000\n".toList := by decide +kernel
  have htx : renderPrometheus fieldValues (written none [[trafficMetric]]) =
      "# TYPE net gauge\nnet 2 1000\n".toList := by decide +kernel
  refine ⟨?_,?_⟩
  · rw [← hrx]
    exact renders_renderPrometheus (fun _ => reverse_perm _) _
  · rw [← htx]
    exact renders_renderPrometheus (fun _ => .refl _) _

end OpsAgent.Collector.Prometheus
