import Mathlib.Data.List.AList
import OpsAgent.Lib.FloatText
import OpsAgent.Lib.Json

/-!
# Decoding JSON as Go does

`json.Unmarshal` decodes into a value that is there already. A member goes to the field with its
name, perhaps in another case, or is skipped.
-/

namespace OpsAgent.Lib.GoJson
open List Option
open Lib.Json (parse)

/-- The innermost struct around a place, and the names of the fields that lead to it. -/
structure Place where
  struct : String
  path : List String

def typeError (place : Place) (value type : String) : String :=
  "json: cannot unmarshal "++value ++
    (if place.path=[] then " into Go value of type "
      else " into Go struct field "++place.struct++"."++".".intercalate place.path++" of type ")
    ++ type

def Decoder (α : Type) := Place → Json → α → α × Option String

def kind : Json → String
  | .null => "null"
  | .bool _ => "bool"
  | .num _ => "number"
  | .str _ => "string"
  | .arr _ => "array"
  | .obj _ => "object"

def scalar {α : Type} (type : String) (read : Json → Option α) : Decoder α := fun place j old =>
  match j with
  | .null => (old,none)
  | j => match read j with
    | some v => (v,none)
    | none => (old,some (typeError place (kind j) type))

def string : Decoder String := scalar "string" fun
  | .str s => some s
  | _ => none
def bool : Decoder Bool := scalar "bool" fun
  | .bool b => some b
  | _ => none

/-- The types `int` and `int64`, which are the same here. -/
def int64 (type : String) : Decoder Int64 := fun place j old =>
  match j with
  | .null => (old,none)
  | .num n => match n.toInt? with
    | some v =>
      if -2^63≤v ∧ v<2^63 then (Int64.ofInt v,none)
      else (old,some (typeError place ("number "++String.ofList n.text) type))
    | none => (old,some (typeError place ("number "++String.ofList n.text) type))
  | j => (old,some (typeError place (kind j) type))

mutual

def badNumber : Json → Option JsonNumber
  | .num n => match FloatText.parseFloat n.text with
    | .ok _ => none
    | .error _ => some n
  | .arr elems => badElem elems
  | .obj members => badMember members
  | _ => none

def badElem : List Json → Option JsonNumber
  | [] => none
  | j::js => (badNumber j).or (badElem js)
def badMember : List (String × Json) → Option JsonNumber
  | [] => none
  | (_,j)::ms => (badNumber j).or (badMember ms)

end

/-- An `any`; numbers must be within the range of `float64`. The null is nil. -/
def any : Decoder (Option Json) := fun place j _ =>
  match j with
  | .null => (none,none)
  | j => (some j,(badNumber j).map fun n =>
      typeError place ("number "++String.ofList n.text) "float64")

abbrev StringMap := AList fun _ : String => Json

/-- A `map[string]any`. Members are added to the map that is there. -/
def map : Decoder (Option StringMap) := fun place j old =>
  match j with
  | .null => (none,none)
  | .obj members =>
    (some (members.foldl (fun m e => m.insert e.1 e.2) (old.getD ∅)),
      (badMember members).map fun n =>
        typeError place ("number "++String.ofList n.text) "float64")
  | j => (old,some (typeError place (kind j) "map[string]interface \x7b\x7d"))

def mapOf {α : Type} (type : String) (zero : α) (d : Decoder α) :
    Decoder (Option (AList fun _ : String => α)) := fun place j old =>
  match j with
  | .null => (none,none)
  | .obj members =>
    let results:=members.map fun e => (e.1,d place e.2 zero)
    (some (results.foldl (fun m e => m.insert e.1 e.2.1) (old.getD ∅)),
      results.findSome? fun e => e.2.2)
  | j => (old,some (typeError place (kind j) type))

def pointer {α : Type} (zero : α) (d : Decoder α) : Decoder (Option α) := fun place j old =>
  match j with
  | .null => (none,none)
  | j => let r:=d place j (old.getD zero)
    (some r.1,r.2)

def slice {α : Type} (type : String) (zero : α) (d : Decoder α) : Decoder (Option (List α)) :=
  fun place j old =>
    match j with
    | .null => (none,none)
    | .arr elems =>
      let results:=elems.zipIdx.map fun e => d place e.1 ((old.getD []).getD e.2 zero)
      (some (results.map Prod.fst),results.findSome? Prod.snd)
    | j => (old,some (typeError place (kind j) type))

structure StructField (α : Type) where
  name : String
  decode : Decoder α

def StructField.of {α β : Type} (name : String) (get : α → β) (set : α → β → α) (d : Decoder β) :
    StructField α :=
  ⟨name,fun place j old => let r:=d place j (get old)
    (set old r.1,r.2)⟩

/-- The smallest character that differs in case only, for the characters that can
be equal to one of ASCII. -/
def foldChar (c : Char) : Char :=
  if c = '\u017f' then 'S' else if c = '\u212a' then 'K' else c.toUpper
def foldName (s : String) : List Char := s.toList.map foldChar
def findField {α : Type} (fields : List (StructField α)) (key : String) : Option (StructField α) :=
  (fields.find? fun f => f.name == key).or
    (fields.find? fun f => foldName f.name == foldName key)

def decodeMembers {α : Type} (struct : String) (fields : List (StructField α)) (place : Place) :
    List (String × Json) → α → Option String → α × Option String
  | [], old, err => (old,err)
  | (key,j)::members, old, err => match findField fields key with
    | none => decodeMembers struct fields place members old err
    | some f => let r:=f.decode ⟨struct,place.path++[f.name]⟩ j old
      decodeMembers struct fields place members r.1 (err.or r.2)

def struct {α : Type} (package name : String) (fields : List (StructField α)) : Decoder α :=
  fun place j old =>
    match j with
    | .null => (old,none)
    | .obj members => decodeMembers name fields place members old none
    | j => (old,some (typeError place (kind j) (package++"."++name)))

inductive DecodeError where
  | syntaxError
  | type (message : String)

def maxNestingDepth : Nat := 10000

/-- `json.Unmarshal` into a new value. -/
def unmarshal {α : Type} (zero : α) (d : Decoder α) (text : List Char) : Except DecodeError α :=
  match parse maxNestingDepth text with
  | none => .error .syntaxError
  | some j => match d ⟨"",[]⟩ j zero with
    | (v,none) => .ok v
    | (_,some message) => .error (.type message)

variable {place : Place} {α : Type}

theorem any_badNumber {j v : Json} {old : Option Json} (h : (any place j old).2=none)
    (hv : (any place j old).1=some v) : badNumber v=none := by
  cases j with
  | null => cases hv
  | bool b | str s =>
    cases hv
    rfl
  | num n | arr elems | obj members =>
    cases hv
    exact map_eq_none_iff.mp h

theorem int64_ofInt (type : String) (place : Place) (n old : Int64) :
    int64 type place (.num (JsonNumber.ofInt n.toInt)) old=(n,none) := by
  have hlow:=n.le_toInt
  have hhigh:=n.toInt_lt
  simp only [int64,JsonNumber.toInt?_ofInt]
  rw [if_pos ⟨hlow,hhigh⟩,Int64.ofInt_toInt]

theorem lookup_foldl_insert {S : Type} [DecidableEq S] (es : List (S × α))
    (hnodup : (es.map Prod.fst).Nodup) (m : AList fun _ : S => α) (k : S) :
    (es.foldl (fun m e => m.insert e.1 e.2) m).lookup k=(es.lookup k).or (m.lookup k) := by
  induction es generalizing m with
  | nil => rfl
  | cons e es ih =>
    obtain ⟨hfresh,hrest⟩ := nodup_cons.mp hnodup
    rw [foldl_cons,ih hrest,lookup_cons]
    by_cases hk : k=e.1
    · subst hk
      have hnone : es.lookup e.1=none := by
        rw [lookup_eq_none_iff]
        intro f hf
        rw [bne_iff_ne]
        exact fun heq => hfresh (heq ▸ mem_map_of_mem hf)
      rw [hnone,none_or,AList.lookup_insert,beq_self_eq_true]
      rfl
    · rw [AList.lookup_insert_ne hk,beq_eq_false_iff_ne.mpr hk]

variable {zero : α} {d : Decoder α} {type : String}

theorem mapOf_obj {members : List (String × Json)} {es : List (String × α)}
    (h : members.map (fun e => (e.1,d place e.2 zero))=es.map fun e => (e.1,(e.2,none))) :
    mapOf type zero d place (.obj members) none =
      (some (es.foldl (fun m e => m.insert e.1 e.2) ∅),none) := by
  have hnone : (es.map fun e => (e.1,(e.2,(none : Option String)))).findSome? (fun e => e.2.2) =
      none := by
    rw [findSome?_eq_none_iff]
    intro e he
    obtain ⟨f,-,rfl⟩ := mem_map.mp he
    rfl
  simp only [mapOf,h,hnone,foldl_map,getD_none]

theorem slice_arr
    {elems : List Json} {vs : List α} (h : elems.map (fun j => d place j zero)=vs.map fun v => (v,none)) :
    slice type zero d place (.arr elems) none=(some vs,none) := by
  have hresults : (elems.zipIdx.map fun e => d place e.1 (([] : List α).getD e.2 zero)) =
      vs.map fun v => (v,none) := by
    have hzero : (fun e : Json × Nat => d place e.1 (([] : List α).getD e.2 zero)) =
        (fun j => d place j zero) ∘ Prod.fst := by
      funext e
      simp
    rw [← h,hzero,← List.map_map,zipIdx_map_fst]
  have hnone : (vs.map fun v => (v,(none : Option String))).findSome? Prod.snd=none := by
    rw [findSome?_eq_none_iff]
    intro r hr
    obtain ⟨v,-,rfl⟩ := mem_map.mp hr
    rfl
  have hvalues : (vs.map fun v => (v,(none : Option String))).map Prod.fst=vs := by
    rw [List.map_map]
    exact map_id vs
  simp only [slice,getD_none,hresults,hnone,hvalues]

theorem unmarshal_print {v : α} {j : Json}
    (hwithin : j.within maxNestingDepth) (hd : d ⟨"",[]⟩ j zero=(v,none)) :
    unmarshal zero d j.print=.ok v := by
  have hparse : parse maxNestingDepth (j.print++[]) =
      if j.within maxNestingDepth then some j else none :=
    Json.parse_print j maxNestingDepth rfl fun c hc => by cases hc
  rw [append_nil,if_pos hwithin] at hparse
  rw [unmarshal,hparse]
  simp only [hd]

section
variable {α : Type} {name : String} {fields : List (StructField α)} {place : Place} {key : String} {j : Json}
  {members : List (String × Json)} {old : α} {err : Option String}
  {v : α} {f : StructField α}

theorem decodeMembers_skip (h : findField fields key=none) :
    decodeMembers name fields place ((key,j)::members) old err =
      decodeMembers name fields place members old err := by rw [decodeMembers,h]

theorem decodeMembers_field (new : α) (h : findField fields key=some f)
    (hf : ∀ p, f.decode p j old=(new,none)) :
    decodeMembers name fields place ((key,j)::members) old err =
      decodeMembers name fields place members new err := by
  rw [decodeMembers,h]
  simp only [hf,or_none]

theorem mem_of_findField (h : findField fields key=some f) : f∈fields := by
  rw [findField,or_eq_some_iff] at h
  rcases h with h | ⟨-,h⟩
  · exact mem_of_find?_eq_some h
  · exact mem_of_find?_eq_some h

theorem decodeMembers_error (h : decodeMembers name fields place members old err=(v,none)) :
    err=none := by
  induction members generalizing old err with
  | nil =>
    rw [decodeMembers] at h
    exact congrArg Prod.snd h
  | cons e members ih =>
    rw [decodeMembers] at h
    split at h
    next => exact ih h
    next => exact (or_eq_none_iff.mp (ih h)).1

theorem decodeMembers_invariant {P : α → Prop}
    (hfield : ∀ f∈fields, ∀ p j old new, P old → f.decode p j old=(new,none) → P new)
    (h : decodeMembers name fields place members old err=(v,none)) (hold : P old) : P v := by
  induction members generalizing old err with
  | nil =>
    rw [decodeMembers] at h
    cases h
    exact hold
  | cons e members ih =>
    rw [decodeMembers] at h
    split at h
    next => exact ih h hold
    next f hf =>
      have hnone:=(or_eq_none_iff.mp (decodeMembers_error h)).2
      exact ih h (hfield f (mem_of_findField hf) _ _ _ _ hold (Prod.ext rfl hnone))

end

end OpsAgent.Lib.GoJson
