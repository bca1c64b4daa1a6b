import Mathlib.Data.String.Basic
import OpsAgent.Lib.Fuel
import OpsAgent.Lib.GoTemplate
import OpsAgent.Lib.ObjectHeap

/-!
# Templates of configurations (`templates/loader.go`)

The template and the results are maps and lists in a heap. Of a mapping with a key that is not a
string `yaml.v3` makes a `map[any]any`, and of any other one a `map[string]any`.
-/

namespace OpsAgent.Templates
open Lib Lib.GoTemplate List Option

abbrev Text := List Char

inductive Scalar (β : Type) where
  | str (s : Text)
  | other (b : β)

inductive MapKey (β : Type) where
  | str (s : String)
  | other (b : β)

namespace MapKey
variable {β : Type}

def isString : MapKey β → Bool
  | .str _ => true
  | .other _ => false

/-- The key of a `map[string]any`. -/
def text : MapKey β → String
  | .str s => s
  | .other _ => ""

end MapKey

def stringKeys {β : Type} {τ : Type*} (es : List (MapKey β × τ)) : Bool := es.all fun e => e.1.isString

abbrev ConfigHeap (β : Type) := Heap (MapKey β) (Scalar β)

structure VarDef where
  default : Text

structure TemplatePlugin where
  type : String
  config : Option Nat

structure Template where
  varDefs : SortedMap String VarDef
  inputs : List TemplatePlugin

abbrev Vars := SortedMap String Text

structure Env where
  tables : Tables
  -- the result of `Parse` and `Execute` for a template that has other actions than plain fields
  otherTemplate : Text → Vars → Except String Text
  -- the verb `%q` of `fmt`
  quote : String → String

variable {β : Type} (env : Env) {u : Tables}

def resolveVars (varDefs : SortedMap String VarDef) (vars : Vars) : Vars :=
  SortedMap.copy
    ((varDefs.entries.map fun e => (e.1,e.2.default)).foldl (fun m e => m.insert e.1 e.2) .empty) vars
def dataOf (vars : Vars) (name : Text) : Option Text := vars.get? (String.ofList name)

def renderString (vars : Vars) (s : Text) : Except String Text :=
  if leftDelim <:+: s then
    match parse env.tables s with
    | some nodes => .ok (execute (dataOf vars) nodes)
    | none => env.otherTemplate s vars
  else .ok s

def renderItems (render : ConfigHeap β → Ref (Scalar β) →
      Option (Except String (ConfigHeap β × Ref (Scalar β)))) (h : ConfigHeap β) :
    List (Ref (Scalar β)) → Option (Except String (ConfigHeap β × List (Ref (Scalar β))))
  | [] => some (.ok (h,[]))
  | item::items =>
    andThen (render h item) fun r =>
      andThen (renderItems render r.1 items) fun s => some (.ok (s.1,r.2::s.2))

def renderEntries (render : ConfigHeap β → Ref (Scalar β) →
      Option (Except String (ConfigHeap β × Ref (Scalar β)))) (h : ConfigHeap β) :
    List (MapKey β × Ref (Scalar β)) →
      Option (Except String (ConfigHeap β × List (MapKey β × Ref (Scalar β))))
  | [] => some (.ok (h,[]))
  | (key,val)::es =>
    andThen (withContext (fun err => "rendering key "++env.quote key.text++": "++err) (render h val))
      fun r => andThen (renderEntries render r.1 es) fun s => some (.ok (s.1,(key,r.2)::s.2))

def renderConfig (render : ConfigHeap β → Ref (Scalar β) →
      Option (Except String (ConfigHeap β × Ref (Scalar β)))) (h : ConfigHeap β)
    (config : Option Nat) : Option (Except String (ConfigHeap β × Option Nat)) :=
  (h.entries config).bind fun es =>
    andThen (renderEntries env render h es) fun s =>
      some (.ok (s.1++[.map s.2],some s.1.length))

def renderValue (vars : Vars) : Nat → ConfigHeap β → Ref (Scalar β) →
    Option (Except String (ConfigHeap β × Ref (Scalar β)))
  | 0, _, _ => none
  | _+1, h, .scalar (.str s) =>
    some ((renderString env vars s).map fun s => (h,.scalar (.str s)))
  | _+1, h, .scalar (.other b) => some (.ok (h,.scalar (.other b)))
  | n+1, h, .map m => (h.entries m).bind fun es =>
    if stringKeys es then
      andThen (renderConfig env (renderValue vars n) h m) fun r => some (.ok (r.1,.map r.2))
    -- a `map[any]any` falls into the default case
    else some (.ok (h,.map m))
  | n+1, h, .list m => (h.items m).bind fun items =>
    andThen (renderItems (renderValue vars n) h items) fun s =>
      some (.ok (s.1++[.list s.2],.list (some s.1.length)))

def renderInputs (vars : Vars) (n : Nat) (h : ConfigHeap β) :
    List TemplatePlugin → Option (Except String (ConfigHeap β × List TemplatePlugin))
  | [] => some (.ok (h,[]))
  | input::inputs =>
    andThen (withContext (fun err => "rendering input "++input.type++": "++err)
        (renderConfig env (renderValue env vars n) h input.config)) fun r =>
      andThen (renderInputs vars n r.1 inputs) fun s =>
        some (.ok (s.1,⟨input.type,r.2⟩::s.2))

def apply (n : Nat) (h : ConfigHeap β) (tmpl : Template) (vars : Vars) :
    Option (Except String (ConfigHeap β × List TemplatePlugin)) :=
  renderInputs env (resolveVars tmpl.varDefs vars) n h tmpl.inputs

def applyAll (n : Nat) (tmpl : Template) (h : ConfigHeap β) :
    List Vars → Option (ConfigHeap β × List (Except String (List TemplatePlugin)))
  | [] => some (h,[])
  | vars::calls => (apply env n h tmpl vars).bind fun r =>
    match r with
    | .ok s => (applyAll n tmpl s.1 calls).map fun t => (t.1,.ok s.2::t.2)
    | .error err => (applyAll n tmpl h calls).map fun t => (t.1,.error err::t.2)

def chosen (varDefs : SortedMap String VarDef) (vars : Vars) (name : Text) : Option Text :=
  (vars.get? (String.ofList name)).or ((varDefs.get? (String.ofList name)).map VarDef.default)

theorem get?_map_default (es : List (String × VarDef)) (k : String) :
    Entries.get? k (es.map fun e => (e.1,e.2.default))=(Entries.get? k es).map VarDef.default := by
  induction es with
  | nil => rfl
  | cons e es ih =>
    obtain ⟨l,d⟩ := e
    rw [map_cons,Entries.get?_cons,Entries.get?_cons,ih]
    split
    · rfl
    · rfl

theorem dataOf_resolveVars (varDefs : SortedMap String VarDef) (vars : Vars) :
    dataOf (resolveVars varDefs vars)=chosen varDefs vars := by
  funext name
  have hsorted : Entries.Sorted (varDefs.entries.map fun e => (e.1,e.2.default)) :=
    pairwise_map.mpr varDefs.sorted
  rw [dataOf,resolveVars,SortedMap.get?_copy,SortedMap.get?_foldl_insert _ _ hsorted,
    get?_map_default,SortedMap.get?_empty,or_none]
  rfl

theorem infix_source (s : Text) (h : ¬ leftDelim <:+: s++['\x7b']) (p : Placeholder u)
    (rest : PlainString u) : leftDelim <:+: (PlainString.field s h p rest).source := by
  refine ⟨s,(p.before ++ '.' :: (p.name++(p.after++rightDelim)))++rest.source,?_⟩
  simp [PlainString.source,Placeholder.source]

variable {env} {inputs : List TemplatePlugin}

theorem renderString_plain (vars : Vars) (p : PlainString env.tables) :
    renderString env vars p.source=.ok (p.subst (dataOf vars)) := by
  cases p with
  | text s h => exact if_neg h
  | field s h p rest =>
    rw [renderString,if_pos (infix_source s h p rest),parse_source]
    exact congrArg Except.ok (PlainString.execute_nodes _ _)

/-- A leaf of a template whose strings have only plain placeholders. -/
inductive Leaf (u : Tables) (β : Type) where
  | plain (p : PlainString u)
  | other (b : β)

def Leaf.stored {u : Tables} : Leaf u β → Scalar β
  | .plain p => .str p.source
  | .other b => .other b
def Leaf.rendered {u : Tables} (data : Text → Option Text) : Leaf u β → Scalar β
  | .plain p => .str (p.subst data)
  | .other b => .other b

abbrev Shape (u : Tables) (β : Type) := ValueTree (MapKey β) (Leaf u β)

mutual

/-- All maps of the value are `map[string]any`. -/
def stringKeyed : Shape u β → Bool
  | .leaf _ => true
  | .list ts => stringKeyedList ts
  | .map ts => stringKeys ts&&stringKeyedEntries ts
def stringKeyedList : List (Shape u β) → Bool
  | [] => true
  | t::ts => stringKeyed t&&stringKeyedList ts
def stringKeyedEntries : List (MapKey β × Shape u β) → Bool
  | [] => true
  | (_,t)::ts => stringKeyed t&&stringKeyedEntries ts

end

theorem stringKeys_rep {P : Nat → Prop} {h : ConfigHeap β} {f : Leaf u β → Scalar β}
    {es : List (MapKey β × Ref (Scalar β))} {ts : List (MapKey β × Shape u β)}
    (hr : RepEntries P h es (ValueTree.mapEntries f ts)) : stringKeys es=stringKeys ts := by
  induction ts generalizing es with
  | nil =>
    rw [ValueTree.mapEntries,RepEntries] at hr
    rw [hr]
    rfl
  | cons e ts ih =>
    obtain ⟨k,t⟩ := e
    rw [ValueTree.mapEntries,RepEntries] at hr
    obtain ⟨x,es,rfl,-,hes⟩ := hr
    exact congrArg (k.isString&&·) (ih hes)

section Render
variable {vars : Vars} {n base : Nat}
  {render : ConfigHeap β → Ref (Scalar β) → Option (Except String (ConfigHeap β × Ref (Scalar β)))}

/-- The result of a value below `base` is the rendered value in objects from `base` on, exactly if all
its maps have string keys. -/
def Renders (env : Env) (vars : Vars) (n base : Nat)
    (render : ConfigHeap β → Ref (Scalar β) → Option (Except String (ConfigHeap β × Ref (Scalar β)))) :
    Prop :=
  ∀ (h : ConfigHeap β) (r : Ref (Scalar β)) (t : Shape env.tables β), base≤h.length →
    RepTree (· < base) h r (t.mapLeaves Leaf.stored) →
      Succeeds (render h r) (n≤(t.mapLeaves Leaf.stored).depth) fun res =>
        h <+: res.1 ∧ ∀ h', res.1 <+: h' →
          (RepTree (base ≤ ·) h' res.2 (t.mapLeaves (Leaf.rendered (dataOf vars))) ↔ stringKeyed t)

theorem renderItems_succeeds (hrender : Renders env vars n base render)
    (ts : List (Shape env.tables β)) (h : ConfigHeap β) (xs : List (Ref (Scalar β)))
    (hb : base≤h.length) (hr : RepList (· < base) h xs (ValueTree.mapList Leaf.stored ts)) :
    Succeeds (renderItems render h xs)
      (n≤ValueTree.depthList (ValueTree.mapList Leaf.stored ts)) fun res =>
        h <+: res.1 ∧ ∀ h', res.1 <+: h' →
          (RepList (base ≤ ·) h' res.2 (ValueTree.mapList (Leaf.rendered (dataOf vars)) ts) ↔
            stringKeyedList ts) := by
  induction ts generalizing h xs with
  | nil =>
    rw [ValueTree.mapList,RepList] at hr
    subst hr
    refine .ok ⟨prefix_rfl,fun h' _ => ?_⟩
    rw [ValueTree.mapList,RepList,stringKeyedList]
    simp
  | cons t ts ih =>
    rw [ValueTree.mapList,RepList] at hr
    obtain ⟨x,xs,rfl,hx,hxs⟩ := hr
    rw [ValueTree.mapList,ValueTree.depthList]
    refine ((hrender h x t hb hx).mono (fun hn => by omega) (fun _ h => h)).andThen fun r hpost => ?_
    obtain ⟨hext,hrep⟩ := hpost
    have htail:=ih r.1 xs (hb.trans hext.length_le) (repList_extends hext hxs)
    refine (htail.mono (fun hn => by omega) (fun _ h => h)).andThen fun s hpost => ?_
    obtain ⟨hext',hrep'⟩ := hpost
    refine .ok ⟨hext.trans hext',fun h' hh => ?_⟩
    rw [ValueTree.mapList,repList_cons,hrep h' (hext'.trans hh),hrep' h' hh,stringKeyedList,
      Bool.and_eq_true]

theorem renderEntries_succeeds (hrender : Renders env vars n base render)
    (ts : List (MapKey β × Shape env.tables β)) (h : ConfigHeap β)
    (es : List (MapKey β × Ref (Scalar β))) (hb : base≤h.length)
    (hr : RepEntries (· < base) h es (ValueTree.mapEntries Leaf.stored ts)) :
    Succeeds (renderEntries env render h es)
      (n≤ValueTree.depthEntries (ValueTree.mapEntries Leaf.stored ts)) fun res =>
        h <+: res.1 ∧ ∀ h', res.1 <+: h' →
          (RepEntries (base ≤ ·) h' res.2 (ValueTree.mapEntries (Leaf.rendered (dataOf vars)) ts) ↔
            stringKeyedEntries ts) := by
  induction ts generalizing h es with
  | nil =>
    rw [ValueTree.mapEntries,RepEntries] at hr
    subst hr
    refine .ok ⟨prefix_rfl,fun h' _ => ?_⟩
    rw [ValueTree.mapEntries,RepEntries,stringKeyedEntries]
    simp
  | cons e ts ih =>
    obtain ⟨k,t⟩ := e
    rw [ValueTree.mapEntries,RepEntries] at hr
    obtain ⟨x,es,rfl,hx,hes⟩ := hr
    rw [ValueTree.mapEntries,ValueTree.depthEntries]
    have hhead:=(hrender h x t hb hx).withContext
      fun err => "rendering key "++env.quote k.text++": "++err
    refine (hhead.mono (fun hn => by omega) (fun _ h => h)).andThen fun r hpost => ?_
    obtain ⟨hext,hrep⟩ := hpost
    have htail:=ih r.1 es (hb.trans hext.length_le) (repEntries_extends hext hes)
    refine (htail.mono (fun hn => by omega) (fun _ h => h)).andThen fun s hpost => ?_
    obtain ⟨hext',hrep'⟩ := hpost
    refine .ok ⟨hext.trans hext',fun h' hh => ?_⟩
    rw [ValueTree.mapEntries,repEntries_cons,hrep h' (hext'.trans hh),hrep' h' hh,
      stringKeyedEntries,Bool.and_eq_true]

theorem renderConfig_succeeds (hrender : Renders env vars n base render)
    (ts : List (MapKey β × Shape env.tables β)) (h : ConfigHeap β) (config : Option Nat)
    (hb : base≤h.length)
    (hr : RepTree (· < base) h (.map config) (.map (ValueTree.mapEntries Leaf.stored ts))) :
    Succeeds (renderConfig env render h config)
      (n≤ValueTree.depthEntries (ValueTree.mapEntries Leaf.stored ts)) fun res =>
        h <+: res.1 ∧ ∀ h', res.1 <+: h' → (RepTree (base ≤ ·) h' (.map res.2)
          (.map (ValueTree.mapEntries (Leaf.rendered (dataOf vars)) ts)) ↔ stringKeyedEntries ts) := by
  rw [RepTree] at hr
  obtain ⟨address,es,heq,-,hes,hrep⟩ := hr
  cases heq
  rw [renderConfig,hes]
  refine (renderEntries_succeeds hrender ts h es hb hrep).andThen fun s hpost => ?_
  obtain ⟨hext,hs⟩ := hpost
  refine .ok ⟨hext.trans (prefix_append _ _),fun h' hh => ?_⟩
  rw [repTree_map_alloc (hb.trans hext.length_le) hh,hs h' ((prefix_append _ _).trans hh)]

end Render

theorem renderValue_succeeds (vars : Vars) (n base : Nat) :
    Renders env vars n base (@renderValue β env vars n) := by
  induction n with
  | zero => exact fun _ _ _ _ _ => Nat.zero_le _
  | succ n ih =>
    intro h r t hb hr
    cases t with
    | leaf b =>
      rw [ValueTree.mapLeaves,RepTree] at hr
      subst hr
      cases b with
      | plain p =>
        rw [Leaf.stored,renderValue,renderString_plain]
        refine .ok ⟨prefix_rfl,fun h' _ => ?_⟩
        rw [ValueTree.mapLeaves,RepTree,stringKeyed]
        exact iff_of_true rfl rfl
      | other b =>
        rw [Leaf.stored,renderValue]
        refine .ok ⟨prefix_rfl,fun h' _ => ?_⟩
        rw [ValueTree.mapLeaves,RepTree,stringKeyed]
        exact iff_of_true rfl rfl
    | list ts =>
      rw [ValueTree.mapLeaves,RepTree] at hr
      obtain ⟨address,xs,rfl,-,hxs,hrep⟩ := hr
      rw [renderValue,hxs,ValueTree.mapLeaves,ValueTree.depth]
      have hitems:=renderItems_succeeds ih ts h xs hb hrep
      refine (hitems.mono (fun hn => by omega) (fun _ h => h)).andThen fun s hpost => ?_
      obtain ⟨hext,hs⟩ := hpost
      refine .ok ⟨hext.trans (prefix_append _ _),fun h' hh => ?_⟩
      rw [ValueTree.mapLeaves,repTree_list_alloc (hb.trans hext.length_le) hh,
        hs h' ((prefix_append _ _).trans hh),stringKeyed]
    | map ts =>
      rw [ValueTree.mapLeaves] at hr
      have hmap:=hr
      rw [RepTree] at hmap
      obtain ⟨address,es,rfl,hlow,hes,hrep⟩ := hmap
      rw [renderValue,hes,bind_some,stringKeys_rep hrep,ValueTree.mapLeaves,ValueTree.depth]
      by_cases hkeys : stringKeys ts
      · rw [if_pos hkeys]
        have hconfig:=renderConfig_succeeds ih ts h address hb hr
        refine (hconfig.mono (fun hn => by omega) (fun _ h => h)).andThen fun s hpost => ?_
        refine .ok ⟨hpost.1,fun h' hh => ?_⟩
        rw [ValueTree.mapLeaves,hpost.2 h' hh,stringKeyed,hkeys,Bool.true_and]
      · rw [if_neg hkeys]
        refine .ok ⟨prefix_rfl,fun h' _ => ?_⟩
        rw [ValueTree.mapLeaves,RepTree,stringKeyed]
        refine iff_of_false ?_ (by simp [hkeys])
        -- the object of the template is below `base`, and there is one as it has a key
        rintro ⟨address',es',heq,hhigh,-⟩
        cases heq
        cases address with
        | none =>
          cases hes
          rw [← stringKeys_rep hrep] at hkeys
          exact hkeys rfl
        | some a => exact absurd (hlow a rfl) (Nat.not_lt.mpr (hhigh a rfl))

def Denotes {u : Tables} (P : Nat → Prop) (h : ConfigHeap β) (f : Leaf u β → Scalar β)
    (inputs : List TemplatePlugin) (shapes : List (String × List (MapKey β × Shape u β))) : Prop :=
  List.Forall₂ (fun input shape => input.type=shape.1 ∧
    RepTree P h (.map input.config) (.map (ValueTree.mapEntries f shape.2))) inputs shapes

theorem Denotes.of_extends {P : Nat → Prop} {h h' : ConfigHeap β} (hext : h <+: h')
    {f : Leaf u β → Scalar β}
    {shapes : List (String × List (MapKey β × Shape u β))} (hd : Denotes P h f inputs shapes) :
    Denotes P h' f inputs shapes :=
  hd.imp fun _ _ hi => ⟨hi.1,rep_extends hext hi.2⟩

def Fueled {u : Tables} (n : Nat) (shapes : List (String × List (MapKey β × Shape u β))) : Prop :=
  ∀ shape∈shapes, ValueTree.depthEntries (ValueTree.mapEntries Leaf.stored shape.2)<n
def StringKeyed {u : Tables} (shapes : List (String × List (MapKey β × Shape u β))) : Prop :=
  ∀ shape∈shapes, stringKeyedEntries shape.2

section Apply
variable {n base : Nat} {shapes : List (String × List (MapKey β × Shape env.tables β))}

theorem renderInputs_ok (vars : Vars) (hfuel : Fueled n shapes) {h : ConfigHeap β}
    {inputs : List TemplatePlugin} (hb : base≤h.length)
    (hd : Denotes (· < base) h Leaf.stored inputs shapes) :
    ∃ s, renderInputs env vars n h inputs=some (.ok s) ∧ h <+: s.1 ∧ ∀ h', s.1 <+: h' →
      (Denotes (base ≤ ·) h' (Leaf.rendered (dataOf vars)) s.2 shapes ↔ StringKeyed shapes) := by
  induction inputs generalizing h shapes with
  | nil =>
    cases hd
    exact ⟨(h,[]),rfl,prefix_rfl,fun _ _ => iff_of_true .nil nofun⟩
  | cons input inputs ih =>
    cases hd with
    | @cons _ shape _ shapes hi hrest =>
      rw [Fueled,forall_mem_cons] at hfuel
      obtain ⟨htype,hrep⟩ := hi
      have hconfig:=(renderConfig_succeeds (renderValue_succeeds vars n base) shape.2 h input.config
        hb hrep).withContext fun err => "rendering input "++input.type++": "++err
      obtain ⟨r,hr,hext,hnew⟩ := hconfig.exists_ok (Nat.not_le.mpr hfuel.1)
      obtain ⟨s,hs,hext',hnew'⟩ := ih hfuel.2 (hb.trans hext.length_le)
        (Denotes.of_extends hext hrest)
      refine ⟨(s.1,⟨input.type,r.2⟩::s.2),?_,hext.trans hext',fun h' hh => ?_⟩
      · rw [renderInputs,hr]
        simp only [andThen,hs]
      · rw [Denotes,forall₂_cons,StringKeyed,forall_mem_cons,hnew h' (hext'.trans hh)]
        exact and_congr (and_iff_right htype) (hnew' h' hh)

/-- Each result has the shape of the template with all placeholders replaced once, in new objects,
exactly if all nested maps are `map[string]any`; all objects that there were before are as they
were. -/
theorem applyAll_results (tmpl : Template) (hfuel : Fueled n shapes) (calls : List Vars)
    {h : ConfigHeap β} (hd : Denotes (· < h.length) h Leaf.stored tmpl.inputs shapes) :
    ∃ h' results, applyAll env n tmpl h calls=some (h',results) ∧ h <+: h' ∧
      Denotes (· < h.length) h' Leaf.stored tmpl.inputs shapes ∧
      List.Forall₂ (fun vars result => ∃ inputs, result=.ok inputs ∧
        (Denotes (h.length ≤ ·) h' (Leaf.rendered (chosen tmpl.varDefs vars)) inputs shapes ↔
          StringKeyed shapes)) calls results := by
  -- the calls go on in the heap that the ones before have left
  have hrun : ∀ heap : ConfigHeap β, h <+: heap → ∃ h' results,
      applyAll env n tmpl heap calls=some (h',results) ∧ heap <+: h' ∧
      List.Forall₂ (fun vars result => ∃ inputs, result=.ok inputs ∧
        (Denotes (h.length ≤ ·) h' (Leaf.rendered (chosen tmpl.varDefs vars)) inputs shapes ↔
          StringKeyed shapes)) calls results := by
    induction calls with
    | nil => exact fun heap _ => ⟨heap,[],rfl,prefix_rfl,.nil⟩
    | cons vars calls ih =>
      intro heap hheap
      obtain ⟨s,hs,hext,hnew⟩ := renderInputs_ok (resolveVars tmpl.varDefs vars) hfuel
        hheap.length_le (hd.of_extends hheap)
      rw [dataOf_resolveVars] at hnew
      obtain ⟨h',results,hrun,hext',hresults⟩ := ih s.1 (hheap.trans hext)
      refine ⟨h',.ok s.2::results,?_,hext.trans hext',.cons ⟨s.2,rfl,hnew h' hext'⟩ hresults⟩
      rw [applyAll,apply,hs,bind_some]
      simp [hrun]
  obtain ⟨h',results,hrun,hext,hresults⟩ := hrun h prefix_rfl
  exact ⟨h',results,hrun,hext,hd.of_extends hext,hresults⟩

end Apply

/-! Two calls for a template with one string, the second one with a value that looks like a
placeholder itself. -/

def asciiTables : Tables := ⟨Char.isAlpha,Char.isDigit,fun _ _ => rfl,fun _ _ => rfl⟩
def asciiEnv : Env := ⟨asciiTables,fun s _ => .ok s,id⟩

def logPath : Placeholder asciiTables where
  before := []
  name := "log_path".toList
  after := [' ']
  before_spaces := nofun
  after_spaces := all_eq_true.mp (by decide)
  name_chars := all_eq_true.mp (by decide)
  name_start := ⟨'l',_,rfl,rfl⟩

def logFile : PlainString asciiTables := .field [] (by decide) logPath (.text ".1".toList (by decide))
def tailHeap : ConfigHeap Nat :=
  [.list [.scalar (.str logFile.source)],
    .map [(.str "files",.list (some 0)),(.str "max",.scalar (.other 7))]]
def tailShapes : List (String × List (MapKey Nat × Shape asciiTables Nat)) :=
  [("tail",[(.str "files",.list [.leaf (.plain logFile)]),(.str "max",.leaf (.other 7))])]
def tailTemplate : Template where
  varDefs := SortedMap.empty.insert "log_path" ⟨"/var/log/access.log".toList⟩
  inputs := [⟨"tail",some 1⟩]
def tailCalls : List Vars := [.empty,SortedMap.empty.insert "log_path" logFile.source]

theorem denotes_tail :
    Denotes (· < tailHeap.length) tailHeap Leaf.stored tailTemplate.inputs tailShapes := by
  refine .cons ⟨rfl,?_⟩ .nil
  simp [RepTree,RepEntries,RepList,ValueTree.mapEntries,ValueTree.mapLeaves,ValueTree.mapList,
    tailHeap,Heap.entries,Heap.items,Leaf.stored]

theorem applyAll_results_tail :
    ∃ h' results, applyAll asciiEnv 2 tailTemplate tailHeap tailCalls=some (h',results) ∧
      tailHeap <+: h' ∧ Denotes (· < 2) h' Leaf.stored tailTemplate.inputs tailShapes ∧
      List.Forall₂ (fun vars result => ∃ inputs, result=.ok inputs ∧
        Denotes (2 ≤ ·) h' (Leaf.rendered (chosen tailTemplate.varDefs vars)) inputs tailShapes)
        tailCalls results := by
  have hfuel : Fueled 2 tailShapes := by
    rintro shape hshape
    rw [mem_singleton.mp hshape]
    decide
  have hkeys : StringKeyed tailShapes := by
    rintro shape hshape
    rw [mem_singleton.mp hshape]
    decide
  obtain ⟨h',results,hrun,hext,hd,hresults⟩ :=
    @applyAll_results Nat asciiEnv 2 tailShapes tailTemplate hfuel tailCalls _ denotes_tail
  refine ⟨h',results,hrun,hext,hd,hresults.imp ?_⟩
  rintro vars result ⟨inputs,hok,hres⟩
  exact ⟨inputs,hok,hres.mpr hkeys⟩

/-- A mapping from a port number to a path. -/
def portsHeap : ConfigHeap Nat :=
  [.map [(.other 8080,.scalar (.str logFile.source))],.map [(.str "logs",.map (some 0))]]
def portsShapes : List (String × List (MapKey Nat × Shape asciiTables Nat)) :=
  [("tail",[(.str "logs",.map [(.other 8080,.leaf (.plain logFile))])])]

theorem number_keys_shared :
    ∃ h', applyAll asciiEnv 3 tailTemplate portsHeap [.empty]=some (h',[.ok [⟨"tail",some 2⟩]]) ∧
      h'[2]?=some (.map [(.str "logs",.map (some 0))]) ∧ h'[0]?=portsHeap[0]? ∧
      ¬Denotes (2 ≤ ·) h' (Leaf.rendered (chosen tailTemplate.varDefs .empty)) [⟨"tail",some 2⟩]
        portsShapes := by
  refine ⟨portsHeap++[.map [(.str "logs",.map (some 0))]],rfl,rfl,rfl,?_⟩
  intro hd
  cases hd with
  | cons hi _ =>
    simp [RepTree,RepEntries,ValueTree.mapEntries,ValueTree.mapLeaves,portsHeap,Heap.entries] at hi

end OpsAgent.Templates
