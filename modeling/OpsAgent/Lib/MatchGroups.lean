import Mathlib.Data.List.Basic

/-!
# Filters built from matches
-/

namespace OpsAgent.Lib.MatchGroups
open List

variable {F V : Type*}

structure Filter (F V : Type*) where
  closed : List (List (F × V))
  current : List (F × V)

inductive Call (F V : Type*) where
  | addMatch (m : F × V)
  | addDisjunction

namespace Filter

def empty : Filter F V := ⟨[],[]⟩
def apply (f : Filter F V) : Call F V → Filter F V
  | .addMatch m => {f with current := f.current++[m]}
  | .addDisjunction => ⟨f.closed++[f.current],[]⟩
def build (calls : List (Call F V)) : Filter F V := calls.foldl apply empty
def groups (f : Filter F V) : List (List (F × V)) :=
  (f.closed++[f.current]).filter (!·.isEmpty)

theorem foldl_addMatch (f : Filter F V) (ms : List (F × V)) :
    (ms.map Call.addMatch).foldl apply f = {f with current := f.current++ms} := by
  induction ms generalizing f with
  | nil => simp
  | cons m ms ih =>
    simp only [map_cons,foldl_cons,ih]
    simp [apply]

theorem build_disjunction (ms ns : List (F × V)) :
    build (ms.map Call.addMatch++Call.addDisjunction::ns.map Call.addMatch) = ⟨[ms],ns⟩ := by
  simp only [build,foldl_append,foldl_cons,foldl_addMatch]
  simp [apply,empty]

variable [DecidableEq F]

/- `has` says which values the fields of an entry have. -/
def groupAccepts (has : F → V → Bool) (g : List (F × V)) : Bool :=
  g.all fun m => g.any fun m' => decide (m'.1=m.1)&&has m'.1 m'.2
def accepts (f : Filter F V) (has : F → V → Bool) : Bool :=
  f.groups.isEmpty||f.groups.any (groupAccepts has)

theorem groupAccepts_field (has : F → V → Bool) (field : F) (vs : List V) (hne : vs≠[]) :
    groupAccepts has (vs.map (field,·))=vs.any (has field) := by
  have hinner : (vs.map (field,·)).any (fun m' => decide (m'.1=field)&&has m'.1 m'.2) =
      vs.any (has field) := by
    rw [any_map]
    simp [Function.comp_def]
  have hconst : groupAccepts has (vs.map (field,·))=vs.all fun _ => vs.any (has field) := by
    rw [groupAccepts,all_map]
    simp only [Function.comp_def,hinner]
  rw [hconst]
  cases hany : vs.any (has field) with
  | true => simp
  | false => simpa using exists_mem_of_ne_nil vs hne

theorem accepts_two (has : F → V → Bool) (field field' : F) (vs ws : List V) (hne : ws≠[]) :
    accepts ⟨[vs.map (field,·)],ws.map (field',·)⟩ has = (vs.any (has field)||ws.any (has field')) := by
  have hlast:=groupAccepts_field has field' ws hne
  cases vs with
  | nil =>
    have hgroups : groups ⟨[([] : List V).map (field,·)],ws.map (field',·)⟩ =
        [ws.map (field',·)] := by simp [groups,hne]
    rw [accepts,hgroups,← hlast]
    simp
  | cons v vs =>
    have hfirst:=groupAccepts_field has field (v::vs) (cons_ne_nil v vs)
    have hgroups : groups ⟨[(v::vs).map (field,·)],ws.map (field',·)⟩ =
        [(v::vs).map (field,·),ws.map (field',·)] := by simp [groups,hne]
    rw [accepts,hgroups,← hfirst,← hlast]
    simp

end Filter

end OpsAgent.Lib.MatchGroups
