import Mathlib.Data.List.Basic

/-!
# Go values and `reflect.DeepEqual`

`Val` is what an `any` can hold after a document has been decoded. Maps are listed in key order;
slices and maps that may be `nil` are options.
-/

namespace OpsAgent.Lib.GoValue

structure Float64 where
  bits : BitVec 64
  deriving DecidableEq

structure Float32 where
  bits : BitVec 32
  deriving DecidableEq

namespace Float64

def isNaN (x : Float64) : Bool :=
  x.bits.extractLsb' 52 11 == 0x7ff#11&&x.bits.extractLsb' 0 52 != 0#52
def isZero (x : Float64) : Bool := x.bits.extractLsb' 0 63 == 0#63

/-- The operator `==` on `float64`. -/
def eq (x y : Float64) : Bool :=
  !x.isNaN&&!y.isNaN&&(x == y||x.isZero&&y.isZero)

theorem eq_self (x : Float64) : x.eq x = !x.isNaN := by cases h : x.isNaN <;> simp [eq,h]

end Float64

inductive Val where
  | null
  | bool (b : Bool)
  | int (n : Int)
  | float (x : Float64)
  | str (s : String)
  | seq (xs : List Val)
  | map (entries : List (String × Val))
  deriving Inhabited

namespace Val

/-- The verb `%T` of `fmt`. -/
def typeName : Val → String
  | .null => "<nil>"
  | .bool _ => "bool"
  | .int _ => "int"
  | .float _ => "float64"
  | .str _ => "string"
  | .seq _ => "[]interface \x7b\x7d"
  | .map _ => "map[string]interface \x7b\x7d"

mutual

def deepEqual : Val → Val → Bool
  | .null, .null => true
  | .bool a, .bool b => a == b
  | .int a, .int b => a == b
  | .float a, .float b => a.eq b
  | .str a, .str b => a == b
  | .seq xs, .seq ys => deepEqualList xs ys
  | .map xs, .map ys => deepEqualEntries xs ys
  | _, _ => false

def deepEqualList : List Val → List Val → Bool
  | [], [] => true
  | x::xs, y::ys => deepEqual x y&&deepEqualList xs ys
  | _, _ => false
def deepEqualEntries : List (String × Val) → List (String × Val) → Bool
  | [], [] => true
  | (k,x)::xs, (l,y)::ys => k == l&&deepEqual x y&&deepEqualEntries xs ys
  | _, _ => false

end

mutual

def nanFree : Val → Bool
  | .float x => !x.isNaN
  | .seq xs => nanFreeList xs
  | .map entries => nanFreeEntries entries
  | _ => true

def nanFreeList : List Val → Bool
  | [] => true
  | x::xs => nanFree x&&nanFreeList xs
def nanFreeEntries : List (String × Val) → Bool
  | [] => true
  | (_,x)::xs => nanFree x&&nanFreeEntries xs

end

mutual

theorem deepEqual_self (v : Val) : v.deepEqual v=v.nanFree := by
  cases v with
  | null => rfl
  | bool b | int n | str s => simp [deepEqual,nanFree]
  | float x => simp [deepEqual,nanFree,Float64.eq_self]
  | seq xs => simpa only [deepEqual,nanFree] using deepEqualList_self xs
  | map entries => simpa only [deepEqual,nanFree] using deepEqualEntries_self entries

theorem deepEqualList_self (xs : List Val) : deepEqualList xs xs=nanFreeList xs := by
  cases xs with
  | nil => rfl
  | cons x xs => simp only [deepEqualList,nanFreeList,deepEqual_self x,deepEqualList_self xs]

theorem deepEqualEntries_self (xs : List (String × Val)) : deepEqualEntries xs xs=nanFreeEntries xs := by
  cases xs with
  | nil => rfl
  | cons e xs =>
    simp [deepEqualEntries,nanFreeEntries,deepEqual_self e.2,deepEqualEntries_self xs]

end

end Val

variable {α : Type*}
  {p : α → Bool} {eq : α → α → Bool}

def sliceEqual (eq : α → α → Bool) : Option (List α) → Option (List α) → Bool
  | none, none => true
  | some xs, some ys => xs.isEqv ys eq
  | _, _ => false
def mapEqual (eq : α → α → Bool) (m n : Option (List (String × α))) : Bool :=
  sliceEqual (fun x y => x.1 == y.1&&eq x.2 y.2) m n
def sliceAll (p : α → Bool) (xs : Option (List α)) : Bool := (xs.getD []).all p
def mapAll (p : α → Bool) (m : Option (List (String × α))) : Bool := sliceAll (fun x => p x.2) m

theorem isEqv_self (eq : α → α → Bool) (xs : List α) : xs.isEqv xs eq=xs.all fun x => eq x x := by
  induction xs with
  | nil => rfl
  | cons x xs ih => simp [List.isEqv,ih]

theorem sliceEqual_self (h : ∀ x, eq x x=p x)
    (xs : Option (List α)) : sliceEqual eq xs xs=sliceAll p xs := by
  cases xs with
  | none => rfl
  | some xs => simp [sliceEqual,sliceAll,isEqv_self,h]

theorem mapEqual_self (h : ∀ x, eq x x=p x)
    (m : Option (List (String × α))) : mapEqual eq m m=mapAll p m :=
  sliceEqual_self (fun x => by simp only [beq_self_eq_true,h,Bool.true_and]) m

end OpsAgent.Lib.GoValue
