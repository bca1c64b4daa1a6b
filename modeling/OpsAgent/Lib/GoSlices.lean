import OpsAgent.Lib.GoStrings

/-!
# Slices of bytes

The slice expressions of Go, which panic if an index is out of range: `none` is a panic.
-/

namespace OpsAgent.Lib.GoSlices
open List
open Lib.GoStrings (GoString)

/- `s[low:]` -/
def sliceFrom (s : GoString) (low : Nat) : Option GoString :=
  if low ≤ s.length then some (s.drop low) else none

/- `s[:high]` -/
def sliceTo (s : GoString) (high : Nat) : Option GoString :=
  if high ≤ s.length then some (s.take high) else none

/- `s[low:high]` -/
def slice (s : GoString) (low high : Nat) : Option GoString :=
  if low≤high ∧ high ≤ s.length then some ((s.take high).drop low) else none

/- `bytes.IndexByte`, where `none` is -1 -/
def indexByte (s : GoString) (c : UInt8) : Option Nat := s.findIdx? (· == c)

theorem indexByte_eq_none {s : GoString} {c : UInt8} (h : c∉s) : indexByte s c=none := by
  rw [indexByte,findIdx?_eq_none_iff]
  intro x hx
  rw [beq_eq_false_iff_ne]
  intro heq
  rw [heq] at hx
  exact h hx

theorem indexByte_append {a : GoString} {c : UInt8} (h : c∉a) (b : GoString) :
    indexByte (a++c::b) c=some a.length := by
  induction a with
  | nil => rw [indexByte,nil_append,findIdx?_cons,beq_self_eq_true,if_pos rfl,length_nil]
  | cons x a ih =>
    have hx : (x == c)=false := by
      rw [beq_eq_false_iff_ne]
      intro heq
      rw [heq] at h
      exact h mem_cons_self
    have htail:=ih fun hc => h (mem_cons_of_mem x hc)
    rw [indexByte] at htail ⊢
    rw [cons_append,findIdx?_cons,hx,htail]
    rfl

theorem indexByte_cases (s : GoString) (c : UInt8) : c∉s ∧ indexByte s c=none ∨
      ∃ a b, s=a++c::b ∧ c∉a ∧ indexByte s c=some a.length := by
  by_cases hc : c∈s
  · obtain ⟨a,b,hs,ha⟩ := eq_append_cons_of_mem hc
    subst hs
    exact .inr ⟨a,b,rfl,ha,indexByte_append ha b⟩
  · exact .inl ⟨hc,indexByte_eq_none hc⟩

theorem sliceTo_append (a b : GoString) : sliceTo (a++b) a.length=some a := by
  rw [sliceTo,if_pos (by simp),take_left]
theorem sliceFrom_append (a : GoString) (c : UInt8) (b : GoString) :
    sliceFrom (a++c::b) (a.length+1)=some b := by
  rw [sliceFrom,if_pos (by simp),← drop_drop,drop_left]
  rfl

end OpsAgent.Lib.GoSlices
