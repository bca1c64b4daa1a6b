import Mathlib.Logic.Function.Basic

/-!
# Files by path

A store has at most one file at each path.
-/

namespace OpsAgent.Lib.FileStore

variable {π : Type*} [DecidableEq π] {δ : Type*}

abbrev Files (π δ : Type*) := π → Option δ

def write (fs : Files π δ) (p : π) (d : δ) : Files π δ := Function.update fs p (some d)
def remove (fs : Files π δ) (p : π) : Files π δ := Function.update fs p none
def create (fs : Files π δ) (p : π) (d : δ) : Option (Files π δ) :=
  match fs p with
  | some _ => none
  | none => some (write fs p d)
def rename (fs : Files π δ) (p q : π) : Option (Files π δ) :=
  match fs p with
  | none => none
  | some d => some (write (remove fs p) q d)

variable (fs : Files π δ) {p q : π}

theorem write_self (p : π) (d : δ) : write fs p d p=some d :=
  Function.update_self p _ fs
theorem write_of_ne (h : q≠p) (fs : Files π δ) (d : δ) : write fs p d q=fs q :=
  Function.update_of_ne h _ fs
theorem remove_self (p : π) : remove fs p p=none :=
  Function.update_self p _ fs
theorem remove_of_ne (h : q≠p) (fs : Files π δ) : remove fs p q=fs q :=
  Function.update_of_ne h _ fs

theorem remove_write {fs : Files π δ} {p : π} (h : fs p=none) (d : δ) : remove (write fs p d) p=fs := by
  funext q
  by_cases hq : q=p
  · rw [hq,remove_self,h]
  · rw [remove_of_ne hq,write_of_ne hq]

theorem write_write (p : π) (d e : δ) : write (write fs p d) p e=write fs p e :=
  Function.update_idem _ _ fs

end OpsAgent.Lib.FileStore
