import Mathlib.Data.List.Infix

/-!
# Reading an append-only log

A reader of a log sees the entries that satisfy a filter, from some position on, in order
and each with its position; a bounded reader takes the first `n` of them.
-/

namespace OpsAgent.Lib.LogReader
open List

variable {α : Type*} {p : α → Bool}

def following (p : α → Bool) (s : Nat) (log : List α) : List (α × Nat) :=
  log.zipIdx.filter fun x => p x.1&&decide (s≤x.2)

variable {log : List α} {s n : Nat} {e : α}

end OpsAgent.Lib.LogReader
