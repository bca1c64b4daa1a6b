import OpsAgent.Lib.GoStrings

/-!
# Byte slices in memory

A slice that is made has a number of its own. Filling one changes its first bytes and
no other slice.
-/

namespace OpsAgent.Lib.ByteMemory
open Lib.GoStrings List

abbrev Memory := List GoString

def read (m : Memory) (a : Nat) : GoString := m.getD a []

/-- `make([]byte, n)` -/
def make (m : Memory) (n : Nat) : Memory × Nat := (m++[replicate n 0],m.length)
def fill (m : Memory) (a : Nat) (data : GoString) : Memory :=
  m.modify a fun old => data.take old.length++old.drop data.length

theorem length_make (m : Memory) (n : Nat) : (make m n).1.length=m.length+1 := by simp [make]
theorem length_fill (m : Memory) (a : Nat) (data : GoString) : (fill m a data).length=m.length := by
  simp [fill]

variable {m : Memory} {a : Nat}

theorem read_make_of_lt (h : a < m.length) (n : Nat) :
    read (make m n).1 a=read m a := by simp [read,make,getElem?_append_left h]
theorem read_make_self (m : Memory) (n : Nat) : read (make m n).1 m.length=replicate n 0 := by
  simp [read,make]
theorem read_fill_of_ne {b : Nat} (h : b≠a) (data : GoString) :
    read (fill m a data) b=read m b := by simp [read,fill,Ne.symm h]
theorem read_fill (h : a < m.length) (data : GoString) :
    read (fill m a data) a=data.take (read m a).length++(read m a).drop data.length := by
  simp [read,fill,h]
theorem read_fill_self (h : a < m.length) {data : GoString}
    (hlen : data.length=(read m a).length) : read (fill m a data) a=data := by
  rw [read_fill h,hlen,drop_length,append_nil,← hlen,take_length]

end OpsAgent.Lib.ByteMemory
