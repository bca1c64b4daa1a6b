import OpsAgent.Lib.GoStrings

/-!
# What may be run in the sandbox (`sandbox/policy.go`)

`ValidateCommand` looks at the command without the white space around it. The case
table of Unicode, `strings.ToLower`, is a parameter of `ValidateScript`.
-/

namespace OpsAgent.Sandbox
open Lib.GoStrings

structure Policy where
  (allowedCommands blockedCommands blockedKeywords allowedInterpreters : List GoString)
  maxScriptBytes : Int
  allowSudo : Bool

inductive PolicyError where
  | commandRequired
  | commandMetacharacters (cmdName : GoString)
  | commandBlocked (cmdName : GoString)
  | commandNotAllowed (cmdName : GoString)
  | argumentMetacharacters (i : Nat) (arg : GoString)
  | sudo | interpreterRequired
  | interpreterNotAllowed (interpreter : GoString)
  | scriptTooLarge (size : Nat) (maxBytes : Int)
  | keywordBlocked (keyword : GoString)

def toSet (items : List GoString) : List GoString := (items.map trimSpaces).filter (· ≠ [])
def shellMetachars : List GoString :=
  [utf8 ";",utf8 "&&",utf8 "||",utf8 "|",utf8 "`",utf8 "$(",utf8 "$\x7b",utf8 ">",utf8 "<",
   utf8 "\n",utf8 "'",utf8 "\"",utf8 "\\",utf8 "*",utf8 "?",utf8 "#",utf8 "~",utf8 "!",
   utf8 "(",utf8 ")",utf8 "[",utf8 "]",utf8 "\x7b",utf8 "\x7d"]
def containsShellMetacharacters (s : GoString) : Bool := shellMetachars.any fun mc => contains s mc

namespace Policy

/-- `none` is the nil error. -/
def validateCommand (p : Policy) (command : GoString) (args : List GoString) : Option PolicyError :=
  let cmdName:=trimSpaces command
  if cmdName=[] then some .commandRequired
  else if containsShellMetacharacters cmdName then some (.commandMetacharacters cmdName)
  else if cmdName∈toSet p.blockedCommands then some (.commandBlocked cmdName)
  else if p.allowedCommands≠[] ∧ cmdName∉toSet p.allowedCommands then
    some (.commandNotAllowed cmdName)
  else match args.zipIdx.find? fun arg => containsShellMetacharacters arg.1 with
    | some arg => some (.argumentMetacharacters arg.2 arg.1)
    | none => if cmdName=utf8 "sudo" ∧ p.allowSudo=false then some .sudo else none

theorem find_argument_eq_none (args : List GoString) :
    (args.zipIdx.find? fun arg => containsShellMetacharacters arg.1)=none ↔
      ∀ arg∈args, containsShellMetacharacters arg=false := by
  rw [List.find?_eq_none]
  constructor
  · intro h arg hmem
    obtain ⟨i,hi⟩ := List.mem_iff_getElem?.mp hmem
    have hat:=h (arg,i) (List.mem_zipIdx_iff_getElem?.mpr hi)
    rwa [Bool.not_eq_true] at hat
  · intro h arg hmem
    rw [Bool.not_eq_true]
    exact h arg.1 (List.mem_of_getElem? (List.mem_zipIdx_iff_getElem?.mp hmem))

theorem validateCommand_eq_none (p : Policy) (command : GoString) (args : List GoString) :
    p.validateCommand command args=none ↔
      trimSpaces command≠[] ∧ containsShellMetacharacters (trimSpaces command)=false ∧
      trimSpaces command∉toSet p.blockedCommands ∧
      (p.allowedCommands≠[] → trimSpaces command∈toSet p.allowedCommands) ∧
      (∀ arg∈args, containsShellMetacharacters arg=false) ∧
      ¬ (trimSpaces command=utf8 "sudo" ∧ p.allowSudo=false) := by
  rw [← find_argument_eq_none]
  unfold validateCommand
  dsimp only
  split
  · simp [*]
  split
  · simp [*]
  split
  · simp [*]
  split
  · rename_i h
    simp [h]
  rename_i hne hmeta hblocked hallowed
  rw [not_and,not_not] at hallowed
  rw [Bool.not_eq_true] at hmeta
  cases args.zipIdx.find? fun arg => containsShellMetacharacters arg.1 with
  | some arg => simp
  | none =>
    simp only [hne,hmeta,hblocked,ne_eq,not_false_eq_true,true_and,ite_eq_right_iff,
      reduceCtorEq,imp_false]
    exact ⟨fun h => ⟨hallowed,h⟩,fun h => h.2⟩

def validateScript (toLower : GoString → GoString) (p : Policy) (interpreter script : GoString) :
    Option PolicyError :=
  let maxBytes := if p.maxScriptBytes≤0 then 1048576 else p.maxScriptBytes
  if interpreter=[] then some .interpreterRequired
  else if p.allowedInterpreters≠[] ∧ interpreter∉toSet p.allowedInterpreters then
    some (.interpreterNotAllowed interpreter)
  else if script.length > maxBytes then some (.scriptTooLarge script.length maxBytes)
  else (p.blockedKeywords.find? fun kw => contains (toLower script) (toLower kw)).map .keywordBlocked

end Policy
end OpsAgent.Sandbox
