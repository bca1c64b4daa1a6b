import OpsAgent.Checker.Executor
import OpsAgent.Lib.LineScanner

/-!
# The check of the ssh daemon's settings (`checker/network/ssh_config.go`)

`file` is the content of `/etc/ssh/sshd_config` or the error of opening or reading it, and `lower` is
`strings.ToLower`. What the daemon does with the same content follows its manual.
-/

namespace OpsAgent.Checker
open Lib.GoStrings Lib.LineScanner List

def blank : UInt8 := 32

/-- A text before its first byte with `p`, that byte and the rest. -/
def cutAt (p : UInt8 → Bool) : GoString → Option (GoString × UInt8 × GoString)
  | [] => none
  | b::s => if p b then some ([],b,s) else (cutAt p s).map fun (word,x,rest) => (b::word,x,rest)

/-- One round of the loop; `none` is a `continue`. -/
def setting (line : GoString) : Option (GoString × GoString) :=
  let line:=trimSpaces line
  if line=[]||hasPrefix line (utf8 "#") then none
  else (cutAt (· == blank) line).map fun (keyword,_,rest) => (keyword,trimSpaces rest)

end OpsAgent.Checker
