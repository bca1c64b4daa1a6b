import OpsAgent.Lib.Atoi

/-!
# IP addresses as text (`net.ParseIP`, `net.ParseCIDR`)
-/

namespace OpsAgent.Lib.IpAddr
open Lib.GoStrings
open Lib.Atoi (isDigit)

def isHex (c : UInt8) : Bool :=
  isDigit c||(0x61≤c&&c≤0x66)||(0x41≤c&&c≤0x46)
def decimalValue (ds : GoString) : Nat := ds.foldl (fun n c => n*10+(c.toNat-0x30)) 0
def isOctet (f : GoString) : Bool :=
  f≠[]&&f.all isDigit&&(f.length == 1||f.head? != some 0x30)&&decimalValue f≤255
def isIPv4 (s : GoString) : Bool :=
  let fields:=s.splitOn 0x2e
  fields.length == 4&&fields.all isOctet

def groups : Nat → Nat → Bool → GoString → Bool
  | 0, _, _, _ => false
  | fuel+1, i, ellipsis, s =>
    let digits:=s.takeWhile isHex
    let rest:=s.dropWhile isHex
    if digits=[]||digits.length > 4 then false
    else match rest with
      | [] => i+2 == 16&&!ellipsis||i+2<16&&ellipsis
      -- an embedded IPv4 address
      | 0x2e::_ => (ellipsis||i == 12)&&i+4≤16&&isIPv4 s&&(i+4 == 16) != ellipsis
      | [0x3a,0x3a] => !ellipsis&&i+2<16
      | 0x3a::0x3a::more => !ellipsis&&groups fuel (i+2) true more
      | 0x3a::c::more => groups fuel (i+2) ellipsis (c::more)
      | _ => false

def isIPv6 (s : GoString) : Bool :=
  match s with
  | [0x3a,0x3a] => true
  | 0x3a::0x3a::more => groups 8 0 true more
  | _ => groups 8 0 false s

/-- `netip.ParseAddr` without a zone: the number of bits of the address. -/
def parseAddr (s : GoString) : Option Nat :=
  match s.find? fun c => c == 0x2e||c == 0x3a||c == 0x25 with
  | some 0x2e => if isIPv4 s then some 32 else none
  | some 0x3a => if isIPv6 s then some 128 else none
  | _ => none

/-- `net.ParseIP(s) != nil` -/
def parseIP (s : GoString) : Bool := (parseAddr s).isSome

/-- `net.ParseCIDR` does not return an error. -/
def parseCIDR (s : GoString) : Bool :=
  match s.dropWhile (· != 0x2f) with
  | [] => false
  | _::mask => (parseAddr (s.takeWhile (· != 0x2f))).any fun bits =>
      mask≠[]&&mask.all isDigit&&decimalValue mask≤bits

example : parseIP (utf8 "10.0.0.1") ∧ parseIP (utf8 "10.0.0.01")=false ∧
    parseIP (utf8 "2001:db8::1") ∧ parseIP (utf8 "::ffff:10.0.0.1") ∧
    parseIP (utf8 "1:2:3:4:5:6:7::") ∧ parseIP (utf8 "1:2:3:4:5:6:7:8::")=false ∧
    parseIP (utf8 "fe80::1%eth0")=false := by decide

end OpsAgent.Lib.IpAddr
