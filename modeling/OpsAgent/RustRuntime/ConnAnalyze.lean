import OpsAgent.Lib.RustText

/-!
# Reading the socket tables (`rust-runtime/src/handlers/conn_analyze.rs`)

The kernel writes an IPv4 address as one hexadecimal number, its first byte in the lowest digits.
-/

namespace OpsAgent.RustRuntime
open Lib.RustText List
open Lib.GoStrings (whiteSpace)

def tcpStateMap : List (Nat × String) :=
  [(0x01,"ESTABLISHED"),(0x02,"SYN_SENT"),(0x03,"SYN_RECV"),(0x04,"FIN_WAIT1"),
   (0x05,"FIN_WAIT2"),(0x06,"TIME_WAIT"),(0x07,"CLOSE"),(0x08,"CLOSE_WAIT"),
   (0x09,"LAST_ACK"),(0x0A,"LISTEN"),(0x0B,"CLOSING")]
def tcpStateName (code : Nat) : String :=
  ((tcpStateMap.find? fun e => e.1 == code).map (·.2)).getD "UNKNOWN"
def byteLen (text : List Char) : Nat := (text.map Char.utf8Size).sum

/-- The text cut after `n` bytes, `none` where the cut is inside a character or after the end. -/
def cut : Nat → List Char → Option (List Char × List Char)
  | 0, text => some ([],text)
  | _, [] => none
  | n, c::text =>
    if c.utf8Size≤n then (cut (n-c.utf8Size) text).map fun r => (c::r.1,r.2) else none

/-- `&text[start..stop]`, `none` where Rust panics. -/
def slice (text : List Char) (start stop : Nat) : Option (List Char) :=
  (cut start text).bind fun r => (cut (stop-start) r.2).map (·.1)
def dottedText (b0 b1 b2 b3 : Nat) : String :=
  toString b0++"."++toString b1++"."++toString b2++"."++toString b3

def byteAt (hex : List Char) (start : Nat) : OptionT Option Nat :=
  (slice hex start (start+2)).map (fromStrRadix16 255)

/-- The outer `none` is a panic. -/
def parseHexIp (hex : List Char) : Option (Option String) :=
  if byteLen hex≠8 then some none
  else OptionT.run do
    let b0 ← byteAt hex 6
    let b1 ← byteAt hex 4
    let b2 ← byteAt hex 2
    let b3 ← byteAt hex 0
    return dottedText b0 b1 b2 b3

def parseHexPort (hex : List Char) : Option Nat := fromStrRadix16 65535 hex

structure Connection where
  (protocol state localAddr : String)
  localPort : Nat
  remoteAddr : String
  remotePort : Nat
  deriving DecidableEq

/-- One round of the loop of `parse_proc_net`; the inner `none` is a `continue`. -/
def parseLine (protocol : String) (line : List Char) : Option (Option Connection) :=
  match splitWhitespace line with
  | _::localField::remoteField::state::_ =>
    match split ':' localField, split ':' remoteField with
    | [localAddr,localPort], [remoteAddr,remotePort] => do
      let localIp ← parseHexIp localAddr
      let remoteIp ← parseHexIp remoteAddr
      some (some
        { protocol := protocol
          state := tcpStateName ((fromStrRadix16 255 state).getD 0)
          localAddr := localIp.getD ""
          localPort := (parseHexPort localPort).getD 0
          remoteAddr := remoteIp.getD ""
          remotePort := (parseHexPort remotePort).getD 0})
    | _, _ => some none
  | _ => some none

def parseProcNet (content : List Char) (protocol : String) : Option (List Connection) :=
  ((lines content).tail.mapM (parseLine protocol)).map (filterMap id)

structure Ipv4 where
  (a b c d : UInt8)

def Ipv4.word (ip : Ipv4) : Nat :=
  ip.a.toNat+256*ip.b.toNat+65536*ip.c.toNat+16777216*ip.d.toNat
def Ipv4.dotted (ip : Ipv4) : String := dottedText ip.a.toNat ip.b.toNat ip.c.toNat ip.d.toNat

structure Socket where
  localAddr : Ipv4
  localPort : UInt16
  remoteAddr : Ipv4
  remotePort : UInt16
  state : UInt8

/-- `%08X:%04X` -/
def endpoint (ip : Ipv4) (port : UInt16) : List Char :=
  hexField 8 ip.word ++ ':' :: hexField 4 port.toNat

structure Row where
  slot : Nat
  socket : Socket
  rest : List Char
  one_line : '\n' ∉ rest

/-- `%4d: %08X:%04X %08X:%04X %02X `, with the width of the first column. -/
def Row.start (width : Nat) (r : Row) : List Char :=
  (Nat.toDigits 10 r.slot).leftpad width ' ' ++ [':', ' '] ++
    endpoint r.socket.localAddr r.socket.localPort ++ ' ' ::
    (endpoint r.socket.remoteAddr r.socket.remotePort ++ ' ' ::
    (hexField 2 r.socket.state.toNat++[' ']))

def procNet (width : Nat) (header : List Char) (rows : List Row) : List Char :=
  header ++ '\n' :: rows.flatMap fun r => r.start width++r.rest++['\n']

def Socket.connection (protocol : String) (s : Socket) : Connection :=
  { protocol := protocol
    state := tcpStateName s.state.toNat
    localAddr := s.localAddr.dotted
    localPort := s.localPort.toNat
    remoteAddr := s.remoteAddr.dotted
    remotePort := s.remotePort.toNat}

theorem byteLen_hexField (w n : Nat) : byteLen (hexField w n)=w := by
  have hone : ∀ c∈hexField w n, c.utf8Size=1 := by
    intro c hc
    have hall : ("0123456789ABCDEF".toList.all fun c => c.utf8Size == 1) := by decide
    exact eq_of_beq (all_eq_true.mp hall c (mem_hexField hc))
  rw [byteLen,map_congr_left hone,map_const',sum_replicate_nat,length_hexField,Nat.mul_one]

variable (ip : Ipv4)

theorem hexField_word : hexField 8 ip.word=hexField 2 ip.d.toNat++(hexField 2 ip.c.toNat ++
      (hexField 2 ip.b.toNat++hexField 2 ip.a.toNat)) := by
  have ha:=ip.a.toNat_lt
  have hb:=ip.b.toNat_lt
  have hc:=ip.c.toNat_lt
  have hd:=ip.d.toNat_lt
  have h6:=hexField_append 2 6 ip.word
  have h4:=hexField_append 2 4 (ip.word % 16^6)
  have h2:=hexField_append 2 2 (ip.word % 16^6 % 16^4)
  have e6 : ip.word / 16^6=ip.d.toNat := by unfold Ipv4.word; omega
  have e4 : ip.word % 16^6 / 16^4=ip.c.toNat := by unfold Ipv4.word; omega
  have e2 : ip.word % 16^6 % 16^4 / 16^2=ip.b.toNat := by unfold Ipv4.word; omega
  have e0 : ip.word % 16^6 % 16^4 % 16^2=ip.a.toNat := by unfold Ipv4.word; omega
  rw [e6] at h6
  rw [e4] at h4
  rw [e2,e0] at h2
  rw [show 8=2+6 from rfl,h6,show 6=2+4 from rfl,h4,show 4=2+2 from rfl,h2]

variable (port : UInt16)
  (width : Nat) (protocol : String) (r : Row)

theorem fromStrRadix16_byte (b : UInt8) : fromStrRadix16 255 (hexField 2 b.toNat)=some b.toNat := by
  have hb:=b.toNat_lt
  exact fromStrRadix16_hexField (by decide) (by omega) (by omega)
theorem parseHexPort_field : parseHexPort (hexField 4 port.toNat)=some port.toNat := by
  have hp:=port.toNat_lt
  exact fromStrRadix16_hexField (by decide) (by omega) (by omega)
theorem cut_append (p text : List Char) : cut (byteLen p) (p++text)=some (p,text) := by
  induction p with
  | nil => cases text <;> rfl
  | cons c p ih =>
    have hpos:=c.utf8Size_pos
    have hlen : byteLen (c::p)=c.utf8Size+byteLen p := rfl
    rw [hlen,cons_append,cut,if_pos (Nat.le_add_right ..),Nat.add_sub_cancel_left,ih]
    · rfl
    · omega

theorem byteLen_append (p q : List Char) : byteLen (p++q)=byteLen p+byteLen q := by
  simp [byteLen]

theorem byteAt_middle {p r w : List Char} {b : UInt8} {start : Nat}
    (hw : p++(hexField 2 b.toNat++r)=w) (hp : byteLen p=start) : byteAt w start=some (some b.toNat) := by
  subst hw hp
  have hq:=cut_append (hexField 2 b.toNat) r
  rw [byteLen_hexField] at hq
  rw [byteAt,slice,cut_append,Option.bind_some,Nat.add_sub_cancel_left,hq,Option.map_some,
    Option.map_some,fromStrRadix16_byte]

theorem parseHexIp_word : parseHexIp (hexField 8 ip.word)=some (some ip.dotted) := by
  rw [parseHexIp,if_neg (by rw [byteLen_hexField]; decide),hexField_word]
  generalize hw : hexField 2 ip.d.toNat++(hexField 2 ip.c.toNat++(hexField 2 ip.b.toNat ++
    hexField 2 ip.a.toNat))=w
  have h0 : byteAt w 6=some (some ip.a.toNat) :=
    byteAt_middle (p := hexField 2 ip.d.toNat++(hexField 2 ip.c.toNat++hexField 2 ip.b.toNat)) (r := [])
      (by simp [← hw]) (by simp only [byteLen_append,byteLen_hexField])
  have h1 : byteAt w 4=some (some ip.b.toNat) :=
    byteAt_middle (p := hexField 2 ip.d.toNat++hexField 2 ip.c.toNat) (r := hexField 2 ip.a.toNat)
      (by simp [← hw]) (by simp only [byteLen_append,byteLen_hexField])
  have h2 : byteAt w 2=some (some ip.c.toNat) := byteAt_middle hw (byteLen_hexField 2 _)
  have h3 : byteAt w 0=some (some ip.d.toNat) := byteAt_middle (p := []) hw rfl
  rw [h0,h1,h2,h3]
  rfl

theorem not_blank_of_hex {c : Char} (h : c ∈ "0123456789ABCDEF".toList) :
    whiteSpace.contains c=false := by
  have hall : ("0123456789ABCDEF".toList.all fun c => !whiteSpace.contains c)=true := by
    decide
  simpa using all_eq_true.mp hall c h

theorem endpoint_field :
    endpoint ip port≠[] ∧ ∀ c∈endpoint ip port, whiteSpace.contains c=false := by
  refine ⟨fun h => ?_,?_⟩
  · exact absurd (append_eq_nil_iff.mp h).2 (cons_ne_nil _ _)
  · intro c hc
    rcases mem_append.mp hc with hc | hc
    · exact not_blank_of_hex (mem_hexField hc)
    · rcases mem_cons.mp hc with rfl | hc
      · decide
      · exact not_blank_of_hex (mem_hexField hc)

theorem split_endpoint : split ':' (endpoint ip port)=[hexField 8 ip.word,hexField 4 port.toNat] := by
  have hno : ∀ w n, ':' ∉ hexField w n := by
    intro w n h
    exact absurd (mem_hexField h) (by decide)
  exact split_pair (hno 8 _) (hno 4 _)

theorem splitWhitespace_blanks (k : Nat) (text : List Char) :
    splitWhitespace (replicate k ' ' ++ text)=splitWhitespace text := by
  induction k with
  | zero => rfl
  | succ k ih =>
    rw [replicate_succ,cons_append,splitWhitespace_blank (by decide),ih]

theorem digits_field (n : Nat) : ∀ c∈Nat.toDigits 10 n++[':'], whiteSpace.contains c=false := by
  intro c hc
  rcases mem_append.mp hc with hc | hc
  · rw [← Bool.not_eq_true,contains_iff_mem]
    intro hmem
    have hdigit : c.isDigit := Nat.isDigit_of_mem_toDigits (by decide) (by decide) hc
    have hall : (whiteSpace.all fun c => !c.isDigit)=true := by decide
    have hblank:=all_eq_true.mp hall c hmem
    rw [hdigit] at hblank
    cases hblank
  · rw [mem_singleton.mp hc]
    decide

theorem row_fields (rest : List Char) : splitWhitespace (r.start width++rest) =
      (Nat.toDigits 10 r.slot++[':'])::endpoint r.socket.localAddr r.socket.localPort ::
        endpoint r.socket.remoteAddr r.socket.remotePort::hexField 2 r.socket.state.toNat ::
          splitWhitespace rest := by
  obtain ⟨hlne,hl⟩ := endpoint_field r.socket.localAddr r.socket.localPort
  obtain ⟨hrne,hr⟩ := endpoint_field r.socket.remoteAddr r.socket.remotePort
  have hs : hexField 2 r.socket.state.toNat≠[] := by
    intro hnil
    have hlen:=length_hexField 2 r.socket.state.toNat
    rw [hnil] at hlen
    cases hlen
  have htext : r.start width++rest =
      replicate (width-(Nat.toDigits 10 r.slot).length) ' ' ++
        ((Nat.toDigits 10 r.slot++[':']) ++ ' ' ::
          (endpoint r.socket.localAddr r.socket.localPort ++ ' ' ::
            (endpoint r.socket.remoteAddr r.socket.remotePort ++ ' ' ::
              (hexField 2 r.socket.state.toNat ++ ' ' :: rest)))) := by simp [Row.start,leftpad]
  have hblank : whiteSpace.contains ' ' = true := by decide
  rw [htext,splitWhitespace_blanks,splitWhitespace_field (by simp) (digits_field r.slot) hblank,
    splitWhitespace_field hlne hl hblank,splitWhitespace_field hrne hr hblank,
    splitWhitespace_field hs (fun c hc => not_blank_of_hex (mem_hexField hc)) hblank]

theorem parseLine_row (width : Nat) (r : Row) (rest : List Char) :
    parseLine protocol (r.start width++rest)=some (some (r.socket.connection protocol)) := by
  rw [parseLine,row_fields]
  simp only [split_endpoint,fromStrRadix16_byte,parseHexIp_word,parseHexPort_field,Option.getD_some]
  rfl

theorem start_one_line : '\n' ∉ r.start width := by
  have hbreak : whiteSpace.contains '\n' = true := by decide
  have hfield : ∀ {s : List Char}, (∀ c∈s, whiteSpace.contains c=false) → '\n' ∉ s := by
    intro s hs hmem
    rw [hs '\n' hmem] at hbreak
    cases hbreak
  have hdigits : '\n' ∉ Nat.toDigits 10 r.slot :=
    hfield fun c hc => digits_field r.slot c (mem_append_left _ hc)
  have hstate : '\n' ∉ hexField 2 r.socket.state.toNat :=
    hfield fun c hc => not_blank_of_hex (mem_hexField hc)
  simp [Row.start,hdigits,hstate,hfield (endpoint_field r.socket.localAddr r.socket.localPort).2,
    hfield (endpoint_field r.socket.remoteAddr r.socket.remotePort).2]

theorem mapM_rows (width : Nat) (rows : List Row) :
    (lines (rows.flatMap fun r => r.start width++r.rest++['\n'])).mapM (parseLine protocol) =
      some (rows.map fun r => some (r.socket.connection protocol)) := by
  induction rows with
  | nil => rfl
  | cons r rows ih =>
    have hline : '\n' ∉ r.start width++r.rest := by
      rw [mem_append,not_or]
      exact ⟨start_one_line width r,r.one_line⟩
    have hlast : (r.start width).getLast? ≠ some '\r' := by
      simp [Row.start,getLast?_append,getLast?_cons]
    obtain ⟨rest,hrest⟩ := stripCr_append (r.start width) r.rest hlast
    rw [flatMap_cons,append_assoc,singleton_append,lines_line hline,hrest,mapM_cons,parseLine_row,ih]
    rfl

/-- The table of any sockets is read back, in order, with addresses, ports and states. -/
theorem parseProcNet_procNet (protocol : String) (width : Nat) (header : List Char)
    (hheader : '\n' ∉ header) (rows : List Row) : parseProcNet (procNet width header rows) protocol =
      some (rows.map fun r => r.socket.connection protocol) := by
  rw [parseProcNet,procNet,lines_line hheader,tail_cons,mapM_rows,Option.map_some]
  simp

def sshSocket : Socket := ⟨⟨127,0,0,1⟩,22,⟨192,168,1,20⟩,51234,0x01⟩
def listener : Socket := ⟨⟨0,0,0,0⟩,8080,⟨0,0,0,0⟩,0,0x0A⟩

theorem parseProcNet_ssh : parseProcNet (procNet 4 "  sl  local_address rem_address   st".toList
        [⟨0,sshSocket,"00000000:00000000".toList,by decide⟩,⟨1,listener,[],by decide⟩]) "tcp" =
      some [⟨"tcp","ESTABLISHED","127.0.0.1",22,"192.168.1.20",51234⟩,
        ⟨"tcp","LISTEN","0.0.0.0",8080,"0.0.0.0",0⟩] :=
  (parseProcNet_procNet "tcp" 4 "  sl  local_address rem_address   st".toList (by decide)
    [⟨0,sshSocket,"00000000:00000000".toList,by decide⟩,⟨1,listener,[],by decide⟩]).trans (by decide)

end OpsAgent.RustRuntime
