import OpsAgent.Lib.LineScanner
import OpsAgent.Lib.RustText

/-!
# Lines of text on a stream of bytes

Lines are sent in UTF-8, each with a line feed after it.
-/

namespace OpsAgent.Lib.TextLines
open List Option
open Lib.GoStrings (GoString)
open Lib.LineScanner (Scan dropCR scanFrom scan)
open Lib.RustText (stripCr)

def encode (s : List Char) : GoString := s.flatMap String.utf8EncodeChar
def frame (lines : List (List Char)) : GoString := lines.flatMap fun line => encode line++[10]
def decode? (bs : GoString) : Option (List Char) := bs.toByteArray.utf8Decode?.map Array.toList

def runesFrom : Nat → GoString → List Char
  | 0, _ => []
  | _, [] => []
  | n+1, b::bs => match (b::bs).toByteArray.utf8DecodeChar? 0 with
    | some c => c::runesFrom n ((b::bs).drop c.utf8Size)
    | none => '\ufffd' :: runesFrom n bs

def runes (bs : GoString) : List Char := runesFrom bs.length bs
def readLines (line : GoString) : GoString → List GoString
  | [] => if line=[] then [] else [line]
  | b::bs => if b=10 then (line++[b])::readLines [] bs else readLines (line++[b]) bs

variable (s : List Char) {b : UInt8}

theorem encode_append (s t : List Char) : encode (s++t)=encode s++encode t := flatMap_append
theorem decode?_encode : decode? (encode s)=some s := by
  have h:=utf8Decode?_utf8Encode (l := s)
  rw [utf8Encode] at h
  rw [decode?,encode,h,map_some]

theorem length_le_encode : s.length≤(encode s).length := by
  induction s with
  | nil => rfl
  | cons c s ih =>
    have hpos : 0<(String.utf8EncodeChar c).length := length_pos_iff.mpr String.utf8EncodeChar_ne_nil
    rw [encode,flatMap_cons,length_append,← encode,length_cons]
    omega

theorem encode_ne_nil {s : List Char} (h : s≠[]) : encode s≠[] := by
  have hpos:=length_pos_iff.mpr h
  have hle:=length_le_encode s
  exact length_pos_iff.mp (by omega)

theorem decodeChar_encode (c : Char) (s : List Char) :
    (encode (c::s)).toByteArray.utf8DecodeChar? 0=some c ∧ (encode (c::s)).drop c.utf8Size=encode s := by
  constructor
  · exact utf8DecodeChar?_utf8Encode_cons
  · rw [encode,flatMap_cons,drop_append_of_le_length,drop_of_length_le]
    · rfl
    all_goals rw [String.length_utf8EncodeChar]

theorem decoded_encode {f : Nat → GoString → List Char} (hnil : ∀ n, f n []=[])
    (hcons : ∀ n c s b bs, encode (c::s)=b::bs → f (n+1) (b::bs)=c::f n (encode s)) (s : List Char)
    (n : Nat) (hn : s.length≤n) : f n (encode s)=s := by
  induction s generalizing n with
  | nil => exact hnil n
  | cons c s ih =>
    obtain ⟨n,rfl⟩ := Nat.exists_eq_succ_of_ne_zero (Nat.ne_of_gt (Nat.lt_of_lt_of_le (Nat.succ_pos _) hn))
    obtain ⟨b,bs,hbs⟩ := exists_cons_of_ne_nil (encode_ne_nil (cons_ne_nil c s))
    rw [hbs,hcons n c s b bs hbs,ih n (Nat.le_of_succ_le_succ hn)]

theorem runesFrom_encode (n : Nat) (hn : s.length≤n) : runesFrom n (encode s)=s := by
  refine decoded_encode (fun n => by cases n <;> rfl) ?_ s n hn
  intro n c s b bs hbs
  obtain ⟨hchar,hrest⟩ := decodeChar_encode c s
  rw [hbs] at hchar hrest
  simp only [runesFrom,hchar,hrest]

theorem runes_encode : runes (encode s)=s := runesFrom_encode s _ (length_le_encode s)

theorem ascii_of_mem {c : Char} (hb : b.toNat<128) (h : b∈String.utf8EncodeChar c) :
    c.toNat=b.toNat := by
  have hhigh : ∀ n : Nat, 128≤n → n<256 → b≠UInt8.ofNat n := by
    rintro n hn hlt rfl
    rw [UInt8.toNat_ofNat',Nat.mod_eq_of_lt hlt] at hb
    omega
  simp only [String.utf8EncodeChar] at h
  split at h
  next hsmall =>
    rw [mem_singleton.mp h,UInt8.toNat_ofNat',Nat.mod_eq_of_lt (by omega)]
    rfl
  next =>
    exfalso
    split at h
    next =>
      simp only [mem_cons,not_mem_nil,or_false] at h
      rcases h with h | h <;> exact hhigh _ (by omega) (by omega) h
    next =>
      split at h
      next =>
        simp only [mem_cons,not_mem_nil,or_false] at h
        rcases h with h | h | h <;> exact hhigh _ (by omega) (by omega) h
      next =>
        simp only [mem_cons,not_mem_nil,or_false] at h
        rcases h with h | h | h | h <;> exact hhigh _ (by omega) (by omega) h

theorem eq_of_mem {c d : Char} (hb : b.toNat<128) (hd : b.toNat=d.toNat)
    (h : b∈String.utf8EncodeChar c) : c=d := by
  have hc:=ascii_of_mem hb h
  exact Char.toNat_inj.mp (hc.trans hd)

theorem newline_notMem_encode {s : List Char} (h : '\n' ∉ s) : 10∉encode s := by
  intro hmem
  obtain ⟨c,hc,hb⟩ := mem_flatMap.mp hmem
  have hnl : c = '\n' := eq_of_mem (by decide) (by decide) hb
  exact h (hnl ▸ hc)

theorem dropCR_encode : dropCR (encode s)=encode (stripCr s) := by
  rcases eq_nil_or_concat s with rfl | ⟨init,c,rfl⟩
  · rfl
  · have hlast : (encode (init++[c])).getLast?=(String.utf8EncodeChar c).getLast? := by
      rw [encode_append,getLast?_append_of_ne_nil]
      · rw [encode,flatMap_singleton]
      · rw [encode,flatMap_singleton]
        exact String.utf8EncodeChar_ne_nil
    rw [concat_eq_append,dropCR,stripCr,hlast,getLast?_concat]
    by_cases hc : c = '\r'
    · have hbyte : String.utf8EncodeChar '\r' = [13] := by decide
      have hcr : encode ['\r']=[13] := by decide
      rw [hc,hbyte,getLast?_singleton,if_pos rfl,if_pos rfl,encode_append,hcr,
        dropLast_concat,dropLast_concat]
    · have hne : (String.utf8EncodeChar c).getLast? ≠ some 13 := by
        intro h
        exact hc (eq_of_mem (by decide) (by decide) (mem_of_getLast? h))
      rw [if_neg hne,if_neg (by simpa using hc)]

theorem frame_cons (line : List Char) (lines : List (List Char)) :
    frame (line::lines)=encode line++10::frame lines := by
  rw [frame,flatMap_cons,← frame,append_assoc,singleton_append]

section
variable {max : Nat}

theorem scanFrom_line (start line rest : GoString) (h : 10∉line) (hmax : (start++line).length < max) :
    scanFrom max start (line++10::rest) =
      ⟨dropCR (start++line)::(scan max rest).lines,(scan max rest).tooLong⟩ := by
  induction line generalizing start with
  | nil =>
    rw [append_nil] at hmax ⊢
    rw [nil_append,scanFrom,if_neg (Nat.not_le.mpr hmax),if_pos rfl,scan]
  | cons b line ih =>
    rw [mem_cons,not_or] at h
    have hstart : start.length < max := by
      rw [length_append] at hmax
      omega
    have happ : start++b::line=start++[b]++line := by simp
    rw [happ] at hmax ⊢
    rw [cons_append,scanFrom,if_neg (Nat.not_le.mpr hstart),if_neg (Ne.symm h.1),
      ih (start++[b]) h.2 hmax]

theorem scan_frame {lines : List (List Char)} (h : ∀ line∈lines, '\n' ∉ line)
    (hmax : ∀ line∈lines, (encode line).length < max) :
    scan max (frame lines)=⟨lines.map fun line => encode (stripCr line),false⟩ := by
  induction lines with
  | nil => rfl
  | cons line lines ih =>
    rw [forall_mem_cons] at h hmax
    rw [frame_cons,scan,scanFrom_line [] _ _ (newline_notMem_encode h.1) hmax.1,ih h.2 hmax.2,
      nil_append,dropCR_encode,map_cons]

end

theorem readLines_line (start line rest : GoString) (h : 10∉line) :
    readLines start (line++10::rest)=(start++line++[10])::readLines [] rest := by
  induction line generalizing start with
  | nil => rw [append_nil,nil_append,readLines,if_pos rfl]
  | cons b line ih =>
    rw [mem_cons,not_or] at h
    have happ : start++b::line=start++[b]++line := by simp
    rw [cons_append,readLines,if_neg (Ne.symm h.1),ih (start++[b]) h.2,happ]

theorem readLines_frame {lines : List (List Char)} (h : ∀ line∈lines, '\n' ∉ line) :
    readLines [] (frame lines)=lines.map fun line => encode (line++['\n']) := by
  induction lines with
  | nil => rfl
  | cons line lines ih =>
    rw [forall_mem_cons] at h
    have hnl : encode ['\n']=[10] := by decide
    rw [frame_cons,readLines_line [] _ _ (newline_notMem_encode h.1),ih h.2,map_cons,encode_append,
      hnl,nil_append]

end OpsAgent.Lib.TextLines
