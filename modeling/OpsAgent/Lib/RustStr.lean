import OpsAgent.Lib.TextTrim

/-!
# Rust strings over their bytes

`String::from_utf8_lossy`, cuts of a `str` at a byte offset and `parse::<u64>`.
-/

namespace OpsAgent.Lib.RustStr
open Lib.GoStrings Lib.TextLines Lib.TextTrim List

/-- Whether `b` may be the second byte after the first one of a longer encoding. -/
def follows (lead b : UInt8) : Bool :=
  let low := if lead=0xE0 then 0xA0 else if lead=0xF0 then 0x90 else 0x80
  let high := if lead=0xED then 0x9F else if lead=0xF4 then 0x8F else 0xBF
  0xE0≤lead&&lead≤0xF4&&low≤b&&b≤high

/-- How many bytes one replacement character stands for. -/
def badLength : GoString → Nat
  | lead::b::bs =>
    if !follows lead b then 1
    else if 0xF0≤lead&&bs.head?.any isCont then 3
    else 2
  | _ => 1

def lossyFrom : Nat → GoString → List Char
  | 0, _ => []
  | _, [] => []
  | n+1, b::bs => match (b::bs).toByteArray.utf8DecodeChar? 0 with
    | some c => c::lossyFrom n ((b::bs).drop c.utf8Size)
    | none => '\ufffd'::lossyFrom n ((b::bs).drop (badLength (b::bs)))

/-- `String::from_utf8_lossy` -/
def lossy (bs : GoString) : List Char := lossyFrom bs.length bs

/-- `str::is_char_boundary` -/
def isCharBoundary (bs : GoString) (i : Nat) : Bool :=
  i == 0 || match bs.drop i with
    | [] => i == bs.length
    | b::_ => !isCont b

/-- `&s[i..]`; `none` is a panic. -/
def sliceFrom (bs : GoString) (i : Nat) : Option GoString :=
  if isCharBoundary bs i then some (bs.drop i) else none

def parseU64 (text : List Char) : Option Nat :=
  let digits := if text.head?=some '+' ∧ text.tail≠[] then text.tail else text
  if digits=[] then none
  else digits.foldlM (fun n c =>
    let next:=n*10+(c.toNat-48)
    if c.isDigit&&next<2^64 then some next else none) 0

/-- `str::matches` counted: a match begins after the end of the one before. -/
def countFrom (pattern : GoString) : Nat → GoString → Nat
  | _, [] => 0
  | skip+1, _::bs => countFrom pattern skip bs
  | 0, b::bs =>
    if pattern.isPrefixOf (b::bs) then countFrom pattern (pattern.length-1) bs+1
    else countFrom pattern 0 bs

theorem lossy_encode (s : List Char) : lossy (encode s)=s := by
  refine decoded_encode (fun n => by cases n <;> rfl) ?_ s _ (length_le_encode s)
  intro n c s b bs hbs
  obtain ⟨hchar,hrest⟩ := decodeChar_encode c s
  rw [hbs] at hchar hrest
  simp only [lossyFrom,hchar,hrest]

theorem isCharBoundary_append (cs ds : List Char) :
    isCharBoundary (encode (cs++ds)) (encode cs).length := by
  rw [isCharBoundary,encode_append,drop_left]
  cases ds with
  | nil => simp [encode]
  | cons d ds =>
    obtain ⟨b,bs,hshape,hb,-⟩ := utf8EncodeChar_shape d
    simp [encode,hshape,hb]

theorem split_of_boundary {s : List Char} {i : Nat} (h : isCharBoundary (encode s) i) :
    ∃ cs ds, s=cs++ds ∧ (encode cs).length=i := by
  induction s generalizing i with
  | nil =>
    have hi : i=0 := by simpa [isCharBoundary,encode] using h
    exact ⟨[],[],rfl,hi.symm⟩
  | cons c s ih =>
    obtain ⟨b,bs,hshape,-,hcont⟩ := utf8EncodeChar_shape c
    have hencode : encode (c::s)=b::(bs++encode s) := by simp [encode,hshape]
    rw [hencode] at h
    cases i with
    | zero => exact ⟨[],c::s,rfl,rfl⟩
    | succ i =>
      by_cases hlt : i<bs.length
      -- a cut inside the first character is before one of its continuation bytes
      · have hdrop : (bs++encode s).drop i=bs[i]::(bs.drop (i+1)++encode s) := by
          rw [drop_append_of_le_length hlt.le,drop_eq_getElem_cons hlt,cons_append]
        have hmem:=hcont bs[i] (getElem_mem hlt)
        simp [isCharBoundary,hdrop,hmem] at h
      · have hrest : isCharBoundary (encode s) (i-bs.length) := by
          rw [not_lt] at hlt
          rw [isCharBoundary,drop_succ_cons,drop_append,drop_of_length_le hlt,nil_append] at h
          rw [isCharBoundary]
          cases hd : (encode s).drop (i-bs.length) with
          | nil =>
            simp [hd] at h ⊢
            omega
          | cons x xs => simpa [hd] using Or.inr h
        obtain ⟨cs,ds,rfl,hcs⟩ := ih hrest
        refine ⟨c::cs,ds,rfl,?_⟩
        have hlength : (encode (c::cs)).length=bs.length+(encode cs).length+1 := by simp [encode,hshape]
        omega

end OpsAgent.Lib.RustStr
