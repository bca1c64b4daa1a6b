import OpsAgent.Lib.TextLines

/-!
# Trimming encoded texts

Trimming the bytes of a text is trimming its characters: an encoding that is found at the front or
at the end of a text is that of its first or last character.
-/

namespace OpsAgent.Lib.TextTrim
open Lib.GoStrings List Option
open Lib.TextLines (encode length_le_encode)

def isCont (b : UInt8) : Bool := 128≤b.toNat&&b.toNat<192

theorem isCont_of_mem_range {n : Nat} (h : 128≤n ∧ n<192) : isCont (UInt8.ofNat n) := by
  rw [isCont,UInt8.toNat_ofNat',Nat.mod_eq_of_lt (by omega),Bool.and_eq_true,
    decide_eq_true_iff,decide_eq_true_iff]
  exact h
theorem not_isCont_of_lt {n : Nat} (hn : n<256) (h : n<128 ∨ 192≤n) : isCont (UInt8.ofNat n)=false := by
  rw [isCont,UInt8.toNat_ofNat',Nat.mod_eq_of_lt hn,Bool.and_eq_false_iff,
    decide_eq_false_iff_not,decide_eq_false_iff_not]
  omega

theorem utf8EncodeChar_shape (c : Char) : ∃ b bs, String.utf8EncodeChar c=b::bs ∧ isCont b=false ∧
      ∀ x∈bs, isCont x := by
  simp only [String.utf8EncodeChar]
  split
  · exact ⟨_,[],rfl,not_isCont_of_lt (by omega) (by omega),nofun⟩
  · split
    · refine ⟨_,_,rfl,not_isCont_of_lt (by omega) (by omega),?_⟩
      intro x hx
      rw [mem_singleton.mp hx]
      exact isCont_of_mem_range (by omega)
    · split
      · refine ⟨_,_,rfl,not_isCont_of_lt (by omega) (by omega),?_⟩
        intro x hx
        simp only [mem_cons,not_mem_nil,or_false] at hx
        rcases hx with rfl | rfl <;> exact isCont_of_mem_range (by omega)
      · refine ⟨_,_,rfl,not_isCont_of_lt (by omega) (by omega),?_⟩
        intro x hx
        simp only [mem_cons,not_mem_nil,or_false] at hx
        rcases hx with rfl | rfl | rfl <;> exact isCont_of_mem_range (by omega)

theorem eq_of_front {c d : Char} {s t : GoString}
    (h : String.utf8EncodeChar c++s=String.utf8EncodeChar d++t) : c=d := by
  have hdecode : ∀ (e : Char) (r : GoString),
      (String.utf8EncodeChar e++r).toByteArray.utf8DecodeChar? 0=some e := by
    intro e r
    rw [toByteArray_append]
    exact ByteArray.utf8DecodeChar?_utf8EncodeChar_append
  have hc:=hdecode c s
  rw [h,hdecode d t] at hc
  exact (some.inj hc).symm

theorem eq_of_end {c d : Char} {s t : GoString}
    (h : (String.utf8EncodeChar c).reverse++s=(String.utf8EncodeChar d).reverse++t) : c=d := by
  obtain ⟨b,bs,hc,hb,hbs⟩ := utf8EncodeChar_shape c
  obtain ⟨b',bs',hd,hb',hbs'⟩ := utf8EncodeChar_shape d
  have hlist : bs.reverse++b::s=bs'.reverse++b' :: t := by simpa [hc,hd] using h
  have hcont : ∀ x∈bs.reverse, isCont x := fun x hx => hbs x (mem_reverse.mp hx)
  have hcont' : ∀ x∈bs'.reverse, isCont x := fun x hx => hbs' x (mem_reverse.mp hx)
  have htake:=congrArg (takeWhile isCont) hlist
  rw [takeWhile_append_of_pos hcont,takeWhile_append_of_pos hcont',
    takeWhile_cons_of_neg (by simp [hb]),takeWhile_cons_of_neg (by simp [hb']),
    append_nil,append_nil] at htake
  rw [htake,append_cancel_left_eq] at hlist
  have hencode : String.utf8EncodeChar c++[]=String.utf8EncodeChar d++[] := by
    rw [hc,hd,reverse_inj.mp htake,(cons.inj hlist).1]
  exact eq_of_front hencode

/- Stripping patterns that are the images of some elements off the images of a list, if no
image is found at the front of another one. -/
theorem strip_flatMap {α β : Type*} [BEq α] [LawfulBEq α] {pats : List (List α)} {f : β → List α}
    {q : β → Bool} (hpats : ∀ p, p∈pats ↔ ∃ x, q x ∧ f x=p) (hne : ∀ x, f x≠[])
    (hfront : ∀ x y s t, f x++s=f y++t → x=y) (xs : List β) (n : Nat) (hn : xs.length≤n) :
    strip pats n (xs.flatMap f)=(xs.dropWhile q).flatMap f := by
  induction xs generalizing n with
  | nil =>
    refine strip_of_stripped ?_ n
    intro p hp hpre
    obtain ⟨x,-,rfl⟩ := (hpats p).mp hp
    exact hne x (prefix_nil.mp hpre)
  | cons x xs ih =>
    have hfound : ∀ p∈pats, p <+: (x::xs).flatMap f → p=f x ∧ q x := by
      intro p hp hpre
      obtain ⟨y,hy,rfl⟩ := (hpats p).mp hp
      obtain ⟨t,ht⟩ := hpre
      rw [flatMap_cons] at ht
      rw [hfront y x t _ ht] at hy ⊢
      exact ⟨rfl,hy⟩
    cases hq : q x with
    | false =>
      have hstripped : Stripped pats ((x::xs).flatMap f) := by
        intro p hp hpre
        have htrue:=(hfound p hp hpre).2
        cases hq.symm.trans htrue
      rw [strip_of_stripped hstripped,dropWhile_cons_of_neg (by simp [hq])]
    | true =>
      obtain ⟨n,rfl⟩ := Nat.exists_eq_succ_of_ne_zero (n := n) (by simp at hn; omega)
      have hhead : f x <+: (x::xs).flatMap f := by
        rw [flatMap_cons]
        exact prefix_append _ _
      cases hfind : pats.find? fun p => p.isPrefixOf ((x::xs).flatMap f) with
      | none => exact absurd hhead ((find_eq_none_iff _).mp hfind (f x) ((hpats _).mpr ⟨x,hq,rfl⟩))
      | some p =>
        have hmatch : p.isPrefixOf ((x::xs).flatMap f) := by
          have hsome:=find?_some hfind
          exact hsome
        have hpre : p <+: (x::xs).flatMap f := isPrefixOf_iff_prefix.mp hmatch
        have hp:=(hfound p (mem_of_find?_eq_some hfind) hpre).1
        simp only [strip,hfind,hp]
        rw [flatMap_cons,drop_left,ih n (by simpa using hn),
          dropWhile_cons_of_pos hq]

def isSpace (c : Char) : Bool := whiteSpace.contains c
def trim (s : List Char) : List Char :=
  ((s.dropWhile isSpace).reverse.dropWhile isSpace).reverse

theorem dropWhile_eq_self {s : List Char} (h : ∀ c∈s.head?, isSpace c=false) :
    s.dropWhile isSpace=s := by
  cases s with
  | nil => rfl
  | cons c s => exact dropWhile_cons_of_neg (by simp [h c rfl])

theorem trim_eq_self {s : List Char} (hfirst : ∀ c∈s.head?, isSpace c=false)
    (hlast : ∀ c∈s.getLast?, isSpace c=false) : trim s=s := by
  have hreverse : ∀ c∈s.reverse.head?, isSpace c=false := by
    rw [head?_reverse]
    exact hlast
  rw [trim,dropWhile_eq_self hfirst,dropWhile_eq_self hreverse,reverse_reverse]

variable (s : List Char)

theorem getLast?_trim : ∀ c∈(trim s).getLast?, isSpace c=false := by
  intro c hc
  rw [trim,getLast?_reverse] at hc
  have hnot:=head?_dropWhile_not isSpace (s.dropWhile isSpace).reverse
  rw [mem_def.mp hc] at hnot
  simpa using hnot

theorem trimLeft_encode : trimLeft (encode s)=encode (s.dropWhile isSpace) := by
  refine strip_flatMap ?_ (fun _ => String.utf8EncodeChar_ne_nil) (fun _ _ _ _ => eq_of_front) s _
    (length_le_encode s)
  intro p
  simp [spaces,isSpace]

theorem trimRight_encode : trimRight (encode s)=encode (s.reverse.dropWhile isSpace).reverse := by
  have hne : ∀ c : Char, (String.utf8EncodeChar c).reverse≠[] := by simp
  have hreverse : ∀ t : List Char,
      (encode t).reverse=t.reverse.flatMap fun c => (String.utf8EncodeChar c).reverse := by
    intro t
    rw [encode,reverse_flatMap]
    rfl
  have hstrip : strip (spaces.map reverse) (encode s).length (encode s).reverse =
      (s.reverse.dropWhile isSpace).flatMap fun c => (String.utf8EncodeChar c).reverse := by
    rw [hreverse]
    refine strip_flatMap ?_ hne (fun _ _ _ _ => eq_of_end) _ _ ?_
    · intro p
      simp [spaces,isSpace]
    · rw [length_reverse]
      exact length_le_encode s
  rw [trimRight,hstrip,← reverse_reverse (s.reverse.dropWhile isSpace),← hreverse,
    reverse_reverse,reverse_reverse]

theorem trimSpaces_encode : trimSpaces (encode s)=encode (trim s) := by
  rw [trimSpaces,trimLeft_encode,trimRight_encode,trim]

theorem utf8_eq_encode (s : String) : utf8 s=encode s.toList := by
  have hchars : s=String.ofList s.toList := String.ofList_toList.symm
  rw [hchars,utf8,String.toByteArray_ofList,utf8Encode,data_toByteArray,String.toList_ofList]
  rfl

end OpsAgent.Lib.TextTrim
