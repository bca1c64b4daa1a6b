import Mathlib.Data.Nat.Digits.Lemmas
import OpsAgent.Lib.Binary64

/-!
# Floating-point numbers as text

`strconv.ParseFloat` and the shortest decimal text of a `float64`, which is what the verb `%v` of
`fmt` prints.
-/

namespace OpsAgent.Lib.FloatText
open Lib.GoValue List Option Float64
open Lib.GoValue.Float64 (nearestMag magValue ofMag infMag roundHalfEven)

inductive ParseError where
  | syntaxError | range
  deriving DecidableEq

def digit? (base : Nat) (c : Char) : Option Nat :=
  if '0' ≤ c ∧ c ≤ '9' then some (c.toNat - '0'.toNat)
  else if base=16 ∧ 'a' ≤ c.toLower ∧ c.toLower ≤ 'f' then some (c.toLower.toNat - 'a'.toNat+10)
  else none
def takeSign : List Char → Bool × List Char
  | '-' :: s => (true,s)
  | '+' :: s => (false,s)
  | s => (false,s)

structure Scan where
  (mant frac : Nat)
  (sawDot sawDigits underscores : Bool)

def scanMantissa (base : Nat) : Scan → List Char → Scan × List Char
  | st, [] => (st,[])
  | st, c::s =>
    if c = '_' then scanMantissa base {st with underscores := true} s
    else if c = '.' then
      if st.sawDot then (st,c::s) else scanMantissa base {st with sawDot := true} s
    else match digit? base c with
      | some d => scanMantissa base
          { st with mant := st.mant*base+d, frac := if st.sawDot then st.frac+1 else st.frac
                    sawDigits := true} s
      | none => (st,c::s)

def scanExponent : Nat → Bool → List Char → Nat × Bool × List Char
  | e, underscores, [] => (e,underscores,[])
  | e, underscores, c::s =>
    if c = '_' then scanExponent e true s
    else match digit? 10 c with
      | some d => scanExponent (if e<10000 then e*10+d else e) underscores s
      | none => (e,underscores,c::s)

/-- What follows the mantissa: nothing, or an exponent, which a hexadecimal
mantissa must have. -/
def readExponent (base : Nat) : List Char → Option (Int × Bool)
  | [] => if base=16 then none else some (0,false)
  | c::s =>
    if c.toLower=(if base=16 then 'p' else 'e') then
      let (neg,s) := takeSign s
      if (s.head?.bind (digit? 10)).isSome then
        match scanExponent 0 false s with
        | (e,underscores,[]) => some (if neg then -e else e,underscores)
        | _ => none
      else none
    else none

/-- The loop of `underscoreOK`: an underscore stands between two digits. -/
def underscoreOKFrom (hex : Bool) : Char → List Char → Bool
  | saw, [] => saw != '_'
  | saw, c::s =>
    if (digit? (if hex then 16 else 10) c).isSome then underscoreOKFrom hex '0' s
    else if c = '_' then saw == '0' && underscoreOKFrom hex '_' s
    else saw != '_' && underscoreOKFrom hex '!' s

def underscoreOK (s : List Char) : Bool :=
  match (takeSign s).2 with
  | '0' :: c::t =>
    if ['b', 'o', 'x'].contains c.toLower then underscoreOKFrom (c.toLower == 'x') '0' t
    else underscoreOKFrom false '^' ('0' :: c::t)
  | t => underscoreOKFrom false '^' t

def takeBase : List Char → Nat × List Char
  | '0' :: c::s => if c.toLower = 'x' then (16,s) else (10, '0' :: c::s)
  | s => (10,s)

def readFloat (s : List Char) : Option (Bool × ℚ) :=
  let (neg,body) := takeSign s
  let (base,body) := takeBase body
  let (st,rest) := scanMantissa base ⟨0,0,false,false,false⟩ body
  if st.sawDigits then
    match readExponent base rest with
    | some (e,underscores) =>
      if (st.underscores||underscores)&&!underscoreOK s then none
      else some (neg,st.mant*(base : ℚ)^(-(st.frac : ℤ))*(if base=16 then 2 else 10)^e)
    | none => none
  else none

def special (s : List Char) : Option Float64 :=
  let (neg,body) := takeSign s
  if body.map Char.toLower∈["inf".toList,"infinity".toList] then some (Float64.inf neg)
  else if s.map Char.toLower="nan".toList then some Float64.nan
  else none

def nearest (neg : Bool) (q : ℚ) : Except ParseError Float64 :=
  if nearestMag q < infMag then .ok (ofMag neg (nearestMag q)) else .error .range

def parseFloat (s : List Char) : Except ParseError Float64 :=
  match special s with
  | some x => .ok x
  | none => match readFloat s with
    | some (neg,q) => nearest neg q
    | none => .error .syntaxError

/-- The digits `d₁d₂…`, most significant first, of `0.d₁d₂… · 10 ^ point`. -/
structure Decimal where
  digits : List Nat
  point : Int
  digits_lt : ∀ d∈digits, d<10

namespace Decimal

def value (d : Decimal) : ℚ :=
  (Nat.ofDigits 10 d.digits.reverse : ℕ)*10^(d.point-d.digits.length)

theorem dropWhile_digits_lt (n : Nat) : ∀ d∈((Nat.digits 10 n).dropWhile (· == 0)).reverse, d<10 := by
  intro d hd
  rw [mem_reverse] at hd
  exact Nat.digits_lt_base (by norm_num) ((dropWhile_sublist _).subset hd)

def ofScaled (n : Nat) (k : Int) : Decimal where
  digits := ((Nat.digits 10 n).dropWhile (· == 0)).reverse
  point := k+(Nat.digits 10 n).length
  digits_lt := dropWhile_digits_lt n

end Decimal

def candidate (q : ℚ) (m n : Nat) : Option Decimal :=
  let k:=Int.log 10 q+1-n
  let scaled:=q / 10^k
  let down := ⌊scaled⌋.toNat
  let found := [(roundHalfEven scaled).toNat,down,down+1].find? fun (d : Nat) =>
    nearestMag (d*10^k) == m
  found.map fun d => Decimal.ofScaled d k

def shortest (m : Nat) : Decimal :=
  ((range 1100).findSome? fun n => candidate (magValue m) m (n+1)).getD ⟨[],0,nofun⟩

def digitText (ds : List Nat) : List Char := ds.map Nat.digitChar
def plainText (whole frac : List Nat) : List Char :=
  digitText whole++(if frac=[] then [] else '.' :: digitText frac)
def exponentText (e : Int) : List Char :=
  let n:=e.natAbs
  (if e<0 then '-' else '+') ::
    digitText (if n<10 then [0,n] else (Nat.digits 10 n).reverse)
def fmtE (d : Decimal) : List Char :=
  plainText (d.digits.take 1) (d.digits.drop 1) ++ 'e' :: exponentText (d.point-1)

def fmtF (d : Decimal) : List Char :=
  let p:=d.point.toNat
  plainText
    (if 0<d.point then d.digits.take p++replicate (p-d.digits.length) 0 else [0])
    (replicate (-d.point).toNat 0++d.digits.drop p)

def fmtG (d : Decimal) : List Char :=
  if d.point-1 < -4 ∨ 6≤d.point-1 then fmtE d else fmtF d

def formatFloat (x : Float64) : List Char :=
  if x.isNaN then "NaN".toList
  else if x.isFinite then
    (if x.negative then ['-'] else []) ++
      fmtG (if x.mag=0 then ⟨[],0,nofun⟩ else shortest x.mag)
  else (if x.negative then "-Inf" else "+Inf").toList

theorem digit?_digitChar (d : Nat) (h : d<10) : digit? 10 (Nat.digitChar d)=some d := by
  interval_cases d <;> decide
theorem digitChar_toLower (d : Nat) (h : d<10) : (Nat.digitChar d).toLower=Nat.digitChar d := by
  interval_cases d <;> decide
theorem digitChar_notMem (d : Nat) (h : d<10) :
    Nat.digitChar d∉['_', '.', '+', '-', 'x', 'i', 'n', 'e'] := by interval_cases d <;> decide

def readDigits (n : Nat) (ds : List Nat) : Nat := ds.foldl (fun n d => n*10+d) n

theorem readDigits_eq (n : Nat) (ds : List Nat) :
    readDigits n ds=n*10^ds.length+Nat.ofDigits 10 ds.reverse := by
  induction ds generalizing n with
  | nil => simp [readDigits]
  | cons d ds ih =>
    have hstep : readDigits n (d::ds)=readDigits (n*10+d) ds := rfl
    rw [hstep,ih,reverse_cons,Nat.ofDigits_append,Nat.ofDigits_singleton,
      length_reverse,length_cons,pow_succ]
    ring

theorem scanMantissa_digits (st : Scan) (ds : List Nat) (rest : List Char) (h : ∀ d∈ds, d<10) :
    scanMantissa 10 st (digitText ds++rest) =
      scanMantissa 10 { st with mant := readDigits st.mant ds
                                frac := if st.sawDot then st.frac+ds.length else st.frac
                                sawDigits := st.sawDigits||!ds.isEmpty} rest := by
  induction ds generalizing st with
  | nil => cases st; simp [digitText,readDigits]
  | cons d ds ih =>
    have hd:=h d mem_cons_self
    have hn:=digitChar_notMem d hd
    simp only [mem_cons,not_or] at hn
    have hds : ∀ e∈ds, e<10 := fun e he => h e (mem_cons_of_mem _ he)
    rw [digitText,map_cons,cons_append,scanMantissa,if_neg hn.1,if_neg hn.2.1,digit?_digitChar d hd]
    dsimp only
    rw [← digitText,ih _ hds]
    obtain ⟨mant,frac,sawDot,sawDigits,underscores⟩ := st
    cases sawDot
    · simp [readDigits]
    · simp [readDigits,Nat.add_assoc,Nat.add_comm 1]

theorem scanExponent_digits (e : Nat) (ds : List Nat) (h : ∀ d∈ds, d<10)
    (hsmall : readDigits e ds<100000) :
    scanExponent e false (digitText ds)=(readDigits e ds,false,[]) := by
  induction ds generalizing e with
  | nil => rfl
  | cons d ds ih =>
    have hd:=h d mem_cons_self
    have hn:=digitChar_notMem d hd
    simp only [mem_cons,not_or] at hn
    have hds : ∀ e∈ds, e<10 := fun e he => h e (mem_cons_of_mem _ he)
    have hstep : readDigits e (d::ds)=readDigits (e*10+d) ds := rfl
    have he : e<10000 := by
      rw [hstep,readDigits_eq] at hsmall
      have hpow : 1≤10^ds.length := Nat.one_le_pow _ _ (by norm_num)
      have hle : e*10+d≤(e*10+d)*10^ds.length := Nat.le_mul_of_pos_right _ hpow
      omega
    rw [digitText,map_cons,scanExponent,if_neg hn.1,digit?_digitChar d hd]
    dsimp only
    rw [if_pos he,← digitText,hstep,ih _ hds (hstep ▸ hsmall)]

theorem readDigits_exponent (n : Nat) :
    readDigits 0 (if n<10 then [0,n] else (Nat.digits 10 n).reverse)=n := by
  rw [readDigits_eq]
  split
  · simp [Nat.ofDigits]
  · rw [reverse_reverse,Nat.ofDigits_digits]
    omega

theorem exponent_digits_lt (n : Nat) :
    ∀ d∈(if n<10 then [0,n] else (Nat.digits 10 n).reverse), d<10 := by
  intro d hd
  split at hd
  · simp only [mem_cons,not_mem_nil,or_false] at hd
    omega
  · exact Nat.digits_lt_base (by norm_num) (mem_reverse.mp hd)

theorem readExponent_digits {e : Int} {ds : List Nat} (hne : ds≠[]) (hlt : ∀ d∈ds, d<10)
    (hval : readDigits 0 ds=e.natAbs) (h : e.natAbs<100000) :
    readExponent 10 ('e' :: (if e<0 then '-' else '+')::digitText ds)=some (e,false) := by
  obtain ⟨d,ds,rfl⟩ := exists_cons_of_ne_nil hne
  have hscan:=scanExponent_digits 0 (d::ds) hlt (hval ▸ h)
  have hhead : digit? 10 (Nat.digitChar d)=some d := digit?_digitChar d (hlt d mem_cons_self)
  rw [hval] at hscan
  rw [readExponent]
  have hlow : ('e' : Char).toLower=(if (10 : Nat)=16 then 'p' else 'e') := by decide
  rw [if_pos hlow]
  by_cases hneg : e<0
  · simp only [hneg,if_true,takeSign,digitText,map_cons,head?_cons,
      bind_some,hhead,isSome_some] at hscan ⊢
    rw [hscan]
    simp only [some.injEq,Prod.mk.injEq,and_true]
    omega
  · simp only [hneg,if_false,takeSign,digitText,map_cons,head?_cons,
      bind_some,hhead,isSome_some,if_true] at hscan ⊢
    rw [hscan]
    simp only [Bool.false_eq_true,if_false,some.injEq,Prod.mk.injEq,and_true]
    omega

variable (neg : Bool) (x : Float64) (e : Int)

theorem readExponent_exponentText (h : e.natAbs<100000) :
    readExponent 10 ('e' :: exponentText e)=some (e,false) := by
  refine readExponent_digits ?_ (exponent_digits_lt e.natAbs) (readDigits_exponent e.natAbs) h
  split
  · exact cons_ne_nil _ _
  · rw [ne_eq,reverse_eq_nil_iff,Nat.digits_eq_nil_iff_eq_zero]
    omega

def signText (neg : Bool) : List Char := if neg then ['-'] else []

theorem readDigits_append (n : Nat) (as bs : List Nat) :
    readDigits n (as++bs)=readDigits (readDigits n as) bs := foldl_append

theorem takeSign_text (d : Nat) (h : d<10) (s : List Char) :
    takeSign (signText neg++Nat.digitChar d::s)=(neg,Nat.digitChar d::s) := by
  cases neg with
  | true => rfl
  | false => interval_cases d <;> rfl

theorem special_text (d : Nat) (h : d<10) (s : List Char) :
    special (signText neg++Nat.digitChar d::s)=none := by
  have hn:=digitChar_notMem d h
  simp only [mem_cons,not_or] at hn
  have hinf : (Nat.digitChar d::s).map Char.toLower∉["inf".toList,"infinity".toList] := by
    rw [map_cons,digitChar_toLower d h]
    simp [hn]
  have hnan : (signText neg++Nat.digitChar d::s).map Char.toLower≠"nan".toList := by
    cases neg with
    | true => simp [signText]
    | false => simp [signText,digitChar_toLower d h,hn]
  simp only [special,takeSign_text neg d h,if_neg hinf,if_neg hnan]

theorem takeBase_text (d : Nat) (h : d<10) (s : List Char) (hx : ∀ c∈s.head?, c.toLower ≠ 'x') :
    takeBase (Nat.digitChar d::s)=(10,Nat.digitChar d::s) := by
  cases s with
  | nil => interval_cases d <;> rfl
  | cons c s =>
    have hc : c.toLower ≠ 'x' := hx c rfl
    interval_cases d <;> simp [takeBase,hc,Nat.digitChar]

structure Tail (s : List Char) (e : Int) : Prop where
  stops : ∀ st, scanMantissa 10 st s=(st,s)
  exponent : readExponent 10 s=some (e,false)
  unprefixed : ∀ c∈s.head?, c.toLower ≠ 'x'

theorem tail_nil : Tail [] 0 := ⟨fun _ => rfl,rfl,nofun⟩
theorem tail_exponentText (h : e.natAbs<100000) : Tail ('e' :: exponentText e) e := by
  refine ⟨fun st => rfl,readExponent_exponentText e h,?_⟩
  rintro c ⟨⟩
  decide

variable (whole frac : List Nat)

theorem scanMantissa_plainText (s : List Char) (e : Int)
    (hw : ∀ d∈whole, d<10) (hf : ∀ d∈frac, d<10) (hne : whole≠[]) (ht : Tail s e) :
    scanMantissa 10 ⟨0,0,false,false,false⟩ (plainText whole frac++s) =
      (⟨readDigits 0 (whole++frac),frac.length,!frac.isEmpty,true,false⟩,s) := by
  have hwe : whole.isEmpty=false := by rwa [isEmpty_eq_false_iff]
  rw [plainText,append_assoc,scanMantissa_digits _ _ _ hw]
  cases frac with
  | nil =>
    rw [if_pos rfl,nil_append,ht.stops]
    simp [hwe]
  | cons d ds =>
    rw [if_neg (cons_ne_nil d ds),cons_append,scanMantissa,if_neg (by decide),
      if_pos rfl]
    rw [if_neg Bool.false_ne_true,scanMantissa_digits _ _ _ hf,ht.stops]
    simp [hwe,readDigits_append]

theorem readFloat_plainText (s : List Char) (e : Int)
    (hw : ∀ d∈whole, d<10) (hf : ∀ d∈frac, d<10) (hne : whole≠[]) (ht : Tail s e) :
    readFloat (signText neg++(plainText whole frac++s)) =
      some (neg,(readDigits 0 (whole++frac) : ℚ)*10^(-(frac.length : ℤ))*10^e) := by
  have hscan:=scanMantissa_plainText whole frac s e hw hf hne ht
  obtain ⟨d,ds,rfl⟩ := exists_cons_of_ne_nil hne
  have hd:=hw d mem_cons_self
  have htext : plainText (d::ds) frac++s =
      Nat.digitChar d ::
        (digitText ds++((if frac=[] then [] else '.' :: digitText frac)++s)) := by
    simp [plainText,digitText]
  have hhead : ∀ c∈(digitText ds ++
      ((if frac=[] then [] else '.' :: digitText frac)++s)).head?, c.toLower ≠ 'x' := by
    cases ds with
    | cons a ds =>
      have ha:=hw a (mem_cons_of_mem _ mem_cons_self)
      rintro c ⟨⟩ hc
      rw [digitChar_toLower a ha] at hc
      exact digitChar_notMem a ha (by simp [hc])
    | nil =>
      rw [digitText,map_nil,nil_append]
      split
      · exact ht.unprefixed
      · rintro c ⟨⟩
        decide
  rw [htext] at hscan ⊢
  simp only [readFloat,takeSign_text neg d hd,takeBase_text d hd _ hhead,hscan,ht.exponent]
  rfl

theorem parseFloat_plainText (s : List Char) (e : Int)
    (hw : ∀ d∈whole, d<10) (hf : ∀ d∈frac, d<10) (hne : whole≠[]) (ht : Tail s e) :
    parseFloat (signText neg++(plainText whole frac++s)) =
      nearest neg (readDigits 0 (whole++frac)*10^(-(frac.length : ℤ))*10^e) := by
  have hread:=readFloat_plainText neg whole frac s e hw hf hne ht
  have hspecial : special (signText neg++(plainText whole frac++s))=none := by
    obtain ⟨d,ds,rfl⟩ := exists_cons_of_ne_nil hne
    exact special_text neg d (hw d mem_cons_self) _
  rw [parseFloat,hspecial,hread]

theorem readDigits_replicate (n k : Nat) : readDigits n (replicate k 0)=n*10^k := by
  rw [readDigits_eq,length_replicate,reverse_replicate]
  simp [Nat.ofDigits_replicate_zero]

theorem takeWhile_zeros (ds : List Nat) :
    ds.takeWhile (· == 0)=replicate (ds.takeWhile (· == 0)).length 0 := by
  rw [eq_replicate_iff]
  refine ⟨rfl,fun d hd => ?_⟩
  simpa using List.all_eq_true.mp all_takeWhile d hd

theorem zeros_lt (n : Nat) : ∀ d∈replicate n 0, d<10 := by
  intro d hd
  rw [eq_of_mem_replicate hd]
  norm_num

namespace Decimal

theorem value_eq (d : Decimal) : d.value=readDigits 0 d.digits*10^(d.point-d.digits.length) := by
  rw [value,readDigits_eq,Nat.zero_mul,Nat.zero_add]

theorem ofScaled_value (n : Nat) (k : Int) : (ofScaled n k).value=n*10^k := by
  have hsplit:=takeWhile_append_dropWhile (p := (· == 0)) (l := Nat.digits 10 n)
  have hzeros:=takeWhile_zeros (Nat.digits 10 n)
  have hn:=Nat.ofDigits_digits 10 n
  have hlen:=congrArg length hsplit
  simp only [value,ofScaled,reverse_reverse,length_reverse]
  generalize ((Nat.digits 10 n).takeWhile (· == 0)).length=z at hzeros
  generalize (Nat.digits 10 n).dropWhile (· == 0)=kept at hsplit hlen ⊢
  rw [← hsplit,hzeros,Nat.ofDigits_append,Nat.ofDigits_replicate_zero,Nat.zero_add,
    length_replicate] at hn
  rw [hzeros,length_append,length_replicate] at hlen
  have hexp : k+((Nat.digits 10 n).length : ℤ)-kept.length=z+k := by omega
  rw [hexp,zpow_add₀ (by norm_num),zpow_natCast,← hn]
  push_cast
  ring

end Decimal

variable {d : Decimal} {q : ℚ} {m n : Nat} {s : List Char}

theorem parseFloat_scientific (hne : d.digits≠[]) (ht : Tail s (d.point-1)) :
    parseFloat (signText neg++(plainText (d.digits.take 1) (d.digits.drop 1)++s)) =
      nearest neg d.value := by
  have hw : ∀ a∈d.digits.take 1, a<10 := fun a ha => d.digits_lt a (mem_of_mem_take ha)
  have hf : ∀ a∈d.digits.drop 1, a<10 := fun a ha => d.digits_lt a (mem_of_mem_drop ha)
  have hpos : 1≤d.digits.length := length_pos_iff.mpr hne
  rw [parseFloat_plainText neg _ _ _ _ hw hf (by simpa using hne) ht,
    take_append_drop,length_drop,d.value_eq,mul_assoc,← zpow_add₀ (by norm_num)]
  congr 3
  omega

theorem parseFloat_fmtE (d : Decimal) (hne : d.digits≠[]) (he : (d.point-1).natAbs<100000) :
    parseFloat (signText neg++fmtE d)=nearest neg d.value :=
  parseFloat_scientific neg hne (tail_exponentText _ he)

theorem parseFloat_fmtF (d : Decimal) : parseFloat (signText neg++fmtF d)=nearest neg d.value := by
  have htake : ∀ n, ∀ a∈d.digits.take n, a<10 :=
    fun n a ha => d.digits_lt a (mem_of_mem_take ha)
  have hdrop : ∀ n, ∀ a∈d.digits.drop n, a<10 :=
    fun n a ha => d.digits_lt a (mem_of_mem_drop ha)
  have hf : ∀ a∈replicate (-d.point).toNat 0++d.digits.drop d.point.toNat, a<10 :=
    fun a ha => (mem_append.mp ha).elim (zeros_lt _ a) (hdrop _ a)
  rw [← append_nil (fmtF d)]
  by_cases hp : 0<d.point
  · have hw : ∀ a∈d.digits.take d.point.toNat ++
        replicate (d.point.toNat-d.digits.length) 0, a<10 :=
      fun a ha => (mem_append.mp ha).elim (htake _ a) (zeros_lt _ a)
    have hne : d.digits.take d.point.toNat ++
        replicate (d.point.toNat-d.digits.length) 0≠[] := by
      rw [← length_pos_iff,length_append,length_take,length_replicate]
      omega
    have hzero : (-d.point).toNat=0 := by omega
    simp only [fmtF,if_pos hp]
    rw [parseFloat_plainText neg _ _ _ _ hw hf hne tail_nil,hzero,replicate_zero,
      nil_append,length_drop,d.value_eq]
    rcases le_total d.digits.length d.point.toNat with hle | hle
    · -- all digits stand before the point, followed by zeros
      rw [take_of_length_le hle,drop_eq_nil_of_le hle,append_nil,
        readDigits_append,readDigits_replicate,Nat.sub_eq_zero_of_le hle]
      have hexp : d.point-d.digits.length=(d.point.toNat-d.digits.length : ℕ) := by omega
      rw [hexp,zpow_natCast]
      simp
    · rw [Nat.sub_eq_zero_of_le hle,replicate_zero,append_nil,take_append_drop,zpow_zero,mul_one]
      congr 3
      omega
  · have hnil : d.point.toNat=0 := by omega
    simp only [fmtF,if_neg hp]
    rw [parseFloat_plainText neg _ _ _ _ (by simp) hf (by simp) tail_nil,hnil,drop_zero,
      ← append_assoc,readDigits_append,singleton_append,← replicate_succ,
      readDigits_replicate,Nat.zero_mul,length_append,length_replicate,d.value_eq,zpow_zero,mul_one]
    congr 3
    omega

theorem parseFloat_fmtG (d : Decimal) (hne : d.digits≠[] ∨ d.point=0)
    (he : (d.point-1).natAbs<100000) : parseFloat (signText neg++fmtG d)=nearest neg d.value := by
  rw [fmtG]
  split
  next hexp =>
    refine parseFloat_fmtE neg d (hne.resolve_right ?_) he
    omega
  next => exact parseFloat_fmtF neg d

theorem candidate_value (h : candidate q m n=some d) : nearestMag d.value=m := by
  simp only [candidate,map_eq_some_iff] at h
  obtain ⟨a,ha,rfl⟩ := h
  rw [Decimal.ofScaled_value]
  simpa using find?_some ha

theorem candidate_of_exact {a : Nat} (hq : nearestMag q=m)
    (ha : q=a*10^(Int.log 10 q+1-n)) : (candidate q m n).isSome := by
  have hscaled : q / 10^(Int.log 10 q+1-(n : ℤ))=a := by
    rw [div_eq_iff (zpow_ne_zero _ (by norm_num))]
    exact ha
  simp only [candidate,isSome_map,find?_isSome,hscaled]
  refine ⟨a,?_,?_⟩
  · rw [roundHalfEven_natCast,Int.toNat_natCast]
    exact mem_cons_self
  · rw [← ha,hq,beq_self_eq_true]

theorem point_bound (h : candidate q m n=some d) :
    d.point≤Int.log 10 q+2 ∧ Int.log 10 q+1-n≤d.point := by
  simp only [candidate,map_eq_some_iff] at h
  obtain ⟨a,ha,rfl⟩ := h
  have hlt : q / 10^(Int.log 10 q+1-(n : ℤ))<(10^n : ℕ) := by
    rw [div_lt_iff₀ (zpow_pos (by norm_num) _),Nat.cast_pow,Nat.cast_ofNat,← zpow_natCast,
      ← zpow_add₀ (by norm_num),add_sub_cancel]
    exact Int.lt_zpow_succ_log_self (by norm_num) q
  generalize q / 10^(Int.log 10 q+1-(n : ℤ))=scaled at ha hlt
  have hfloor : ⌊scaled⌋.toNat<10^n := by
    have hint : ⌊scaled⌋ < (10^n : ℕ) := Int.floor_lt.mpr (by exact_mod_cast hlt)
    have hpos : 0<10^n := Nat.pow_pos (by norm_num)
    omega
  have hround : (roundHalfEven scaled).toNat ≤ ⌊scaled⌋.toNat+1 := by
    unfold roundHalfEven
    split
    · omega
    · split
      · omega
      · split <;> omega
  have hmem:=mem_of_find?_eq_some ha
  simp only [mem_cons,not_mem_nil,or_false] at hmem
  have hle : a<10^(n+1) := by
    rw [pow_succ]
    omega
  have hlen : (Nat.digits 10 a).length≤n+1 :=
    (Nat.digits_length_le_iff (by norm_num) a).mpr hle
  constructor <;> simp only [Decimal.ofScaled] <;> omega

theorem log_ten_le (q : ℚ) (hq : 0<q) : Int.log 10 q ≤ max (Int.log 2 q) 0 := by
  rcases le_or_gt (Int.log 10 q) 0 with h | h
  · exact le_max_of_le_right h
  · refine le_max_of_le_left ?_
    rw [← Int.zpow_le_iff_le_log (by norm_num) hq]
    refine le_trans ?_ (Int.zpow_log_le_self (by norm_num : 1<10) hq)
    exact zpow_le_zpow_left₀ h.le (by norm_num) (by norm_num)

theorem le_log_ten (q : ℚ) (hq : 0<q) : min (Int.log 2 q) 0≤Int.log 10 q := by
  rw [← Int.zpow_le_iff_le_log (by norm_num) hq]
  have hle : min (Int.log 2 q) 0≤Int.log 2 q := min_le_left _ _
  refine le_trans ?_ ((Int.zpow_le_iff_le_log (by norm_num) hq).mpr hle)
  obtain ⟨n,hn⟩ := Int.eq_ofNat_of_zero_le (neg_nonneg.mpr (min_le_right (Int.log 2 q) 0))
  rw [← neg_neg (min (Int.log 2 q) 0),hn,zpow_neg,zpow_neg]
  refine inv_anti₀ (zpow_pos (by norm_num) _) ?_
  exact zpow_le_zpow_left₀ (Int.natCast_nonneg n) (by norm_num) (by norm_num)

theorem magValue_decimal (m : Nat) (h : m≠0) (hm : m < infMag) :
    ∃ a : Nat, magValue m=a*10^(Int.log 10 (magValue m)+1-(1100 : ℕ)) := by
  have hle:=log_ten_le _ (magValue_pos m h)
  have htwo:=log_magValue_le m h
  have hexp:=exponent_bounds m hm
  generalize hk : Int.log 10 (magValue m)+1-((1100 : ℕ) : ℤ)=k
  obtain ⟨i,hi⟩ := Int.eq_ofNat_of_zero_le (show 0 ≤ -k by omega)
  obtain ⟨j,hj⟩ := Int.eq_ofNat_of_zero_le (show 0≤Float64.exponent m-k by omega)
  refine ⟨Float64.mantissa m*2^j*5^i,?_⟩
  have hfive : (5 : ℚ)^i*10^k=2^k := by
    rw [← neg_neg k,hi,zpow_neg,zpow_neg,zpow_natCast,zpow_natCast,
      show (10 : ℚ)=2*5 by norm_num,mul_pow]
    field_simp
  have hexp : Float64.exponent m=j+k := by omega
  push_cast
  rw [mul_assoc,hfive,magValue,hexp,zpow_add₀ (by norm_num),zpow_natCast,mul_assoc]

theorem range_split {i : Nat} {l₁ l₂ : List Nat} (h : range n=l₁++i::l₂) : l₁=range i := by
  rw [range_eq_range',range'_eq_append_iff] at h
  obtain ⟨k,-,hl,hr⟩ := h
  have hi:=(range'_eq_cons_iff.mp hr.symm).1
  rw [hl,range_eq_range',← hi,Nat.zero_add,Nat.mul_one]

theorem shortest_candidate (m : Nat) (h : m≠0) (hm : m < infMag) :
    ∃ n<1100, candidate (magValue m) m (n+1)=some (shortest m) ∧
      ∀ i<n, candidate (magValue m) m (i+1)=none := by
  obtain ⟨a,ha⟩ := magValue_decimal m h hm
  have hlast:=candidate_of_exact (nearestMag_magValue m) ha
  rw [shortest]
  cases hs : (range 1100).findSome? fun n => candidate (magValue m) m (n+1) with
  | none =>
    rw [findSome?_eq_none_iff] at hs
    have hnone:=hs 1099 (mem_range.mpr (by norm_num))
    rw [hnone] at hlast
    cases hlast
  | some d =>
    obtain ⟨l₁,n,l₂,hsplit,hd,hfirst⟩ := findSome?_eq_some_iff.mp hs
    have hn : n∈range 1100 := by
      rw [hsplit]
      simp
    refine ⟨n,mem_range.mp hn,hd,fun i hi => hfirst i ?_⟩
    rw [range_split hsplit]
    exact mem_range.mpr hi

theorem shortest_spec (h0 : m≠0) (hm : m < infMag) :
    nearestMag (shortest m).value=m ∧ (shortest m).digits≠[] ∧ ((shortest m).point-1).natAbs<100000 := by
  obtain ⟨n,hn,hd,-⟩ := shortest_candidate m h0 hm
  have hval:=candidate_value hd
  have hpoint:=point_bound hd
  have hpos:=magValue_pos m h0
  have hlow:=le_log_ten _ hpos
  have hhigh:=log_ten_le _ hpos
  have htwo:=log_magValue_le m h0
  have htwo' := le_log_magValue m h0 hm
  have hexp:=exponent_bounds m hm
  refine ⟨hval,fun hnil => ?_,by omega⟩
  rw [Decimal.value,hnil] at hval
  exact h0 (by simpa [nearestMag] using hval.symm)

theorem nearest_of_mag {x : Float64} (hx : x.isFinite) (hq : nearestMag q=x.mag) :
    nearest x.negative q=.ok x := by
  have hm : x.mag < infMag := by simpa [Float64.isFinite] using hx
  rw [nearest,hq,if_pos hm,ofMag_mag]

theorem parseFloat_formatFloat (hx : x.isFinite) : parseFloat (formatFloat x)=.ok x := by
  have hm : x.mag < infMag := by simpa [Float64.isFinite] using hx
  have htext : formatFloat x=signText x.negative ++
      fmtG (if x.mag=0 then ⟨[],0,nofun⟩ else shortest x.mag) := by
    rw [formatFloat,if_neg (isNaN_of_isFinite x hx ▸ Bool.false_ne_true),if_pos hx,signText]
  rw [htext]
  split
  next h0 =>
    rw [parseFloat_fmtG _ _ (.inr rfl) (by norm_num)]
    refine nearest_of_mag hx ?_
    rw [h0]
    simp [Decimal.value,nearestMag]
  next h0 =>
    obtain ⟨hval,hne,hexp⟩ := shortest_spec h0 hm
    rw [parseFloat_fmtG _ _ (.inl hne) hexp]
    exact nearest_of_mag hx hval

def textChars : List Char := "0123456789.e+-NaInf".toList

theorem mem_textChars (h : s.all textChars.contains) : ∀ c∈s, c∈textChars :=
  fun c hc => contains_iff_mem.mp (all_eq_true.mp h c hc)

theorem digitText_textChars {ds : List Nat} (h : ∀ d∈ds, d<10) : ∀ c∈digitText ds, c∈textChars := by
  intro c hc
  obtain ⟨d,hd,rfl⟩ := mem_map.mp hc
  have hall : ∀ d<10, Nat.digitChar d∈textChars := by decide
  exact hall d (h d hd)

theorem plainText_textChars {whole frac : List Nat} (hw : ∀ d∈whole, d<10)
    (hf : ∀ d∈frac, d<10) : ∀ c∈plainText whole frac, c∈textChars := by
  intro c hc
  rw [plainText,mem_append] at hc
  rcases hc with hc | hc
  · exact digitText_textChars hw c hc
  · split at hc
    · cases hc
    · rcases mem_cons.mp hc with rfl | hc
      · decide
      · exact digitText_textChars hf c hc

theorem exponentText_textChars : ∀ c∈exponentText e, c∈textChars := by
  intro c hc
  rw [exponentText] at hc
  rcases mem_cons.mp hc with rfl | hc
  · split <;> decide
  · refine digitText_textChars ?_ c hc
    intro d hd
    split at hd
    · rcases mem_cons.mp hd with rfl | hd
      · norm_num
      · rw [mem_singleton] at hd
        omega
    · exact Nat.digits_lt_base (by norm_num) (mem_reverse.mp hd)

theorem fmtG_textChars (d : Decimal) : ∀ c∈fmtG d, c∈textChars := by
  intro c hc
  have htake : ∀ n, ∀ x∈d.digits.take n, x<10 :=
    fun n x hx => d.digits_lt x (mem_of_mem_take hx)
  have hdrop : ∀ n, ∀ x∈d.digits.drop n, x<10 :=
    fun n x hx => d.digits_lt x (mem_of_mem_drop hx)
  rw [fmtG] at hc
  split at hc
  · rw [fmtE,mem_append] at hc
    rcases hc with hc | hc
    · exact plainText_textChars (htake 1) (hdrop 1) c hc
    · rcases mem_cons.mp hc with rfl | hc
      · decide
      · exact exponentText_textChars _ c hc
  · refine plainText_textChars ?_ ?_ c hc
    · intro x hx
      split at hx
      · exact (mem_append.mp hx).elim (htake _ x) (zeros_lt _ x)
      · rw [mem_singleton.mp hx]
        norm_num
    · exact fun x hx => (mem_append.mp hx).elim (zeros_lt _ x) (hdrop _ x)

theorem formatFloat_textChars : ∀ c∈formatFloat x, c∈textChars := by
  intro c hc
  rw [formatFloat] at hc
  split at hc
  · exact mem_textChars (by decide) c hc
  · split at hc
    · rcases mem_append.mp hc with hc | hc
      · split at hc
        · rw [mem_singleton.mp hc]
          decide
        · cases hc
      · exact fmtG_textChars _ c hc
    · split at hc <;> exact mem_textChars (by decide) c hc

theorem formatFloat_ne_nil (hx : x.isFinite) : formatFloat x≠[] := by
  intro h
  have hread:=parseFloat_formatFloat x hx
  rw [h] at hread
  cases hread

end OpsAgent.Lib.FloatText
