import OpsAgent.Lib.Binary64

/-!
# Times and durations

A `time.Time` is the number of nanoseconds since the zero time, and a
`time.Duration` a number of nanoseconds that fits into 64 bits.
-/

namespace OpsAgent.Lib.GoTime
open Lib.GoValue.Float64 (nearestMag magValue)

abbrev Time := Int
abbrev Duration := Int64

/-- The method `UnixMilli`; the zero time is 62135596800 seconds before 1970. -/
def unixMilli (t : Time) : Int64 := Int64.ofInt (t / 1000000-62135596800000)
/-- `t.Sub(u)`, which is the nearest duration. -/
def sub (t u : Time) : Duration := Int64.ofIntClamp (t-u)

theorem le_sub_iff {d : Duration} {t u : Time} (hd : 0≤d.toInt) : d ≤ sub t u ↔ d.toInt≤t-u := by
  have hmin : Int64.minValue.toInt = -2^63 := Int64.toInt_minValue
  have hmax:=Int64.toInt_le d
  rw [sub,Int64.le_iff_toInt_le]
  rcases Int.lt_or_le (t-u) Int64.minValue.toInt with hlow | hlow
  · have hclamp : Int64.ofIntClamp (t-u)=Int64.minValue := by
      rw [Int64.ofIntClamp,dif_neg (Int.not_le.mpr hlow)]
    rw [hclamp,hmin]
    omega
  · rcases Int.lt_or_le Int64.maxValue.toInt (t-u) with hhigh | hhigh
    · have hclamp : Int64.ofIntClamp (t-u)=Int64.maxValue := by
        rw [Int64.ofIntClamp,dif_pos hlow,dif_neg (Int.not_le.mpr hhigh)]
      rw [hclamp]
      omega
    · rw [Int64.toInt_ofIntClamp hlow hhigh]

theorem bmod_le_self {n : Int} (h : 0≤n) : n.bmod 18446744073709551616≤n := by
  rw [Int.bmod_def]
  split <;> omega

def digit? (c : Char) : Option Nat :=
  if '0' ≤ c ∧ c ≤ '9' then some (c.toNat - '0'.toNat) else none

/-- The digits at the start; `none` if their number is above `1<<63`. -/
def leadingInt (x : Nat) : List Char → Option (Nat × List Char)
  | [] => some (x,[])
  | c::s => match digit? c with
    | none => some (x,c::s)
    | some d =>
      if x > (1 <<< 63) / 10 then none
      else if x*10+d > 1 <<< 63 then none
      else leadingInt (x*10+d) s

/-- The digits after a point, and ten to the power of how many they are. Those
that overflow are skipped. -/
def leadingFraction (x scale : Nat) (overflow : Bool) : List Char → Nat × Nat × List Char
  | [] => (x,scale,[])
  | c::s => match digit? c with
    | none => (x,scale,c::s)
    | some d =>
      if overflow||x > ((1 <<< 63)-1) / 10||x*10+d > 1 <<< 63 then
        leadingFraction x scale true s
      else leadingFraction (x*10+d) (scale*10) false s

def unitMap (u : String) : Option Nat :=
  ([("ns",1),("us",1000),("µs",1000),("μs",1000),("ms",1000000),
    ("s",1000000000),("m",60000000000),("h",3600000000000)] : List (String × Nat)).lookup u
def asFloat (q : ℚ) : ℚ := magValue (nearestMag q)

/-- `uint64(float64(f) * (float64(unit) / scale))` -/
def fractionOf (f scale unit : Nat) : Nat := ⌊asFloat (asFloat f*asFloat (unit / scale))⌋.toNat

def parseTerm (s : List Char) : Option (Nat × List Char) :=
  if s.head?.any fun c => c == '.' || (digit? c).isSome then
    match leadingInt 0 s with
    | none => none
    | some (v,s₁) =>
      let (f,scale,post,s₂) : Nat × Nat × Bool × List Char := match s₁ with
        | '.' :: t =>
          let (f,scale,t') := leadingFraction 0 1 false t
          (f,scale,t'.length != t.length,t')
        | _ => (0,1,false,s₁)
      if s₁.length == s.length&&!post then none
      else
        let (u,rest) := s₂.span fun c => c != '.' && (digit? c).isNone
        match unitMap (String.ofList u) with
        | none => none
        | some unit =>
          if v > (1 <<< 63) / unit then none
          else
            let v:=v*unit + if f > 0 then fractionOf f scale unit else 0
            if v > 1 <<< 63 then none else some (v,rest)
  else none

/-- The sum of the terms. It is a `uint64`, and two terms of `1<<63` wrap around. -/
def parseTerms : Nat → Nat → List Char → Option Nat
  | _, d, [] => some d
  | 0, _, _ => none
  | n+1, d, s => match parseTerm s with
    | none => none
    | some (v,rest) =>
      let d:=(d+v) % (1 <<< 64)
      if d > 1 <<< 63 then none else parseTerms n d rest

/-- `none` is an error. Each term has a character at least, so there are no more
terms than characters. -/
def parseDuration (s : String) : Option Duration :=
  let (neg,body) : Bool × List Char := match s.toList with
    | '-' :: t => (true,t)
    | '+' :: t => (false,t)
    | t => (false,t)
  if body=['0'] then some 0
  else if body=[] then none
  else match parseTerms body.length 0 body with
    | none => none
    | some d =>
      if neg then some (-Int64.ofInt d)
      else if d > (1 <<< 63)-1 then none
      else some (Int64.ofInt d)

end OpsAgent.Lib.GoTime
