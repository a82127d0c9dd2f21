import KnowledgeBase.Binary64.Shortest

/-!
Written forms of doubles. Both forms show the shortest decimal that rounds to it; they differ
in where they switch to an exponent, in whether an integral value keeps a fraction, and in
the choice between two equally near decimals.
-/

namespace KnowledgeBase.Binary64

structure Layout where
  /-- Whether a number whose first digit stands for `10 ^ n` is written without exponent. -/
  positional : Int → Bool
  integralSuffix : String
  tie : Tie

/-- The form in JSON text: from 0.00001 to below 10^16 without exponent, and never to be
mistaken for an integer. -/
def Layout.json : Layout where
  positional n := -5 ≤ n && n ≤ 15
  integralSuffix := ".0"
  tie := .toEven

/-- The form in reports: no exponent ever, and integral values without a point. -/
def Layout.plain : Layout where
  positional _ := true
  integralSuffix := ""
  tie := .up

def zeros (n : Nat) : String := String.ofList (List.replicate n '0')

def positionalText (digits : List Char) (point : Int) (suffix : String) : String :=
  let count : Int := digits.length
  if point ≤ 0 then
    "0." ++ zeros point.natAbs ++ String.ofList digits
  else if count ≤ point then
    String.ofList digits ++ zeros (point - count).toNat ++ suffix
  else
    let (whole, fraction) := digits.splitAt point.toNat
    String.ofList whole ++ "." ++ String.ofList fraction

def exponentText (digits : List Char) (leading : Int) : String :=
  let fraction := match digits.drop 1 with
    | [] => ""
    | rest => "." ++ String.ofList rest
  let sign := if leading < 0 then "-" else "+"
  String.ofList (digits.take 1) ++ fraction ++ "e" ++ sign ++ toString leading.natAbs

/-- The digits of a decimal, with the point before the digit at `point`. -/
def Layout.decimal (layout : Layout) (decimal : Decimal) : String :=
  let digits := Nat.toDigits 10 decimal.digits
  let point := digits.length + decimal.exponent
  if layout.positional (point - 1) then positionalText digits point layout.integralSuffix
  else exponentText digits (point - 1)

def Layout.text (layout : Layout) (x : Binary64) : String :=
  if x.isNaN then "NaN"
  else
    let sign := if x.isNegative then "-" else ""
    if !x.isFinite then sign ++ "inf"
    else if x.isZero then sign ++ "0" ++ layout.integralSuffix
    else sign ++ layout.decimal (x.shortest layout.tie)

end KnowledgeBase.Binary64
