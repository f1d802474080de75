import TradeOS.Numeric.Rounding
import Mathlib.Data.Int.Log

/-!
# Decimal texts of exact numbers

The number formats that appear in log lines, rationales and audit details: a
fixed number of digits (`:.2f`), percentages (`:.1%`), grouped thousands
(`:,.0f`) and the default text of a number (`{x}`), each read on an exact
rational. The default text keeps seventeen significant digits, drops trailing
zeros, and switches to exponent notation below `1e-4` and from `1e16` on.
-/

set_option autoImplicit false

namespace TradeOS.Numeric

/-- A natural number padded with zeros on the left to a width. -/
def padLeft (width n : ℕ) : String :=
  let text := toString n
  String.ofList (List.replicate (width - text.length) '0') ++ text

/-- The sign that a printed number carries. -/
def signText (q : ℚ) : String := if q < 0 then "-" else ""

/-- The digits of a magnitude with a fixed number of decimals. -/
def fixedDigits (digits : ℕ) (q : ℚ) : ℕ := (roundHalfEven (|q| * 10 ^ digits)).toNat

/-- The text of `:.nf`. -/
def formatFixed (digits : ℕ) (q : ℚ) : String :=
  let scaled := fixedDigits digits q
  let whole := toString (scaled / 10 ^ digits)
  if digits = 0 then signText q ++ whole
  else signText q ++ whole ++ "." ++ padLeft digits (scaled % 10 ^ digits)

/-- The text of `:+.nf`. -/
def formatSigned (digits : ℕ) (q : ℚ) : String :=
  (if q < 0 then "" else "+") ++ formatFixed digits q

/-- The text of `:.n%`. -/
def formatPercent (digits : ℕ) (q : ℚ) : String := formatFixed digits (q * 100) ++ "%"

/-- The thousands groups of a natural number, most significant first. The fuel
bounds the number of groups. -/
def thousands : ℕ → ℕ → String
  | 0, n => toString n
  | fuel + 1, n =>
      if n < 1000 then toString n
      else thousands fuel (n / 1000) ++ "," ++ padLeft 3 (n % 1000)

/-- The text of `:,.0f`. -/
def formatGrouped (q : ℚ) : String :=
  let n := fixedDigits 0 q
  signText q ++ thousands (Nat.log 1000 n + 1) n

/-- Drop trailing zeros; the fuel bounds how many. -/
def stripZeros : ℕ → ℕ → ℕ
  | 0, n => n
  | fuel + 1, n => if n % 10 = 0 then stripZeros fuel (n / 10) else n

/-- The significant digits of a positive number and its decimal exponent. -/
def significant (q : ℚ) : ℕ × ℤ :=
  let e := Int.log 10 q
  let digits := (roundHalfEven (q / (10 : ℚ) ^ (e - 16))).toNat
  if digits = 10 ^ 17 then (1, e + 1) else (stripZeros 16 digits, e)

/-- The default text of a number. -/
def formatDefault (q : ℚ) : String :=
  if q = 0 then "0.0"
  else
    let (digits, e) := significant |q|
    let text := toString digits
    let places := text.length
    let body :=
      if e < -4 ∨ 16 ≤ e then
        let tail := if places = 1 then "" else "." ++ String.ofList (text.toList.drop 1)
        let exponent := (if e < 0 then "e-" else "e+") ++ padLeft 2 e.natAbs
        String.ofList (text.toList.take 1) ++ tail ++ exponent
      else if e < 0 then
        "0." ++ String.ofList (List.replicate (e.natAbs - 1) '0') ++ text
      else if places ≤ e.toNat + 1 then
        text ++ String.ofList (List.replicate (e.toNat + 1 - places) '0') ++ ".0"
      else
        String.ofList (text.toList.take (e.toNat + 1)) ++ "." ++
          String.ofList (text.toList.drop (e.toNat + 1))
    signText q ++ body

/-- The text of an integer truncated towards zero. -/
def formatTruncated (q : ℚ) : String := toString (if q < 0 then ⌈q⌉ else ⌊q⌋)

/-- The quoted text of a string inside a printed list. -/
def quoted (s : String) : String :=
  let quote := if s.toList.contains '\x27' && !s.toList.contains '\x22' then '\x22' else '\x27'
  let escape : Char → String := fun c =>
    if c = '\\' then "\\\\"
    else if c = quote then String.ofList ['\\', c]
    else if c = '\n' then "\\n"
    else if c = '\r' then "\\r"
    else if c = '\t' then "\\t"
    else String.singleton c
  String.singleton quote ++ String.join (s.toList.map escape) ++ String.singleton quote

/-- The printed form of a list of strings. -/
def quotedList (items : List String) : String :=
  "[" ++ ", ".intercalate (items.map quoted) ++ "]"

end TradeOS.Numeric
