import ConferenceBridge.Text.Numeral

/-! What an unquoted word stands for: nothing, a truth value, a whole number, a number, or just itself. -/

namespace ConferenceBridge.Yaml.Word

def isNull (w : String) : Bool := w == "null" || w == "Null" || w == "NULL" || w == "~"

def bool? (w : String) : Option Bool :=
  if w == "true" || w == "True" || w == "TRUE" then some true
  else if w == "false" || w == "False" || w == "FALSE" then some false
  else none

/-- Leading zeros before digits: such a word is no number. -/
def hasLeadingZeros (cs : List Char) : Bool :=
  let cs := match cs with
    | '-' :: rest | '+' :: rest => rest
    | cs => cs
  match cs with
  | '0' :: rest => !rest.isEmpty && rest.all Char.isDigit
  | _ => false

/-- The magnitude of a number without a sign: in hexadecimal after `0x`, in octal after `0o`, in binary
    after `0b`, else in decimal without leading zeros. -/
def magnitude? (cs : List Char) : Option Nat :=
  match cs with
  | '0' :: 'x' :: rest => Text.numeral? 16 rest
  | '0' :: 'o' :: rest => Text.numeral? 8 rest
  | '0' :: 'b' :: rest => Text.numeral? 2 rest
  | cs => if hasLeadingZeros cs then none else Text.numeral? 10 cs

/-- A whole number that is not negative, with at most one plus before it. -/
def natural? (w : String) : Option Nat :=
  match w.toList with
  | '+' :: rest => magnitude? rest
  | cs => magnitude? cs

/-- A whole number of at most 128 bits, signed or not. -/
def isInteger (w : String) : Bool :=
  match w.toList with
  | '-' :: rest => (magnitude? rest).any (· ≤ 1 <<< 127)
  | _ => (natural? w).any (· < 1 <<< 128)

/-- A decimal: the digits of the number, and the power of ten that they are times of. -/
structure Decimal where
  digits : Nat
  exponent : Int

/-- An exponent after its mark, if there is one: a sign and digits. -/
def exponent? : List Char → Option Int
  | [] => some 0
  | e :: cs =>
    if e == 'e' || e == 'E' then
      match cs with
      | '-' :: rest => (Text.numeral? 10 rest).map fun n => -(Int.ofNat n)
      | '+' :: rest => (Text.numeral? 10 rest).map Int.ofNat
      | cs => (Text.numeral? 10 cs).map Int.ofNat
    else none

/-- A number in decimal without a sign: digits with at most one point before, among or after them, and
    an exponent. -/
def decimal? (cs : List Char) : Option Decimal := do
  let whole := cs.takeWhile Char.isDigit
  let rest := cs.dropWhile Char.isDigit
  let (fraction, rest) := match rest with
    | '.' :: rest => (rest.takeWhile Char.isDigit, rest.dropWhile Char.isDigit)
    | rest => ([], rest)
  let digits ← Text.numeral? 10 (whole ++ fraction)
  let exponent ← exponent? rest
  return { digits, exponent := exponent - fraction.length }

/-- The decimal does not exceed what 64-bit floating point can hold: it is nearer to the largest such
    number than to the one that would come next. -/
def Decimal.isFinite (d : Decimal) : Bool :=
  let limit := (1 <<< 1024) - (1 <<< 970)
  let size := (Nat.toDigits 10 d.digits).length + d.exponent
  if d.digits = 0 ∨ size < 300 then true
  else if 320 < size then false
  else if 0 ≤ d.exponent then d.digits * Nat.pow 10 d.exponent.toNat < limit
  else d.digits < limit * Nat.pow 10 (-d.exponent).toNat

/-- A number with a point or an exponent, an infinity, or what is no number. -/
def isReal (w : String) : Bool :=
  let unsigned := match w.toList with
    | '+' :: rest => rest
    | cs => cs
  let infinite := [".inf", ".Inf", ".INF"].any fun i => unsigned == i.toList || w == "-" ++ i
  let undefined := w == ".nan" || w == ".NaN" || w == ".NAN"
  let magnitude := match w.toList with
    | '+' :: rest | '-' :: rest => rest
    | cs => cs
  infinite || undefined || (decimal? magnitude).any (·.isFinite)

/-- The word stands for something other than itself, or looks as if it did. -/
def isReserved (w : String) : Bool :=
  w == "" || isNull w || (bool? w).isSome || isInteger w || hasLeadingZeros w.toList || isReal w

end ConferenceBridge.Yaml.Word
