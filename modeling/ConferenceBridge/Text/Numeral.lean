/-! Whole numbers written in some base of at most sixteen: read from digits of either case, and written in
    hexadecimal with a fixed number of digits. -/

namespace ConferenceBridge.Text

/-- The value of a digit; letters of either case stand for ten to fifteen. -/
def digit? (c : Char) : Option Nat :=
  if c.isDigit then some (c.toNat - '0'.toNat)
  else if 'a' ≤ c ∧ c ≤ 'f' then some (c.toNat - 'a'.toNat + 10)
  else if 'A' ≤ c ∧ c ≤ 'F' then some (c.toNat - 'A'.toNat + 10)
  else none

/-- The number that digits of a base stand for after those that stand for `n`. -/
def numeralAfter? (base n : Nat) : List Char → Option Nat
  | [] => some n
  | c :: cs =>
    match digit? c with
    | some d => if d < base then numeralAfter? base (base * n + d) cs else none
    | none => none

/-- The number that some digits of a base stand for. There has to be one, and nothing else. -/
def numeral? (base : Nat) (cs : List Char) : Option Nat :=
  if cs.isEmpty then none else numeralAfter? base 0 cs

/-- The last so many hexadecimal digits of a number, in small letters. -/
def hex (width n : Nat) : List Char :=
  let digits := List.replicate width '0' ++ Nat.toDigits 16 n
  digits.drop (digits.length - width)

end ConferenceBridge.Text
