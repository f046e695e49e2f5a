import ConferenceBridge.Text.Numeral

/-! Identifiers for participants that come without one: a random number of the form that marks it as
    random, in hexadecimal groups. -/

namespace ConferenceBridge.Identifier

open Text (hex)

/-- The groups of a random number: version 4, and the variant in the two high bits of the fourth. -/
def groups (bits : Nat) : List (List Char) :=
  [hex 8 bits, hex 4 (bits >>> 32), '4' :: hex 3 (bits >>> 48),
    hex 4 (0x8000 + (bits >>> 60) % 0x4000), hex 12 (bits >>> 74)]

/-- The identifier that random bits give a participant. -/
def ofBits (bits : Nat) : String :=
  String.ofList ("participant-".toList ++ ['-'].intercalate (groups bits))

/-- A new identifier, drawn from a source of random numbers. -/
def draw {γ : Type} [RandomGen γ] (source : γ) : String × γ :=
  let (bits, source) := randNat source 0 ((1 <<< 122) - 1)
  (ofBits bits, source)

end ConferenceBridge.Identifier
