/-! JSON values. A whole number is kept apart from every other number, because a limit is only ever a
    whole number. -/

namespace ConferenceBridge

inductive Json where
  | null
  | bool (value : Bool)
  /-- A number written without a point and without an exponent. -/
  | int (value : Int)
  /-- Any other number, as it is written. -/
  | real (text : String)
  | str (value : String)
  | arr (items : List Json)
  /-- The fields in order; a name occurs once. -/
  | obj (fields : List (String × Json))
  deriving Inhabited

namespace Json

def nat (n : Nat) : Json := .int (Int.ofNat n)

/-- The value of a field of an object. -/
def field? (name : String) : Json → Option Json
  | .obj fields => fields.lookup name
  | _ => none

/-- The fields with one more; it takes the place of an earlier one of its name. -/
def setField (fields : List (String × Json)) (name : String) (value : Json) : List (String × Json) :=
  if fields.any (·.1 == name) then fields.map fun f => if f.1 = name then (name, value) else f
  else fields ++ [(name, value)]

end Json
end ConferenceBridge
