/-!
# JSON values

The values of the JSON data format. Whole numbers are exact, of any size. A number with a fraction or
an exponent is kept as it was written, because nothing in the library computes with one. An object is
a list of its members in order; where a key occurs twice, the last member counts.
-/

namespace Offside

/-- A JSON value. -/
inductive Json where
  | null
  | bool (value : Bool)
  | int (value : Int)
  /-- A number that is not written as a whole number, in its own spelling. -/
  | real (spelling : List Char)
  | str (value : String)
  | arr (items : List Json)
  | obj (members : List (String × Json))
  deriving Inhabited

namespace Json

def nat (n : Nat) : Json := int n

def member? (key : String) : Json → Option Json
  | obj members => members.reverse.lookup key
  | _ => none

end Json

end Offside
