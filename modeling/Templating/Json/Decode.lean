import Templating.Json.Basic

/-!
Reading plain values back from JSON: 32-bit words, records with a fixed list of fields, and the
names of constructors without arguments.
-/
namespace Templating.Json

def word? : Json → Option UInt32
  | .int value => if 0 ≤ value ∧ value < 4294967296 then some (UInt32.ofNat value.toNat) else none
  | _ => none

/- The values of a record's fields, from an object, whose other fields do not matter, or from an
array that holds these values and no more. -/
def record? (names : List String) : Json → Option (List Json)
  | .object fields => names.mapM fun name => fields.lookup name
  | .array items => if items.length = names.length then some items else none
  | _ => none

def constructor? : Json → Option String
  | .string name => some name
  | .object [(name, .null)] => some name
  | _ => none

end Templating.Json
