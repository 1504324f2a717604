/-!
JSON values and their compact text. Objects keep their fields in order. The text is written in
front of what follows it, so that a value's text and the rest can be told apart by recursion.
-/
namespace Templating

inductive Json where
  | null
  | bool (value : Bool)
  | int (value : Int)
  /- The number `mantissa` divided by ten to the power `places`. -/
  | decimal (mantissa : Int) (places : Nat)
  | string (value : String)
  | array (items : List Json)
  | object (fields : List (String × Json))
  deriving Repr, Inhabited

namespace Json

def escapeChar (c : Char) : List Char :=
  match c with
  | '"' => ['\\', '"']
  | '\\' => ['\\', '\\']
  | '\x08' => ['\\', 'b']
  | '\t' => ['\\', 't']
  | '\n' => ['\\', 'n']
  | '\x0c' => ['\\', 'f']
  | '\r' => ['\\', 'r']
  | c =>
      if c.toNat < 0x20 then ['\\', 'u', '0', '0', Nat.digitChar (c.toNat / 16), Nat.digitChar (c.toNat % 16)]
      else [c]

def writeString (value : String) (rest : List Char) : List Char :=
  '"' :: (value.toList.flatMap escapeChar ++ '"' :: rest)

def writeInt (value : Int) (rest : List Char) : List Char :=
  if value < 0 then '-' :: (Nat.toDigits 10 value.natAbs ++ rest) else Nat.toDigits 10 value.natAbs ++ rest

mutual

def write : Json → List Char → List Char
  | .null, rest => 'n' :: 'u' :: 'l' :: 'l' :: rest
  | .bool true, rest => 't' :: 'r' :: 'u' :: 'e' :: rest
  | .bool false, rest => 'f' :: 'a' :: 'l' :: 's' :: 'e' :: rest
  | .int value, rest => writeInt value rest
  | .decimal mantissa places, rest => writeInt mantissa ('e' :: '-' :: (Nat.toDigits 10 places ++ rest))
  | .string value, rest => writeString value rest
  | .array items, rest => '[' :: writeItems items (']' :: rest)
  | .object fields, rest => '\x7b' :: writeFields fields ('\x7d' :: rest)

def writeItems : List Json → List Char → List Char
  | [], rest => rest
  | [item], rest => write item rest
  | item :: items, rest => write item (',' :: writeItems items rest)

def writeFields : List (String × Json) → List Char → List Char
  | [], rest => rest
  | [(name, value)], rest => writeString name (':' :: write value rest)
  | (name, value) :: fields, rest => writeString name (':' :: write value (',' :: writeFields fields rest))

end

def text (json : Json) : String := String.ofList (json.write [])

end Json
end Templating
