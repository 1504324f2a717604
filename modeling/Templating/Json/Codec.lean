import Templating.Error
import Templating.Json.Decode
import Templating.Node.Element

/-!
The JSON forms of the small values that are exchanged on their own: ids, positions, spans, and the
names of keywords, error codes and error kinds.
-/
namespace Templating

structure Codec (α : Type) where
  encode : α → Json
  decode? : Json → Option α

namespace Codec

def normalise? {α : Type} (codec : Codec α) (json : Json) : Option Json := (codec.decode? json).map codec.encode

def word : Codec UInt32 := ⟨fun word => .int word.toNat, Json.word?⟩

def named {α : Type} (name : α → String) (ofName? : String → Option α) : Codec α :=
  ⟨fun value => .string (name value), fun json => json.constructor?.bind ofName?⟩

def nodeId : Codec NodeId := ⟨fun id => word.encode id.word, fun json => (word.decode? json).map NodeId.mk⟩

def position : Codec Position where
  encode p := .object [("offset", word.encode p.offset), ("line", word.encode p.line), ("column", word.encode p.column)]
  decode? json := do
    match ← json.record? ["offset", "line", "column"] with
    | [offset, line, column] => some ⟨← word.decode? offset, ← word.decode? line, ← word.decode? column⟩
    | _ => none

def span : Codec Span where
  encode s := .object [("start", word.encode s.start), ("end", word.encode s.stop)]
  decode? json := do
    match ← json.record? ["start", "end"] with
    | [start, stop] => some ⟨← word.decode? start, ← word.decode? stop⟩
    | _ => none

def loopKeyword : Codec LoopKeyword := named LoopKeyword.word LoopKeyword.ofWord?

def errorCode : Codec ErrorCode := named ErrorCode.name ErrorCode.ofName?

def errorKind : Codec ErrorKind := named ErrorKind.name ErrorKind.ofName?

end Codec
end Templating
