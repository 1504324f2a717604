import Templating.Text.Bytes

/-!
Where something stands in a template: a byte offset with its line and column, and a range of bytes,
from its start up to but not including its stop. All of these are 32-bit words.
-/
namespace Templating

structure Position where
  offset : UInt32
  line : UInt32
  column : UInt32
  deriving DecidableEq, Repr

namespace Position

/- An offset past the end stands for the end, one inside a character for the start of that character. -/
def locate (source : List Char) (offset : Nat) : Position :=
  let before := Text.takeBytes offset source
  ⟨UInt32.ofNat (Text.byteLength before),
   UInt32.ofNat (before.count '\n' + 1),
   UInt32.ofNat ((before.reverse.takeWhile (· ≠ '\n')).length + 1)⟩

def describe (p : Position) : String :=
  "line " ++ toString p.line.toNat ++ ", column " ++ toString p.column.toNat

end Position

structure Span where
  start : UInt32
  stop : UInt32
  deriving DecidableEq, Repr

def Span.ofOffsets (start stop : Nat) : Span := ⟨UInt32.ofNat start, UInt32.ofNat stop⟩

end Templating
