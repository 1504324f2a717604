import Templating.Text.GraphemeExtend
import Templating.Text.Unprintable

/-!
Quoted text: a text between double quotes in which every character can be seen. Quotes and
backslashes take a backslash, four controls have a letter, and a character that would not show, or
would join the one before it, is written by its code point.
-/
namespace Templating.Text

def hexDigits (n : Nat) : List Char := Nat.toDigits 16 n

def quoteChar (c : Char) : List Char :=
  match c with
  | '"' => ['\\', '"']
  | '\\' => ['\\', '\\']
  | '\t' => ['\\', 't']
  | '\r' => ['\\', 'r']
  | '\n' => ['\\', 'n']
  | '\x00' => ['\\', '0']
  | c =>
      if isCombining c || isUnprintable c then ['\\', 'u', '\x7b'] ++ hexDigits c.toNat ++ ['\x7d'] else [c]

def quoted (cs : List Char) : List Char := '"' :: (cs.flatMap quoteChar ++ ['"'])

end Templating.Text
