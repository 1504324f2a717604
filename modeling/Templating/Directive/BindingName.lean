import Templating.Node.Element

/-!
Names of attributes that bind: `v-name:arg.modifier`, with `:` short for `v-bind:` and `@` short for
`v-on:`. A name that merely holds a colon is none of these.
-/
namespace Templating

structure BindingName where
  name : String
  arg : Option String
  modifiers : List String
  deriving DecidableEq, Repr

namespace BindingName

def modifiersOf (tail : List Char) : List String :=
  ((tail.splitOn '.').filter (· ≠ [])).map String.ofList

def withArgument (name : List Char) (tail : List Char) : BindingName :=
  let arg := tail.takeWhile (· ≠ '.')
  ⟨String.ofList name, if arg = [] then none else some (String.ofList arg), modifiersOf (tail.dropWhile (· ≠ '.'))⟩

def parseLong? (tail : List Char) : Option BindingName :=
  let name := tail.takeWhile fun c => c ≠ ':' && c ≠ '.'
  if name = [] then none else
  match tail.dropWhile fun c => c ≠ ':' && c ≠ '.' with
  | ':' :: argument => some (withArgument name argument)
  | modifiers => some ⟨String.ofList name, none, modifiersOf modifiers⟩

def parse? (raw : String) : Option BindingName :=
  match raw.toList with
  | ':' :: tail => some (withArgument "bind".toList tail)
  | '@' :: tail => some (withArgument "on".toList tail)
  | 'v' :: '-' :: tail => parseLong? tail
  | _ => none

end BindingName

def Binding.ofAttribute? (rawName : String) (value : AttributeValue) : Option Binding :=
  (BindingName.parse? rawName).map fun parsed => ⟨rawName, parsed.name, parsed.arg, parsed.modifiers, value⟩

end Templating
