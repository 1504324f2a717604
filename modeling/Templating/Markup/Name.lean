/-!
The characters of names in markup. All of them are ASCII.
-/
namespace Templating.Markup

def isWord (c : Char) : Bool := c.isAlphanum || c == '_'

def isTagName (c : Char) : Bool := isWord c || c == '-'

def isAttributeStart (c : Char) : Bool := isWord c || c == ':' || c == '@'

def isAttributeName (c : Char) : Bool := isWord c || c == '-' || c == ':' || c == '.'

def tagName : List Char → List Char
  | [] => []
  | c :: r => if isWord c then c :: r.takeWhile isTagName else []

def isBindingName (name : List Char) : Bool := name.any fun c => c == ':' || c == '@'

end Templating.Markup
