import Templating.Table

/-!
Elements of a template: the tag, the attributes, the children, the text, and what the directives
among the attributes resolve to. Attributes named like bindings are pending until they are resolved;
the others are literal. Interpolations in the text are filed by expression, each with the token as
written and room for the value it will have. Where `pre` holds, a verbatim subtree starts.
-/
namespace Templating

structure NodeId where
  word : UInt32
  deriving DecidableEq, Repr

namespace NodeId

def index (id : NodeId) : Nat := id.word.toNat

def ofIndex (index : Nat) : NodeId := ⟨UInt32.ofNat index⟩

end NodeId

inductive AttributeValue where
  | flag
  | text (value : String)
  deriving DecidableEq, Repr

/- A bare flag stands for the expression `true`. -/
def AttributeValue.expression : AttributeValue → String
  | .flag => "true"
  | .text value => value

inductive LoopKeyword where
  | inWord
  | ofWord
  deriving DecidableEq, Repr

namespace LoopKeyword

def word : LoopKeyword → String
  | .inWord => "in"
  | .ofWord => "of"

def ofWord? (word : String) : Option LoopKeyword :=
  if word = "in" then some .inWord else if word = "of" then some .ofWord else none

end LoopKeyword

structure Loop where
  keyword : LoopKeyword
  item : String
  items : String
  deriving DecidableEq, Repr

structure Binding where
  rawName : String
  name : String
  arg : Option String
  modifiers : List String
  value : AttributeValue
  deriving DecidableEq, Repr

structure Interpolation where
  rawToken : String
  value : Option String
  deriving DecidableEq, Repr

structure Element where
  tag : String
  attributes : Table AttributeValue := Table.empty
  pending : Option (Table AttributeValue) := none
  bindings : List Binding := []
  children : List NodeId := []
  text : Option String := none
  data : Option (Table Interpolation) := none
  ifCondition : Option String := none
  elseIfCondition : Option String := none
  isElse : Bool := false
  loop : Option Loop := none
  key : Option String := none
  showCondition : Option String := none
  once : Option String := none
  ref : Option String := none
  slot : Option String := none
  slotName : Option String := none
  pre : Bool := false
  deriving DecidableEq, Repr

namespace Element

def ofTag (tag : String) : Element := { tag }

def hasCondition (e : Element) : Bool := e.ifCondition.isSome || e.elseIfCondition.isSome

def appendText (e : Element) (run : String) : Element :=
  match e.text with
  | none => { e with text := some run }
  | some text => { e with text := some (text ++ " " ++ run) }

def take (e : Element) (name : String) : Option AttributeValue × Element :=
  (e.attributes.find? name, { e with attributes := e.attributes.erase name })

end Element
end Templating
