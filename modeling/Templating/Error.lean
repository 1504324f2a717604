import Templating.Source.Position

/-!
Why a template is rejected. The first fault found ends a compilation, so there is one error and it
names its cause; the wording is in `CompileError.message`.
-/
namespace Templating

inductive ErrorKind where
  | syntactic
  | semantic
  | structural
  deriving DecidableEq, Repr

namespace ErrorKind

def all : List ErrorKind := [.syntactic, .semantic, .structural]

def name : ErrorKind → String
  | .syntactic => "Syntax"
  | .semantic => "Semantic"
  | .structural => "Structural"

def ofName? (name : String) : Option ErrorKind := all.find? (·.name = name)

end ErrorKind

inductive ErrorCode where
  | illegalTemplate
  | rootNodeCount
  | illegalRef
  | illegalForExpression
  | elseWithoutIf
  | elseIfWithoutIf
  deriving DecidableEq, Repr

namespace ErrorCode

def all : List ErrorCode :=
  [.illegalTemplate, .rootNodeCount, .illegalRef, .illegalForExpression, .elseWithoutIf, .elseIfWithoutIf]

def name : ErrorCode → String
  | .illegalTemplate => "IllegalTemplate"
  | .rootNodeCount => "RootNodeCount"
  | .illegalRef => "IllegalRef"
  | .illegalForExpression => "IllegalForExpression"
  | .elseWithoutIf => "ElseWithoutIf"
  | .elseIfWithoutIf => "ElseIfWithoutIf"

def ofName? (name : String) : Option ErrorCode := all.find? (·.name = name)

def number : ErrorCode → Nat
  | .illegalTemplate => 0
  | .rootNodeCount => 1
  | .illegalRef => 2
  | .illegalForExpression => 3
  | .elseWithoutIf => 4
  | .elseIfWithoutIf => 5

def kind : ErrorCode → ErrorKind
  | .illegalTemplate => .syntactic
  | .rootNodeCount => .structural
  | .illegalRef | .illegalForExpression | .elseWithoutIf | .elseIfWithoutIf => .semantic

def summary : ErrorCode → String
  | .illegalTemplate => "Template string is illegal."
  | .rootNodeCount => "Template must have exactly one root node."
  | .illegalRef => "ref is not allowed inside v-for or on <template>."
  | .illegalForExpression => "v-for expression is illegal."
  | .elseWithoutIf => "v-else has no adjacent v-if or v-else-if."
  | .elseIfWithoutIf => "v-else-if has no adjacent v-if or v-else-if."

end ErrorCode

inductive IllegalReason where
  | malformedAttribute
  | unterminatedTag (tag : String)
  | unmatchedEndTag (tag : String)
  | strayText
  | unexpectedContent
  deriving DecidableEq, Repr

namespace IllegalReason

def name : IllegalReason → String
  | .malformedAttribute => "MalformedAttribute"
  | .unterminatedTag _ => "UnterminatedTag"
  | .unmatchedEndTag _ => "UnmatchedEndTag"
  | .strayText => "StrayText"
  | .unexpectedContent => "UnexpectedContent"

def describe : IllegalReason → String
  | .malformedAttribute => "malformed attribute"
  | .unterminatedTag tag => s!"unterminated <{tag}> tag"
  | .unmatchedEndTag tag => s!"unmatched </{tag}>"
  | .strayText => "text outside of any element"
  | .unexpectedContent => "unexpected content"

end IllegalReason

inductive CompileError where
  | illegalTemplate (reason : IllegalReason) (position : Position)
  | rootNodeCount (count : Nat)
  | illegalRef (tag : String) (position : Position)
  | illegalForExpression (tag expression : String) (position : Position)
  | elseWithoutIf (tag previous : String) (position : Position)
  | elseIfWithoutIf (tag previous : String) (position : Position)
  deriving DecidableEq, Repr

namespace CompileError

def code : CompileError → ErrorCode
  | .illegalTemplate .. => .illegalTemplate
  | .rootNodeCount .. => .rootNodeCount
  | .illegalRef .. => .illegalRef
  | .illegalForExpression .. => .illegalForExpression
  | .elseWithoutIf .. => .elseWithoutIf
  | .elseIfWithoutIf .. => .elseIfWithoutIf

def kind (error : CompileError) : ErrorKind := error.code.kind

def position? : CompileError → Option Position
  | .illegalTemplate _ position => some position
  | .rootNodeCount _ => none
  | .illegalRef _ position => some position
  | .illegalForExpression _ _ position => some position
  | .elseWithoutIf _ _ position => some position
  | .elseIfWithoutIf _ _ position => some position

def reason? : CompileError → Option IllegalReason
  | .illegalTemplate reason _ => some reason
  | _ => none

def chainMessage (tag directive previous : String) : String :=
  s!"{tag} element's {directive} must follow a sibling with a v-if or v-else-if condition, " ++
    s!"but {previous} element is illegal!"

def message : CompileError → String
  | .illegalTemplate reason position =>
      "template string is illegal: " ++ reason.describe ++ " at " ++ position.describe
  | .rootNodeCount count =>
      s!"template must have exactly one root node, but this template has {count} root node(s); " ++
        "wrap it in a single element"
  | .illegalRef tag _ =>
      s!"{tag} element cannot have a ref attribute inside an element with v-for or on a template element"
  | .illegalForExpression tag expression _ =>
      s!"The v-for expression `{expression}` in {tag} element is illegal, expected `alias in|of collection`"
  | .elseWithoutIf tag previous _ => chainMessage tag "v-else" previous
  | .elseIfWithoutIf tag previous _ => chainMessage tag "v-else-if" previous

end CompileError

structure Halt (α : Type) where
  cause : CompileError
  state : α
  deriving DecidableEq, Repr

end Templating
