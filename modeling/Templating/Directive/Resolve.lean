import Templating.Directive.BindingName
import Templating.Directive.Loop
import Templating.Error
import Templating.Tag

/-!
Resolving the directives of one element. Each pass takes the attribute it knows off the element and
sets the field that the attribute stands for; a pass may depend on the element's surroundings and
refuse the attribute. A refused attribute is gone all the same.
-/
namespace Templating

structure Previous where
  typeName : String
  conditional : Bool
  deriving DecidableEq, Repr

structure Surroundings where
  source : List Char
  offset : Nat
  previous : Option Previous := none
  parentHasLoop : Bool := false
  deriving DecidableEq, Repr

namespace Surroundings

def position (around : Surroundings) : Position := Position.locate around.source around.offset

def previousName (around : Surroundings) : String := (around.previous.map Previous.typeName).getD "as the first child"

def followsCondition (around : Surroundings) : Bool := around.previous.any Previous.conditional

end Surroundings

namespace Directive

abbrev Pass := Surroundings → Element → Except (Halt Element) Element

/-- Takes the attribute `name` off the element and lets `resolve` do with its value what it stands
for. An element without the attribute stays as it is. -/
def onAttribute (name : String) (resolve : AttributeValue → Element → Except (Halt Element) Element) (e : Element) :
    Except (Halt Element) Element :=
  match e.take name with
  | (none, _) => .ok e
  | (some value, e) => resolve value e

def setTo (name : String) (field : String → Element → Element) (e : Element) : Except (Halt Element) Element :=
  onAttribute name (fun value e => .ok (field value.expression e)) e

def ifPass : Pass := fun _ => setTo "v-if" fun condition e => { e with ifCondition := some condition }

def elsePass : Pass := fun around => onAttribute "v-else" fun _ e =>
  if around.followsCondition then .ok { e with isElse := true }
  else .error ⟨.elseWithoutIf e.tag around.previousName around.position, e⟩

def elseIfPass : Pass := fun around => onAttribute "v-else-if" fun value e =>
  if around.followsCondition then .ok { e with elseIfCondition := some value.expression }
  else .error ⟨.elseIfWithoutIf e.tag around.previousName around.position, e⟩

def loopPass : Pass := fun around => onAttribute "v-for" fun value e =>
  match Loop.parse? value.expression with
  | some loop => .ok { e with loop := some loop }
  | none => .error ⟨.illegalForExpression e.tag value.expression around.position, e⟩

def plainPass : Pass := fun _ e => do
  let e ← setTo "key" (fun key e => { e with key := some key }) e
  let e ← setTo "v-show" (fun condition e => { e with showCondition := some condition }) e
  setTo "v-once" (fun once e => { e with once := some once }) e

/- Repeated content and the wrapper cannot be referred to. -/
def refPass : Pass := fun around => onAttribute "ref" fun value e =>
  if around.parentHasLoop || Tag.isWrapper e.tag then .error ⟨.illegalRef e.tag around.position, e⟩
  else .ok { e with ref := some value.expression }

def slotPass : Pass := fun _ e =>
  if Tag.isSlot e.tag then setTo "name" (fun name e => { e with slotName := some name }) e
  else setTo "slot" (fun slot e => { e with slot := some slot }) e

/- Pending attributes become bindings, or literal where their names are not those of bindings. -/
def bindAll (e : Element) : Element :=
  match e.pending with
  | none => e
  | some table =>
      { e with
        pending := none
        bindings := e.bindings ++ table.entries.filterMap fun entry => Binding.ofAttribute? entry.1 entry.2
        attributes := e.attributes.insertAll
          (table.entries.filter fun entry => (Binding.ofAttribute? entry.1 entry.2).isNone) }

def bindingPass : Pass := fun _ e => .ok (bindAll e)

def passes : List Pass :=
  [ifPass, elsePass, elseIfPass, loopPass, plainPass, refPass, slotPass, bindingPass]

def runPasses (passes : List Pass) (around : Surroundings) (e : Element) : Except (Halt Element) Element :=
  passes.foldlM (fun e pass => pass around e) e

def resolve (around : Surroundings) (e : Element) : Except (Halt Element) Element := runPasses passes around e

def startVerbatim? (e : Element) : Option Element :=
  match e.take "v-pre" with
  | (none, _) => none
  | (some _, e) => some { e with pre := true }

def foldPending (e : Element) : Element :=
  match e.pending with
  | none => e
  | some table => { e with pending := none, attributes := e.attributes.extend table }

end Directive
end Templating
