import Templating.Build.Event
import Templating.Directive.Interpolation
import Templating.Directive.Resolve

/-!
Directive analysis as a receiver: an element's directives are resolved as it is opened and its
interpolations collected as it is closed. The state is what this needs to know of the nodes around:
the open elements, the innermost first; the node finished last, wherever it stands; and the element
whose verbatim subtree is being read.
-/
namespace Templating

structure Analysis where
  parents : List NodeId
  previous : Option NodeId
  verbatim : Option NodeId
  deriving DecidableEq, Repr

namespace Analysis

def start : Analysis := ⟨[], none, none⟩

def inVerbatim (a : Analysis) : Bool := a.verbatim.isSome

def leave (a : Analysis) (id : NodeId) : Analysis := if a.verbatim = some id then { a with verbatim := none } else a

def finish (a : Analysis) (id : NodeId) : Analysis := { a with previous := some id }.leave id

def previousOf (arena : Arena) (id : NodeId) : Option Previous :=
  (arena.get? id).map fun node => ⟨node.typeName, node.hasCondition⟩

def surroundings (a : Analysis) (source : List Char) (arena : Arena) (node : Node) : Surroundings where
  source
  offset := node.span.start.toNat
  previous := a.previous.bind (previousOf arena)
  parentHasLoop := (a.parents.head?.bind arena.element?).any (·.loop.isSome)

def openElement (a : Analysis) (options : Options) (around : Surroundings) (id : NodeId) (e : Element) :
    Except (Halt Element) (Analysis × Element) :=
  let entered : Analysis × Element :=
    if a.inVerbatim then (a, e) else
    match Directive.startVerbatim? e with
    | some e => ({ a with verbatim := some id }, e)
    | none => (a, e)
  if entered.1.inVerbatim || options.isRawText entered.2.tag then .ok (entered.1, Directive.foldPending entered.2)
  else (Directive.resolve around entered.2).map fun e => (entered.1, e)

def opened (options : Options) (source : List Char) (id : NodeId) (a : Analysis) (arena : Arena) :
    Except (Halt (Analysis × Arena)) (Analysis × Arena) :=
  match arena.get? id with
  | none => .ok (a, arena)
  | some node =>
      let placed := { node with parent := a.parents.head?, root := a.parents.isEmpty }
      match node.content with
      | .element e =>
          match a.openElement options (a.surroundings source arena node) id e with
          | .error ⟨cause, e⟩ => .error ⟨cause, a, arena.modify id fun _ => { placed with content := .element e }⟩
          | .ok (entered, e) =>
              .ok (if node.done then entered.finish id else { entered with parents := id :: entered.parents },
                arena.modify id fun _ => { placed with content := .element e })
      | _ => .ok (if node.done then a.finish id else a, arena.modify id fun _ => placed)

def outside (id : NodeId) (parents : List NodeId) : List NodeId :=
  if id ∈ parents then (parents.dropWhile (· ≠ id)).drop 1 else parents

/- A verbatim subtree ends too when its element is no longer open and not the one being closed. -/
def settle (a : Analysis) (closing : NodeId) : Analysis :=
  match a.verbatim with
  | none => a
  | some owner => if owner ≠ closing ∧ owner ∉ a.parents then { a with verbatim := none } else a

def collectData (delimiters : Delimiters) (e : Element) : Element :=
  match e.text.bind (Interpolation.extract delimiters) with
  | none => e
  | some found => { e with data := some ((e.data.getD Table.empty).extend found) }

def closed (options : Options) (id : NodeId) (a : Analysis) (arena : Arena) : Analysis × Arena :=
  let settled := { a with parents := outside id a.parents, previous := some id }.settle id
  (settled.leave id,
    if settled.inVerbatim then arena
    else arena.modifyElement id fun e => if options.isRawText e.tag then e else collectData options.delimiters e)

def receiver (options : Options) (source : List Char) : Receiver Analysis := fun event a arena =>
  match event with
  | .opened id => opened options source id a arena
  | .closed id => .ok (closed options id a arena)

end Analysis
end Templating
