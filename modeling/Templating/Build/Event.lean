import Templating.Arena
import Templating.Error

/-!
What a build tells as it goes: a node has been opened (an element with its attributes, a comment, a
doctype), or an element has been closed and has its children. A receiver may change the nodes there
are, and may stop the build.
-/
namespace Templating

inductive Event where
  | opened (id : NodeId)
  | closed (id : NodeId)
  deriving DecidableEq, Repr

def Event.id : Event → NodeId
  | .opened id => id
  | .closed id => id

abbrev Receiver (σ : Type) := Event → σ → Arena → Except (Halt (σ × Arena)) (σ × Arena)

namespace Receiver

def silent : Receiver Unit := fun _ state arena => .ok (state, arena)

end Receiver
end Templating
