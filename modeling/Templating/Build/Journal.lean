import Templating.Build.Event

/-!
A receiver that keeps a journal of another: for each event the node as it then was, the state of the
other receiver, and the error if it failed. The journal may be given a length at which it stops the
build itself.
-/
namespace Templating

structure Entry (σ : Type) where
  event : Event
  node : Option Node
  state : σ
  failure : Option CompileError

/- The latest entry is first. -/
structure Journal (σ : Type) where
  state : σ
  latest : List (Entry σ)

namespace Journal
variable {σ : Type}

def ofState (state : σ) : Journal σ := ⟨state, []⟩

def entries (journal : Journal σ) : List (Entry σ) := journal.latest.reverse

def record (journal : Journal σ) (event : Event) (state : σ) (arena : Arena) (failure : Option CompileError) :
    Journal σ :=
  ⟨state, ⟨event, arena.get? event.id, state, failure⟩ :: journal.latest⟩

def receiver (limit : Option Nat) (inner : Receiver σ) : Receiver (Journal σ) := fun event journal arena =>
  match inner event journal.state arena with
  | .error ⟨cause, state, arena⟩ => .error ⟨cause, journal.record event state arena (some cause), arena⟩
  | .ok (state, arena) =>
      let journal := journal.record event state arena none
      if limit = some journal.latest.length then .error ⟨.rootNodeCount journal.latest.length, journal, arena⟩
      else .ok (journal, arena)

end Journal
end Templating
