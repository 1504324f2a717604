import Templating.Build.Builder

/-!
A build with a receiver, from its first construct to its last. Each turn reads one construct and
tells the receiver; what the receiver leaves of the nodes is what the next turn starts from.
-/
namespace Templating

structure Build (σ : Type) where
  builder : Builder
  state : σ

namespace Build
variable {σ : Type}

def ofSource (source : List Char) (state : σ) : Build σ := ⟨Builder.ofSource source, state⟩

def skipBlank (b : Build σ) : Build σ := { b with builder := b.builder.skipBlank }

/- The receiver is told of `event` and its changes are kept, also those made before it failed. -/
def tell (receiver : Receiver σ) (event : Event) (b : Build σ) : Except (Halt (Build σ)) (Build σ) :=
  match receiver event b.state b.builder.arena with
  | .ok (state, arena) => .ok ⟨{ b.builder with arena }, state⟩
  | .error ⟨cause, state, arena⟩ => .error ⟨cause, { b.builder with arena }, state⟩

def turn (comments : Bool) (receiver : Receiver σ) (b : Build σ) : Except (Halt (Build σ)) (Build σ) :=
  match b.builder.step comments with
  | .error cause => .error ⟨cause, b⟩
  | .ok (builder, none) => .ok { b with builder }
  | .ok (builder, some event) => tell receiver event { b with builder }

theorem tellScanner {receiver : Receiver σ} {event : Event} {b next : Build σ}
    (h : b.tell receiver event = .ok next) : next.builder.scanner = b.builder.scanner := by
  unfold tell at h
  split at h
  · cases h; rfl
  · contradiction

theorem turnShortens {comments : Bool} {receiver : Receiver σ} {b next : Build σ}
    (h : b.turn comments receiver = .ok next) :
    next.builder.scanner.rest.length < b.builder.scanner.rest.length := by
  unfold turn at h
  split at h
  · contradiction
  · rename_i step
    cases h
    exact Builder.stepShortens step
  · rename_i step
    rw [tellScanner h]
    exact Builder.stepShortens step

def run (comments : Bool) (receiver : Receiver σ) (b : Build σ) : Except (Halt (Build σ)) (Build σ) :=
  if b.skipBlank.builder.atEnd then .ok b.skipBlank else
  match _taken : b.skipBlank.turn comments receiver with
  | .error halt => .error halt
  | .ok next => run comments receiver next
termination_by b.builder.scanner.rest.length
decreasing_by exact Nat.lt_of_lt_of_le (turnShortens _taken) b.builder.scanner.restSkipBlankLength

end Build
end Templating
