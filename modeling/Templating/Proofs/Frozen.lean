import Templating.Proofs.Progress
import Templating.Proofs.Settling

/-!
A node that is done is frozen. Whatever comes later in a build, analysed as it goes, it stays as it is but
for its text; and that only grows where no element is open any more and the node is the innermost element of
those on the stack, which then stands in no other.
-/
namespace Templating
open Markup

def Node.untexted (node : Node) : Node := node.mapElement fun e => { e with text := none }

theorem Node.untextedDone {a b : Node} (same : a.untexted = b.untexted) : a.done = b.done := by
  have done := congrArg Node.done same
  rwa [untexted, untexted, mapElementDone, mapElementDone] at done

namespace Builder

/-- The text that is read comes to the node `id`: no element is open, this one is the innermost of those there are, it
has no parent, and it has the run as its text or behind its text and a space. -/
structure Appends (b : Builder) (id : NodeId) (node now : Node) : Prop where
  shut : ∀ other ∈ b.stack, b.isOpenElement other = false
  topmost : ∃ above outer, b.stack = above ++ id :: outer ∧ ∀ other ∈ above, b.isElement other = false
  outermost : node.parent = none
  appends : ∃ e run behind text, b.scanner.token = .ok (.text run, behind) ∧ node.content = .element e ∧
    (e.text = none ∧ text = String.ofList run ∨
      ∃ before, e.text = some before ∧ text = before ++ " " ++ String.ofList run) ∧
    now = { node with content := .element { e with text := some text } }

theorem Appends.untexted {b : Builder} {id : NodeId} {node now : Node} (appends : b.Appends id node now) :
    now.untexted = node.untexted := by
  obtain ⟨e, run, behind, text, _, content, _, rfl⟩ := appends.appends
  simp [Node.untexted, Node.mapElement, content]

end Builder

def Build.left {σ : Type} : Except (Halt (Build σ)) (Build σ) → Build σ
  | .ok b => b
  | .error halt => halt.state

namespace Analysis
variable {id other : NodeId}

def leaves : Except (Halt (Analysis × Arena)) (Analysis × Arena) → Arena
  | .ok result => result.2
  | .error halt => halt.state.2

theorem receiverOthers (options : Options) (source : List Char) {event : Event} (differs : other ≠ event.id) (a : Analysis)
    (arena : Arena) : (leaves (receiver options source event a arena)).get? other = arena.get? other := by
  cases event with
  | closed id => exact closedOthers differs options a arena
  | opened id =>
    have modified (change : Node → Node) : (arena.modify id change).get? other = arena.get? other :=
      Arena.getModifyOther differs change
    unfold receiver opened
    dsimp only
    split
    · rfl
    · split
      · split
        · exact modified _
        · exact modified _
      · exact modified _

end Analysis

namespace Builder
variable {comments : Bool} {b next : Builder} {event : Event} {id : NodeId} {node : Node} {source : List Char}

theorem stepTold (sound : b.Sound source) (h : b.Step next (some event)) (got : b.arena.get? id = some node)
    (done : node.done = true) : id ≠ event.id ∧ next.arena.get? id = some node := by
  cases event with
  | opened new =>
    obtain ⟨_, arena, _, index, _⟩ := stepOpens sound h
    have inside := Arena.getInside got
    refine ⟨?_, arena ▸ Arena.getPushKept got _⟩
    rintro rfl
    exact absurd index (Nat.ne_of_lt inside)
  | closed ended =>
    obtain ⟨_, _, earlier, _, _, found, _, waiting, arena⟩ := stepCloses h
    have differs : id ≠ ended := by
      rintro rfl
      cases found.symm.trans got
      exact absurd (done.symm.trans waiting) (by decide)
    exact ⟨differs, arena ▸ (Arena.getModifyOther differs _).trans got⟩

theorem isOpenKin (b : Builder) (id : NodeId) : b.arena.kin.isOpen id = b.isOpenElement id := by
  simp [Kindred.isOpen, Arena.kin, isOpenElement, Option.any_map, Kinship.isOpen, Node.kinship]

theorem ownerDone (owned : b.textOwner? = some id) (got : b.arena.get? id = some node) (done : node.done = true) :
    (∀ other ∈ b.stack, b.isOpenElement other = false) ∧
    ∃ above outer, b.stack = above ++ id :: outer ∧ ∀ other ∈ above, b.isElement other = false := by
  rcases Option.or_eq_some_iff.mp owned with found | ⟨none, found⟩
  · have open_ := List.find?_some found
    simp [isOpenElement, got, done] at open_
  · obtain ⟨_, above, outer, split, quiet⟩ := List.find?_eq_some_iff_append.mp found
    refine ⟨fun other member => ?_, above, outer, split, fun other member => ?_⟩
    · exact Bool.not_eq_true _ ▸ List.find?_eq_none.mp none other member
    · simpa using quiet other member

theorem stepSilent {a : Analysis} (coupled : Coupled a b) (stepped : b.step comments = .ok (next, none))
    (got : b.arena.get? id = some node) (done : node.done = true) :
    ∃ now, next.arena.get? id = some now ∧ (now = node ∨ b.Appends id node now) := by
  obtain ⟨token, read⟩ := stepReads stepped
  rw [stepTaken read] at stepped
  obtain ⟨_, _, arena⟩ | ⟨owner, run, rfl, owned, _, arena⟩ := putQuiet stepped
  · exact ⟨node, arena ▸ got, Or.inl rfl⟩
  · by_cases same : id = owner
    · subst same
      obtain ⟨shut, above, outer, split, quiet⟩ := ownerDone owned got done
      obtain ⟨_, e, found, content⟩ := textOwnerElement owned
      cases found.symm.trans got
      have outermost : node.parent = none := by
        have parent : node.parent = outer.find? b.arena.kin.isOpen :=
          coupled.linked.stacked above id outer node.kinship split (Arena.kinOf got)
        rw [parent]
        refine List.find?_eq_none.mpr fun other member => ?_
        rw [isOpenKin, shut other (by simp [split, member])]
        decide
      have now : next.arena.get? id = some { node with content := .element (e.appendText (String.ofList run)) } := by
        rw [arena, Arena.modifyElement, Arena.getModify, if_pos rfl, got]
        simp [Node.mapElement, content]
      refine ⟨_, now, Or.inr ⟨shut, ⟨above, outer, split, quiet⟩, outermost, ?_⟩⟩
      unfold Element.appendText
      cases text : e.text with
      | none => exact ⟨e, run, _, _, read, content, Or.inl ⟨text, rfl⟩, rfl⟩
      | some before => exact ⟨e, run, _, _, read, content, Or.inr ⟨before, text, rfl⟩, rfl⟩
    · refine ⟨node, ?_, Or.inl rfl⟩
      rw [arena, Arena.modifyElement, Arena.getModifyOther same, got]

end Builder

namespace Build
variable {options : Options} {source : List Char} {b last : Build Analysis} {id : NodeId} {node : Node}

theorem turnFrozen (analysed : b.Analysed source) (got : b.builder.arena.get? id = some node) (done : node.done = true) :
    ∃ now, (left (b.turn options.comments (Analysis.receiver options source))).builder.arena.get? id = some now ∧
      (now = node ∨ b.builder.Appends id node now) := by
  unfold turn
  cases stepped : b.builder.step options.comments with
  | error cause => exact ⟨node, got, Or.inl rfl⟩
  | ok result =>
    obtain ⟨next, event⟩ := result
    cases event with
    | none => exact Builder.stepSilent analysed.coupled stepped got done
    | some event =>
      obtain ⟨differs, kept⟩ := Builder.stepTold analysed.sound (Builder.stepCases stepped) got done
      have others := Analysis.receiverOthers options source differs b.state next.arena
      refine ⟨node, ?_, Or.inl rfl⟩
      dsimp only [tell]
      split
      · rename_i told
        rw [told] at others
        exact others.trans kept
      · rename_i told
        rw [told] at others
        exact others.trans kept

theorem Analysed.turns {n : Nat} (analysed : b.Analysed source)
    (turns : Turns options.comments (Analysis.receiver options source) n b last) : last.Analysed source :=
  turnsKeep (fun _ _ analysed turned => analysed.skip.turn turned) analysed turns

structure Keeps (id : NodeId) (node : Node) (b : Build Analysis) : Prop where
  kept : ∃ now, b.builder.arena.get? id = some now ∧ now.untexted = node.untexted ∧ (node.parent ≠ none → now = node)

theorem turnKeeps {next : Build Analysis} (done : node.done = true) (analysed : b.Analysed source) (keeps : Keeps id node b)
    (turned : b.turn options.comments (Analysis.receiver options source) = .ok next) : Keeps id node next := by
  obtain ⟨seen, got, same, whole⟩ := keeps.kept
  have still : seen.done = true := (Node.untextedDone same).trans done
  obtain ⟨now, found, changed⟩ := turnFrozen analysed got still
  rw [turned] at found
  rcases changed with rfl | appends
  · exact ⟨now, found, same, whole⟩
  · refine ⟨now, found, appends.untexted.trans same, fun inside => ?_⟩
    cases whole inside
    exact absurd appends.outermost inside

theorem turnsKeeps {n : Nat} (done : node.done = true) (analysed : b.Analysed source)
    (got : b.builder.arena.get? id = some node)
    (turns : Turns options.comments (Analysis.receiver options source) n b last) : Keeps id node last := by
  have start : b.Analysed source ∧ Keeps id node b := ⟨analysed, node, got, rfl, fun _ => rfl⟩
  refine (turnsKeep (I := fun b => b.Analysed source ∧ Keeps id node b) (fun b next kept turned => ?_) start turns).2
  have skipped : Keeps id node b.skipBlank := ⟨kept.2.kept⟩
  exact ⟨kept.1.skip.turn turned, turnKeeps done kept.1.skip skipped turned⟩

end Build

/-
Whatever the options, once a node is done in an analysed build of a template shorter than 2^32 bytes, a turn leaves
it as it is, or appends a run to its text where it is the innermost element and none is open; so it stays the same
but for its text, and in all of it where it has a parent.
-/
theorem finishedFrozen {options : Options} {template : String} {n : Nat} {b : Build Analysis} {id : NodeId} {node : Node}
    (short : template.utf8ByteSize < UInt32.size)
    (turns : Build.Turns options.comments (Analysis.receiver options template.toList) n
      (Build.ofSource template.toList Analysis.start) b)
    (got : b.builder.arena.get? id = some node) (done : node.done = true) :
    (∃ now, (Build.left (b.skipBlank.turn options.comments (Analysis.receiver options template.toList))).builder.arena.get?
        id = some now ∧ (now = node ∨ b.skipBlank.builder.Appends id node now)) ∧
    ∀ m later, Build.Turns options.comments (Analysis.receiver options template.toList) m b later →
      ∃ now, later.builder.arena.get? id = some now ∧ now.untexted = node.untexted ∧
        (node.parent ≠ none → now = node) := by
  rw [← Text.byteLengthToList] at short
  have analysed := (Build.Analysed.start short).turns turns
  exact ⟨Build.turnFrozen analysed.skip got done, fun m later after => (Build.turnsKeeps done analysed got after).kept⟩

def voidThenText : String := "<br>a"

theorem voidTakesText :
    voidThenText.utf8ByteSize < UInt32.size ∧
    ∃ b node now, Build.Turns true (Analysis.receiver Options.standard voidThenText.toList) 1
        (Build.ofSource voidThenText.toList Analysis.start) b ∧
      b.builder.arena.get? ⟨0⟩ = some node ∧ node.done = true ∧
      (Build.left (b.skipBlank.turn true (Analysis.receiver Options.standard voidThenText.toList))).builder.arena.get? ⟨0⟩ =
        some now ∧
      b.skipBlank.builder.Appends ⟨0⟩ node now := by
  have short : voidThenText.utf8ByteSize < UInt32.size := by decide
  have first : ((Build.ofSource voidThenText.toList Analysis.start).skipBlank.turn true
      (Analysis.receiver Options.standard voidThenText.toList)).toOption.map (fun b =>
        ((b.builder.arena.get? ⟨0⟩).map fun node => (node.done, node.element?.bind Element.text),
          ((Build.left (b.skipBlank.turn true (Analysis.receiver Options.standard voidThenText.toList))).builder.arena.get?
            ⟨0⟩).map fun node => node.element?.bind Element.text)) =
      some (some (true, none), some (some "a")) := by decide +kernel
  cases turned : (Build.ofSource voidThenText.toList Analysis.start).skipBlank.turn true
      (Analysis.receiver Options.standard voidThenText.toList) with
  | error halt =>
    rw [turned] at first
    contradiction
  | ok b =>
    rw [turned] at first
    obtain ⟨before, after⟩ := Prod.mk.inj (Option.some.inj first)
    obtain ⟨node, got, shown⟩ := Option.map_eq_some_iff.mp before
    obtain ⟨done, empty⟩ := Prod.mk.inj shown
    have turns : Build.Turns Options.standard.comments (Analysis.receiver Options.standard voidThenText.toList) 1
        (Build.ofSource voidThenText.toList Analysis.start) b := .more (by decide +kernel) turned (.none b)
    obtain ⟨now, found, same | appends⟩ := (finishedFrozen short turns got done).1
    · subst same
      have late : some (now.element?.bind Element.text) = some (some "a") :=
        (congrArg (Option.map fun node : Node => node.element?.bind Element.text) found).symm.trans after
      cases empty.symm.trans (Option.some.inj late)
    · exact ⟨short, b, node, now, turns, got, done, found, appends⟩

end Templating
