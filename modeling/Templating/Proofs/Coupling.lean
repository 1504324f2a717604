import Templating.Proofs.Bracketing
import Templating.Proofs.Frozen

/-!
The builder and the analyser, side by side. Each keeps its own account of the elements that are open: the builder has
them on its stack among all that is finished, and cuts it back at an end tag; the analyser has them in a list of its
own, with the owner of the verbatim subtree being read and the node finished last. After every turn of an analysed
build the two accounts say the same.
-/
namespace Templating

def Entry.finishedId? {σ : Type} (entry : Entry σ) : Option NodeId :=
  match entry.event with
  | .opened id => if entry.node.any Node.done then some id else none
  | .closed id => some id

namespace Coupled
variable {a : Analysis} {b : Builder}

theorem openParents (coupled : Coupled a b) : a.parents = b.stack.filter b.isOpenElement :=
  coupled.parents.trans (List.filter_congr fun id _ => b.isOpenKin id)

theorem parentNext (coupled : Coupled a b) {inner outer : List NodeId} {id : NodeId}
    (split : a.parents = inner ++ id :: outer) :
    ∃ node, b.arena.get? id = some node ∧ node.parent = outer.head? := by
  rw [coupled.parents] at split
  obtain ⟨above, rest, stack, _, onwards⟩ := List.filter_eq_append_iff.mp split
  obtain ⟨finished, outside, tail, _, waiting, others⟩ := List.filter_eq_cons_iff.mp onwards
  obtain ⟨k, known, _⟩ := Kindred.isOpenIff.mp waiting
  obtain ⟨node, got, rfl⟩ := Arena.kinSome known
  have parent : node.parent = outside.find? b.arena.kin.isOpen :=
    coupled.linked.stacked (above ++ finished) id outside node.kinship (by rw [stack, tail]; simp) known
  exact ⟨node, got, by rw [parent, ← others, List.head?_filter]⟩

theorem parentsDistinct (coupled : Coupled a b) : a.parents.Nodup := by
  rw [coupled.parents]
  exact coupled.linked.distinct.filter _

end Coupled

theorem Shielded.onlyOwner {options : Options} {past : List (Entry Unit)} {plain : Arena} {a : Analysis} {b : Builder}
    {owner : NodeId} (shielded : Shielded options past plain a b.arena) (coupled : Coupled a b)
    (reading : a.verbatim = some owner) : a.parents.filter b.arena.kin.marks = [owner] := by
  have only : ∀ other ∈ a.parents, b.arena.kin.marks other = (other == owner) := by
    intro other member
    rw [Bool.eq_iff_iff, beq_iff_eq]
    constructor
    · intro marked
      have alsoReading := (shielded.owner other).mpr ⟨member, marked⟩
      exact Option.some.inj (alsoReading.symm.trans reading)
    · rintro rfl
      exact ((shielded.owner other).mp reading).2
  have once : a.parents.count owner = 1 :=
    List.count_eq_one_of_mem coupled.parentsDistinct ((shielded.owner owner).mp reading).1
  rw [List.filter_congr only, List.filter_beq, once]
  rfl

namespace Analysis
variable {options : Options} {source : List Char} {a after : Analysis} {arena changed : Arena}

theorem receiverPrevious {event : Event} (told : receiver options source event a arena = .ok (after, changed)) :
    after.previous = (Entry.finishedId? ⟨event, changed.get? event.id, after, none⟩).or a.previous := by
  cases event with
  | closed id =>
    have result : closed options id a arena = (after, changed) := Except.ok.inj told
    have state : after = _ := (congrArg Prod.fst result).symm.trans (Followed.closedState options id a arena)
    rw [state]
    rfl
  | opened id =>
    replace told : opened options source id a arena = .ok (after, changed) := told
    cases got : arena.get? id with
    | none =>
      simp only [opened, got] at told
      cases told
      simp [Entry.finishedId?, Event.id, got]
    | some node =>
      obtain ⟨⟨content, _, rfl⟩, _⟩ := openedPlaces got told
      rw [openedPrevious got told]
      simp only [Entry.finishedId?, Event.id, Arena.getModify, if_true, got, Option.map_some, Option.any_some]
      cases node.done <;> rfl

end Analysis

namespace Build
variable {comments : Bool} {options : Options} {source : List Char} {n : Nat} {b : Build Analysis}

/-- What the analyser knows is what the stack and the entries so far, the latest first, say: the open elements from
the innermost outwards, each with the next one as its parent; the one of them that is marked as verbatim; and the node
finished last. -/
structure InAccord (latest : List (Entry Analysis)) (b : Build Analysis) : Prop where
  parents : b.state.parents = b.builder.stack.filter b.builder.isOpenElement
  next : ∀ inner id outer, b.state.parents = inner ++ id :: outer →
    ∃ node, b.builder.arena.get? id = some node ∧ node.parent = outer.head?
  owner : ∀ id, b.state.verbatim = some id ↔ id ∈ b.state.parents ∧ b.builder.arena.kin.marks id = true
  onlyOwner : ∀ id, b.state.verbatim = some id → b.state.parents.filter b.builder.arena.kin.marks = [id]
  previous : b.state.previous = latest.findSome? Entry.finishedId?

theorem readsTurns (short : Text.byteLength source < UInt32.size)
    (turns : Turns options.comments (Analysis.receiver options source) n (ofSource source Analysis.start) b) :
    ∃ p, Reads options source p b := by
  have start : Reads options source (ofSource source (Journal.ofState ())) (ofSource source Analysis.start) :=
    ⟨tracksStart options short, Coupled.start source, Shielded.start source⟩
  obtain ⟨p, _, reads⟩ := turnsBeside
    (fun p q reads => congrArg Markup.Scanner.atEnd reads.skipBlank.tracks.alike.scanner)
    (fun p q reads => readsAgree reads.skipBlank) start turns
  exact ⟨p, reads⟩

theorem journalsTurns {σ : Type} {receiver : Receiver σ} {state : σ} {b : Build σ}
    (turns : Turns comments receiver n (ofSource source state) b) :
    ∃ journal : Journal σ,
      Turns comments (Journal.receiver none receiver) n (ofSource source (Journal.ofState state)) ⟨b.builder, journal⟩ ∧
      journal.state = b.state := by
  have start : Journals (ofSource source (Journal.ofState state)) (ofSource source state) := ⟨rfl, rfl⟩
  obtain ⟨⟨builder, journal⟩, beside, same⟩ := turnsBeside
    (fun p q same => congrArg Builder.atEnd (journalsSkip same).builder)
    (fun p q same => journalsTurn comments receiver (journalsSkip same)) start turns
  cases same.builder
  exact ⟨journal, beside, same.state⟩

theorem previousTurn {p next : Build (Journal Analysis)}
    (known : p.state.state.previous = p.state.latest.findSome? Entry.finishedId?)
    (turned : p.turn comments (Journal.receiver none (Analysis.receiver options source)) = .ok next) :
    next.state.state.previous = next.state.latest.findSome? Entry.finishedId? := by
  rcases turnOk turned with ⟨_, same⟩ | ⟨event, builder, arena, _, told, _⟩
  · rw [same]
    exact known
  · obtain ⟨state, heard, after⟩ := Journal.receiverOk told
    have taken := Analysis.receiverPrevious heard
    rw [known] at taken
    rw [after]
    refine taken.trans ?_
    simp only [Journal.record, List.findSome?_cons]
    cases Entry.finishedId? ⟨event, arena.get? event.id, state, none⟩ <;> rfl

theorem previousTurns {p : Build (Journal Analysis)}
    (turns : Turns comments (Journal.receiver none (Analysis.receiver options source)) n
      (ofSource source (Journal.ofState Analysis.start)) p) :
    p.state.state.previous = p.state.latest.findSome? Entry.finishedId? :=
  turnsKeep (I := fun p => p.state.state.previous = p.state.latest.findSome? Entry.finishedId?)
    (fun _ _ known turned => previousTurn known turned) rfl turns

end Build

/-
After every turn of an analysed build of a template shorter than 2^32 bytes, the analyser holds those elements to be
open that are open on the stack, each of which has the next one as its parent; it reads the verbatim subtree of the
only one of them that is marked; and it remembers the node that the latest of the events so far has finished.
-/
theorem analyserInAccord {options : Options} {template : String} {n : Nat} {b : Build Analysis}
    (short : template.utf8ByteSize < UInt32.size)
    (turns : Build.Turns options.comments (Analysis.receiver options template.toList) n
      (Build.ofSource template.toList Analysis.start) b) :
    ∃ journal : Journal Analysis,
      Build.Turns options.comments (Journal.receiver none (Analysis.receiver options template.toList)) n
        (Build.ofSource template.toList (Journal.ofState Analysis.start)) ⟨b.builder, journal⟩ ∧
      journal.state = b.state ∧ b.InAccord journal.latest := by
  rw [← Text.byteLengthToList] at short
  obtain ⟨plain, reads⟩ := Build.readsTurns short turns
  obtain ⟨journal, beside, heard⟩ := Build.journalsTurns turns
  have previous : journal.state.previous = _ := Build.previousTurns beside
  rw [heard] at previous
  exact ⟨journal, beside, heard, reads.coupled.openParents, fun _ _ _ => reads.coupled.parentNext,
    reads.shielded.owner, fun _ => reads.shielded.onlyOwner reads.coupled, previous⟩

def commentedEnds : String := "<br><p v-pre><b><!--</b></p>-->"

theorem verbatimLeftOpen :
    commentedEnds.utf8ByteSize < UInt32.size ∧
    ∃ n b latest, Build.Turns true (Analysis.receiver Options.standard commentedEnds.toList) n
        (Build.ofSource commentedEnds.toList Analysis.start) b ∧
      b.state = ⟨[⟨2⟩, ⟨1⟩], some ⟨3⟩, some ⟨1⟩⟩ ∧ b.builder.stack = [⟨3⟩, ⟨2⟩, ⟨1⟩, ⟨0⟩] ∧ b.InAccord latest := by
  have short : commentedEnds.utf8ByteSize < UInt32.size := by decide
  have shape : (buildWith Options.standard (Analysis.receiver Options.standard commentedEnds.toList)
      Analysis.start commentedEnds.toList).toOption.map (fun b => (b.state, b.builder.stack)) =
        some (⟨[⟨2⟩, ⟨1⟩], some ⟨3⟩, some ⟨1⟩⟩, [⟨3⟩, ⟨2⟩, ⟨1⟩, ⟨0⟩]) := by decide +kernel
  cases ran : buildWith Options.standard (Analysis.receiver Options.standard commentedEnds.toList)
      Analysis.start commentedEnds.toList with
  | error halt =>
    rw [ran] at shape
    contradiction
  | ok ended =>
    rw [ran] at shape
    obtain ⟨state, stack⟩ := Prod.mk.inj (Option.some.inj shape)
    obtain ⟨n, b, turns, rfl, _⟩ := Build.runEnds ran
    obtain ⟨journal, _, _, accord⟩ := analyserInAccord short turns
    exact ⟨short, n, b, journal.latest, turns, state, stack, accord⟩

end Templating
