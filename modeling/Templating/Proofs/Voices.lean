import Templating.Proofs.Progress
import Templating.Proofs.Spacing
import Templating.Proofs.Stretches

/-!
What is spoken. Between two tokens of markup stands at most one run of text, so a stretch that has come to an element
has one run of its text or is blank; and where text comes to no element, there is none.
-/
namespace Templating
open Markup

namespace Stretch
variable {source blanks : List Char} {s t : Stretch}

theorem runExtended (blank : ∀ c ∈ blanks, Text.isBlank c = true) (longer : t.chars source = s.chars source ++ blanks) :
    t.run source = s.run source ∧ t.blank source = s.blank source := by
  refine ⟨?_, ?_⟩
  · rw [run, longer, Text.trimBlanksBehind blank, run]
  · rw [Stretch.blank, longer, List.all_append, List.all_eq_true.mpr blank, Bool.and_true, Stretch.blank]

end Stretch

structure Edge (source : List Char) (start : Nat) (s : Scanner) : Prop where
  passed : ∃ lead middle trail, source = lead ++ (middle ++ (s.rest ++ trail)) ∧ Text.byteLength lead = start ∧
    s.offset = Text.byteLength (lead ++ middle) ∧ (∀ c ∈ trail, Text.isBlank c = true) ∧
    ((∀ c ∈ middle, Text.isBlank c = true) ∨ ∀ c, s.rest.head? = some c → isText c = false)

namespace Edge
variable {source covered run : List Char} {start : Nat} {s t : Scanner}

theorem ofSource (source : List Char) : Edge source 0 (Scanner.ofSource source) := by
  obtain ⟨trail, blank, split⟩ := Scanner.ofSourceSides source
  exact ⟨[], source.takeWhile Text.isBlank, trail, split, rfl, rfl, blank, Or.inl (List.all_eq_true.mp List.all_takeWhile)⟩

theorem further {lead middle trail : List Char} (reaches : s.Reaches covered t)
    (split : source = lead ++ (middle ++ (s.rest ++ trail))) (offset : s.offset = Text.byteLength (lead ++ middle)) :
    source = lead ++ ((middle ++ covered) ++ (t.rest ++ trail)) ∧
      t.offset = Text.byteLength (lead ++ (middle ++ covered)) := by
  have rest : s.rest ++ trail = covered ++ (t.rest ++ trail) :=
    (congrArg (· ++ trail) reaches.rest).trans (List.append_assoc ..)
  refine ⟨?_, ?_⟩
  · rw [split, rest, List.append_assoc]
  · rw [reaches.offset, offset, ← List.append_assoc, Text.byteLengthAppend (lead ++ middle)]

theorem skip (edge : Edge source start s) : Edge source start s.skipBlank := by
  obtain ⟨lead, middle, trail, split, place, offset, blank, quiet⟩ := edge.passed
  obtain ⟨whole, behind⟩ := further s.reachesSkipBlank split offset
  refine ⟨lead, _, trail, whole, place, behind, blank, ?_⟩
  rcases quiet with quiet | ended
  · refine Or.inl fun c member => ?_
    rcases List.mem_append.mp member with before | passed
    · exact quiet c before
    · exact List.all_eq_true.mp List.all_takeWhile c passed
  · -- what ends a text is no blank, so nothing is passed over
    refine Or.inr fun c head => ended c ?_
    rw [Scanner.restSkipBlank] at head
    cases rest : s.rest with
    | nil =>
      rw [rest] at head
      contradiction
    | cons d r =>
      have stops := ended d (by rw [rest]; rfl)
      have visible : Text.isBlank d = false := by
        by_contra gap
        rw [Text.blankText (by simpa using gap)] at stops
        contradiction
      rw [rest, Text.trimStart, List.dropWhile_cons_of_neg (by simp [visible])] at head
      exact head

theorem mark (edge : Edge source start s) (reaches : s.Reaches covered t) : Edge source t.offset t := by
  obtain ⟨lead, middle, trail, split, _, offset, blank, _⟩ := edge.passed
  obtain ⟨whole, behind⟩ := further reaches split offset
  refine ⟨lead ++ (middle ++ covered), [], trail, ?_, behind.symm, ?_, blank, Or.inl fun c none => by contradiction⟩
  · rw [List.nil_append, List.append_assoc]
    exact whole
  · rw [List.append_nil]
    exact behind

theorem text (edge : Edge source start s) (read : TextRead run covered t.rest) (reaches : s.Reaches covered t) :
    Edge source start t := by
  obtain ⟨lead, middle, trail, split, place, offset, blank, _⟩ := edge.passed
  obtain ⟨whole, behind⟩ := further reaches split offset
  exact ⟨lead, middle ++ covered, trail, whole, place, behind, blank, Or.inr read.stops⟩

theorem chars (edge : Edge source start s) (reaches : s.Reaches covered t) :
    (⟨start, t.offset⟩ : Stretch).chars source = (⟨start, s.offset⟩ : Stretch).chars source ++ covered := by
  obtain ⟨lead, middle, trail, split, place, offset, _, _⟩ := edge.passed
  obtain ⟨whole, behind⟩ := further reaches split offset
  have here := Text.sliceExact lead middle (s.rest ++ trail)
  have there := Text.sliceExact lead (middle ++ covered) (t.rest ++ trail)
  rw [← split, place, ← offset] at here
  rw [← whole, place, ← behind] at there
  rw [Stretch.chars, there, Stretch.chars, here]

theorem blankBefore (edge : Edge source start s) {c : Char} (head : s.rest.head? = some c) (plain : isText c = true) :
    (⟨start, s.offset⟩ : Stretch).blank source = true := by
  obtain ⟨lead, middle, trail, split, place, offset, _, quiet⟩ := edge.passed
  have here := Text.sliceExact lead middle (s.rest ++ trail)
  rw [← split, place, ← offset] at here
  rcases quiet with quiet | ended
  · rw [Stretch.blank, Stretch.chars, here]
    exact List.all_eq_true.mpr quiet
  · rw [ended c head] at plain
    contradiction

theorem used (edge : Edge source start s) (none : s.rest = []) : ∃ blanks, (∀ c ∈ blanks, Text.isBlank c = true) ∧
    (⟨start, Text.byteLength source⟩ : Stretch).chars source = (⟨start, s.offset⟩ : Stretch).chars source ++ blanks := by
  obtain ⟨lead, middle, trail, split, place, offset, blank, _⟩ := edge.passed
  rw [none, List.nil_append] at split
  have here := Text.sliceExact lead middle trail
  have there := Text.sliceExact lead (middle ++ trail) []
  rw [List.append_nil, ← split, place] at there
  rw [← split, place, ← offset] at here
  exact ⟨trail, blank, by rw [Stretch.chars, there, Stretch.chars, here]⟩

end Edge

/-- The texts so far are what is spoken in the stretches that have come to the elements, if the last stretch ends at
`stop`; in those that have come to no element there is none. -/
structure Voices (source : List Char) (past : List (Option NodeId × Mark)) (b : Builder) (stop : Nat) : Prop where
  texts : ∀ id node e, b.arena.get? id = some node → node.content = .element e →
    e.text = spoken source (owned id (ledger 0 past b.textOwner? stop))
  silent : ∀ s, (none, s) ∈ ledger 0 past b.textOwner? stop → s.blank source = true
  plain : ∀ id node e text, b.arena.get? id = some node → node.content = .element e → e.text = some text →
    ∀ c ∈ text.toList, isText c = true

namespace Voices
variable {source covered run : List Char} {past : List (Option NodeId × Mark)} {b next : Builder} {stop later : Nat}
  {id owner : NodeId} {earlier node : Node} {token : Token} {e : Element} {above outer : List NodeId}

theorem start (source : List Char) : Voices source [] (Builder.ofSource source) (Scanner.ofSource source).offset := by
  have nowhere {id : NodeId} {node : Node} (got : (Builder.ofSource source).arena.get? id = some node) : False := by
    simp [Builder.ofSource, Arena.empty, Arena.get?] at got
  refine ⟨fun id node e got => (nowhere got).elim, ?_, fun id node e text got => (nowhere got).elim⟩
  intro s member
  rw [ledger, List.mem_singleton] at member
  have same : s = ⟨0, (Scanner.ofSource source).offset⟩ := congrArg Prod.snd member
  have lead := Text.sliceExact [] (source.takeWhile Text.isBlank) (source.dropWhile Text.isBlank)
  rw [List.nil_append, List.nil_append, List.takeWhile_append_dropWhile] at lead
  have chars : (⟨0, (Scanner.ofSource source).offset⟩ : Stretch).chars source = source.takeWhile Text.isBlank := lead
  rw [same, Stretch.blank, chars]
  exact List.all_takeWhile

theorem extended (voices : Voices source past b stop)
    (same : (⟨reach 0 (past.map Prod.snd), later⟩ : Stretch).run source =
        (⟨reach 0 (past.map Prod.snd), stop⟩ : Stretch).run source ∧
      (⟨reach 0 (past.map Prod.snd), later⟩ : Stretch).blank source =
        (⟨reach 0 (past.map Prod.snd), stop⟩ : Stretch).blank source) : Voices source past b later := by
  refine ⟨?_, ?_, voices.plain⟩
  · intro id node e got content
    obtain ⟨settled, last⟩ := ownedLast 0 past id
    rw [voices.texts id node e got content, last, last]
    split
    · exact (spokenExtended same.1 same.2).symm
    · rfl
  · intro s member
    obtain ⟨settled, last⟩ := ledgerLast 0 past
    have silent := voices.silent
    rw [last] at member silent
    rcases List.mem_append.mp member with before | new
    · exact silent s (List.mem_append_left _ before)
    · have entry := List.mem_singleton.mp new
      have owner : none = b.textOwner? := congrArg Prod.fst entry
      rw [show s = _ from congrArg Prod.snd entry, same.2]
      exact silent _ (List.mem_append_right _ (by rw [owner]; exact List.mem_cons_self))

theorem kept (voices : Voices source past b stop) (owner : next.textOwner? = b.textOwner?)
    (texts : ∀ id node e, next.arena.get? id = some node → node.content = .element e →
      ∃ twin f, b.arena.get? id = some twin ∧ twin.content = .element f ∧ f.text = e.text) :
    Voices source past next stop := by
  refine ⟨?_, ?_, ?_⟩
  · intro id node e got content
    obtain ⟨twin, f, before, element, text⟩ := texts id node e got content
    rw [← text, voices.texts id twin f before element, owner]
  · rw [owner]
    exact voices.silent
  · intro id node e text got content here
    obtain ⟨twin, f, before, element, same⟩ := texts id node e got content
    exact voices.plain id twin f text before element (same.trans here)

theorem marked {event : Event} (voices : Voices source past b b.scanner.offset)
    (texts : ∀ id node e, next.arena.get? id = some node → node.content = .element e →
      (∃ twin f, b.arena.get? id = some twin ∧ twin.content = .element f ∧ f.text = e.text) ∨
        e.text = none ∧ owned id (ledger 0 past b.textOwner? b.scanner.offset) = []) :
    Voices source (past ++ [(b.textOwner?, ⟨event, b.scanner.offset, next.scanner.offset⟩)]) next next.scanner.offset := by
  have empty := Stretch.blankNone next.scanner.offset source
  have same (id : NodeId) : spoken source (owned id (ledger 0 (past ++ [(b.textOwner?,
      ⟨event, b.scanner.offset, next.scanner.offset⟩)]) next.textOwner? next.scanner.offset)) =
        spoken source (owned id (ledger 0 past b.textOwner? b.scanner.offset)) := by
    rw [ownedSnoc]
    split
    · exact spokenBlank empty
    · rw [List.append_nil]
  refine ⟨?_, ?_, ?_⟩
  · intro id node e got content
    rw [same]
    rcases texts id node e got content with ⟨twin, f, before, element, text⟩ | ⟨text, unowned⟩
    · rw [← text, voices.texts id twin f before element]
    · rw [text, unowned]
      rfl
  · intro s member
    rw [ledgerSnoc] at member
    rcases List.mem_append.mp member with before | new
    · exact voices.silent s before
    · rw [show s = _ from congrArg Prod.snd (List.mem_singleton.mp new)]
      exact empty
  · intro id node e text got content here
    rcases texts id node e got content with ⟨twin, f, before, element, same⟩ | ⟨none, _⟩
    · exact voices.plain id twin f text before element (same.trans here)
    · rw [none] at here
      contradiction

theorem runRead (edge : Edge source (reach 0 (past.map Prod.snd)) b.scanner)
    (visible : ∀ c, b.scanner.rest.head? = some c → Text.isBlank c = false) (speaks : b.Speaks next owner run covered) :
    (⟨reach 0 (past.map Prod.snd), b.scanner.offset⟩ : Stretch).blank source = true ∧
      (⟨reach 0 (past.map Prod.snd), next.scanner.offset⟩ : Stretch).blank source = false ∧
      (⟨reach 0 (past.map Prod.snd), next.scanner.offset⟩ : Stretch).run source = String.ofList run := by
  obtain ⟨c, more, rfl⟩ := List.exists_cons_of_ne_nil speaks.signs
  have head : b.scanner.rest.head? = some c := by rw [speaks.reaches.rest]; rfl
  have before := edge.blankBefore head (speaks.read.plain c List.mem_cons_self)
  have blank : ∀ d ∈ (⟨reach 0 (past.map Prod.snd), b.scanner.offset⟩ : Stretch).chars source, Text.isBlank d = true :=
    List.all_eq_true.mp before
  have longer := edge.chars speaks.reaches
  refine ⟨before, ?_, ?_⟩
  · rw [Stretch.blank, longer, List.all_append, List.all_cons, visible c head]
    simp
  · rw [Stretch.run, longer, Text.trim, Text.trimStartBlanks blank, speaks.read.trimmed, Text.trim]

theorem spokenPlain {e : Element} {run : String} (before : ∀ text, e.text = some text → ∀ c ∈ text.toList, isText c = true)
    (plain : ∀ c ∈ run.toList, isText c = true) :
    ∀ text, (e.appendText run).text = some text → ∀ c ∈ text.toList, isText c = true := by
  unfold Element.appendText
  cases text : e.text with
  | none =>
    intro other same
    cases same
    exact plain
  | some written =>
    intro other same c member
    cases same
    rw [String.toList_append, String.toList_append, List.mem_append, List.mem_append] at member
    rcases member with (inside | space) | new
    · exact before written text c inside
    · rw [List.mem_singleton.mp (show c ∈ [' '] from space)]
      decide
    · exact plain c new

theorem spoken (voices : Voices source past b b.scanner.offset) (edge : Edge source (reach 0 (past.map Prod.snd)) b.scanner)
    (visible : ∀ c, b.scanner.rest.head? = some c → Text.isBlank c = false) (speaks : b.Speaks next owner run covered)
    (same : next.textOwner? = b.textOwner?) : Voices source past next next.scanner.offset := by
  obtain ⟨blank, signs, read⟩ := runRead edge visible speaks
  have others {id : NodeId} (differs : id ≠ owner) : next.arena.get? id = b.arena.get? id := by
    rw [speaks.arena, Arena.modifyElement, Arena.getModifyOther differs]
  have here {node : Node} {e : Element} (got : next.arena.get? owner = some node) (content : node.content = .element e) :
      ∃ twin f, b.arena.get? owner = some twin ∧ twin.content = .element f ∧ e = f.appendText (String.ofList run) := by
    rw [speaks.arena, Arena.modifyElement, Arena.getModify, if_pos rfl] at got
    obtain ⟨twin, before, rfl⟩ := Option.map_eq_some_iff.mp got
    unfold Node.mapElement at content
    split at content
    · rename_i f element
      cases content
      exact ⟨twin, f, before, element, rfl⟩
    · rename_i leaf
      exact absurd content (leaf e)
  refine ⟨?_, ?_, ?_⟩
  · intro id node e got content
    obtain ⟨settled, last⟩ := ownedLast 0 past id
    rw [same, last, speaks.owned]
    by_cases differs : id = owner
    · subst differs
      obtain ⟨twin, f, before, element, rfl⟩ := here got content
      have text := voices.texts id twin f before element
      rw [last, if_pos speaks.owned, spokenBlank blank] at text
      rw [if_pos rfl, ← read]
      exact spokenText text signs
    · rw [others differs] at got
      have elsewhere : ¬b.textOwner? = some id := by
        rw [speaks.owned]
        exact fun here => differs (Option.some.inj here).symm
      rw [voices.texts id node e got content, last, if_neg elsewhere, if_neg (speaks.owned ▸ elsewhere)]
  · intro s member
    obtain ⟨settled, last⟩ := ledgerLast 0 past
    have silent := voices.silent
    rw [last] at silent
    rw [same, last, speaks.owned] at member
    rcases List.mem_append.mp member with before | new
    · exact silent s (List.mem_append_left _ before)
    · have impossible : none = some owner := congrArg Prod.fst (List.mem_singleton.mp new)
      contradiction
  · intro id node e text got content written
    by_cases differs : id = owner
    · subst differs
      obtain ⟨twin, f, before, element, rfl⟩ := here got content
      refine spokenPlain (fun text => voices.plain id twin f text before element) (fun c member => ?_) text written
      rw [String.toList_ofList, speaks.read.trimmed] at member
      exact speaks.read.plain c ((Text.trimInfix covered).subset member)
    · rw [others differs] at got
      exact voices.plain id node e text got content written

end Voices

end Templating
