import Templating.Proofs.Bracketing
import Templating.Proofs.Seams
import Templating.Proofs.Signs

/-!
Where nodes stand. A span takes up the part of the source that its node was read from: the token that
opened it, what is inside, and the end tag of an element that has been closed. Spans start in the order of
the nodes; side by side they follow each other, and children stand between the tags of their parent.
-/
namespace Templating
open Markup

def Markup.TokenAt (source : List Char) (offset : Nat) (token : Token) (covered : List Char) : Prop :=
  ∃ lead s behind, (Scanner.ofSource source).Reaches lead s ∧ s.offset = offset ∧ s.token = .ok (token, behind) ∧
    s.Reaches covered behind

/- A part of a source, between what stands before and after it: the token that opens it, what is inside, and the end. -/
structure Cut where
  before : List Char
  first : List Char
  inner : List Char
  last : List Char
  after : List Char

namespace Cut

def source (cut : Cut) : List Char := cut.before ++ (cut.first ++ (cut.inner ++ (cut.last ++ cut.after)))

def start (cut : Cut) : Nat := Text.byteLength cut.before

def entry (cut : Cut) : Nat := Text.byteLength (cut.before ++ cut.first)

def exit (cut : Cut) : Nat := Text.byteLength (cut.before ++ (cut.first ++ cut.inner))

def stop (cut : Cut) : Nat := Text.byteLength (cut.before ++ (cut.first ++ (cut.inner ++ cut.last)))

theorem within {cut : Cut} (noInner : cut.inner = []) (noLast : cut.last = []) {lead rest : List Char}
    (whole : cut.source = lead ++ rest) (behind : cut.stop ≤ Text.byteLength lead) :
    ∃ inner, lead = cut.before ++ (cut.first ++ inner) := by
  rw [stop, noInner, noLast, List.append_nil, List.append_nil] at behind
  rw [source, noInner, noLast, List.nil_append, List.nil_append, ← List.append_assoc] at whole
  obtain ⟨inner, between, _⟩ := Text.splitWithin whole.symm behind
  exact ⟨inner, between.trans (List.append_assoc ..)⟩

end Cut

namespace Arena

def span? (arena : Arena) (id : NodeId) : Option Span := (arena.get? id).map Node.span

def Apart (arena : Arena) (left right : NodeId) : Prop :=
  ∃ span other, arena.span? left = some span ∧ arena.span? right = some other ∧ span.stop.toNat ≤ other.start.toNat

theorem apartOf {arena : Arena} {left right : NodeId} {node other : Node} (here : arena.get? left = some node)
    (there : arena.get? right = some other) (before : node.span.stop.toNat ≤ other.span.start.toNat) :
    arena.Apart left right :=
  ⟨node.span, other.span, congrArg (Option.map Node.span) here, congrArg (Option.map Node.span) there, before⟩

theorem apartSpans {arena : Arena} {left right : NodeId} {node other : Node} (apart : arena.Apart left right)
    (here : arena.get? left = some node) (there : arena.get? right = some other) :
    node.span.stop.toNat ≤ other.span.start.toNat := by
  obtain ⟨span, beside, first, second, before⟩ := apart
  rw [span?, here] at first
  rw [span?, there] at second
  cases first
  cases second
  exact before

theorem apartKept {arena changed : Arena} {left right : NodeId} (apart : arena.Apart left right)
    (first : changed.span? left = arena.span? left) (second : changed.span? right = arena.span? right) :
    changed.Apart left right := by
  obtain ⟨span, other, here, there, before⟩ := apart
  exact ⟨span, other, first.trans here, second.trans there, before⟩

theorem spanPush {arena : Arena} {id : NodeId} {span : Span} (there : arena.span? id = some span) (node : Node) :
    (arena.push node).span? id = some span := by
  obtain ⟨seen, got, same⟩ := Option.map_eq_some_iff.mp there
  rw [span?, getPushKept got node, Option.map_some, same]

theorem apartPush {arena : Arena} {left right : NodeId} (apart : arena.Apart left right) (node : Node) :
    (arena.push node).Apart left right := by
  obtain ⟨span, other, here, there, before⟩ := apart
  exact ⟨span, other, spanPush here node, spanPush there node, before⟩

end Arena

/-- The node stands for that part of the source. What is inside of an element that has been closed is between
its tags; of any other node there is only the token that opened it. -/
structure Node.Stands (source : List Char) (arena : Arena) (closed : List NodeId) (id : NodeId) (node : Node)
    (cut : Cut) : Prop where
  whole : cut.source = source
  start : node.span.start.toNat = cut.start
  stop : node.span.stop.toNat = cut.stop
  signs : cut.first ≠ []
  opened : ∃ token, TokenAt source cut.start token cut.first ∧ token.Written cut.first ∧ node.content.OpenedBy token
  ended : id ∈ closed → ∃ e, node.content = .element e ∧ cut.last = '<' :: '/' :: (e.tag.toList ++ ['>'])
  unended : id ∉ closed → cut.inner = [] ∧ cut.last = [] ∧ node.children = []
  inside : ∀ child ∈ node.children, ∃ span, arena.span? child = some span ∧ cut.entry ≤ span.start.toNat ∧
    span.stop.toNat ≤ cut.exit
  apart : node.children.Pairwise arena.Apart

/-- All spans of a forest are exact, and all ids are words. -/
structure SpansExact (source : List Char) (closed : List NodeId) (forest : Forest) : Prop where
  room : forest.arena.size < UInt32.size
  places : ∀ id node, forest.arena.get? id = some node → ∃ cut, node.Stands source forest.arena closed id cut
  upward : ∀ id other node later, forest.arena.get? id = some node → forest.arena.get? other = some later →
    id.index < other.index → node.span.start.toNat < later.span.start.toNat
  apart : forest.roots.Pairwise forest.arena.Apart

def Content.sign : Content → Shape
  | .element e => .element e.tag [] none
  | .comment body => .comment body
  | .doctype body => .doctype body

structure Site where
  sign : Shape
  children : List NodeId
  span : Span

def Node.site (node : Node) : Site := ⟨node.content.sign, node.children, node.span⟩

theorem Content.openedBySign {content other : Content} (same : content.sign = other.sign) {token : Token}
    (opened : content.OpenedBy token) : other.OpenedBy token := by
  cases content <;> cases other <;> simp only [sign, Shape.element.injEq, Shape.comment.injEq, Shape.doctype.injEq,
    reduceCtorEq, and_true] at same
  · obtain ⟨f, paired, told, tag⟩ := opened
    exact ⟨f, paired, told, tag.trans same⟩
  · exact same ▸ opened
  · exact same ▸ opened

theorem Content.elementSign {content other : Content} (same : content.sign = other.sign) {e : Element}
    (element : content = .element e) : ∃ f, other = .element f ∧ f.tag = e.tag := by
  subst element
  cases other <;> simp only [sign, Shape.element.injEq, reduceCtorEq, and_true] at same
  exact ⟨_, rfl, same.symm⟩

namespace Node
variable {source : List Char} {arena changed : Arena} {closed later : List NodeId} {id : NodeId} {node twin : Node} {cut : Cut}

theorem standsKept (stands : node.Stands source arena closed id cut) (site : node.site = twin.site)
    (spans : ∀ child ∈ node.children, changed.span? child = arena.span? child) (still : id ∈ later ↔ id ∈ closed) :
    twin.Stands source changed later id cut := by
  have sign : node.content.sign = twin.content.sign := congrArg Site.sign site
  have children : node.children = twin.children := congrArg Site.children site
  have span : node.span = twin.span := congrArg Site.span site
  refine ⟨stands.whole, span ▸ stands.start, span ▸ stands.stop, stands.signs, ?_, ?_, ?_, ?_, ?_⟩
  · obtain ⟨token, there, written, opened⟩ := stands.opened
    exact ⟨token, there, written, Content.openedBySign sign opened⟩
  · intro ends
    obtain ⟨e, content, last⟩ := stands.ended (still.mp ends)
    obtain ⟨f, twinContent, tag⟩ := Content.elementSign sign content
    exact ⟨f, twinContent, by rw [last, tag]⟩
  · intro open_
    rw [← children]
    exact stands.unended fun ends => open_ (still.mpr ends)
  · intro child member
    rw [← children] at member
    obtain ⟨place, there, lower, upper⟩ := stands.inside child member
    exact ⟨place, (spans child member).trans there, lower, upper⟩
  · rw [← children]
    refine List.Pairwise.imp_of_mem ?_ stands.apart
    intro left right first second apart
    exact Arena.apartKept apart (spans left first) (spans right second)

theorem standsForward (stands : node.Stands source arena closed id cut) :
    node.span.start.toNat < node.span.stop.toNat := by
  have positive := Text.byteLengthPositive stands.signs
  rw [stands.start, stands.stop]
  simp only [Cut.start, Cut.stop, Text.byteLengthAppend]
  omega

end Node

/-- The nodes of a build stand in the source, behind one another those on the stack, and all behind the
cursor. What is a child already is not on the stack. -/
structure Spread (source : List Char) (closed : List NodeId) (b : Builder) : Prop where
  cursor : ∃ lead, (Scanner.ofSource source).Reaches lead b.scanner
  places : ∀ id node, b.arena.get? id = some node → ∃ cut, node.Stands source b.arena closed id cut
  behind : ∀ id node, b.arena.get? id = some node → node.span.stop.toNat ≤ b.scanner.offset
  upward : ∀ id other node later, b.arena.get? id = some node → b.arena.get? other = some later →
    id.index < other.index → node.span.start.toNat < later.span.start.toNat
  within : ∀ id ∈ b.stack, ∃ node, b.arena.get? id = some node
  apart : b.stack.Pairwise fun inner outer => b.arena.Apart outer inner
  loose : ∀ id node, b.arena.get? id = some node → ∀ child ∈ node.children, child ∉ b.stack

namespace Spread
variable {source : List Char} {shut : List NodeId} {b next : Builder}

theorem start (source : List Char) : Spread source [] (Builder.ofSource source) := by
  have nowhere {id : NodeId} {node : Node} (got : (Builder.ofSource source).arena.get? id = some node) : False := by
    simp [Builder.ofSource, Arena.empty, Arena.get?] at got
  refine ⟨⟨[], Scanner.reachesSelf _⟩, ?_, ?_, ?_, ?_, .nil, ?_⟩
  · exact fun id node got => (nowhere got).elim
  · exact fun id node got => (nowhere got).elim
  · exact fun id other node later got => (nowhere got).elim
  · exact fun id none => by contradiction
  · exact fun id node got => (nowhere got).elim

theorem kept (spread : Spread source shut b) {covered : List Char} (reaches : b.scanner.Reaches covered next.scanner)
    (stack : next.stack = b.stack) (agree : b.arena.Agree Node.site next.arena) : Spread source shut next := by
  have seen {id : NodeId} {node : Node} (got : next.arena.get? id = some node) :
      ∃ earlier, b.arena.get? id = some earlier ∧ earlier.site = node.site := Arena.agreeSeen agree got
  have span {earlier node : Node} (site : earlier.site = node.site) : earlier.span = node.span := congrArg Site.span site
  have spans (id : NodeId) : next.arena.span? id = b.arena.span? id :=
    (Arena.agreeMap agree (fun _ _ same => congrArg Site.span same) id).symm
  have offset := reaches.offset
  obtain ⟨lead, before⟩ := spread.cursor
  refine ⟨⟨_, Scanner.reachesTrans before reaches⟩, ?_, ?_, ?_, ?_, ?_, ?_⟩
  · intro id node got
    obtain ⟨earlier, there, site⟩ := seen got
    obtain ⟨cut, stands⟩ := spread.places id earlier there
    exact ⟨cut, Node.standsKept stands site (fun child _ => spans child) Iff.rfl⟩
  · intro id node got
    obtain ⟨earlier, there, site⟩ := seen got
    have bound := spread.behind id earlier there
    rw [span site] at bound
    omega
  · intro id other node later got gotLater order
    obtain ⟨earlier, there, site⟩ := seen got
    obtain ⟨second, beside, siteLater⟩ := seen gotLater
    have upward := spread.upward id other earlier second there beside order
    rwa [span site, span siteLater] at upward
  · intro id member
    rw [stack] at member
    obtain ⟨node, got⟩ := spread.within id member
    obtain ⟨later, there, _⟩ := Option.map_eq_some_iff.mp ((spans id).trans (congrArg (Option.map Node.span) got))
    exact ⟨later, there⟩
  · rw [stack]
    exact spread.apart.imp fun apart => Arena.apartKept apart (spans _) (spans _)
  · intro id node got child member
    obtain ⟨earlier, there, site⟩ := seen got
    have children : earlier.children = node.children := congrArg Site.children site
    rw [stack]
    exact spread.loose id earlier there child (children ▸ member)

variable {comments : Bool} {id : NodeId} {earlier node : Node} {token : Token} {e : Element} {above outer : List NodeId}
  {covered : List Char}

theorem standsOpened (sound : b.Sound source) (spread : Spread source shut b) (new : id ∉ shut)
    (opens : b.Opens next id node token covered) : ∃ cut, node.Stands source next.arena shut id cut := by
  obtain ⟨lead, cursor⟩ := spread.cursor
  obtain ⟨before, after, split, offset⟩ := sound.placed
  rw [sound.source, opens.reaches.rest, List.append_assoc] at split
  refine ⟨⟨before, covered, [], [], next.scanner.rest ++ after⟩, split.symm, opens.start.trans offset, ?_,
    writtenSigns opens.written (Content.openedMarked opens.content), ?_, fun ends => absurd ends new, fun _ => ⟨rfl, rfl, opens.children⟩, ?_, ?_⟩
  · rw [opens.stop, opens.reaches.offset, offset, Cut.stop]
    simp only [Text.byteLengthAppend, List.append_nil]
  · exact ⟨token, ⟨lead, b.scanner, next.scanner, cursor, offset, opens.read, opens.reaches⟩, opens.written, opens.content⟩
  · rw [opens.children]
    exact fun child none => by contradiction
  · rw [opens.children]
    exact .nil

theorem opened (sound : b.Sound source) (spread : Spread source shut b) (new : id ∉ shut)
    (opens : b.Opens next id node token covered) : Spread source shut next := by
  have arena := opens.arena
  have index := opens.index
  have offset := opens.reaches.offset
  obtain ⟨lead, cursor⟩ := spread.cursor
  have either {other : NodeId} {seen : Node} (there : next.arena.get? other = some seen) :
      (other = id ∧ seen = node) ∨ b.arena.get? other = some seen := by
    rw [arena] at there
    rcases Arena.getPushCases there with ⟨place, _, same⟩ | before
    · exact Or.inl ⟨NodeId.indexInjective (place.trans index.symm), same⟩
    · exact Or.inr before
  refine ⟨⟨_, Scanner.reachesTrans cursor opens.reaches⟩, ?_, ?_, ?_, ?_, ?_, ?_⟩
  · intro other seen there
    rcases either there with ⟨rfl, rfl⟩ | before
    · exact standsOpened sound spread new opens
    · obtain ⟨cut, stands⟩ := spread.places other seen before
      refine ⟨cut, Node.standsKept stands rfl ?_ Iff.rfl⟩
      intro child member
      obtain ⟨span, inside, _⟩ := stands.inside child member
      rw [arena, Arena.spanPush inside node, inside]
  · intro other seen there
    rcases either there with ⟨rfl, rfl⟩ | before
    · exact Nat.le_of_eq opens.stop
    · have bound := spread.behind other seen before
      omega
  · intro first second seen later there beside order
    rcases either there with ⟨rfl, rfl⟩ | before
    · rcases either beside with ⟨rfl, _⟩ | before
      · omega
      · have bound := Arena.getInside before
        omega
    · rcases either beside with ⟨rfl, rfl⟩ | also
      · obtain ⟨cut, stands⟩ := spread.places first seen before
        have forward := Node.standsForward stands
        have bound := spread.behind first seen before
        rw [opens.start]
        omega
      · exact spread.upward first second seen later before also order
  · intro other member
    rw [opens.stack] at member
    rcases List.mem_cons.mp member with rfl | further
    · exact ⟨node, opens.got⟩
    · obtain ⟨seen, before⟩ := spread.within other further
      rw [arena]
      exact ⟨seen, Arena.getPushKept before node⟩
  · rw [opens.stack, arena]
    refine List.pairwise_cons.mpr ⟨?_, spread.apart.imp fun apart => Arena.apartPush apart node⟩
    intro outer member
    obtain ⟨seen, before⟩ := spread.within outer member
    have got := opens.got
    rw [arena] at got
    refine Arena.apartOf (Arena.getPushKept before node) got ?_
    rw [opens.start]
    exact spread.behind outer seen before
  · intro other seen there child member
    rw [opens.stack]
    rcases either there with ⟨rfl, rfl⟩ | before
    · rw [opens.children] at member
      contradiction
    · intro again
      rcases List.mem_cons.mp again with rfl | further
      · -- a child has been opened before
        obtain ⟨cut, stands⟩ := spread.places other seen before
        obtain ⟨span, inside, _⟩ := stands.inside child member
        obtain ⟨known, found, _⟩ := Option.map_eq_some_iff.mp inside
        have bound := Arena.getInside found
        omega
      · exact spread.loose other seen before child member further

theorem standsClosed (sound : b.Sound source) (spread : Spread source shut b) (distinct : b.stack.Nodup)
    (waiting : id ∉ shut) (closes : b.Closes next id earlier node e above outer covered) :
    ∃ cut, node.Stands source next.arena (shut ++ [id]) id cut := by
  have children : node.children = above.reverse := by rw [Node.children, closes.content]
  have apart := spread.apart
  rw [closes.stack] at distinct apart
  obtain ⟨_, _, across⟩ := List.nodup_append.mp distinct
  obtain ⟨inside, _, beyond⟩ := List.pairwise_append.mp apart
  have spans : ∀ child ∈ above, next.arena.span? child = b.arena.span? child := by
    intro child member
    rw [Arena.span?, closes.others child (across child member id List.mem_cons_self), Arena.span?]
  obtain ⟨cut, stands⟩ := spread.places id earlier closes.found
  obtain ⟨noInner, noLast, _⟩ := stands.unended waiting
  obtain ⟨lead, trail, split, offset⟩ := sound.placed
  rw [sound.source] at split
  have behind := spread.behind id earlier closes.found
  rw [stands.stop, offset] at behind
  obtain ⟨inner, rfl⟩ := Cut.within noInner noLast (stands.whole.trans split) behind
  have entry : earlier.span.stop.toNat = Text.byteLength (cut.before ++ cut.first) := by
    rw [stands.stop, Cut.stop, noInner, noLast, List.append_nil, List.append_nil]
  refine ⟨⟨cut.before, cut.first, inner, covered, next.scanner.rest ++ trail⟩, ?_, ?_, ?_, stands.signs, ?_,
    fun _ => ⟨_, closes.content, closes.written⟩, ?_, ?_, ?_⟩
  · rw [split, closes.reaches.rest, Cut.source]
    simp only [List.append_assoc]
  · rw [closes.start]
    exact stands.start
  · rw [closes.stop, closes.reaches.offset, offset, Cut.stop]
    simp only [Text.byteLengthAppend, Nat.add_assoc]
  · obtain ⟨token, here, sign, opened⟩ := stands.opened
    refine ⟨token, here, sign, Content.openedBySign ?_ opened⟩
    rw [closes.before, closes.content]
    rfl
  · exact fun open_ => absurd (List.mem_append_right _ List.mem_cons_self) open_
  · intro child member
    rw [children] at member
    have member := List.mem_reverse.mp member
    obtain ⟨seen, found⟩ := spread.within child (by rw [closes.stack]; exact List.mem_append_left _ member)
    have lower := Arena.apartSpans (beyond child member id List.mem_cons_self) closes.found found
    have upper := spread.behind child seen found
    rw [entry] at lower
    rw [offset] at upper
    exact ⟨seen.span, (spans child member).trans (congrArg (Option.map Node.span) found), lower, upper⟩
  · rw [children]
    refine List.pairwise_reverse.mpr (List.Pairwise.imp_of_mem ?_ inside)
    intro later first member before apart
    exact Arena.apartKept apart (spans first before) (spans later member)

theorem closed (sound : b.Sound source) (spread : Spread source shut b) (distinct : b.stack.Nodup)
    (waiting : id ∉ shut) (closes : b.Closes next id earlier node e above outer covered) :
    Spread source (shut ++ [id]) next := by
  have stands := standsClosed sound spread distinct waiting closes
  have stack := closes.stack
  have got := closes.got
  have offset := closes.reaches.offset
  obtain ⟨lead, cursor⟩ := spread.cursor
  have stacked : id ∈ b.stack := by simp [stack]
  have apart := spread.apart
  rw [stack] at distinct apart
  obtain ⟨_, below, across⟩ := List.nodup_append.mp distinct
  obtain ⟨here, further⟩ := List.pairwise_cons.mp (List.pairwise_append.mp apart).2.1
  have differs {other : NodeId} (member : other ∈ outer) : other ≠ id := by
    rintro rfl
    exact (List.nodup_cons.mp below).1 member
  have spans {other : NodeId} (differs : other ≠ id) : next.arena.span? other = b.arena.span? other := by
    rw [Arena.span?, closes.others other differs, Arena.span?]
  have either {other : NodeId} {seen : Node} (there : next.arena.get? other = some seen) :
      (other = id ∧ seen = node) ∨ other ≠ id ∧ b.arena.get? other = some seen := by
    by_cases same : other = id
    · subst same
      exact Or.inl ⟨rfl, Option.some.inj (there.symm.trans got)⟩
    · exact Or.inr ⟨same, (closes.others other same).symm.trans there⟩
  -- where a node starts is not changed by its end tag
  have starts {other : NodeId} {seen : Node} (there : next.arena.get? other = some seen) :
      ∃ before, b.arena.get? other = some before ∧ seen.span.start = before.span.start := by
    rcases either there with ⟨rfl, rfl⟩ | ⟨_, before⟩
    · exact ⟨earlier, closes.found, closes.start⟩
    · exact ⟨seen, before, rfl⟩
  refine ⟨⟨_, Scanner.reachesTrans cursor closes.reaches⟩, ?_, ?_, ?_, ?_, ?_, ?_⟩
  · intro other seen there
    rcases either there with ⟨rfl, rfl⟩ | ⟨same, before⟩
    · exact stands
    · obtain ⟨cut, stands⟩ := spread.places other seen before
      refine ⟨cut, Node.standsKept stands rfl ?_ (by simp [same])⟩
      intro child member
      refine spans ?_
      rintro rfl
      exact spread.loose other seen before child member stacked
  · intro other seen there
    rcases either there with ⟨rfl, rfl⟩ | ⟨_, before⟩
    · exact Nat.le_of_eq closes.stop
    · have bound := spread.behind other seen before
      omega
  · intro first second seen later there beside order
    obtain ⟨twin, was, same⟩ := starts there
    obtain ⟨other, alsoWas, alsoSame⟩ := starts beside
    rw [same, alsoSame]
    exact spread.upward first second twin other was alsoWas order
  · intro other member
    rw [closes.left] at member
    rcases List.mem_cons.mp member with rfl | outside
    · exact ⟨node, got⟩
    · rw [closes.others other (differs outside)]
      exact spread.within other (by simp [stack, outside])
  · rw [closes.left]
    refine List.pairwise_cons.mpr ⟨?_, List.Pairwise.imp_of_mem ?_ further⟩
    · intro other member
      obtain ⟨seen, found⟩ := spread.within other (by simp [stack, member])
      refine Arena.apartOf ((closes.others other (differs member)).trans found) got ?_
      rw [closes.start]
      exact Arena.apartSpans (here other member) found closes.found
    · intro inner other member alsoMember apart
      exact Arena.apartKept apart (spans (differs alsoMember)) (spans (differs member))
  · intro other seen there child member again
    rw [closes.left] at again
    rcases either there with ⟨rfl, rfl⟩ | ⟨_, before⟩
    · rw [Node.children, closes.content] at member
      exact across child (List.mem_reverse.mp member) child again rfl
    · refine spread.loose other seen before child member ?_
      rw [stack]
      exact List.mem_append_right _ again

end Spread

theorem Builder.stepQuietSite {b next : Builder} (h : b.Step next none) : b.arena.Agree Node.site next.arena := by
  rcases stepQuietCases h with same | ⟨owner, run, _, same⟩
  · rw [same]
    rfl
  · rw [same]
    refine (Arena.agreeModifySelf fun node _ => ?_).symm
    have text (e : Element) : (e.appendText run).tag = e.tag ∧ (e.appendText run).children = e.children := by
      unfold Element.appendText
      split <;> exact ⟨rfl, rfl⟩
    rcases node.contentCases with ⟨e, content⟩ | leaf
    · simp only [Node.site, Node.mapElement, Node.children, content, Content.sign, text]
    · unfold Node.mapElement
      split
      · rename_i e content
        exact absurd content (leaf e)
      · rfl

theorem Node.outlineSite {a b : Node} (same : a.outline = b.outline) : a.site = b.site := by
  obtain ⟨_, span, ⟨e, f, ha, hb, tag, children, _⟩ | ⟨content, _⟩⟩ := outlineCases same
  · simp only [site, Node.children, ha, hb, Content.sign, tag, children, span]
  · simp only [site, Node.children, content, span]

theorem Arena.alikeSites {p q : Arena} (alike : p.Alike q) : p.Agree Node.site q := by
  refine agreeIff.mpr fun i => ?_
  rw [Option.map_eq_bind, Option.map_eq_bind]
  exact bindAlike (alikeIff.mp alike i) fun a b outlines => congrArg some (Node.outlineSite outlines)

namespace Build
variable {σ : Type} {inner : Receiver σ} {comments : Bool} {source : List Char} {b next : Build (Journal σ)}

structure Surveyed (source : List Char) (b : Build (Journal σ)) : Prop where
  sound : b.builder.Sound source
  traced : Traced b.state.entries b.builder
  spread : Spread source (closedIds b.state.entries) b.builder

theorem surveyedSkip (surveyed : b.Surveyed source) : b.skipBlank.Surveyed source := by
  obtain ⟨sound, traced, spread⟩ := surveyed
  obtain ⟨soundSkipped, tracedSkipped⟩ := Journalled.skip ⟨sound, traced⟩
  exact ⟨soundSkipped, tracedSkipped, spread.kept b.builder.scanner.reachesSkipBlank rfl rfl⟩

theorem surveyedTurn (orderly : inner.Orderly) (surveyed : b.Surveyed source)
    (turned : b.turn comments (Journal.receiver none inner) = .ok next) : next.Surveyed source := by
  obtain ⟨sound, traced, spread⟩ := surveyed
  obtain ⟨soundNext, tracedNext⟩ := Journalled.turn orderly ⟨sound, traced⟩ turned
  refine ⟨soundNext, tracedNext, ?_⟩
  rcases journalTurn orderly turned with ⟨stepped, state⟩ | ⟨builder, ⟨event, node, state, failure⟩, stepped, alike, entries, _⟩
  · have step := Builder.stepCases stepped
    obtain ⟨covered, _, reaches⟩ := Builder.stepAdvances step
    rw [state]
    exact spread.kept reaches (Builder.stepQuiet step).1 (Builder.stepQuietSite step)
  · have still : builder.scanner.Reaches [] next.builder.scanner := alike.scanner ▸ Scanner.reachesSelf _
    rw [entries]
    cases event with
    | opened id =>
      obtain ⟨_, _, _, opens⟩ := Builder.stepOpened sound stepped
      rw [closedIdsOpened rfl]
      exact (spread.opened sound (traced.newUnclosed opens.index) opens).kept still alike.stack.symm (Arena.alikeSites alike.arena)
    | closed id =>
      obtain ⟨_, _, earlier, _, _, got, _, waiting, _⟩ := Builder.stepCloses (Builder.stepCases stepped)
      obtain ⟨_, _, _, _, _, _, closes⟩ := Builder.stepClosed sound stepped
      rw [closedIdsClosed rfl]
      have never := (traced.waits id earlier got waiting).2
      exact (spread.closed sound traced.trail.stackDistinct never closes).kept still alike.stack.symm
        (Arena.alikeSites alike.arena)

end Build

theorem surveyedForest {σ : Type} {options : Options} {receiver : Receiver σ} (orderly : receiver.Orderly) {state : σ}
    {template : String} (short : template.utf8ByteSize < UInt32.size) {forest : Forest}
    (built : forestOf (buildWith options receiver state template.toList) = .ok forest) :
    SpansExact template.toList (closedIds (entriesOf options receiver state template)) forest := by
  rw [← Text.byteLengthToList] at short
  rw [← journalForest] at built
  obtain ⟨last, ran, rfl⟩ := forestOfOk built
  have start : (Build.ofSource template.toList (Journal.ofState state)).Surveyed template.toList :=
    ⟨Builder.soundOfSource short, Traced.start _, Spread.start _⟩
  obtain ⟨sound, traced, spread⟩ := Build.runInvariant (I := fun b => b.Surveyed template.toList)
    (fun _ => Build.surveyedSkip) (fun _ _ surveyed turned => Build.surveyedTurn orderly surveyed turned) start ran
  have entries : entriesOf options receiver state template = last.state.entries := by
    unfold entriesOf
    rw [ran]
  have room := sound.room
  rw [entries]
  refine ⟨?_, spread.places, spread.upward, List.pairwise_reverse.mpr spread.apart⟩
  show last.builder.arena.size < UInt32.size
  omega

/-
The spans of a template that is read are exact, be it analysed or not: each takes up what its node was
read from, starts in the order of the nodes, and stands behind the one before it or between the tags of
its parent.
-/
theorem spansExact {options : Options} {template : String} (short : template.utf8ByteSize < UInt32.size) :
    (∀ forest, readForest options template = .ok forest →
      SpansExact template.toList (closedIds (entriesOf options Receiver.silent () template)) forest) ∧
    ∀ forest, analyse options template = .ok forest →
      SpansExact template.toList
        (closedIds (entriesOf options (Analysis.receiver options template.toList) Analysis.start template)) forest := by
  refine ⟨?_, ?_⟩
  · intro forest built
    exact surveyedForest Receiver.silentOrderly short built
  · intro forest built
    exact surveyedForest (Receiver.analysisOrderly options template.toList) short built

def openBold : String := "<!Doctype a><p><b>é<br></p>"

theorem unclosedTakesItsStartTag :
    openBold.utf8ByteSize < UInt32.size ∧
    ∃ forest, readForest Options.standard openBold = .ok forest ∧
      [0, 1, 2, 3].map (fun n => forest.arena.span? ⟨n⟩) = [some ⟨0, 12⟩, some ⟨12, 28⟩, some ⟨15, 18⟩, some ⟨20, 24⟩] ∧
      SpansExact openBold.toList [⟨1⟩] forest := by
  have short : openBold.utf8ByteSize < UInt32.size := by decide
  have closed : closedIds (entriesOf Options.standard Receiver.silent () openBold) = [⟨1⟩] := by
    decide +kernel
  have read : (readForest Options.standard openBold).map
      (fun forest => [0, 1, 2, 3].map fun n => forest.arena.span? ⟨n⟩) =
        .ok [some ⟨0, 12⟩, some ⟨12, 28⟩, some ⟨15, 18⟩, some ⟨20, 24⟩] := by decide +kernel
  cases built : readForest Options.standard openBold with
  | error cause =>
    rw [built] at read
    contradiction
  | ok forest =>
    rw [built] at read
    have exactly := (spansExact short).1 forest built
    rw [closed] at exactly
    exact ⟨short, forest, rfl, Except.ok.inj read, exactly⟩

end Templating
