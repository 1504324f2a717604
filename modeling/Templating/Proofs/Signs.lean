import Templating.Proofs.Footing
import Templating.Proofs.Tokens

/-!
The signs that tokens are written with, and what a step tells of the token that it has read: a node is
opened by the token that says what it is, and closed by an end tag of its name.
-/
namespace Templating
open Markup

namespace Markup

def Construct.Written (covered : List Char) : Construct → Prop
  | .doctype body => ∃ keyword inner, covered = keyword ++ (inner ++ ['>']) ∧
      keyword.map Char.toUpper = "<!DOCTYPE".toList ∧ '>' ∉ inner ∧ body = Text.trim inner
  | .comment body => covered = "<!--".toList ++ (body ++ "-->".toList)
  | .startTag name => covered = '<' :: name
  | .endTag name => covered = '<' :: '/' :: (name ++ ['>'])
  | .text run => run = Text.trim covered

def Token.Written (covered : List Char) : Token → Prop
  | .doctype body => (Construct.doctype body).Written covered
  | .comment body => (Construct.comment body).Written covered
  | .startTag e _ => ∃ more, covered = '<' :: (e.tag.toList ++ (more ++ ['>']))
  | .endTag name => (Construct.endTag name).Written covered
  | .text run => (Construct.text run).Written covered

theorem doctypeWritten {text : List Char} {m : Match (List Char)} (found : doctype? text = some m) :
    (Construct.doctype m.value).Written m.covered := by
  unfold doctype? at found
  split at found
  · rename_i keyword
    obtain ⟨⟨body, rest⟩, closed, rfl⟩ := Option.map_eq_some_iff.mp found
    exact ⟨_, _, rfl, keyword, Text.splitFirstAbsent closed, rfl⟩
  · contradiction

theorem constructWritten {text : List Char} {m : Match Construct} (found : construct? text = some m) :
    m.value.Written m.covered := by
  simp only [construct?, Option.or_eq_some_iff, Option.map_eq_some_iff] at found
  rcases found with ⟨n, found, rfl⟩ | ⟨_, ⟨n, found, rfl⟩ | ⟨_, ⟨n, found, rfl⟩ | ⟨_, ⟨n, found, rfl⟩ | ⟨_, n, found, rfl⟩⟩⟩⟩
  · exact doctypeWritten found
  · obtain ⟨body, rfl⟩ := commentWritten found
    exact rfl
  · obtain ⟨name, rfl⟩ := startTagWritten found
    exact rfl
  · obtain ⟨tag, rfl⟩ := endTagWritten found
    exact rfl
  · exact textExact found

namespace Scanner
variable {s behind : Scanner}

theorem tokenCovers {token : Token} (read : s.token = .ok (token, behind)) :
    ∃ covered, s.Reaches covered behind ∧ token.Written covered := by
  unfold Scanner.token at read
  cases found : construct? s.rest with
  | none =>
    rw [found] at read
    contradiction
  | some m =>
    obtain ⟨covered, construct⟩ := m
    rw [found] at read
    have head := reachesMatch (constructHeads found)
    have written := constructWritten found
    cases construct with
    | startTag name =>
      cases attributes : (s.pass covered).readAttributes s.offset (Element.ofTag (String.ofList name)) with
      | error cause =>
        dsimp only at read
        rw [attributes] at read
        contradiction
      | ok result =>
        dsimp only at read
        rw [attributes] at read
        cases read
        have same : covered = '<' :: name := written
        have tag : result.2.tag = String.ofList name := (Element.bareReadAttributes (Element.bareOfTag _) attributes).2
        obtain ⟨more, tail, behindName⟩ := readAttributesLocal attributes
        obtain ⟨inner, ending⟩ := behindName.ends
        refine ⟨covered ++ more, reachesTrans head tail, inner, ?_⟩
        rw [tag, String.toList_ofList, ending, same, List.cons_append]
    | doctype | comment | endTag | text =>
      cases read
      exact ⟨covered, head, written⟩

theorem tokenStarts {e : Element} {paired : Bool} (read : s.token = .ok (.startTag e paired, behind)) :
    ∃ covered name, construct? s.rest = some ⟨covered, .startTag name⟩ ∧ e.tag = String.ofList name ∧
      paired = isPaired s.rest name := by
  unfold Scanner.token at read
  cases found : construct? s.rest with
  | none =>
    rw [found] at read
    contradiction
  | some m =>
    obtain ⟨covered, construct⟩ := m
    rw [found] at read
    cases construct with
    | startTag name =>
      cases attributes : (s.pass covered).readAttributes s.offset (Element.ofTag (String.ofList name)) with
      | error cause =>
        dsimp only at read
        rw [attributes] at read
        contradiction
      | ok result =>
        dsimp only at read
        rw [attributes] at read
        cases read
        exact ⟨covered, name, rfl, (Element.bareReadAttributes (Element.bareOfTag _) attributes).2, rfl⟩
    | doctype | comment | endTag | text => cases read

end Scanner

theorem writtenSigns {covered : List Char} {token : Token} (written : token.Written covered)
    (marked : ∀ run, token ≠ .text run) : covered ≠ [] := by
  rintro rfl
  cases token with
  | doctype body =>
    obtain ⟨keyword, inner, none, _⟩ := written
    simp at none
  | comment body => simp [Token.Written, Construct.Written] at written
  | startTag e paired => simp [Token.Written] at written
  | endTag name => simp [Token.Written, Construct.Written] at written
  | text run => exact marked run rfl

end Markup

def Content.OpenedBy (token : Token) : Content → Prop
  | .element e => ∃ f paired, token = .startTag f paired ∧ f.tag = e.tag
  | .comment body => token = .comment body.toList
  | .doctype body => token = .doctype body.toList

theorem Content.openedMarked {token : Token} {content : Content} (opened : content.OpenedBy token) :
    ∀ run, token ≠ .text run := by
  rintro run rfl
  unfold OpenedBy at opened
  split at opened
  · obtain ⟨_, _, impossible, _⟩ := opened
    contradiction
  · contradiction
  · contradiction

namespace Builder
variable {comments : Bool} {b next : Builder} {behind : Scanner} {token : Token} {id : NodeId}

theorem putOpened (taken : b.put comments behind token = .ok (next, some (.opened id))) :
    ∃ node, node.content.OpenedBy token ∧ next.arena = b.arena.push node ∧
      node.span = Span.ofOffsets b.scanner.offset behind.offset ∧
      ∀ e paired, token = .startTag e paired → node.done = !paired := by
  cases token with
  | doctype body =>
    cases taken
    exact ⟨_, by simp [Content.OpenedBy], rfl, rfl, by simp⟩
  | comment body =>
    cases comments with
    | false => cases taken
    | true =>
      cases taken
      exact ⟨_, by simp [Content.OpenedBy], rfl, rfl, by simp⟩
  | startTag e paired =>
    cases taken
    exact ⟨_, by simp [Content.OpenedBy], rfl, rfl, by simp⟩
  | endTag name =>
    unfold put at taken
    dsimp only at taken
    split at taken <;> cases taken
  | text run =>
    unfold put at taken
    dsimp only at taken
    split at taken <;> cases taken

theorem putClosed (taken : b.put comments behind token = .ok (next, some (.closed id))) :
    ∃ name above outer, token = .endTag name ∧ b.splitStack? (String.ofList name) = some (above, id, outer) ∧
      next.stack = id :: outer ∧ next.arena = b.arena.modify id (Node.close above.reverse behind.offset) := by
  cases token with
  | doctype body => cases taken
  | comment body => cases comments <;> cases taken
  | startTag e paired => cases taken
  | endTag name =>
    unfold put at taken
    dsimp only at taken
    split at taken
    · contradiction
    · rename_i above id outer split
      cases taken
      exact ⟨name, above, outer, rfl, split, rfl, rfl⟩
  | text run =>
    unfold put at taken
    dsimp only at taken
    split at taken <;> cases taken

structure Opens (b next : Builder) (id : NodeId) (node : Node) (token : Token) (covered : List Char) : Prop where
  read : b.scanner.token = .ok (token, next.scanner)
  reaches : b.scanner.Reaches covered next.scanner
  written : token.Written covered
  content : node.content.OpenedBy token
  children : node.children = []
  start : node.span.start.toNat = b.scanner.offset
  stop : node.span.stop.toNat = next.scanner.offset
  index : id.index = b.arena.size
  arena : next.arena = b.arena.push node
  got : next.arena.get? id = some node
  stack : next.stack = id :: b.stack
  ahead : ∀ e paired, token = .startTag e paired → node.done = !paired

theorem stepOpened {source : List Char} (sound : b.Sound source)
    (stepped : b.step comments = .ok (next, some (.opened id))) :
    ∃ node token covered, b.Opens next id node token covered := by
  have step := stepCases stepped
  obtain ⟨node, arena, stack, index, got, fresh, _⟩ := stepOpens sound step
  obtain ⟨token, read⟩ := stepReads stepped
  rw [stepTaken read] at stepped
  obtain ⟨other, content, pushed, span, ahead⟩ := putOpened stepped
  have same : other = node := by
    rw [pushed, Arena.getPush, if_pos index] at got
    exact Option.some.inj got
  subst same
  obtain ⟨covered, reaches, written⟩ := Scanner.tokenCovers read
  refine ⟨other, token, covered, read, reaches, written, content, Node.freshChildren fresh, ?_, ?_, index, arena, got,
    stack, ahead⟩
  · rw [span]
    exact UInt32.toNat_ofNat_of_lt' (offsetShort sound)
  · rw [span]
    exact UInt32.toNat_ofNat_of_lt' (offsetShort (soundStep sound step))

structure Closes (b next : Builder) (id : NodeId) (earlier node : Node) (e : Element) (above outer : List NodeId)
    (covered : List Char) : Prop where
  read : b.scanner.token = .ok (.endTag e.tag.toList, next.scanner)
  reaches : b.scanner.Reaches covered next.scanner
  written : covered = '<' :: '/' :: (e.tag.toList ++ ['>'])
  before : earlier.content = .element e
  content : node.content = .element { e with children := above.reverse }
  start : node.span.start = earlier.span.start
  stop : node.span.stop.toNat = next.scanner.offset
  found : b.arena.get? id = some earlier
  got : next.arena.get? id = some node
  others : ∀ other, other ≠ id → next.arena.get? other = b.arena.get? other
  stack : b.stack = above ++ id :: outer
  left : next.stack = id :: outer

theorem stepClosed {source : List Char} (sound : b.Sound source)
    (stepped : b.step comments = .ok (next, some (.closed id))) :
    ∃ earlier node e above outer covered, b.Closes next id earlier node e above outer covered := by
  have step := stepCases stepped
  obtain ⟨token, read⟩ := stepReads stepped
  rw [stepTaken read] at stepped
  obtain ⟨name, above, outer, rfl, split, left, arena⟩ := putClosed stepped
  obtain ⟨covered, reaches, written⟩ := Scanner.tokenCovers read
  obtain ⟨stack, opened, _⟩ := splitStackSides split
  obtain ⟨earlier, e, found, before, tag, _⟩ := openNamedGet opened
  have got : next.arena.get? id = some (earlier.close above.reverse next.scanner.offset) := by
    rw [arena, Arena.getModify, if_pos rfl, found]
    rfl
  refine ⟨earlier, _, e, above, outer, covered, ?_, reaches, ?_, before, ?_, ?_, ?_, found, got, ?_, stack, left⟩
  · rw [tag, String.toList_ofList]
    exact read
  · have last : covered = '<' :: '/' :: (name ++ ['>']) := written
    rw [last, tag, String.toList_ofList]
  · unfold Node.close Node.mapElement
    rw [before]
  · unfold Node.close Node.mapElement
    rw [before]
  · have stop : (earlier.close above.reverse next.scanner.offset).span.stop = UInt32.ofNat next.scanner.offset := by
      unfold Node.close
      rfl
    rw [stop]
    exact UInt32.toNat_ofNat_of_lt' (offsetShort (soundStep sound step))
  · intro other differs
    rw [arena, Arena.getModifyOther differs]

theorem putQuiet (taken : b.put comments behind token = .ok (next, none)) :
    (comments = false ∧ next.stack = b.stack ∧ next.arena = b.arena) ∨
    ∃ owner run, token = .text run ∧ b.textOwner? = some owner ∧ next.stack = b.stack ∧
      next.arena = b.arena.modifyElement owner fun e => e.appendText (String.ofList run) := by
  cases token with
  | doctype | startTag => cases taken
  | comment body =>
    cases comments with
    | true => cases taken
    | false =>
      cases taken
      exact Or.inl ⟨rfl, rfl, rfl⟩
  | endTag name =>
    unfold put at taken
    dsimp only at taken
    split at taken <;> cases taken
  | text run =>
    unfold put at taken
    dsimp only at taken
    split at taken
    · contradiction
    · rename_i owner owned
      cases taken
      exact Or.inr ⟨owner, run, rfl, owned, rfl, rfl⟩

structure Speaks (b next : Builder) (owner : NodeId) (run covered : List Char) : Prop where
  read : TextRead run covered next.scanner.rest
  signs : covered ≠ []
  reaches : b.scanner.Reaches covered next.scanner
  owned : b.textOwner? = some owner
  stack : next.stack = b.stack
  arena : next.arena = b.arena.modifyElement owner fun e => e.appendText (String.ofList run)

theorem stepSpoken (stepped : b.step true = .ok (next, none)) : ∃ owner run covered, b.Speaks next owner run covered := by
  obtain ⟨token, read⟩ := stepReads stepped
  obtain ⟨covered, reading⟩ := Scanner.tokenRead read
  rw [stepTaken read] at stepped
  obtain ⟨impossible, _⟩ | ⟨owner, run, rfl, owned, stack, arena⟩ := putQuiet stepped
  · contradiction
  exact ⟨owner, run, covered, reading.text run rfl, reading.signs, reading.reaches, owned, stack, arena⟩

end Builder
end Templating
