import Templating.Error
import Templating.Markup.Construct

/-!
The cursor over a template. It starts behind the leading blanks and what is left ends before the
trailing ones; its offset counts the bytes of the whole template before it.
-/
namespace Templating.Markup

structure Scanner where
  source : List Char
  offset : Nat
  rest : List Char
  deriving DecidableEq, Repr

namespace Scanner

def ofSource (source : List Char) : Scanner :=
  ⟨source, Text.byteLength (source.takeWhile Text.isBlank), Text.trimEnd (Text.trimStart source)⟩

def atEnd (s : Scanner) : Bool := s.rest.isEmpty

def pass (s : Scanner) (covered : List Char) : Scanner :=
  { s with offset := s.offset + Text.byteLength covered, rest := s.rest.drop covered.length }

def skipBlank (s : Scanner) : Scanner := s.pass (s.rest.takeWhile Text.isBlank)

def advance (s : Scanner) (bytes : Nat) : Scanner :=
  s.pass (s.rest.take (s.rest.length - (Text.dropBytes bytes s.rest).length))

def illegal (s : Scanner) (reason : IllegalReason) (offset : Nat) : CompileError :=
  .illegalTemplate reason (Position.locate s.source offset)

theorem restPass {s : Scanner} {covered after : List Char} (h : s.rest = covered ++ after) :
    (s.pass covered).rest = after := by
  simp [pass, h]

theorem restSkipBlank (s : Scanner) : s.skipBlank.rest = Text.trimStart s.rest := by
  have split := (List.takeWhile_append_dropWhile (p := Text.isBlank) (l := s.rest)).symm
  exact restPass split

theorem restSkipBlankLength (s : Scanner) : s.skipBlank.rest.length ≤ s.rest.length := by
  rw [restSkipBlank]; exact Text.trimStartLength s.rest

theorem restPassMatch {s : Scanner} {α : Type} {m : Match α} (h : m.Heads s.rest) :
    (s.pass m.covered).rest.length < s.rest.length := by
  obtain ⟨some, after, split⟩ := h
  rw [restPass split, split, List.length_append]
  have := List.length_pos_iff.mpr some
  omega

end Scanner
end Templating.Markup
