import Templating.Build.Run

/-!
Where the cursor stands. What a reading covers is what the text begins with, and the offset counts
the bytes behind the cursor, so every offset named in a build falls on a character boundary.
-/
namespace Templating.Markup.Scanner

structure Reaches (s : Scanner) (covered : List Char) (t : Scanner) : Prop where
  rest : s.rest = covered ++ t.rest
  offset : t.offset = s.offset + Text.byteLength covered
  source : t.source = s.source

theorem reachesSelf (s : Scanner) : s.Reaches [] s := ⟨rfl, rfl, rfl⟩

theorem reachesTrans {s t u : Scanner} {first second : List Char}
    (left : s.Reaches first t) (right : t.Reaches second u) : s.Reaches (first ++ second) u := by
  refine ⟨?_, ?_, right.source.trans left.source⟩
  · rw [left.rest, right.rest, List.append_assoc]
  · rw [right.offset, left.offset, Text.byteLengthAppend, Nat.add_assoc]

theorem reachesPass {s : Scanner} {covered after : List Char} (split : s.rest = covered ++ after) :
    s.Reaches covered (s.pass covered) :=
  ⟨by rw [restPass split, split], rfl, rfl⟩

theorem reachesMatch {s : Scanner} {α : Type} {m : Match α} (heads : m.Heads s.rest) :
    s.Reaches m.covered (s.pass m.covered) := by
  obtain ⟨_, after, split⟩ := heads
  exact reachesPass split

theorem reachesSkipBlank (s : Scanner) : s.Reaches (s.rest.takeWhile Text.isBlank) s.skipBlank :=
  reachesPass (List.takeWhile_append_dropWhile (p := Text.isBlank)).symm

theorem reachesLength {s t : Scanner} {covered : List Char} (h : s.Reaches covered t) :
    s.rest.length = covered.length + t.rest.length := by
  rw [h.rest, List.length_append]

theorem reachesAttributes {start : Nat} {s t : Scanner} {e f : Element}
    (h : s.readAttributes start e = .ok (t, f)) : ∃ covered, s.Reaches covered t := by
  fun_induction readAttributes start s e with
  | case1 s e here close found =>
    cases h
    exact ⟨_, reachesTrans s.reachesSkipBlank (reachesMatch (tagCloseHeads found))⟩
  | case2 => contradiction
  | case3 s e here noClose more written found ih =>
    obtain ⟨covered, tail⟩ := ih h
    have head := reachesTrans s.reachesSkipBlank (reachesMatch (attributeHeads found))
    exact ⟨_, reachesTrans head tail⟩
  | case4 => contradiction

def Placed (s : Scanner) : Prop :=
  ∃ before after, s.source = before ++ (s.rest ++ after) ∧ s.offset = Text.byteLength before

theorem ofSourceSides (source : List Char) : ∃ trail, (∀ c ∈ trail, Text.isBlank c = true) ∧
    source = source.takeWhile Text.isBlank ++ ((ofSource source).rest ++ trail) := by
  obtain ⟨trail, blank, ending⟩ := Text.trimEndAppendBlank (Text.trimStart source)
  have split : source = source.takeWhile Text.isBlank ++ Text.trimStart source :=
    List.takeWhile_append_dropWhile.symm
  exact ⟨trail, blank, split.trans (congrArg (_ ++ ·) ending)⟩

theorem placedOfSource (source : List Char) : (ofSource source).Placed := by
  obtain ⟨trail, _, split⟩ := ofSourceSides source
  exact ⟨_, trail, split, rfl⟩

theorem placedReaches {s t : Scanner} {covered : List Char} (placed : s.Placed) (h : s.Reaches covered t) :
    t.Placed := by
  obtain ⟨before, after, split, offset⟩ := placed
  refine ⟨before ++ covered, after, ?_, ?_⟩
  · rw [h.source, split, h.rest]
    simp only [List.append_assoc]
  · rw [h.offset, offset, Text.byteLengthAppend]

theorem placedBound {s : Scanner} (placed : s.Placed) :
    s.offset + Text.byteLength s.rest ≤ Text.byteLength s.source := by
  obtain ⟨before, after, split, offset⟩ := placed
  rw [split, offset]
  simp only [Text.byteLengthAppend]
  omega

end Templating.Markup.Scanner

namespace Templating.Text

theorem lengthLeByteLength (cs : List Char) : cs.length ≤ byteLength cs := by
  induction cs with
  | nil => simp
  | cons c r ih =>
    have := Char.utf8Size_pos c
    simp only [List.length_cons, byteLengthCons]
    omega

theorem takeBytesAppend (a b : List Char) : takeBytes (byteLength a) (a ++ b) = a ++ takeBytes 0 b := by
  induction a with
  | nil => simp
  | cons c r ih =>
    have fits : c.utf8Size ≤ byteLength (c :: r) := by simp
    have left : byteLength (c :: r) - c.utf8Size = byteLength r := by simp
    rw [List.cons_append, takeBytes, if_pos fits, left, ih, List.cons_append]

theorem takeBytesZero (cs : List Char) : takeBytes 0 cs = [] := by
  cases cs with
  | nil => rfl
  | cons c r =>
    have := Char.utf8Size_pos c
    simp only [takeBytes]
    exact if_neg (by omega)

theorem takeBytesBefore (a b : List Char) : takeBytes (byteLength a) (a ++ b) = a := by
  rw [takeBytesAppend, takeBytesZero, List.append_nil]

end Templating.Text

namespace Templating

theorem Position.locateOffset {before after : List Char} (short : Text.byteLength (before ++ after) < UInt32.size) :
    (Position.locate (before ++ after) (Text.byteLength before)).offset.toNat = Text.byteLength before := by
  have bound : Text.byteLength before < UInt32.size := by
    rw [Text.byteLengthAppend] at short
    omega
  simp only [Position.locate, Text.takeBytesBefore]
  exact UInt32.toNat_ofNat_of_lt' bound

theorem Markup.Scanner.placedLocate {s : Markup.Scanner} (placed : s.Placed)
    (short : Text.byteLength s.source < UInt32.size) :
    (Position.locate s.source s.offset).offset.toNat = s.offset := by
  obtain ⟨before, after, split, offset⟩ := placed
  rw [split] at short ⊢
  rw [offset]
  exact Position.locateOffset short

end Templating
