import Templating.Markup.Name
import Templating.Text.Blank
import Templating.Text.Bytes
import Templating.Text.Search

/-!
The constructs of markup, recognised at the head of a text. A match says which characters it covers
and what they mean. It consumes nothing, covers at least one character, and covers exactly the
characters the text begins with (`Match.Heads`).
-/
namespace Templating.Markup

structure Match (α : Type) where
  covered : List Char
  value : α
  deriving DecidableEq, Repr

namespace Match

def byteLength {α : Type} (m : Match α) : Nat := Text.byteLength m.covered

def map {α β : Type} (f : α → β) (m : Match α) : Match β := ⟨m.covered, f m.value⟩

def Heads {α : Type} (m : Match α) (text : List Char) : Prop := m.covered ≠ [] ∧ ∃ after, text = m.covered ++ after

end Match

def doctype? (text : List Char) : Option (Match (List Char)) :=
  if (text.take 9).map Char.toUpper = "<!DOCTYPE".toList then
    (Text.splitFirst ['>'] (text.drop 9)).map fun sides =>
      ⟨text.take 9 ++ (sides.1 ++ ['>']), Text.trim sides.1⟩
  else none

def comment? (text : List Char) : Option (Match (List Char)) :=
  (Text.strip "<!--".toList text).bind fun body =>
    (Text.splitFirst "-->".toList body).map fun sides => ⟨"<!--".toList ++ (sides.1 ++ "-->".toList), sides.1⟩

def startTag? : List Char → Option (Match (List Char))
  | '<' :: r => if tagName r = [] then none else some ⟨'<' :: tagName r, tagName r⟩
  | _ => none

def endTag? : List Char → Option (Match (List Char))
  | '<' :: '/' :: r =>
      if tagName r = [] then none else
      match r.drop (tagName r).length with
      | '>' :: _ => some ⟨'<' :: '/' :: (tagName r ++ ['>']), tagName r⟩
      | _ => none
  | _ => none

def tagClose? : List Char → Option (Match Bool)
  | '/' :: '>' :: _ => some ⟨['/', '>'], true⟩
  | '>' :: _ => some ⟨['>'], false⟩
  | _ => none

structure Attribute where
  name : List Char
  value : Option (List Char)
  deriving DecidableEq, Repr

def isQuote (c : Char) : Bool := c == '"' || c == '\x27'

def attributeValue? (text : List Char) : Option (Match (List Char)) :=
  match text.dropWhile Text.isBlank with
  | '=' :: afterSign =>
      match afterSign.dropWhile Text.isBlank with
      | quote :: quoted =>
          if isQuote quote then
            (Text.splitFirst [quote] quoted).map fun sides =>
              ⟨text.takeWhile Text.isBlank ++ '=' :: (afterSign.takeWhile Text.isBlank ++ quote :: (sides.1 ++ [quote])),
                Text.trim sides.1⟩
          else none
      | [] => none
  | _ => none

/- A name, and its value where that is complete; without one the match ends behind the name. -/
def attribute? : List Char → Option (Match Attribute)
  | [] => none
  | c :: r =>
      if isAttributeStart c then
        let name := c :: r.takeWhile isAttributeName
        match attributeValue? (r.dropWhile isAttributeName) with
        | some value => some ⟨name ++ value.covered, ⟨name, some value.value⟩⟩
        | none => some ⟨name, ⟨name, none⟩⟩
      else none

def isText (c : Char) : Bool := c != '<' && c != '/'

def text? (text : List Char) : Option (Match (List Char)) :=
  if text.takeWhile isText = [] then none
  else some ⟨text.takeWhile isText, Text.trim (text.takeWhile isText)⟩

/-- Whether the start tag of `name` at the head of a text is to have an end tag: one of that name
stands somewhere behind the first `>` after the name. -/
def isPaired (text name : List Char) : Bool :=
  match Text.splitFirst ['>'] (Text.dropBytes (1 + Text.byteLength name) text) with
  | some sides => Text.occursIn ('<' :: '/' :: (name ++ ['>'])) sides.2
  | none => false

inductive Construct where
  | doctype (body : List Char)
  | comment (body : List Char)
  | startTag (name : List Char)
  | endTag (name : List Char)
  | text (run : List Char)
  deriving DecidableEq, Repr

/-- What stands at the head of a text; a construct named earlier here comes before the later ones. -/
def construct? (text : List Char) : Option (Match Construct) :=
  ((doctype? text).map (Match.map .doctype)).or <|
  ((comment? text).map (Match.map .comment)).or <|
  ((startTag? text).map (Match.map .startTag)).or <|
  ((endTag? text).map (Match.map .endTag)).or <|
  (text? text).map (Match.map .text)

theorem tagNameHeads (text : List Char) : ∃ after, text = tagName text ++ after := by
  cases text with
  | nil => exact ⟨[], rfl⟩
  | cons c r =>
    by_cases h : isWord c
    · exact ⟨r.dropWhile isTagName, by simp [tagName, h, List.takeWhile_append_dropWhile]⟩
    · exact ⟨c :: r, by simp [tagName, h]⟩

theorem doctypeHeads {text m} (h : doctype? text = some m) : m.Heads text := by
  unfold doctype? at h
  split at h
  · obtain ⟨⟨body, after⟩, found, rfl⟩ := Option.map_eq_some_iff.mp h
    refine ⟨by simp, after, ?_⟩
    have split := Text.splitFirstSides found
    conv => lhs; rw [← List.take_append_drop 9 text, split]
    simp
  · contradiction

theorem commentHeads {text m} (h : comment? text = some m) : m.Heads text := by
  obtain ⟨body, opened, h⟩ := Option.bind_eq_some_iff.mp h
  obtain ⟨⟨inner, after⟩, closed, rfl⟩ := Option.map_eq_some_iff.mp h
  refine ⟨by simp, after, ?_⟩
  rw [Text.stripIff.mp opened, Text.splitFirstSides closed]
  simp

theorem startTagHeads {text m} (h : startTag? text = some m) : m.Heads text := by
  unfold startTag? at h
  split at h
  · rename_i r
    split at h
    · contradiction
    · cases h
      obtain ⟨after, split⟩ := tagNameHeads r
      exact ⟨by simp, after, by simp [← split]⟩
  · contradiction

theorem endTagHeads {text m} (h : endTag? text = some m) : m.Heads text := by
  unfold endTag? at h
  split at h
  · rename_i r
    split at h
    · contradiction
    · split at h
      · rename_i after closed
        cases h
        obtain ⟨tail, split⟩ := tagNameHeads r
        have same : tail = '>' :: after := by
          have rest := congrArg (List.drop (tagName r).length) split
          rw [List.drop_left] at rest
          exact rest.symm.trans closed
        exact ⟨by simp, after, by simp [← same, ← split]⟩
      · contradiction
  · contradiction

theorem tagCloseHeads {text m} (h : tagClose? text = some m) : m.Heads text := by
  unfold tagClose? at h
  split at h
  · cases h; exact ⟨by simp, _, rfl⟩
  · cases h; exact ⟨by simp, _, rfl⟩
  · contradiction

theorem attributeValueHeads {text m} (h : attributeValue? text = some m) : m.Heads text := by
  unfold attributeValue? at h
  split at h
  · rename_i afterSign sign
    split at h
    · rename_i quote quoted opened
      split at h
      · obtain ⟨⟨value, after⟩, closed, rfl⟩ := Option.map_eq_some_iff.mp h
        refine ⟨by simp, after, ?_⟩
        have first := (List.takeWhile_append_dropWhile (p := Text.isBlank) (l := text)).symm
        have second := (List.takeWhile_append_dropWhile (p := Text.isBlank) (l := afterSign)).symm
        rw [sign] at first
        rw [opened, Text.splitFirstSides closed] at second
        conv => lhs; rw [first, second]
        simp
      · contradiction
    · contradiction
  · contradiction

theorem attributeHeads {text m} (h : attribute? text = some m) : m.Heads text := by
  cases text with
  | nil => contradiction
  | cons c r =>
    simp only [attribute?] at h
    split at h
    · split at h
      · rename_i value found
        cases h
        obtain ⟨after, split⟩ := (attributeValueHeads found).2
        refine ⟨by simp, after, ?_⟩
        simp [← split, List.takeWhile_append_dropWhile]
      · cases h
        exact ⟨by simp, r.dropWhile isAttributeName, by simp [List.takeWhile_append_dropWhile]⟩
    · contradiction

theorem textHeads {text m} (h : text? text = some m) : m.Heads text := by
  unfold text? at h
  split at h
  · contradiction
  · rename_i run
    cases h
    exact ⟨run, text.dropWhile isText, List.takeWhile_append_dropWhile.symm⟩

theorem constructHeads {text m} (h : construct? text = some m) : m.Heads text := by
  simp only [construct?, Option.or_eq_some_iff, Option.map_eq_some_iff] at h
  rcases h with ⟨m, h, rfl⟩ | ⟨_, ⟨m, h, rfl⟩ | ⟨_, ⟨m, h, rfl⟩ | ⟨_, ⟨m, h, rfl⟩ | ⟨_, m, h, rfl⟩⟩⟩⟩
  · exact doctypeHeads h
  · exact commentHeads h
  · exact startTagHeads h
  · exact endTagHeads h
  · exact textHeads h

end Templating.Markup
