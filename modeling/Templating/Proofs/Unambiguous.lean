import Templating.Json.Basic
import Templating.Proofs.Recognition

/-!
The compact text of a JSON value tells the value. Where one value ends is told from the text alone, so
two values with one text, each in front of what may follow a value, are the same and followed alike.
-/
namespace Templating.Json

variable {x y : List Char}

def escaped : List Char := '"' :: '\\' :: (List.range 32).map Char.ofNat

theorem escapeCases (c : Char) : c ∈ escaped ∨ escapeChar c = [c] ∧ c ≠ '"' ∧ c ≠ '\\' := by
  unfold escapeChar
  split
  case h_8 quote slash _ _ _ _ _ =>
    split
    · rename_i small
      refine Or.inl (List.mem_cons_of_mem _ (List.mem_cons_of_mem _ ?_))
      exact List.mem_map.mpr ⟨c.toNat, List.mem_range.mpr small, Char.ofNat_toNat c⟩
    · exact Or.inr ⟨rfl, quote, slash⟩
  all_goals exact Or.inl (by decide)

theorem escapeSign {c : Char} (member : c ∈ escaped) : (escapeChar c).head? = some '\\' := by
  have all : escaped.all (fun c => (escapeChar c).head? == some '\\') = true := by decide
  simpa using List.all_eq_true.mp all c member

theorem escapeApart {c d : Char} (first : c ∈ escaped) (second : d ∈ escaped) (before : escapeChar c <+: escapeChar d) :
    c = d := by
  have all : escaped.all (fun c => escaped.all fun d => !(escapeChar c).isPrefixOf (escapeChar d) || c == d) = true := by
    decide +kernel
  have apart := List.all_eq_true.mp (List.all_eq_true.mp all c first) d second
  rw [List.isPrefixOf_iff_prefix.mpr before] at apart
  simpa using apart

theorem escapeHead {c : Char} (member : c ∈ escaped) (x : List Char) : (escapeChar c ++ x).head? = some '\\' := by
  rw [List.head?_append, escapeSign member]
  rfl

theorem escapeReads {c d : Char} (same : escapeChar c ++ x = escapeChar d ++ y) : c = d ∧ x = y := by
  rcases escapeCases c with here | ⟨here, _, plain⟩ <;> rcases escapeCases d with there | ⟨there, _, other⟩
  · have one : c = d := by
      rcases List.prefix_or_prefix_of_prefix (List.prefix_append _ x) (same ▸ List.prefix_append _ y) with first | first
      · exact escapeApart here there first
      · exact (escapeApart there here first).symm
    subst one
    exact ⟨rfl, List.append_cancel_left same⟩
  · have heads := escapeHead here x
    rw [same, there] at heads
    exact absurd (Option.some.inj heads) other
  · have heads := escapeHead there y
    rw [← same, here] at heads
    exact absurd (Option.some.inj heads) plain
  · rw [here, there] at same
    exact List.cons.inj same

theorem escapeOpen (c : Char) (x : List Char) : (escapeChar c ++ x).head? ≠ some '"' := by
  rcases escapeCases c with here | ⟨here, plain, _⟩
  · rw [escapeHead here]
    decide
  · rw [here]
    exact fun same => plain (Option.some.inj same)

theorem charsRead {cs ds : List Char}
    (same : cs.flatMap escapeChar ++ '"' :: x = ds.flatMap escapeChar ++ '"' :: y) : cs = ds ∧ x = y := by
  induction cs generalizing ds with
  | nil =>
    cases ds with
    | nil => exact ⟨rfl, (List.cons.inj same).2⟩
    | cons d ds =>
      rw [List.flatMap_cons, List.append_assoc] at same
      exact absurd (congrArg List.head? same).symm (escapeOpen d _)
  | cons c cs ih =>
    cases ds with
    | nil =>
      rw [List.flatMap_cons, List.append_assoc] at same
      exact absurd (congrArg List.head? same) (escapeOpen c _)
    | cons d ds =>
      rw [List.flatMap_cons, List.flatMap_cons, List.append_assoc, List.append_assoc] at same
      obtain ⟨rfl, rest⟩ := escapeReads same
      obtain ⟨rfl, behind⟩ := ih rest
      exact ⟨rfl, behind⟩

theorem stringReads {value other : String} (same : writeString value x = writeString other y) :
    value = other ∧ x = y := by
  obtain ⟨chars, rest⟩ := charsRead (List.cons.inj same).2
  exact ⟨String.toList_inj.mp chars, rest⟩

def EndsNumber (rest : List Char) : Prop := ∀ c, rest.head? = some c → c.isDigit = false

theorem digitsOf (n : Nat) : ∀ c ∈ Nat.toDigits 10 n, c.isDigit = true :=
  fun _ member => Nat.isDigit_of_mem_toDigits (b := 10) (n := n) (by decide) (by decide) member

theorem digitsRead {m n : Nat} (ends : EndsNumber x) (alsoEnds : EndsNumber y)
    (same : Nat.toDigits 10 m ++ x = Nat.toDigits 10 n ++ y) : m = n ∧ x = y := by
  have taken := congrArg (List.takeWhile Char.isDigit) same
  rw [Text.takeWhileExact (digitsOf m) ends, Text.takeWhileExact (digitsOf n) alsoEnds] at taken
  refine ⟨?_, List.append_cancel_left (taken ▸ same)⟩
  have numbers := congrArg (fun cs => Nat.ofDigitChars 10 cs 0) taken
  rwa [Nat.ofDigitChars_ten_toDigits, Nat.ofDigitChars_ten_toDigits] at numbers

theorem digitsHead (n : Nat) (x : List Char) : ∃ c r, Nat.toDigits 10 n ++ x = c :: r ∧ c.isDigit = true := by
  obtain ⟨c, r, digits⟩ := List.exists_cons_of_ne_nil (Nat.toDigits_ne_nil (n := n) (b := 10))
  exact ⟨c, r ++ x, by rw [digits]; rfl, digitsOf n c (by rw [digits]; exact List.mem_cons_self)⟩

theorem intReads {value other : Int} (ends : EndsNumber x) (alsoEnds : EndsNumber y)
    (same : writeInt value x = writeInt other y) : value = other ∧ x = y := by
  have unsigned (n : Nat) (rest more : List Char) : '-' :: more ≠ Nat.toDigits 10 n ++ rest := by
    obtain ⟨c, r, digits, digit⟩ := digitsHead n rest
    rw [digits]
    intro heads
    rw [← (List.cons.inj heads).1] at digit
    contradiction
  unfold writeInt at same
  split at same <;> split at same
  · obtain ⟨size, rest⟩ := digitsRead ends alsoEnds (List.cons.inj same).2
    exact ⟨by omega, rest⟩
  · exact absurd same (unsigned _ _ _)
  · exact absurd same.symm (unsigned _ _ _)
  · obtain ⟨size, rest⟩ := digitsRead ends alsoEnds same
    exact ⟨by omega, rest⟩

inductive Kind where
  | null
  | truth
  | number
  | string
  | array
  | object
  deriving DecidableEq, Repr

def kind : Json → Kind
  | .null => .null
  | .bool _ => .truth
  | .int _ => .number
  | .decimal _ _ => .number
  | .string _ => .string
  | .array _ => .array
  | .object _ => .object

def Kind.ofSign? (c : Char) : Option Kind :=
  if c = 'n' then some .null else if c = 't' then some .truth else if c = 'f' then some .truth
  else if c = '"' then some .string else if c = '[' then some .array else if c = '\x7b' then some .object
  else if c = '-' ∨ c.isDigit then some .number else none

theorem signOfDigit {c : Char} (digit : c.isDigit = true) : Kind.ofSign? c = some .number := by
  have other (d : Char) (plain : d.isDigit = false) : c ≠ d := by
    rintro rfl
    rw [digit] at plain
    contradiction
  simp [Kind.ofSign?, other, digit]

theorem intHead (value : Int) (x : List Char) :
    ∃ c r, writeInt value x = c :: r ∧ Kind.ofSign? c = some .number := by
  unfold writeInt
  split
  · exact ⟨'-', _, rfl, rfl⟩
  · obtain ⟨c, r, digits, digit⟩ := digitsHead value.natAbs x
    exact ⟨c, r, digits, signOfDigit digit⟩

theorem writeHead (json : Json) (x : List Char) :
    ∃ c r, json.write x = c :: r ∧ Kind.ofSign? c = some json.kind := by
  cases json with
  | null => exact ⟨_, _, by rw [write], rfl⟩
  | bool value => cases value <;> exact ⟨_, _, by rw [write], rfl⟩
  | int value =>
    rw [write]
    exact intHead value x
  | decimal mantissa places =>
    rw [write]
    exact intHead mantissa _
  | string value => exact ⟨_, _, by rw [write, writeString], rfl⟩
  | array items => exact ⟨_, _, by rw [write], rfl⟩
  | object fields => exact ⟨_, _, by rw [write], rfl⟩

theorem kindRead {a b : Json} (same : a.write x = b.write y) : a.kind = b.kind := by
  obtain ⟨c, r, left, sign⟩ := a.writeHead x
  obtain ⟨d, s, right, other⟩ := b.writeHead y
  rw [left, right] at same
  rw [(List.cons.inj same).1, other] at sign
  exact (Option.some.inj sign).symm

theorem writeOpen (json : Json) (x r : List Char) : json.write x ≠ ']' :: r := by
  intro same
  obtain ⟨c, s, head, sign⟩ := json.writeHead x
  rw [head] at same
  rw [(List.cons.inj same).1] at sign
  contradiction

def Follows (rest : List Char) : Prop := ∀ c, rest.head? = some c → c = ',' ∨ c = ']' ∨ c = '\x7d'

theorem followsNumber {rest : List Char} (follows : Follows rest) : EndsNumber rest := by
  intro c head
  rcases follows c head with rfl | rfl | rfl <;> decide

theorem followsExponent {rest : List Char} (follows : Follows rest) (more : List Char) : rest ≠ 'e' :: more := by
  rintro rfl
  rcases follows 'e' rfl with same | same | same <;> exact absurd same (by decide)

def behindItem (items : List Json) (rest : List Char) : List Char :=
  if items.isEmpty then rest else ',' :: writeItems items rest

def behindField (fields : List (String × Json)) (rest : List Char) : List Char :=
  if fields.isEmpty then rest else ',' :: writeFields fields rest

theorem writeItemsCons (item : Json) (items : List Json) (rest : List Char) :
    writeItems (item :: items) rest = item.write (behindItem items rest) := by
  cases items <;> rfl

theorem writeFieldsCons (name : String) (value : Json) (fields : List (String × Json)) (rest : List Char) :
    writeFields ((name, value) :: fields) rest = writeString name (':' :: value.write (behindField fields rest)) := by
  cases fields <;> rfl

theorem followsItem (items : List Json) (x : List Char) : Follows (behindItem items (']' :: x)) := by
  intro c head
  unfold behindItem at head
  split at head <;> cases head <;> simp

theorem followsField (fields : List (String × Json)) (x : List Char) : Follows (behindField fields ('\x7d' :: x)) := by
  intro c head
  unfold behindField at head
  split at head <;> cases head <;> simp

theorem behindItemReads {items others : List Json} (same : behindItem items (']' :: x) = behindItem others (']' :: y)) :
    writeItems items (']' :: x) = writeItems others (']' :: y) := by
  cases items <;> cases others
  · exact same
  · cases (List.cons.inj same).1
  · cases (List.cons.inj same).1
  · exact (List.cons.inj same).2

theorem behindFieldReads {fields others : List (String × Json)}
    (same : behindField fields ('\x7d' :: x) = behindField others ('\x7d' :: y)) :
    writeFields fields ('\x7d' :: x) = writeFields others ('\x7d' :: y) := by
  cases fields <;> cases others
  · exact same
  · cases (List.cons.inj same).1
  · cases (List.cons.inj same).1
  · exact (List.cons.inj same).2

mutual

theorem writeReads : (a b : Json) → {x y : List Char} → Follows x → Follows y → a.write x = b.write y → a = b ∧ x = y
  | .null, b, _, _, _, _, same => by
    cases b <;> cases kindRead same
    rw [write, write] at same
    simp_all
  | .bool value, b, _, _, _, _, same => by
    cases b with
    | bool other => cases value <;> cases other <;> simp_all [write]
    | _ => cases kindRead same
  | .int value, b, _, _, ends, alsoEnds, same => by
    cases b with
    | int other =>
      rw [write, write] at same
      obtain ⟨rfl, rest⟩ := intReads (followsNumber ends) (followsNumber alsoEnds) same
      exact ⟨rfl, rest⟩
    | decimal mantissa places =>
      rw [write, write] at same
      obtain ⟨_, rest⟩ := intReads (followsNumber ends) (by rintro c ⟨⟩; decide) same
      exact absurd rest (followsExponent ends _)
    | _ => cases kindRead same
  | .decimal mantissa places, b, _, _, ends, alsoEnds, same => by
    cases b with
    | int other =>
      rw [write, write] at same
      obtain ⟨_, rest⟩ := intReads (by rintro c ⟨⟩; decide) (followsNumber alsoEnds) same
      exact absurd rest.symm (followsExponent alsoEnds _)
    | decimal other power =>
      rw [write, write] at same
      obtain ⟨rfl, rest⟩ := intReads (by rintro c ⟨⟩; decide) (by rintro c ⟨⟩; decide) same
      obtain ⟨rfl, behind⟩ := digitsRead (followsNumber ends) (followsNumber alsoEnds)
        (List.cons.inj (List.cons.inj rest).2).2
      exact ⟨rfl, behind⟩
    | _ => cases kindRead same
  | .string value, b, _, _, _, _, same => by
    cases b <;> cases kindRead same
    rw [write, write] at same
    obtain ⟨rfl, rest⟩ := stringReads same
    exact ⟨rfl, rest⟩
  | .array items, b, _, _, _, _, same => by
    cases b <;> cases kindRead same
    rw [write, write] at same
    obtain ⟨rfl, rest⟩ := itemsRead items _ (List.cons.inj same).2
    exact ⟨rfl, rest⟩
  | .object fields, b, _, _, _, _, same => by
    cases b <;> cases kindRead same
    rw [write, write] at same
    obtain ⟨rfl, rest⟩ := fieldsRead fields _ (List.cons.inj same).2
    exact ⟨rfl, rest⟩

theorem itemsRead : (items others : List Json) → {x y : List Char} →
    writeItems items (']' :: x) = writeItems others (']' :: y) → items = others ∧ x = y
  | [], [], _, _, same => ⟨rfl, (List.cons.inj same).2⟩
  | [], other :: others, _, _, same => by
    rw [writeItemsCons] at same
    exact absurd same.symm (writeOpen other _ _)
  | item :: items, [], _, _, same => by
    rw [writeItemsCons] at same
    exact absurd same (writeOpen item _ _)
  | item :: items, other :: others, x, y, same => by
    rw [writeItemsCons, writeItemsCons] at same
    obtain ⟨rfl, rest⟩ := writeReads item other (followsItem items x) (followsItem others y) same
    obtain ⟨rfl, behind⟩ := itemsRead items others (behindItemReads rest)
    exact ⟨rfl, behind⟩

theorem fieldsRead : (fields others : List (String × Json)) → {x y : List Char} →
    writeFields fields ('\x7d' :: x) = writeFields others ('\x7d' :: y) → fields = others ∧ x = y
  | [], [], _, _, same => ⟨rfl, (List.cons.inj same).2⟩
  | [], (name, value) :: others, _, _, same => by
    rw [writeFieldsCons] at same
    cases (List.cons.inj same).1
  | (name, value) :: fields, [], _, _, same => by
    rw [writeFieldsCons] at same
    cases (List.cons.inj same).1
  | (name, value) :: fields, (named, other) :: others, x, y, same => by
    rw [writeFieldsCons, writeFieldsCons] at same
    obtain ⟨rfl, colon⟩ := stringReads same
    obtain ⟨rfl, rest⟩ := writeReads value other (followsField fields x) (followsField others y) (List.cons.inj colon).2
    obtain ⟨rfl, behind⟩ := fieldsRead fields others (behindFieldReads rest)
    exact ⟨rfl, behind⟩

end

end Templating.Json
