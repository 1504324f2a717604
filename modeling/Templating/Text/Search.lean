/-!
Searching a text for another. A find is given by what stands on either side of it, so that no index
has to be related to the characters afterwards.
-/
namespace Templating.Text

def strip : List Char → List Char → Option (List Char)
  | [], cs => some cs
  | p :: ps, c :: cs => if p = c then strip ps cs else none
  | _ :: _, [] => none

def splitFirst (needle : List Char) : List Char → Option (List Char × List Char)
  | [] => (strip needle []).map fun after => ([], after)
  | c :: r =>
      match strip needle (c :: r) with
      | some after => some ([], after)
      | none => (splitFirst needle r).map fun sides => (c :: sides.1, sides.2)

def splitLast (needle : List Char) : List Char → Option (List Char × List Char)
  | [] => (strip needle []).map fun after => ([], after)
  | c :: r =>
      match splitLast needle r with
      | some sides => some (c :: sides.1, sides.2)
      | none => (strip needle (c :: r)).map fun after => ([], after)

def occursIn (needle : List Char) : List Char → Bool
  | [] => needle.isEmpty
  | c :: r => (strip needle (c :: r)).isSome || occursIn needle r

theorem stripIff {lead cs after : List Char} : strip lead cs = some after ↔ cs = lead ++ after := by
  induction lead generalizing cs with
  | nil => simp [strip]
  | cons p ps ih =>
    cases cs with
    | nil => simp [strip]
    | cons c cs =>
      by_cases h : p = c
      · simp [strip, h, ih]
      · simp [strip, h, Ne.symm h]

@[simp] theorem stripAppend (lead after : List Char) : strip lead (lead ++ after) = some after := stripIff.mpr rfl

theorem splitFirstSides {needle cs before after : List Char} (h : splitFirst needle cs = some (before, after)) :
    cs = before ++ (needle ++ after) := by
  induction cs generalizing before with
  | nil =>
    obtain ⟨a, ha, same⟩ := Option.map_eq_some_iff.mp h
    cases same
    simpa using stripIff.mp ha
  | cons c r ih =>
    simp only [splitFirst] at h
    split at h
    · rename_i a ha
      cases h
      simpa using stripIff.mp ha
    · obtain ⟨⟨b, a⟩, hs, same⟩ := Option.map_eq_some_iff.mp h
      cases same
      simp [← ih hs]

theorem splitLastSides {needle cs before after : List Char} (h : splitLast needle cs = some (before, after)) :
    cs = before ++ (needle ++ after) := by
  induction cs generalizing before with
  | nil =>
    obtain ⟨a, ha, same⟩ := Option.map_eq_some_iff.mp h
    cases same
    simpa using stripIff.mp ha
  | cons c r ih =>
    simp only [splitLast] at h
    split at h
    · rename_i sides hs
      cases h
      simp [← ih hs]
    · obtain ⟨a, ha, same⟩ := Option.map_eq_some_iff.mp h
      cases same
      simpa using stripIff.mp ha

theorem occursInIff {needle cs : List Char} :
    occursIn needle cs = true ↔ ∃ before after, cs = before ++ (needle ++ after) := by
  induction cs with
  | nil => simp [occursIn]
  | cons c r ih =>
    simp only [occursIn, Bool.or_eq_true, ih]
    constructor
    · rintro (h | ⟨before, after, rfl⟩)
      · obtain ⟨after, h⟩ := Option.isSome_iff_exists.mp h
        exact ⟨[], after, by simpa using stripIff.mp h⟩
      · exact ⟨c :: before, after, rfl⟩
    · rintro ⟨before, after, h⟩
      cases before with
      | nil => exact Or.inl (by rw [show c :: r = needle ++ after from h]; simp)
      | cons b before => cases h; exact Or.inr ⟨before, after, rfl⟩

theorem occursInInfix {needle cs : List Char} : occursIn needle cs = true ↔ needle <:+: cs := by
  rw [occursInIff]
  refine exists_congr fun before => exists_congr fun after => ?_
  rw [List.append_assoc, eq_comm]

end Templating.Text
