import Templating.Proofs.Kinship

/-!
The way up from a node along the parents. For a node about to be opened it leads through exactly the
elements that are open then; later nodes and later end tags leave it as it is. So whether a node lies
in the subtree of a marked element is settled as it is opened.
-/
namespace Templating

inductive Ancestor (parent : NodeId → Option NodeId) (id : NodeId) : NodeId → Prop where
  | self : Ancestor parent id id
  | next {inner outer : NodeId} (on : Ancestor parent id inner) (up : parent inner = some outer) :
      Ancestor parent id outer

namespace Ancestor
variable {parent changed : NodeId → Option NodeId} {id inner outer other : NodeId}

theorem trans (on : Ancestor parent id inner) (further : Ancestor parent inner outer) : Ancestor parent id outer := by
  induction further with
  | self => exact on
  | next _ up ih => exact .next ih up

theorem first : Ancestor parent id outer ↔ outer = id ∨ ∃ p, parent id = some p ∧ Ancestor parent p outer := by
  constructor
  · intro on
    induction on with
    | self => exact Or.inl rfl
    | next _ up ih =>
      rcases ih with rfl | ⟨p, first, further⟩
      · exact Or.inr ⟨_, up, .self⟩
      · exact Or.inr ⟨p, first, .next further up⟩
  · rintro (rfl | ⟨p, first, further⟩)
    · exact .self
    · exact trans (.next .self first) further

theorem total (left : Ancestor parent id inner) (right : Ancestor parent id outer) :
    Ancestor parent inner outer ∨ Ancestor parent outer inner := by
  induction left with
  | self => exact Or.inl right
  | @next inner p _ up ih =>
    rcases ih with beyond | below
    · rcases first.mp beyond with rfl | ⟨q, again, further⟩
      · exact Or.inr (.next .self up)
      · cases up.symm.trans again
        exact Or.inl further
    · exact Or.inr (.next below up)

theorem unused (differs : other ≠ id) (nobody : ∀ child, parent child ≠ some id)
    (same : ∀ child, child ≠ id → changed child = parent child) :
    Ancestor changed other outer ↔ Ancestor parent other outer := by
  -- neither way leads through `id`, so each keeps to nodes whose parents are the same
  constructor
  · intro on
    have both : Ancestor parent other outer ∧ outer ≠ id := by
      induction on with
      | self => exact ⟨.self, differs⟩
      | @next inner p _ up ih =>
        rw [same inner ih.2] at up
        exact ⟨.next ih.1 up, fun impossible => nobody inner (impossible ▸ up)⟩
    exact both.1
  · intro on
    have both : Ancestor changed other outer ∧ outer ≠ id := by
      induction on with
      | self => exact ⟨.self, differs⟩
      | @next inner p _ up ih =>
        exact ⟨.next ih.1 ((same inner ih.2).trans up), fun impossible => nobody inner (impossible ▸ up)⟩
    exact both.1

end Ancestor

namespace Kindred

def parent? (kin : Kindred) (id : NodeId) : Option NodeId := (kin id).bind Kinship.parent

def marks (kin : Kindred) (id : NodeId) : Bool := (kin id).any Kinship.pre

/- The node, or one of those that it stands in, starts a verbatim subtree. -/
def Covered (kin : Kindred) (id : NodeId) : Prop := ∃ outer, Ancestor kin.parent? id outer ∧ kin.marks outer = true

/- One of those that it stands in does. -/
def Inside (kin : Kindred) (id : NodeId) : Prop := ∃ p, kin.parent? id = some p ∧ kin.Covered p

variable {kin : Kindred} {id other : NodeId} {k : Kinship} {children : List NodeId}

theorem coveredCases : kin.Covered id ↔ kin.marks id = true ∨ kin.Inside id := by
  constructor
  · rintro ⟨outer, on, marked⟩
    rcases Ancestor.first.mp on with rfl | ⟨p, up, further⟩
    · exact Or.inl marked
    · exact Or.inr ⟨p, up, outer, further, marked⟩
  · rintro (marked | ⟨p, up, outer, further, marked⟩)
    · exact ⟨id, .self, marked⟩
    · exact ⟨outer, Ancestor.first.mpr (Or.inr ⟨p, up, further⟩), marked⟩

theorem uncovered (unmarked : kin.marks id = false) (above : ∀ p, kin.parent? id = some p → ¬ kin.Covered p) :
    ¬ kin.Covered id := by
  rw [coveredCases, unmarked]
  rintro (impossible | ⟨p, up, covered⟩)
  · contradiction
  · exact above p up covered

theorem markedOnce (single : ∀ id, kin.marks id = true → ¬ kin.Inside id) {inner outer : NodeId}
    (left : Ancestor kin.parent? id inner) (right : Ancestor kin.parent? id outer) (marked : kin.marks inner = true)
    (alsoMarked : kin.marks outer = true) : inner = outer := by
  rcases left.total right with beyond | below
  · rcases Ancestor.first.mp beyond with rfl | ⟨p, up, further⟩
    · rfl
    · exact absurd ⟨p, up, outer, further, alsoMarked⟩ (single inner marked)
  · rcases Ancestor.first.mp below with rfl | ⟨p, up, further⟩
    · rfl
    · exact absurd ⟨p, up, inner, further, marked⟩ (single outer alsoMarked)

theorem closeView {β : Type} (view : Option Kinship → β)
    (same : ∀ k : Kinship, view (some (k.close children)) = view (some k)) (other : NodeId) :
    view (kin.close id children other) = view (kin other) := by
  by_cases here : other = id
  · subst here
    unfold close
    rw [Function.update_self]
    cases kin other with
    | none => rfl
    | some k => exact same k
  · rw [closeOther here]

theorem parentClose : (kin.close id children).parent? = kin.parent? :=
  funext (closeView (fun k => k.bind Kinship.parent) fun _ => rfl)

theorem marksClose : (kin.close id children).marks = kin.marks :=
  funext (closeView (fun k => k.any Kinship.pre) fun _ => rfl)

theorem insideClose : (kin.close id children).Inside other ↔ kin.Inside other := by
  unfold Inside Covered
  rw [parentClose, marksClose]

theorem parentAdd (differs : other ≠ id) (k : Kinship) : (kin.add id k).parent? other = kin.parent? other := by
  unfold parent?
  rw [addOther differs]

theorem marksAdd (differs : other ≠ id) (k : Kinship) : (kin.add id k).marks other = kin.marks other := by
  unfold marks
  rw [addOther differs]

theorem insideAdd (differs : other ≠ id) (nobody : ∀ child, kin.parent? child ≠ some id) (k : Kinship) :
    (kin.add id k).Inside other ↔ kin.Inside other := by
  have covered {p : NodeId} (known : p ≠ id) : (kin.add id k).Covered p ↔ kin.Covered p := by
    refine exists_congr fun outer => ?_
    rw [Ancestor.unused known nobody fun child other => parentAdd other k]
    refine and_congr_right fun on => ?_
    rw [marksAdd ?_ k]
    rintro rfl
    rcases on with _ | ⟨_, up⟩
    · exact known rfl
    · exact nobody _ up
  unfold Inside
  rw [parentAdd differs]
  refine exists_congr fun p => and_congr_right fun up => ?_
  exact covered fun same => nobody other (same ▸ up)

end Kindred

namespace Linked
variable {kin : Kindred} {stack : List NodeId} {id : NodeId}

theorem parentKnown (linked : Linked kin stack) (new : kin id = none) (child : NodeId) : kin.parent? child ≠ some id := by
  intro up
  obtain ⟨k, known, parent⟩ := Option.bind_eq_some_iff.mp up
  obtain ⟨o, there, _⟩ := linked.upward child k id known parent
  rw [new] at there
  contradiction

theorem openAncestors (linked : Linked kin stack) {rest : List NodeId} (suffix : ∃ inner, stack = inner ++ rest)
    (p outer : NodeId) (innermost : rest.find? kin.isOpen = some p) :
    Ancestor kin.parent? p outer ↔ outer ∈ rest.filter kin.isOpen := by
  -- down the stack: what is not open is passed over, and the parent of what is open is the next that is
  induction rest generalizing p with
  | nil => contradiction
  | cons id rest ih =>
    obtain ⟨inner, split⟩ := suffix
    have shorter : ∃ inner, stack = inner ++ rest := ⟨inner ++ [id], by rw [split]; simp⟩
    rw [List.filter_cons]
    cases waiting : kin.isOpen id with
    | false =>
      rw [List.find?_cons, waiting] at innermost
      exact ih shorter p innermost
    | true =>
      rw [List.find?_cons, waiting] at innermost
      cases innermost
      obtain ⟨k, got, _⟩ := Kindred.isOpenIff.mp waiting
      have up : kin.parent? id = rest.find? kin.isOpen := by
        unfold Kindred.parent?
        rw [got, Option.bind_some, linked.stacked inner id rest k split got]
      rw [if_pos rfl, List.mem_cons, Ancestor.first, up]
      refine or_congr_right ?_
      cases found : rest.find? kin.isOpen with
      | none =>
        have nobody : rest.filter kin.isOpen = [] := List.filter_eq_nil_iff.mpr fun other member =>
          List.find?_eq_none.mp found other member
        rw [nobody]
        simp
      | some q =>
        rw [← ih shorter q found]
        constructor
        · rintro ⟨_, same, further⟩
          cases same
          exact further
        · exact fun further => ⟨q, rfl, further⟩

theorem openedInside (linked : Linked kin stack) (new : kin id = none) (isElement done pre : Bool) :
    (kin.add id (kin.opened stack isElement done pre)).Inside id ↔
      ∃ outer ∈ stack.filter kin.isOpen, kin.marks outer = true := by
  have nobody := linked.parentKnown new
  have up : (kin.add id (kin.opened stack isElement done pre)).parent? id = stack.find? kin.isOpen := by
    unfold Kindred.parent?
    rw [Kindred.addHere]
    rfl
  unfold Kindred.Inside Kindred.Covered
  rw [up]
  cases found : stack.find? kin.isOpen with
  | none =>
    have nothing : stack.filter kin.isOpen = [] := List.filter_eq_nil_iff.mpr fun other member =>
      List.find?_eq_none.mp found other member
    rw [nothing]
    simp
  | some p =>
    obtain ⟨k, known, _⟩ := Kindred.isOpenIff.mp (List.find?_some found)
    have differs : p ≠ id := by
      rintro rfl
      rw [new] at known
      contradiction
    have way (outer : NodeId) :
        Ancestor (kin.add id (kin.opened stack isElement done pre)).parent? p outer ↔ outer ∈ stack.filter kin.isOpen := by
      rw [Ancestor.unused differs nobody fun child other => Kindred.parentAdd other _]
      exact linked.openAncestors ⟨[], rfl⟩ p outer found
    have still (outer : NodeId) (member : outer ∈ stack.filter kin.isOpen) :
        (kin.add id (kin.opened stack isElement done pre)).marks outer = kin.marks outer := by
      refine Kindred.marksAdd ?_ _
      rintro rfl
      obtain ⟨_, there, _⟩ := Kindred.isOpenIff.mp (List.mem_filter.mp member).2
      rw [new] at there
      contradiction
    constructor
    · rintro ⟨_, same, outer, on, marked⟩
      cases same
      have member := (way outer).mp on
      exact ⟨outer, member, still outer member ▸ marked⟩
    · rintro ⟨outer, member, marked⟩
      exact ⟨p, rfl, outer, (way outer).mpr member, (still outer member).trans marked⟩

end Linked
end Templating
