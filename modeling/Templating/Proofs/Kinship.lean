import Templating.Proofs.Footing
import Mathlib.Data.List.Find
import Mathlib.Data.List.Nodup
import Mathlib.Logic.Function.Basic

/-!
Who belongs to whom. A node gets its parent as it is opened, which is the innermost element then open;
an element gets its children as it is closed, which are all the nodes above it on the stack. The two
go together because what lies below a node on the stack stays as it is for as long as the node is
there. The argument is about a stack and what is known of each node, its kinship; how a build and its
analysis come to change these is another matter.
-/
namespace Templating

structure Kinship where
  isElement : Bool
  done : Bool
  children : List NodeId
  parent : Option NodeId
  root : Bool
  pre : Bool
  deriving DecidableEq, Repr

namespace Kinship

def isOpen (k : Kinship) : Bool := k.isElement && !k.done

def close (children : List NodeId) (k : Kinship) : Kinship := { k with done := true, children }

end Kinship

abbrev Kindred := NodeId → Option Kinship

namespace Kindred

def isOpen (kin : Kindred) (id : NodeId) : Bool := (kin id).any Kinship.isOpen

def opened (kin : Kindred) (stack : List NodeId) (isElement done pre : Bool) : Kinship where
  isElement
  done
  children := []
  parent := stack.find? kin.isOpen
  root := (stack.find? kin.isOpen).isNone
  pre

def add (kin : Kindred) (id : NodeId) (k : Kinship) : Kindred := Function.update kin id (some k)

def close (kin : Kindred) (id : NodeId) (children : List NodeId) : Kindred :=
  Function.update kin id ((kin id).map (Kinship.close children))

def Upward (kin : Kindred) (stack : List NodeId) : Prop :=
  ∀ id k p, kin id = some k → k.parent = some p →
    ∃ o, kin p = some o ∧ o.isElement = true ∧ p.index < id.index ∧
      (id ∈ o.children ∨ o.done = false ∧ (p ∈ stack → id ∈ stack))

def Downward (kin : Kindred) (stack : List NodeId) : Prop :=
  ∀ q o id, kin q = some o → id ∈ o.children →
    ∃ k, kin id = some k ∧ id ∉ stack ∧
      (k.parent = some q ∨ ∃ p, k.parent = some p ∧ kin.isOpen p = true ∧ p ∉ stack ∧ [p, id].Sublist o.children)

variable {kin : Kindred} {id other : NodeId} {k l : Kinship} {children ids : List NodeId}

theorem isOpenIff : kin.isOpen id = true ↔ ∃ k, kin id = some k ∧ k.isElement = true ∧ k.done = false := by
  unfold isOpen Kinship.isOpen
  cases kin id <;> simp

theorem isOpenSame {changed : Kindred} (same : changed other = kin other) : changed.isOpen other = kin.isOpen other := by
  unfold isOpen
  rw [same]

theorem findOpenSame {changed : Kindred} (same : ∀ other ∈ ids, changed other = kin other) :
    ids.find? changed.isOpen = ids.find? kin.isOpen :=
  List.find?_congr fun other member => isOpenSame (same other member)

theorem filterOpenSame {changed : Kindred} (same : ∀ other ∈ ids, changed other = kin other) :
    ids.filter changed.isOpen = ids.filter kin.isOpen :=
  List.filter_congr fun other member => isOpenSame (same other member)

theorem addHere (kin : Kindred) (id : NodeId) (k : Kinship) : kin.add id k id = some k := Function.update_self id _ kin

theorem addOther (differs : other ≠ id) (k : Kinship) : kin.add id k other = kin other :=
  Function.update_of_ne differs _ kin

theorem addKnown (new : kin id = none) (got : kin other = some l) (k : Kinship) : kin.add id k other = some l := by
  rw [addOther _ k, got]
  rintro rfl
  rw [new] at got
  contradiction

theorem addCases (got : kin.add id k other = some l) : (other = id ∧ l = k) ∨ (other ≠ id ∧ kin other = some l) := by
  by_cases same : other = id
  · subst same
    exact Or.inl ⟨rfl, (Option.some.inj ((addHere kin other k).symm.trans got)).symm⟩
  · exact Or.inr ⟨same, (addOther same k).symm.trans got⟩

theorem closeHere (got : kin id = some k) : kin.close id children id = some (k.close children) := by
  unfold close
  rw [Function.update_self, got]
  rfl

theorem closeOther (differs : other ≠ id) : kin.close id children other = kin other :=
  Function.update_of_ne differs _ kin

theorem closeBefore (found : kin.close id children other = some l) :
    ∃ earlier, kin other = some earlier ∧ earlier.parent = l.parent ∧ earlier.root = l.root ∧ earlier.pre = l.pre := by
  by_cases same : other = id
  · subst same
    cases got : kin other with
    | none => simp [close, got] at found
    | some k =>
      cases (closeHere got).symm.trans found
      exact ⟨k, rfl, rfl, rfl, rfl⟩
  · exact ⟨l, (closeOther same).symm.trans found, rfl, rfl, rfl⟩

theorem closeAfter (got : kin other = some k) :
    ∃ later, kin.close id children other = some later ∧ later.parent = k.parent ∧ later.pre = k.pre := by
  by_cases same : other = id
  · subst same
    exact ⟨_, closeHere got, rfl, rfl⟩
  · exact ⟨k, (closeOther same).trans got, rfl, rfl⟩

end Kindred

/-- Parents and child lists, with a stack of what is not yet a child of anything. -/
structure Linked (kin : Kindred) (stack : List NodeId) : Prop where
  rising : stack.Pairwise fun inner outer => outer.index < inner.index
  used : ∀ id ∈ stack, ∃ k, kin id = some k
  childless : ∀ id k, kin id = some k → k.done = false → k.children = []
  root : ∀ id k, kin id = some k → k.root = k.parent.isNone
  stacked : ∀ inner id outer k, stack = inner ++ id :: outer → kin id = some k → k.parent = outer.find? kin.isOpen
  orphan : ∀ id k, kin id = some k → k.parent = none → id ∈ stack
  upward : kin.Upward stack
  downward : kin.Downward stack

namespace Linked
variable {kin : Kindred} {stack above outer : List NodeId} {id : NodeId}

theorem start : Linked (fun _ => none) [] := by
  refine ⟨.nil, ?_, ?_, ?_, ?_, ?_, ?_, ?_⟩
  · simp
  · simp
  · simp
  · simp
  · simp
  · intro id k p got
    contradiction
  · intro q o id got
    contradiction

theorem distinct (linked : Linked kin stack) : stack.Nodup := by
  refine linked.rising.imp fun {inner outer} before same => ?_
  subst same
  exact Nat.lt_irrefl _ before

theorem openedUpward (linked : Linked kin stack) (new : kin id = none) (later : ∀ other ∈ stack, other.index < id.index)
    (isElement done pre : Bool) :
    (kin.add id (kin.opened stack isElement done pre)).Upward (id :: stack) := by
  intro other k p got up
  rcases Kindred.addCases got with ⟨rfl, rfl⟩ | ⟨_, known⟩
  · have found : stack.find? kin.isOpen = some p := up
    have member := List.mem_of_find?_eq_some found
    obtain ⟨o, parent, isElement, waiting⟩ := Kindred.isOpenIff.mp (List.find?_some found)
    exact ⟨o, Kindred.addKnown new parent _, isElement, later p member, Or.inr ⟨waiting, fun _ => List.mem_cons_self⟩⟩
  · obtain ⟨o, parent, isElement, before, belongs⟩ := linked.upward other k p known up
    refine ⟨o, Kindred.addKnown new parent _, isElement, before, ?_⟩
    rcases belongs with member | ⟨waiting, together⟩
    · exact Or.inl member
    · refine Or.inr ⟨waiting, fun on => List.mem_cons_of_mem _ (together ?_)⟩
      refine (List.mem_cons.mp on).resolve_left ?_
      rintro rfl
      rw [new] at parent
      contradiction

theorem openedDownward (linked : Linked kin stack) (new : kin id = none) (isElement done pre : Bool) :
    (kin.add id (kin.opened stack isElement done pre)).Downward (id :: stack) := by
  have old {other : NodeId} {k : Kinship} (got : kin other = some k) : other ≠ id := by
    rintro rfl
    rw [new] at got
    contradiction
  intro q o other got member
  rcases Kindred.addCases got with ⟨rfl, rfl⟩ | ⟨_, known⟩
  · exact absurd member List.not_mem_nil
  · obtain ⟨k, there, off, belongs⟩ := linked.downward q o other known member
    refine ⟨k, Kindred.addKnown new there _, fun on => (List.mem_cons.mp on).elim (old there) off, ?_⟩
    rcases belongs with direct | ⟨p, up, waiting, away, order⟩
    · exact Or.inl direct
    · obtain ⟨_, parent, _⟩ := Kindred.isOpenIff.mp waiting
      refine Or.inr ⟨p, up, ?_, fun on => (List.mem_cons.mp on).elim (old parent) away, order⟩
      rw [Kindred.isOpenSame (Kindred.addOther (old parent) _), waiting]

theorem opened (linked : Linked kin stack) (new : kin id = none) (later : ∀ other ∈ stack, other.index < id.index)
    (isElement done pre : Bool) : Linked (kin.add id (kin.opened stack isElement done pre)) (id :: stack) := by
  have absent : id ∉ stack := fun member => absurd (later id member) (Nat.lt_irrefl _)
  have kept (other : NodeId) (member : other ∈ stack) (k : Kinship) : kin.add id k other = kin other := by
    refine Kindred.addOther ?_ k
    rintro rfl
    exact absent member
  refine ⟨?_, ?_, ?_, ?_, ?_, ?_, linked.openedUpward new later isElement done pre,
    linked.openedDownward new isElement done pre⟩
  · exact List.pairwise_cons.mpr ⟨later, linked.rising⟩
  · intro other member
    rcases List.mem_cons.mp member with rfl | earlier
    · exact ⟨_, Kindred.addHere kin other _⟩
    · obtain ⟨k, got⟩ := linked.used other earlier
      exact ⟨k, Kindred.addKnown new got _⟩
  · intro other k got waiting
    rcases Kindred.addCases got with ⟨rfl, rfl⟩ | ⟨_, known⟩
    · rfl
    · exact linked.childless other k known waiting
  · intro other k got
    rcases Kindred.addCases got with ⟨rfl, rfl⟩ | ⟨_, known⟩
    · rfl
    · exact linked.root other k known
  · intro inner other outer k split got
    cases inner with
    | nil =>
      obtain ⟨rfl, rfl⟩ := List.cons.inj split
      rw [Kindred.findOpenSame fun other member => kept other member _]
      cases (Kindred.addHere kin id _).symm.trans got
      rfl
    | cons first inner =>
      have rest : stack = inner ++ other :: outer := (List.cons.inj split).2
      rw [Kindred.findOpenSame fun below member => kept below (by rw [rest]; simp [member]) _]
      exact linked.stacked inner other outer k rest ((kept other (by rw [rest]; simp) _).symm.trans got)
  · intro other k got alone
    rcases Kindred.addCases got with ⟨rfl, rfl⟩ | ⟨_, known⟩
    · exact List.mem_cons_self
    · exact List.mem_cons_of_mem _ (linked.orphan other k known alone)

theorem between (linked : Linked kin (above ++ id :: outer)) (waiting : kin.isOpen id = true) {other : NodeId}
    (member : other ∈ above) :
    ∃ k, kin other = some k ∧
      (k.parent = some id ∨
        ∃ p ∈ above, k.parent = some p ∧ kin.isOpen p = true ∧ [p, other].Sublist above.reverse) := by
  obtain ⟨inner, below, rfl⟩ := List.append_of_mem member
  obtain ⟨k, got⟩ := linked.used other (by simp)
  have up := linked.stacked inner other (below ++ id :: outer) k (by simp) got
  refine ⟨k, got, ?_⟩
  rw [List.find?_append, List.find?_cons, waiting] at up
  cases found : below.find? kin.isOpen with
  | none =>
    rw [found] at up
    exact Or.inl up
  | some p =>
    rw [found] at up
    have inside := List.mem_of_find?_eq_some found
    refine Or.inr ⟨p, by simp [inside], up, List.find?_some found, ?_⟩
    have order : [p, other].Sublist (below.reverse ++ [other]) :=
      (List.singleton_sublist.mpr (List.mem_reverse.mpr inside)).append (List.Sublist.refl [other])
    simpa using order.trans (List.sublist_append_left _ inner.reverse)

theorem offStack (linked : Linked kin (above ++ id :: outer)) {other : NodeId} (member : other ∈ above) :
    other ∉ id :: outer := fun on =>
  (List.nodup_append.mp linked.distinct).2.2 other member other on rfl

theorem notOuter (linked : Linked kin (above ++ id :: outer)) : id ∉ outer :=
  (List.nodup_cons.mp (List.nodup_append.mp linked.distinct).2.1).1

theorem closedUpward (linked : Linked kin (above ++ id :: outer)) (waiting : kin.isOpen id = true) :
    (kin.close id above.reverse).Upward (id :: outer) := by
  obtain ⟨k, got, _, unfinished⟩ := Kindred.isOpenIff.mp waiting
  intro other l p found up
  obtain ⟨earlier, known, upEarlier, _⟩ := Kindred.closeBefore found
  obtain ⟨o, parent, isElement, order, belongs⟩ := linked.upward other earlier p known (upEarlier.trans up)
  by_cases same : p = id
  · subst same
    cases got.symm.trans parent
    refine ⟨_, Kindred.closeHere got, isElement, order, Or.inl ?_⟩
    rcases belongs with member | ⟨_, together⟩
    · rw [linked.childless p k got unfinished] at member
      contradiction
    · -- it was opened later than its parent, so it lies above
      rcases List.mem_append.mp (together (by simp)) with taken | left
      · exact List.mem_reverse.mpr taken
      · rcases List.mem_cons.mp left with rfl | below
        · exact absurd order (Nat.lt_irrefl _)
        · have deeper := (List.pairwise_cons.mp (List.pairwise_append.mp linked.rising).2.1).1 other below
          omega
  · refine ⟨o, (Kindred.closeOther same).trans parent, isElement, order, ?_⟩
    rcases belongs with member | ⟨open', together⟩
    · exact Or.inl member
    · refine Or.inr ⟨open', fun on => ?_⟩
      rcases List.mem_append.mp (together (List.mem_append_right _ on)) with taken | left
      · -- what lies above has no parent further out
        obtain ⟨_, again, direct | ⟨_, inside, direct, _⟩⟩ := linked.between waiting taken
        all_goals
          cases known.symm.trans again
          rw [upEarlier, up] at direct
          cases direct
        · exact absurd rfl same
        · exact absurd on (linked.offStack inside)
      · exact left

theorem closedDownward (linked : Linked kin (above ++ id :: outer)) (waiting : kin.isOpen id = true) :
    (kin.close id above.reverse).Downward (id :: outer) := by
  obtain ⟨k, got, _⟩ := Kindred.isOpenIff.mp waiting
  intro q o other found member
  by_cases same : q = id
  · subst same
    cases (Kindred.closeHere got).symm.trans found
    have taken : other ∈ above := List.mem_reverse.mp member
    obtain ⟨l, there, belongs⟩ := linked.between waiting taken
    obtain ⟨later, now, up, _⟩ := Kindred.closeAfter there
    refine ⟨later, now, linked.offStack taken, ?_⟩
    rcases belongs with direct | ⟨p, inside, direct, open', order⟩
    · exact Or.inl (up.trans direct)
    · have differs : p ≠ q := fun self => linked.offStack inside (by simp [self])
      refine Or.inr ⟨p, up.trans direct, ?_, linked.offStack inside, order⟩
      rw [Kindred.isOpenSame (Kindred.closeOther differs), open']
  · obtain ⟨l, there, off, belongs⟩ := linked.downward q o other ((Kindred.closeOther same).symm.trans found) member
    obtain ⟨later, now, up, _⟩ := Kindred.closeAfter there
    refine ⟨later, now, fun on => off (List.mem_append_right _ on), ?_⟩
    rcases belongs with direct | ⟨p, direct, open', away, order⟩
    · exact Or.inl (up.trans direct)
    · have differs : p ≠ id := fun self => away (by simp [self])
      refine Or.inr ⟨p, up.trans direct, ?_, fun on => away (List.mem_append_right _ on), order⟩
      rw [Kindred.isOpenSame (Kindred.closeOther differs), open']

theorem closed (linked : Linked kin (above ++ id :: outer)) (waiting : kin.isOpen id = true) :
    Linked (kin.close id above.reverse) (id :: outer) := by
  obtain ⟨k, got, _⟩ := Kindred.isOpenIff.mp waiting
  refine ⟨?_, ?_, ?_, ?_, ?_, ?_, linked.closedUpward waiting, linked.closedDownward waiting⟩
  · exact (List.pairwise_append.mp linked.rising).2.1
  · intro other member
    obtain ⟨l, found⟩ := linked.used other (List.mem_append_right _ member)
    obtain ⟨later, now, _⟩ := Kindred.closeAfter found
    exact ⟨later, now⟩
  · intro other l found unfinished
    by_cases same : other = id
    · subst same
      cases (Kindred.closeHere got).symm.trans found
      contradiction
    · exact linked.childless other l ((Kindred.closeOther same).symm.trans found) unfinished
  · intro other l found
    obtain ⟨earlier, known, up, root, _⟩ := Kindred.closeBefore found
    rw [← up, ← root]
    exact linked.root other earlier known
  · intro inner other beyond l split found
    obtain ⟨earlier, known, up, _⟩ := Kindred.closeBefore found
    have outside : id ∉ beyond := by
      cases inner with
      | nil =>
        obtain ⟨_, rfl⟩ := List.cons.inj split
        exact linked.notOuter
      | cons first inner =>
        have rest : outer = inner ++ other :: beyond := (List.cons.inj split).2
        exact fun member => linked.notOuter (by rw [rest]; simp [member])
    have kept (below : NodeId) (member : below ∈ beyond) : kin.close id above.reverse below = kin below := by
      refine Kindred.closeOther ?_
      rintro rfl
      exact outside member
    rw [← up, Kindred.findOpenSame kept]
    exact linked.stacked (above ++ inner) other beyond earlier (by rw [split]; simp) known
  · intro other l found alone
    obtain ⟨earlier, known, up, _⟩ := Kindred.closeBefore found
    rcases List.mem_append.mp (linked.orphan other earlier known (up.trans alone)) with taken | left
    · obtain ⟨_, again, direct | ⟨_, _, direct, _⟩⟩ := linked.between waiting taken
      all_goals
        cases known.symm.trans again
        rw [up, alone] at direct
        contradiction
    · exact left

end Linked
end Templating
