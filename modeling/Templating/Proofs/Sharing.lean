import Templating.Proofs.Stretches

/-!
Who has the text. Of the elements on the stack those have it that are open, or that nothing open is around, each
until another of them comes above it. So what has come to an element, mark by mark, is what its children and the
nodes above it leave, as long as no element has been taken off the stack before its end tag was read.
-/
namespace Templating
open Markup

theorem Node.siteIsElement {a b : Node} (same : a.site = b.site) : a.isElement = b.isElement := by
  have sign : a.content.sign = b.content.sign := congrArg Site.sign same
  rcases a.contentCases with ⟨e, content⟩ | leaf
  · obtain ⟨f, other, _⟩ := Content.elementSign sign content
    simp [isElement, element?, content, other]
  · rcases b.contentCases with ⟨f, content⟩ | also
    · obtain ⟨e, other, _⟩ := Content.elementSign sign.symm content
      exact absurd other (leaf e)
    · rw [leafIsElement leaf, leafIsElement also]

namespace Builder
variable {b next : Builder} {id other : NodeId} {above outer : List NodeId}

/-- An element on the stack that is open, or that nothing open is around: text may come to it. -/
structure Hears (b : Builder) (id : NodeId) (above outer : List NodeId) : Prop where
  stack : b.stack = above ++ id :: outer
  element : b.isElement id = true
  last : b.isOpenElement id = true ∨ ∀ other ∈ outer, b.isOpenElement other = false

def takes (b : Builder) (id : NodeId) : NodeId → Bool := if b.isOpenElement id then b.isOpenElement else b.isElement

def Lost (b : Builder) : Prop := ∃ id node, b.arena.get? id = some node ∧ node.done = false ∧ id ∉ b.stack

theorem openTakes (open_ : b.isOpenElement other = true) : b.takes id other = true := by
  unfold takes
  split
  · exact open_
  · exact openIsElement open_

theorem ownerHeard (hears : b.Hears id above outer) (none : above.any (b.takes id) = false) :
    b.textOwner? = some id := by
  have quiet : ∀ other ∈ above, ¬b.takes id other = true := List.any_eq_false.mp none
  have shut : above.find? b.isOpenElement = Option.none :=
    List.find?_eq_none.mpr fun other member open_ => quiet other member (openTakes open_)
  unfold textOwner?
  rw [hears.stack, List.find?_append, List.find?_append, shut]
  cases open_ : b.isOpenElement id with
  | true => simp [open_]
  | false =>
    have further : outer.find? b.isOpenElement = Option.none := by
      refine List.find?_eq_none.mpr fun other member opens => ?_
      rcases hears.last with here | beyond
      · rw [open_] at here
        contradiction
      · rw [beyond other member] at opens
        contradiction
    have elements : above.find? b.isElement = Option.none := by
      refine List.find?_eq_none.mpr fun other member element => quiet other member ?_
      rw [takes, if_neg (by rw [open_]; decide)]
      exact element
    simp [open_, further, elements, hears.element]

theorem ownerIff (distinct : b.stack.Nodup) (hears : b.Hears id above outer) :
    b.textOwner? = some id ↔ above.any (b.takes id) = false := by
  refine ⟨fun owned => ?_, ownerHeard hears⟩
  rw [hears.stack] at distinct
  have apart : id ∉ above := fun member =>
    (List.nodup_append.mp distinct).2.2 id member id List.mem_cons_self rfl
  -- what is found first stands above, and is another
  have elsewhere {test : NodeId → Bool} (found : b.stack.find? test = some id) : ∀ other ∈ above, test other = false := by
    rw [hears.stack, List.find?_append] at found
    intro other member
    cases inner : above.find? test with
    | none => simpa using List.find?_eq_none.mp inner other member
    | some first =>
      rw [inner] at found
      cases found
      exact absurd (List.mem_of_find?_eq_some inner) apart
  refine List.any_eq_false.mpr fun other member taking => ?_
  unfold textOwner? at owned
  unfold takes at taking
  rcases Option.or_eq_some_iff.mp owned with found | ⟨none, found⟩
  · have open_ : b.isOpenElement id = true := List.find?_some found
    rw [if_pos open_, elsewhere found other member] at taking
    contradiction
  · have shut : b.isOpenElement id = false := by
      have none := List.find?_eq_none.mp none id (by rw [hears.stack]; simp)
      simpa using none
    rw [if_neg (by rw [shut]; decide), elsewhere found other member] at taking
    contradiction

theorem ownerHears (owned : b.textOwner? = some id) : ∃ above outer, b.Hears id above outer := by
  unfold textOwner? at owned
  rcases Option.or_eq_some_iff.mp owned with found | ⟨none, found⟩
  · obtain ⟨above, outer, split⟩ := List.append_of_mem (List.mem_of_find?_eq_some found)
    have open_ : b.isOpenElement id = true := List.find?_some found
    exact ⟨above, outer, split, openIsElement open_, Or.inl open_⟩
  · obtain ⟨above, outer, split⟩ := List.append_of_mem (List.mem_of_find?_eq_some found)
    refine ⟨above, outer, split, List.find?_some found, Or.inr fun other member => ?_⟩
    have shut := List.find?_eq_none.mp none other (by rw [split]; simp [member])
    simpa using shut

theorem ownerSilent (unheard : ∀ above outer, ¬b.Hears id above outer) : b.textOwner? ≠ some id := fun owned => by
  obtain ⟨above, outer, heard⟩ := ownerHears owned
  exact unheard above outer heard

theorem elementKept (sites : b.arena.Agree Node.site next.arena) : next.isElement = b.isElement :=
  funext fun id => (Arena.agreeAny sites (fun _ _ same => Node.siteIsElement same) id).symm

theorem ownerKept (stack : next.stack = b.stack) (sites : b.arena.Agree Node.site next.arena)
    (opens : ∀ id, next.isOpenElement id = b.isOpenElement id) : next.textOwner? = b.textOwner? := by
  have open_ : next.isOpenElement = b.isOpenElement := funext opens
  rw [textOwner?, stack, elementKept sites, open_, textOwner?]

theorem elementSame (same : next.arena.get? id = b.arena.get? id) : next.isElement id = b.isElement id := by
  rw [isElement, same, isElement]

theorem openSame (same : next.arena.get? id = b.arena.get? id) : next.isOpenElement id = b.isOpenElement id := by
  rw [isOpenElement, same, isOpenElement]

theorem takesSame (same : next.arena.get? id = b.arena.get? id) (also : next.arena.get? other = b.arena.get? other) :
    next.takes id other = b.takes id other := by
  unfold takes
  rw [openSame same]
  split
  · exact openSame also
  · exact elementSame also

theorem placeSame (same : next.arena.get? id = b.arena.get? id) : next.arena.place id = b.arena.place id := by
  rw [Arena.place, Arena.span?, same, Arena.place, Arena.span?]

end Builder

namespace Builder
variable {source : List Char} {shut : List NodeId} {b next : Builder} {id other : NodeId} {inner above outer : List NodeId}
  {node : Node} {token : Token} {covered : List Char} {marks : List Mark}

theorem ownerBehind {stretch : List Stretch} (distinct : next.stack.Nodup) (hears : next.Hears other (id :: above) outer) :
    (if next.textOwner? = some other then stretch else []) =
      if above.reverse.any (next.takes other) || next.takes other id then [] else stretch := by
  have owner := ownerIff distinct hears
  rw [List.any_cons, Bool.or_comm, ← List.any_reverse] at owner
  by_cases here : next.textOwner? = some other
  · rw [if_pos here, owner.mp here, if_neg (by decide)]
  · have taken : (above.reverse.any (next.takes other) || next.takes other id) = true := by
      rw [← Bool.not_eq_false]
      exact fun free => here (owner.mpr free)
    rw [if_neg here, if_pos taken]

theorem gapsKept {ids : List NodeId} (here : next.arena.get? other = b.arena.get? other)
    (same : ∀ o ∈ ids, next.arena.get? o = b.arena.get? o) (stop : Nat) :
    next.arena.gaps (next.takes other) (next.arena.place other).stop.toNat ids stop =
      b.arena.gaps (b.takes other) (b.arena.place other).stop.toNat ids stop := by
  rw [placeSame here]
  exact Arena.gapsSame (fun o member => placeSame (same o member)) fun o member => takesSame here (same o member)

section Top
variable {lower : List NodeId}

theorem hearsFirst (stack : next.stack = id :: lower) (fresh : id ∉ lower) (heard : next.Hears id inner outer) :
    inner = [] := by
  have split := heard.stack
  rw [stack] at split
  cases inner with
  | nil => rfl
  | cons top inner =>
    have again : id ∈ lower := by rw [(List.cons.inj split).2]; simp
    exact absurd again fresh

theorem hearsBelow (stack : next.stack = id :: lower) (differs : other ≠ id) (heard : next.Hears other inner outer) :
    ∃ above, inner = id :: above ∧ lower = above ++ other :: outer := by
  have split := heard.stack
  rw [stack] at split
  cases inner with
  | nil => exact absurd (List.cons.inj split).1.symm differs
  | cons first above =>
    obtain ⟨rfl, below⟩ := List.cons.inj split
    exact ⟨above, rfl, below⟩

end Top

theorem hearsKept {lower : List NodeId} (same : ∀ o ∈ other :: outer, next.arena.get? o = b.arena.get? o)
    (split : next.stack = lower ++ other :: outer) (hears : b.Hears other above outer) : next.Hears other lower outer := by
  refine ⟨split, ?_, ?_⟩
  · rw [elementSame (same other List.mem_cons_self)]
    exact hears.element
  · rw [openSame (same other List.mem_cons_self)]
    refine hears.last.imp_right fun shut o member => ?_
    rw [openSame (same o (List.mem_cons_of_mem other member))]
    exact shut o member

theorem insideKept (others : ∀ o, o ≠ id → next.arena.get? o = b.arena.get? o) (differs : other ≠ id)
    (apart : id ∉ b.arena.children other) : next.arena.inside marks other = b.arena.inside marks other := by
  refine Arena.insideSame (by rw [Arena.children, others other differs, Arena.children]) fun child member => ?_
  refine placeSame (others child ?_)
  rintro rfl
  exact apart member

namespace Opens

theorem others (opens : b.Opens next id node token covered) (differs : other ≠ id) :
    next.arena.get? other = b.arena.get? other := by
  rw [opens.arena, Arena.getPush, if_neg fun same => differs (NodeId.indexInjective (same.trans opens.index.symm))]

theorem newElement (opens : b.Opens next id node token covered) : b.isElement id = false := by
  rw [isElement, Arena.getNone.mpr (Nat.le_of_eq opens.index.symm)]
  rfl

theorem same (opens : b.Opens next id node token covered) (fresh : id ∉ b.stack) (member : other ∈ b.stack) :
    next.arena.get? other = b.arena.get? other :=
  opens.others fun here => fresh (here ▸ member)

theorem hearsBefore (opens : b.Opens next id node token covered) (fresh : id ∉ b.stack)
    (below : b.stack = above ++ other :: outer) (heard : next.Hears other (id :: above) outer) :
    b.Hears other above outer := by
  refine hearsKept (fun o member => (opens.same fresh ?_).symm) below heard
  rw [below]
  exact List.mem_append_right above member

theorem hearsStill (opens : b.Opens next id node token covered) (fresh : id ∉ b.stack)
    (heard : b.Hears other above outer) : next.Hears other (id :: above) outer := by
  refine hearsKept (fun o member => opens.same fresh ?_) ?_ heard
  · rw [heard.stack]
    exact List.mem_append_right above member
  · rw [opens.stack, heard.stack]
    rfl

end Opens

namespace Closes
variable {earlier : Node} {e : Element} {further : List NodeId}

theorem apart (closes : b.Closes next id earlier node e above outer covered) (distinct : b.stack.Nodup) :
    id ∉ above ∧ id ∉ outer := by
  rw [closes.stack] at distinct
  obtain ⟨_, below, differ⟩ := List.nodup_append.mp distinct
  exact ⟨fun member => differ id member id List.mem_cons_self rfl, (List.nodup_cons.mp below).1⟩

theorem same (closes : b.Closes next id earlier node e above outer covered) (distinct : b.stack.Nodup)
    (member : other ∈ outer) : next.arena.get? other = b.arena.get? other := by
  refine closes.others other ?_
  rintro rfl
  exact (closes.apart distinct).2 member

theorem hearsBefore {between : List NodeId} (closes : b.Closes next id earlier node e above outer covered)
    (distinct : b.stack.Nodup) (below : outer = between ++ other :: further)
    (heard : next.Hears other (id :: between) further) : b.Hears other (above ++ id :: between) further := by
  refine hearsKept (fun o member => (closes.same distinct ?_).symm) ?_ heard
  · rw [below]
    exact List.mem_append_right between member
  · rw [closes.stack, below, List.append_assoc]
    rfl

theorem hearsStill (closes : b.Closes next id earlier node e above outer covered) (distinct : b.stack.Nodup)
    (opened : b.isOpenElement id = true) (done : ∀ o ∈ above, b.isOpenElement o = false) (differs : other ≠ id)
    (heard : b.Hears other inner further) : ∃ lower, next.Hears other lower further := by
  rcases stackSplits (closes.stack.symm.trans heard.stack) differs with ⟨between, below⟩ | ⟨between, split, below⟩
  · refine ⟨id :: between, hearsKept (fun o member => closes.same distinct ?_) ?_ heard⟩
    · rw [below]
      exact List.mem_append_right between member
    · rw [closes.left, below]
      rfl
  · rcases heard.last with here | beyond
    · rw [done other (by rw [split]; simp)] at here
      contradiction
    · rw [beyond id (by rw [below]; simp)] at opened
      contradiction

end Closes

end Builder

theorem Spread.childrenKnown {source : List Char} {shut : List NodeId} {b : Builder} (spread : Spread source shut b)
    {id other : NodeId} (new : id.index = b.arena.size) : id ∉ b.arena.children other := by
  intro member
  obtain ⟨node, got, child⟩ := Arena.childGot member
  obtain ⟨cut, stands⟩ := spread.places other node got
  obtain ⟨span, inside, _⟩ := stands.inside id child
  obtain ⟨seen, there, _⟩ := Option.map_eq_some_iff.mp inside
  have bound := Arena.getInside there
  omega

/-- What has come to each element so far, and what comes to it if the stretch that is open ends at `stop`. -/
structure Shares (past : List (Option NodeId × Mark)) (b : Builder) : Prop where
  owners : ∀ entry ∈ past, ∀ id, entry.1 = some id → b.isElement id = true
  heard : ∀ id above outer, b.Hears id above outer → ∀ stop,
    owned id (ledger 0 past b.textOwner? stop) = b.arena.inside (past.map Prod.snd) id ++
      b.arena.gaps (b.takes id) (b.arena.place id).stop.toNat above.reverse stop
  unheard : ∀ id, b.isElement id = true → (∀ above outer, ¬b.Hears id above outer) → ∀ stop,
    owned id (ledger 0 past b.textOwner? stop) = b.arena.inside (past.map Prod.snd) id

namespace Shares
variable {source : List Char} {past : List (Option NodeId × Mark)} {shut : List NodeId} {b next : Builder} {id : NodeId}

theorem start (source : List Char) : Shares [] (Builder.ofSource source) := by
  refine ⟨fun entry none => by contradiction, ?_, ?_⟩
  · intro id above outer hears
    have none : [] = above ++ id :: outer := hears.stack
    simp at none
  · intro id element
    simp [Builder.isElement, Builder.ofSource, Arena.empty, Arena.get?] at element

theorem kept (shares : Shares past b) (stack : next.stack = b.stack) (sites : b.arena.Agree Node.site next.arena)
    (opens : ∀ id, next.isOpenElement id = b.isOpenElement id) : Shares past next := by
  have element : next.isElement = b.isElement := Builder.elementKept sites
  have open_ : next.isOpenElement = b.isOpenElement := funext opens
  have place : next.arena.place = b.arena.place := Arena.placeAgree sites
  have children : next.arena.children = b.arena.children := Arena.childrenAgree sites
  have owner : next.textOwner? = b.textOwner? := Builder.ownerKept stack sites opens
  have takes (id : NodeId) : next.takes id = b.takes id := by
    unfold Builder.takes
    rw [element, open_]
  have hears {id : NodeId} {above outer : List NodeId} : next.Hears id above outer ↔ b.Hears id above outer := by
    constructor
    · rintro ⟨split, isElement, last⟩
      exact ⟨stack ▸ split, element ▸ isElement, open_ ▸ last⟩
    · rintro ⟨split, isElement, last⟩
      exact ⟨stack ▸ split, element ▸ isElement, open_ ▸ last⟩
  have inside (id : NodeId) : next.arena.inside (past.map Prod.snd) id = b.arena.inside (past.map Prod.snd) id :=
    Arena.insideSame (congrFun children id) fun child _ => congrFun place child
  have gaps (ends : NodeId → Bool) (start : Nat) (ids : List NodeId) (stop : Nat) :
      next.arena.gaps ends start ids stop = b.arena.gaps ends start ids stop :=
    Arena.gapsSame (fun id _ => congrFun place id) fun _ _ => rfl
  refine ⟨?_, ?_, ?_⟩
  · rw [element]
    exact shares.owners
  · intro id above outer heard stop
    rw [owner, inside, takes, place, gaps]
    exact shares.heard id above outer (hears.mp heard) stop
  · intro id isElement none stop
    rw [owner, inside]
    exact shares.unheard id (element ▸ isElement) (fun above outer heard => none above outer (hears.mpr heard)) stop

theorem ownerElement (shares : Shares past b) {s : Stretch} {stop : Nat}
    (member : (some id, s) ∈ ledger 0 past b.textOwner? stop) : b.isElement id = true := by
  rcases ledgerOwner member with owner | ⟨entry, inside, owner⟩
  · exact Builder.ownerIsElement owner.symm
  · exact shares.owners entry inside id owner

theorem unowned (shares : Shares past b) (new : b.isElement id = false) (stop : Nat) :
    owned id (ledger 0 past b.textOwner? stop) = [] := by
  refine List.eq_nil_iff_forall_not_mem.mpr fun s member => ?_
  rw [shares.ownerElement (memOwned.mp member)] at new
  contradiction

variable {earlier node : Node} {token : Token} {e : Element} {above outer : List NodeId} {covered : List Char}

theorem further {event : Event} {lower : List NodeId} (shares : Shares past b) (distinct : next.stack.Nodup)
    (stack : next.stack = id :: lower) (stop : (next.arena.place id).stop.toNat = next.scanner.offset)
    (elements : ∀ o, b.isElement o = true → next.isElement o = true)
    (settled : owned id (ledger 0 past b.textOwner? b.scanner.offset) =
      next.arena.inside (past.map Prod.snd ++ [⟨event, b.scanner.offset, next.scanner.offset⟩]) id)
    (heard : ∀ other above outer, other ≠ id → lower = above ++ other :: outer → next.Hears other (id :: above) outer →
      owned other (ledger 0 past b.textOwner? b.scanner.offset) =
        next.arena.inside (past.map Prod.snd ++ [⟨event, b.scanner.offset, next.scanner.offset⟩]) other ++
          next.arena.gaps (next.takes other) (next.arena.place other).stop.toNat above.reverse
            (next.arena.place id).start.toNat)
    (unheard : ∀ other, other ≠ id → next.isElement other = true → (∀ above outer, ¬next.Hears other above outer) →
      owned other (ledger 0 past b.textOwner? b.scanner.offset) =
        next.arena.inside (past.map Prod.snd ++ [⟨event, b.scanner.offset, next.scanner.offset⟩]) other) :
    Shares (past ++ [(b.textOwner?, ⟨event, b.scanner.offset, next.scanner.offset⟩)]) next := by
  refine ⟨?_, ?_, ?_⟩
  · intro entry member other owner
    rcases List.mem_append.mp member with before | new
    · exact elements other (shares.owners entry before other owner)
    · rw [List.mem_singleton.mp new] at owner
      exact elements other (Builder.ownerIsElement owner)
  · intro other inner outer hears later
    rw [List.map_append, List.map_singleton, ownedSnoc]
    by_cases differs : other = id
    · subst differs
      have fresh : other ∉ lower := by
        rw [stack] at distinct
        exact (List.nodup_cons.mp distinct).1
      obtain rfl := Builder.hearsFirst stack fresh hears
      rw [settled, if_pos (Builder.ownerHeard hears rfl), stop]
      rfl
    · obtain ⟨above, rfl, below⟩ := Builder.hearsBelow stack differs hears
      rw [heard other above outer differs below hears, List.reverse_cons, Arena.gapsSnoc, List.append_assoc, stop,
        Builder.ownerBehind distinct hears]
  · intro other element silent later
    rw [List.map_append, List.map_singleton, ownedSnoc, if_neg (Builder.ownerSilent silent), List.append_nil]
    by_cases differs : other = id
    · subst differs
      exact settled
    · exact unheard other differs element silent

theorem opened (shares : Shares past b) (spread : Spread source shut b) (distinct : next.stack.Nodup)
    (waiting : .closed id ∉ (past.map Prod.snd).map Mark.event) (opens : b.Opens next id node token covered) :
    Shares (past ++ [(b.textOwner?, ⟨.opened id, b.scanner.offset, next.scanner.offset⟩)]) next := by
  have fresh : id ∉ b.stack := by
    rw [opens.stack] at distinct
    exact (List.nodup_cons.mp distinct).1
  have place : next.arena.place id = node.span := Arena.placeGot opens.got
  have nothing : next.arena.inside (past.map Prod.snd ++ [⟨.opened id, b.scanner.offset, next.scanner.offset⟩]) id = [] := by
    refine Arena.insideOpen ?_
    rw [List.map_append]
    simpa using waiting
  have inside {other : NodeId} (differs : other ≠ id) :
      next.arena.inside (past.map Prod.snd ++ [⟨.opened id, b.scanner.offset, next.scanner.offset⟩]) other =
        b.arena.inside (past.map Prod.snd) other := by
    rw [Arena.insideOther (Ne.symm differs)]
    exact Builder.insideKept (fun _ => opens.others) differs (spread.childrenKnown opens.index)
  refine shares.further distinct opens.stack (by rw [place, opens.stop]) ?_ ?_ ?_ ?_
  · intro other before
    have differs : other ≠ id := by
      rintro rfl
      rw [opens.newElement] at before
      contradiction
    rw [Builder.elementSame (opens.others differs)]
    exact before
  · rw [shares.unowned opens.newElement, nothing]
  · intro other above outer differs below heard
    have same (o : NodeId) (member : o ∈ above.reverse) : next.arena.get? o = b.arena.get? o := by
      refine opens.same fresh ?_
      rw [below]
      exact List.mem_append_left _ (List.mem_reverse.mp member)
    rw [shares.heard other above outer (opens.hearsBefore fresh below heard), inside differs,
      Builder.gapsKept (opens.others differs) same, place, opens.start]
  · intro other differs element silent
    rw [inside differs]
    refine shares.unheard other ?_ (fun above outer heard => silent _ outer (opens.hearsStill fresh heard)) _
    rw [← Builder.elementSame (opens.others differs)]
    exact element

theorem closed {first : Mark} (shares : Shares past b) (spread : Spread source shut b) (distinct : b.stack.Nodup)
    (found : (past.map Prod.snd).find? (fun mark => mark.event = .opened id) = some first)
    (entry : first.stop = (b.arena.place id).stop.toNat) (waiting : .closed id ∉ (past.map Prod.snd).map Mark.event)
    (closes : b.Closes next id earlier node e above outer covered) (opened : b.isOpenElement id = true)
    (done : ∀ o ∈ above, b.isOpenElement o = false) :
    Shares (past ++ [(b.textOwner?, ⟨.closed id, b.scanner.offset, next.scanner.offset⟩)]) next := by
  have place : next.arena.place id = node.span := Arena.placeGot closes.got
  have starts : (next.arena.place id).start = (b.arena.place id).start := by
    rw [place, Arena.placeGot closes.found, closes.start]
  have takes : b.takes id = b.isOpenElement := if_pos opened
  have distinctNext : next.stack.Nodup := by
    rw [closes.stack] at distinct
    rw [closes.left]
    exact (List.nodup_append.mp distinct).2.1
  have inside {other : NodeId} (differs : other ≠ id) :
      next.arena.inside (past.map Prod.snd ++ [⟨.closed id, b.scanner.offset, next.scanner.offset⟩]) other =
        b.arena.inside (past.map Prod.snd) other := by
    rw [Arena.insideOther (Ne.symm differs)]
    refine Builder.insideKept closes.others differs fun member => ?_
    obtain ⟨seen, got, child⟩ := Arena.childGot member
    exact spread.loose other seen got id child (by rw [closes.stack]; simp)
  refine shares.further distinctNext closes.left (by rw [place, closes.stop]) ?_ ?_ ?_ ?_
  · intro other before
    by_cases differs : other = id
    · rw [differs, Builder.isElement, closes.got, Option.any_some, Node.isElement, Node.element?, closes.content]
      rfl
    · rw [Builder.elementSame (closes.others other differs)]
      exact before
  · -- what has come to the element is what its children have left
    have here : b.Hears id above outer := ⟨closes.stack, Builder.openIsElement opened, Or.inl opened⟩
    have children : next.arena.children id = above.reverse := by
      rw [Arena.children, closes.got, Option.map_some, Option.getD_some, Node.children, closes.content]
    rw [shares.heard id above outer here, Arena.insideOpen waiting, List.nil_append, Arena.insideClosed found waiting,
      children, entry, takes]
    refine (Arena.gapsSame (fun o member => Builder.placeSame (closes.others o ?_)) fun o member => ?_).symm
    · rintro rfl
      exact (closes.apart distinct).1 (List.mem_reverse.mp member)
    · exact (done o (List.mem_reverse.mp member)).symm
  · intro other between further differs below heard
    have same (o : NodeId) (member : o ∈ between.reverse) : next.arena.get? o = b.arena.get? o := by
      refine closes.same distinct ?_
      rw [below]
      exact List.mem_append_left _ (List.mem_reverse.mp member)
    have reversed : (above ++ id :: between).reverse = between.reverse ++ id :: above.reverse := by simp
    rw [shares.heard other _ further (closes.hearsBefore distinct below heard), inside differs, reversed,
      Arena.gapsEnded (Builder.openTakes opened), Builder.gapsKept (closes.others other differs) same, starts]
  · intro other differs element silent
    rw [inside differs]
    refine shares.unheard other ?_ ?_ _
    · rw [← Builder.elementSame (closes.others other differs)]
      exact element
    · intro inner further heard
      obtain ⟨lower, still⟩ := closes.hearsStill distinct opened done differs heard
      exact silent lower further still

end Shares

end Templating
