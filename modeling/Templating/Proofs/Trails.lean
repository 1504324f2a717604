import Templating.Build.Journal

/-!
Events that are bracketed. Nodes are opened in the order of their ids; an element is closed at most once,
over the nodes opened since then that are not taken yet; and of two elements closed, one is open inside of
the other or they are open one after the other. All of this holds of a trail: the events that a stack can
give, said without any node but those told of.
-/
namespace Templating
variable {σ : Type}

namespace Entry

def opened? (entry : Entry σ) : Option NodeId :=
  match entry.event with
  | .opened id => some id
  | .closed _ => none

def closed? (entry : Entry σ) : Option NodeId :=
  match entry.event with
  | .opened _ => none
  | .closed id => some id

def takes (entry : Entry σ) : List NodeId :=
  match entry.event with
  | .opened _ => []
  | .closed _ => (entry.node.map Node.children).getD []

def Begins (entry : Entry σ) (id : NodeId) : Prop :=
  entry.event = .opened id ∧ ∃ node, entry.node = some node ∧ node.isElement = true ∧ node.done = false

end Entry

def openedIds (entries : List (Entry σ)) : List NodeId := entries.filterMap Entry.opened?

def closedIds (entries : List (Entry σ)) : List NodeId := entries.filterMap Entry.closed?

def takenIds (entries : List (Entry σ)) : List NodeId := entries.flatMap Entry.takes

/- The nodes opened and not taken by an element closed since. -/
def standingIds (entries : List (Entry σ)) : List NodeId := (openedIds entries).filter fun id => id ∉ takenIds entries

def eventAt? (entries : List (Entry σ)) (i : Nat) : Option Event := entries[i]?.map Entry.event

/-- What `closes` says of an element closed: it was opened before, as not done; it is done now, and its
children are the nodes still standing of those opened since. -/
structure WellBracketed (entries : List (Entry σ)) : Prop where
  numbered : (openedIds entries).map NodeId.index = List.range (openedIds entries).length
  once : (closedIds entries).Nodup
  closes : ∀ before entry after id, entries = before ++ entry :: after → entry.event = .closed id →
    ∃ earlier opening since node, before = earlier ++ opening :: since ∧ opening.Begins id ∧
      entry.node = some node ∧ node.isElement = true ∧ node.done = true ∧ node.children = standingIds since
  nested : ∀ i j k l x y, x ≠ y →
    eventAt? entries i = some (.opened x) → eventAt? entries j = some (.closed x) →
    eventAt? entries k = some (.opened y) → eventAt? entries l = some (.closed y) →
    j < k ∨ l < i ∨ (i < k ∧ l < j) ∨ (k < i ∧ j < l)

inductive Trail : List (Entry σ) → List NodeId → Prop where
  | start : Trail [] []
  | opened {entries stack entry id} (before : Trail entries stack) (event : entry.event = .opened id)
      (new : id.index = (openedIds entries).length) : Trail (entries ++ [entry]) (id :: stack)
  | closed {entries above id outer entry node} (before : Trail entries (above ++ id :: outer))
      (event : entry.event = .closed id) (begun : ∃ opening ∈ entries, opening.Begins id)
      (waiting : id ∉ closedIds entries) (seen : entry.node = some node) (isElement : node.isElement = true)
      (done : node.done = true) (children : node.children = above.reverse) : Trail (entries ++ [entry]) (id :: outer)

section
variable {entries : List (Entry σ)} {entry : Entry σ} {id : NodeId}

theorem openedIdsOpened (event : entry.event = .opened id) : openedIds (entries ++ [entry]) = openedIds entries ++ [id] := by
  simp [openedIds, Entry.opened?, event]

theorem openedIdsClosed (event : entry.event = .closed id) : openedIds (entries ++ [entry]) = openedIds entries := by
  simp [openedIds, Entry.opened?, event]

theorem closedIdsOpened (event : entry.event = .opened id) : closedIds (entries ++ [entry]) = closedIds entries := by
  simp [closedIds, Entry.closed?, event]

theorem closedIdsClosed (event : entry.event = .closed id) : closedIds (entries ++ [entry]) = closedIds entries ++ [id] := by
  simp [closedIds, Entry.closed?, event]

theorem takenIdsOpened (event : entry.event = .opened id) : takenIds (entries ++ [entry]) = takenIds entries := by
  simp [takenIds, Entry.takes, event]

theorem takenIdsClosed {node : Node} (event : entry.event = .closed id) (seen : entry.node = some node) :
    takenIds (entries ++ [entry]) = takenIds entries ++ node.children := by
  simp [takenIds, Entry.takes, event, seen]

theorem standingIdsOpened (event : entry.event = .opened id) (new : id ∉ takenIds entries) :
    standingIds (entries ++ [entry]) = standingIds entries ++ [id] := by
  unfold standingIds
  rw [openedIdsOpened event, takenIdsOpened event, List.filter_append]
  simp [new]

theorem standingIdsClosed {node : Node} (event : entry.event = .closed id) (seen : entry.node = some node) :
    standingIds (entries ++ [entry]) = (standingIds entries).filter fun id => id ∉ node.children := by
  unfold standingIds
  rw [openedIdsClosed event, takenIdsClosed event seen, List.filter_filter]
  refine List.filter_congr fun other _ => ?_
  simp [Bool.and_comm]

theorem eventAtInside {i : Nat} {event : Event} (there : eventAt? entries i = some event) : i < entries.length := by
  obtain ⟨other, got, _⟩ := Option.map_eq_some_iff.mp there
  exact (List.getElem?_eq_some_iff.mp got).1

theorem eventAtEarlier {i : Nat} {event : Event} (there : eventAt? (entries ++ [entry]) i = some event)
    (inside : i < entries.length) : eventAt? entries i = some event := by
  rwa [eventAt?, List.getElem?_append_left inside] at there

theorem eventAtLast {i : Nat} {event : Event} (there : eventAt? (entries ++ [entry]) i = some event) :
    eventAt? entries i = some event ∨ i = entries.length ∧ entry.event = event := by
  by_cases inside : i < entries.length
  · exact Or.inl (eventAtEarlier there inside)
  · have bound := eventAtInside there
    rw [List.length_append, List.length_singleton] at bound
    have last : i = entries.length := by omega
    subst last
    exact Or.inr ⟨rfl, by simpa [eventAt?] using there⟩

theorem eventAtOther {i : Nat} {event : Event} (there : eventAt? (entries ++ [entry]) i = some event)
    (differs : entry.event ≠ event) : eventAt? entries i = some event := by
  rcases eventAtLast there with earlier | ⟨_, same⟩
  · exact earlier
  · exact absurd same differs

theorem memOpenedIds : id ∈ openedIds entries ↔ ∃ entry ∈ entries, entry.event = .opened id := by
  have told (entry : Entry σ) : entry.opened? = some id ↔ entry.event = .opened id := by
    unfold Entry.opened?
    cases entry.event <;> simp
  simp only [openedIds, List.mem_filterMap, told]

theorem eventAtOpened {i : Nat} (there : eventAt? entries i = some (.opened id)) : id ∈ openedIds entries := by
  obtain ⟨other, got, event⟩ := Option.map_eq_some_iff.mp there
  exact memOpenedIds.mpr ⟨other, List.mem_of_getElem? got, event⟩

end

theorem splitLast {α : Type} {items before after : List α} {last item : α}
    (split : items ++ [last] = before ++ item :: after) :
    (before = items ∧ item = last ∧ after = []) ∨ ∃ rest, items = before ++ item :: rest ∧ after = rest ++ [last] := by
  rcases List.eq_nil_or_concat after with rfl | ⟨rest, other, rfl⟩
  · obtain ⟨rfl, same⟩ := List.append_inj' split rfl
    exact Or.inl ⟨rfl, (List.cons.inj same).1.symm, rfl⟩
  · have whole : items ++ [last] = (before ++ item :: rest) ++ [other] := by simpa using split
    obtain ⟨rfl, same⟩ := List.append_inj' whole rfl
    cases same
    exact Or.inr ⟨rest, rfl, List.concat_eq_append⟩

namespace Trail
variable {entries : List (Entry σ)} {stack : List NodeId}

theorem numbered (trail : Trail entries stack) :
    (openedIds entries).map NodeId.index = List.range (openedIds entries).length := by
  induction trail with
  | start => rfl
  | opened before event new ih =>
    rw [openedIdsOpened event, List.map_append, ih, List.length_append, List.length_singleton, List.range_succ, ← new]
    rfl
  | closed before event begun waiting seen isElement done children ih => rwa [openedIdsClosed event]

theorem openedBound (trail : Trail entries stack) {id : NodeId} (member : id ∈ openedIds entries) :
    id.index < (openedIds entries).length := by
  have number := List.mem_map_of_mem (f := NodeId.index) member
  rw [trail.numbered] at number
  exact List.mem_range.mp number

theorem stackOpened (trail : Trail entries stack) :
    (∀ id ∈ stack, id ∈ openedIds entries) ∧ stack.Pairwise fun inner outer => outer.index < inner.index := by
  induction trail with
  | start => exact ⟨fun _ none => by contradiction, .nil⟩
  | @opened entries stack entry id before event new ih =>
    obtain ⟨inside, sorted⟩ := ih
    rw [openedIdsOpened event]
    refine ⟨?_, List.pairwise_cons.mpr ⟨?_, sorted⟩⟩
    · intro other member
      rcases List.mem_cons.mp member with rfl | further
      · exact List.mem_append_right _ List.mem_cons_self
      · exact List.mem_append_left _ (inside other further)
    · intro other member
      have bound := before.openedBound (inside other member)
      omega
  | closed before event begun waiting seen isElement done children ih =>
    obtain ⟨inside, sorted⟩ := ih
    rw [openedIdsClosed event]
    exact ⟨fun other member => inside other (List.mem_append_right _ member), (List.pairwise_append.mp sorted).2.1⟩

theorem stackDistinct (trail : Trail entries stack) : stack.Nodup := by
  refine trail.stackOpened.2.imp ?_
  rintro inner outer smaller rfl
  exact Nat.lt_irrefl _ smaller

theorem standing (trail : Trail entries stack) {id : NodeId} (opened : id ∈ openedIds entries)
    (free : id ∉ takenIds entries) : id ∈ stack := by
  induction trail with
  | start => contradiction
  | opened before event new ih =>
    rw [openedIdsOpened event] at opened
    rw [takenIdsOpened event] at free
    rcases List.mem_append.mp opened with earlier | last
    · exact List.mem_cons_of_mem _ (ih earlier free)
    · exact List.mem_singleton.mp last ▸ List.mem_cons_self
  | closed before event begun waiting seen isElement done children ih =>
    rw [openedIdsClosed event] at opened
    rw [takenIdsClosed event seen, children, List.mem_append, List.mem_reverse, not_or] at free
    exact (List.mem_append.mp (ih opened free.1)).resolve_left free.2

theorem takenOpened (trail : Trail entries stack) : ∀ id ∈ takenIds entries, id ∈ openedIds entries := by
  induction trail with
  | start => exact fun _ none => by contradiction
  | opened before event new ih =>
    rw [takenIdsOpened event, openedIdsOpened event]
    exact fun id member => List.mem_append_left _ (ih id member)
  | closed before event begun waiting seen isElement done children ih =>
    rw [takenIdsClosed event seen, openedIdsClosed event]
    intro id member
    rcases List.mem_append.mp member with earlier | now
    · exact ih id earlier
    · rw [children] at now
      exact before.stackOpened.1 id (List.mem_append_left _ (List.mem_reverse.mp now))

theorem closedOpened (trail : Trail entries stack) : ∀ id ∈ closedIds entries, id ∈ openedIds entries := by
  induction trail with
  | start => exact fun _ none => by contradiction
  | opened before event new ih =>
    rw [closedIdsOpened event, openedIdsOpened event]
    exact fun id member => List.mem_append_left _ (ih id member)
  | closed before event begun waiting seen isElement done children ih =>
    rw [closedIdsClosed event, openedIdsClosed event]
    intro id member
    rcases List.mem_append.mp member with earlier | now
    · exact ih id earlier
    · rw [List.mem_singleton.mp now]
      exact before.stackOpened.1 _ (List.mem_append_right _ List.mem_cons_self)

theorem once (trail : Trail entries stack) : (closedIds entries).Nodup := by
  induction trail with
  | start => exact .nil
  | opened before event new ih => rwa [closedIdsOpened event]
  | closed before event begun waiting seen isElement done children ih =>
    rw [closedIdsClosed event]
    refine List.nodup_append.mpr ⟨ih, List.pairwise_singleton _ _, ?_⟩
    intro id earlier other now
    rw [List.mem_singleton.mp now]
    rintro rfl
    exact waiting earlier

theorem stackAbove (trail : Trail entries stack) {above outer : List NodeId} {id : NodeId}
    (place : stack = above ++ id :: outer) {earlier since : List (Entry σ)} {opening : Entry σ}
    (split : entries = earlier ++ opening :: since) (event : opening.event = .opened id) :
    standingIds since = above.reverse := by
  induction trail generalizing above outer since with
  | start => simp at split
  | @opened entries stack entry top before told new ih =>
    rcases splitLast split with ⟨_, rfl, rfl⟩ | ⟨rest, parts, rfl⟩
    · cases told.symm.trans event
      cases above with
      | nil => rfl
      | cons first above =>
        have again : id ∈ stack := by simp [(List.cons.inj place).2]
        have bound := before.openedBound (before.stackOpened.1 id again)
        omega
    · have known : id ∈ openedIds entries := memOpenedIds.mpr ⟨opening, by simp [parts], event⟩
      have bound := before.openedBound known
      cases above with
      | nil =>
        cases place
        omega
      | cons first above =>
        obtain ⟨rfl, below⟩ := List.cons.inj place
        have fresh : top ∉ takenIds rest := by
          intro taken
          have inside : top ∈ takenIds entries := by
            rw [parts, takenIds, List.flatMap_append, List.flatMap_cons]
            exact List.mem_append_right _ (List.mem_append_right _ taken)
          have bound := before.openedBound (before.takenOpened top inside)
          omega
        rw [standingIdsOpened told fresh, ih below parts, List.reverse_cons]
  | @closed entries inner top outside entry node before told begun waiting seen isElement done children ih =>
    rcases splitLast split with ⟨_, rfl, _⟩ | ⟨rest, parts, rfl⟩
    · cases told.symm.trans event
    · rw [standingIdsClosed told seen, children]
      cases above with
      | nil =>
        obtain ⟨rfl, rfl⟩ := List.cons.inj place
        rw [ih rfl parts]
        simp
      | cons first above =>
        obtain ⟨rfl, rfl⟩ := List.cons.inj place
        have standing := ih (List.append_assoc inner (top :: above) (id :: outer)).symm parts
        -- what is taken stands above the one that is closed, so nothing at or below it is
        have apart : ∀ other ∈ top :: above, other ∉ inner := by
          intro other member taken
          have deeper := (List.pairwise_append.mp before.stackOpened.2).2.2 other taken other
            (List.mem_append_left _ member)
          exact Nat.lt_irrefl _ deeper
        rw [standing, List.reverse_append, List.filter_append]
        have kept : (top :: above).reverse.filter (fun id => id ∉ inner.reverse) = (top :: above).reverse := by
          refine List.filter_eq_self.mpr fun other member => ?_
          simpa using apart other (List.mem_reverse.mp member)
        have dropped : inner.reverse.filter (fun id => id ∉ inner.reverse) = [] := by simp
        rw [kept, dropped, List.append_nil]

theorem closes (trail : Trail entries stack) {before after : List (Entry σ)} {entry : Entry σ} {id : NodeId}
    (split : entries = before ++ entry :: after) (event : entry.event = .closed id) :
    ∃ earlier opening since node, before = earlier ++ opening :: since ∧ opening.Begins id ∧
      entry.node = some node ∧ node.isElement = true ∧ node.done = true ∧ node.children = standingIds since := by
  induction trail generalizing after with
  | start => simp at split
  | opened earlier told new ih =>
    rcases splitLast split with ⟨_, rfl, _⟩ | ⟨rest, parts, _⟩
    · cases told.symm.trans event
    · exact ih parts
  | closed earlier told begun waiting seen isElement done children ih =>
    rcases splitLast split with ⟨rfl, rfl, _⟩ | ⟨rest, parts, _⟩
    · cases told.symm.trans event
      obtain ⟨opening, member, begins⟩ := begun
      obtain ⟨first, since, parts⟩ := List.append_of_mem member
      refine ⟨first, opening, since, _, parts, begins, seen, isElement, done, ?_⟩
      rw [children, earlier.stackAbove rfl parts begins.1]
    · exact ih parts

theorem openedOrder (trail : Trail entries stack) {i k : Nat} {x y : NodeId} (first : eventAt? entries i = some (.opened x))
    (second : eventAt? entries k = some (.opened y)) (later : i < k) : x.index < y.index := by
  induction trail with
  | start => contradiction
  | opened before told new ih =>
    have bound := eventAtInside second
    rw [List.length_append, List.length_singleton] at bound
    have first := eventAtEarlier first (by omega)
    rcases eventAtLast second with second | ⟨_, same⟩
    · exact ih first second
    · cases told.symm.trans same
      have bound := before.openedBound (eventAtOpened first)
      omega
  | closed before told begun waiting seen isElement done children ih =>
    exact ih (eventAtOther first (by simp [told])) (eventAtOther second (by simp [told]))

theorem overtaken (trail : Trail entries stack) {i j k : Nat} {x y : NodeId}
    (opened : eventAt? entries i = some (.opened x)) (inside : eventAt? entries k = some (.opened y))
    (closed : eventAt? entries j = some (.closed x)) (later : i < k) (before : k < j) : y ∉ stack := by
  induction trail with
  | start => contradiction
  | @opened entries stack entry id earlier told new ih =>
    have closed := eventAtOther closed (by simp [told])
    have bound := eventAtInside closed
    have opened := eventAtEarlier opened (by omega)
    have inside := eventAtEarlier inside (by omega)
    have known := earlier.openedBound (eventAtOpened inside)
    intro member
    rcases List.mem_cons.mp member with rfl | further
    · omega
    · exact ih opened inside closed further
  | @closed entries above id outer entry node earlier told begun waiting seen isElement done children ih =>
    have opened := eventAtOther opened (by simp [told])
    have inside := eventAtOther inside (by simp [told])
    rcases eventAtLast closed with closed | ⟨_, same⟩
    · exact fun member => ih opened inside closed (List.mem_append_right _ member)
    · cases told.symm.trans same
      -- the nodes left on the stack were opened no later than the one closed
      have larger := earlier.openedOrder opened inside later
      have outside := (List.pairwise_cons.mp (List.pairwise_append.mp earlier.stackOpened.2).2.1).1
      intro member
      rcases List.mem_cons.mp member with rfl | further
      · omega
      · have smaller := outside y further
        omega

theorem closedInside (trail : Trail entries stack) {i j k l : Nat} {x y : NodeId}
    (opened : eventAt? entries i = some (.opened x)) (closed : eventAt? entries j = some (.closed x))
    (inside : eventAt? entries k = some (.opened y)) (ended : eventAt? entries l = some (.closed y))
    (later : i < k) (before : k < j) : l < j := by
  induction trail with
  | start => contradiction
  | opened earlier told new ih =>
    have closed := eventAtOther closed (by simp [told])
    have bound := eventAtInside closed
    exact ih (eventAtEarlier opened (by omega)) closed (eventAtEarlier inside (by omega))
      (eventAtOther ended (by simp [told]))
  | closed earlier told begun waiting seen isElement done children ih =>
    have opened := eventAtOther opened (by simp [told])
    have inside := eventAtOther inside (by simp [told])
    rcases eventAtLast ended with ended | ⟨_, same⟩
    · rcases eventAtLast closed with closed | ⟨last, _⟩
      · exact ih opened closed inside ended
      · have bound := eventAtInside ended
        omega
    · cases told.symm.trans same
      rcases eventAtLast closed with closed | ⟨_, same⟩
      · exact absurd (List.mem_append_right _ List.mem_cons_self)
          (earlier.overtaken opened inside closed later before)
      · cases told.symm.trans same
        have larger := earlier.openedOrder opened inside later
        omega

theorem bracketed (trail : Trail entries stack) : WellBracketed entries := by
  refine ⟨trail.numbered, trail.once, fun before entry after id split event => trail.closes split event, ?_⟩
  intro i j k l x y differs opened closed inside ended
  have others {m n : Nat} {a b : NodeId} (first : eventAt? entries m = some (.opened a))
      (second : eventAt? entries n = some (.closed b)) : m ≠ n := by
    rintro rfl
    cases first.symm.trans second
  have apart : i ≠ k := by
    rintro rfl
    cases opened.symm.trans inside
    exact differs rfl
  have left := others inside closed
  have right := others opened ended
  rcases Nat.lt_or_gt_of_ne apart with first | second
  · rcases Nat.lt_or_gt_of_ne left with within | behind
    · exact Or.inr (Or.inr (Or.inl ⟨first, trail.closedInside opened closed inside ended first within⟩))
    · exact Or.inl behind
  · rcases Nat.lt_or_gt_of_ne right with within | behind
    · exact Or.inr (Or.inr (Or.inr ⟨second, trail.closedInside inside ended opened closed second within⟩))
    · exact Or.inr (Or.inl behind)

end Trail

end Templating
