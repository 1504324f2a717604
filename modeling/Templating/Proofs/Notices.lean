import Templating.Proofs.Resolution
import Templating.Build.Journal
import Templating.Compile

/-!
What the notices of a build say, read back from the latest. Which elements are open, which are raw,
which node was finished last and which rules an element has to keep are told from the notices that
came before it, and from nothing that a build keeps on the way.
-/
namespace Templating

/- The notices of a build that no receiver interferes with, the latest first. -/
def notices (options : Options) (template : String) : List (Entry Unit) :=
  match buildWith options (Journal.receiver none Receiver.silent) (Journal.ofState ()) template.toList with
  | .ok last => last.state.latest
  | .error halt => halt.state.state.latest

structure Opening where
  past : List (Entry Unit)
  id : NodeId
  node : Node
  element : Element

def Entry.opening? (past : List (Entry Unit)) (entry : Entry Unit) : Option Opening :=
  match entry.event, entry.node with
  | .opened id, some node => node.element?.map (Opening.mk past id node)
  | _, _ => none

def Entry.unfinished? (past : List (Entry Unit)) (entry : Entry Unit) : Option Opening :=
  (entry.opening? past).filter fun o => !o.node.done

def Entry.finished? (entry : Entry Unit) : Option (NodeId × Node) :=
  match entry.event, entry.node with
  | .opened id, some node => if node.done then some (id, node) else none
  | .closed id, some node => some (id, node)
  | _, none => none

def openings : List (Entry Unit) → List Opening
  | [] => []
  | entry :: past => openings past ++ (entry.opening? past).toList

def staysOpen : List (Entry Unit) → Bool
  | [] => true
  | entry :: since =>
    staysOpen since &&
      match entry.event with
      | .opened _ => true
      | .closed id => since.any fun other => other.event == .opened id

def openSince (since : List (Entry Unit)) : List (Entry Unit) → List Opening
  | [] => []
  | entry :: past =>
    (if staysOpen since then (entry.unfinished? past).toList else []) ++ openSince (since ++ [entry]) past

/- The elements opened before their end and neither closed themselves nor inside of one that was, the
innermost first. -/
def openElements (past : List (Entry Unit)) : List Opening := openSince [] past

namespace Opening

def marked (o : Opening) : Bool := o.element.carries "v-pre"

def raw (options : Options) (o : Opening) : Bool :=
  options.isRawText o.element.tag || o.marked || (openElements o.past).any marked

def conditional (options : Options) (o : Opening) : Bool :=
  !o.raw options && (o.element.carries "v-if" || o.element.carries "v-else-if")

def looping (options : Options) (o : Opening) : Bool := !o.raw options && o.element.carries "v-for"

def finishedBefore? (o : Opening) : Option (NodeId × Node) := o.past.findSome? Entry.finished?

def followsCondition (options : Options) (o : Opening) : Bool :=
  o.finishedBefore?.any fun finished =>
    (openings o.past).any fun other => other.id == finished.1 && other.conditional options

def insideLoop (options : Options) (o : Opening) : Bool := (openElements o.past).head?.any (looping options)

def surroundings (options : Options) (source : List Char) (o : Opening) : Surroundings where
  source
  offset := o.node.span.start.toNat
  previous := o.finishedBefore?.map fun finished => ⟨finished.2.typeName, o.followsCondition options⟩
  parentHasLoop := o.insideLoop options

/- The first rule that the element breaks; a raw element is held to none. -/
def fault? (options : Options) (source : List Char) (o : Opening) : Option CompileError :=
  if o.raw options then none else Directive.fault? (o.surroundings options source) o.element

structure Lawful (options : Options) (o : Opening) : Prop where
  elseFollows : o.element.carries "v-else" = true → o.followsCondition options = true
  elseIfFollows : o.element.carries "v-else-if" = true → o.followsCondition options = true
  loop : ∀ written, o.element.written? "v-for" = some written → ∃ loop, Loop.parse? written = some loop
  reference : o.element.carries "ref" = true → o.element.tag ≠ "template" ∧ o.insideLoop options = false

theorem followsSurroundings (options : Options) (source : List Char) (o : Opening) :
    (o.surroundings options source).followsCondition = o.followsCondition options := by
  unfold Surroundings.followsCondition surroundings followsCondition
  cases o.finishedBefore? <;> rfl

theorem lawfulFault (options : Options) (source : List Char) (o : Opening) :
    o.fault? options source = none ↔ (o.raw options = false → o.Lawful options) := by
  unfold fault?
  cases raw : o.raw options with
  | true => simp
  | false =>
    simp only [Bool.false_eq_true, if_false, true_imp_iff]
    rw [Directive.faultNone, followsSurroundings]
    constructor
    · rintro ⟨elseFollows, elseIfFollows, loop, reference⟩
      exact ⟨elseFollows, elseIfFollows, loop, reference⟩
    · rintro ⟨elseFollows, elseIfFollows, loop, reference⟩
      exact ⟨elseFollows, elseIfFollows, loop, reference⟩

end Opening

theorem openingSome {past : List (Entry Unit)} {entry : Entry Unit} {o : Opening} (h : entry.opening? past = some o) :
    entry.event = .opened o.id ∧ entry.node = some o.node ∧ o.node.content = .element o.element ∧ o.past = past := by
  unfold Entry.opening? at h
  split at h
  · rename_i id node event here
    obtain ⟨e, element, rfl⟩ := Option.map_eq_some_iff.mp h
    refine ⟨event, here, ?_, rfl⟩
    unfold Node.element? at element
    split at element
    · rename_i content
      cases element
      exact content
    · contradiction
  · contradiction

theorem openingElement {past : List (Entry Unit)} {entry : Entry Unit} {id : NodeId} {node : Node} {e : Element}
    (event : entry.event = .opened id) (here : entry.node = some node) (content : node.content = .element e) :
    entry.opening? past = some ⟨past, id, node, e⟩ := by
  simp [Entry.opening?, event, here, Node.element?, content]

theorem openingLeaf {past : List (Entry Unit)} {entry : Entry Unit} {node : Node} (here : entry.node = some node)
    (leaf : ∀ e, node.content ≠ .element e) : entry.opening? past = none := by
  unfold Entry.opening?
  split
  · rename_i id other event there
    cases here.symm.trans there
    rw [Node.leafElement leaf]
    rfl
  · rfl

theorem openingClosed {past : List (Entry Unit)} {entry : Entry Unit} {id : NodeId} (event : entry.event = .closed id) :
    entry.opening? past = none := by
  simp [Entry.opening?, event]

theorem unfinishedSome {past : List (Entry Unit)} {entry : Entry Unit} {o : Opening}
    (h : entry.unfinished? past = some o) : entry.opening? past = some o ∧ o.node.done = false := by
  obtain ⟨opened, waiting⟩ := Option.filter_eq_some_iff.mp h
  exact ⟨opened, by simpa using waiting⟩

theorem openingsOpened {past : List (Entry Unit)} {o : Opening} (member : o ∈ openings past) :
    ∃ entry ∈ past, entry.event = .opened o.id := by
  induction past with
  | nil => simp [openings] at member
  | cons entry past ih =>
    rcases List.mem_append.mp member with earlier | here
    · obtain ⟨other, inside, event⟩ := ih earlier
      exact ⟨other, List.mem_cons_of_mem _ inside, event⟩
    · exact ⟨entry, List.mem_cons_self, (openingSome (Option.mem_toList.mp here)).1⟩

theorem openSinceMember {since past : List (Entry Unit)} {o : Opening} (member : o ∈ openSince since past) :
    o ∈ openings past := by
  induction past generalizing since with
  | nil => simp [openSince] at member
  | cons entry past ih =>
    rcases List.mem_append.mp member with here | earlier
    · split at here
      · have opened := (unfinishedSome (Option.mem_toList.mp here)).1
        exact List.mem_append_right _ (Option.mem_toList.mpr opened)
      · contradiction
    · exact List.mem_append_left _ (ih earlier)

theorem openElementsMember {past : List (Entry Unit)} {o : Opening} (member : o ∈ openElements past) :
    o ∈ openings past := openSinceMember member

theorem openSinceOpened {entry : Entry Unit} {id : NodeId} (event : entry.event = .opened id)
    (since past : List (Entry Unit)) : openSince (entry :: since) past = openSince since past := by
  induction past generalizing since with
  | nil => rfl
  | cons other past ih =>
    have stays : staysOpen (entry :: since) = staysOpen since := by simp [staysOpen, event]
    rw [openSince, openSince, stays, List.cons_append, ih]

theorem openElementsOpened {entry : Entry Unit} {id : NodeId} (event : entry.event = .opened id)
    (past : List (Entry Unit)) :
    openElements (entry :: past) = (entry.unfinished? past).toList ++ openElements past := by
  unfold openElements
  rw [openSince, List.nil_append, openSinceOpened event [] past]
  rfl

theorem openSinceInner {entry : Entry Unit} {id : NodeId} {since : List (Entry Unit)} (event : entry.event = .closed id)
    (inner : since.any (fun other => other.event == .opened id) = true) (past : List (Entry Unit)) :
    openSince (entry :: since) past = openSince since past := by
  induction past generalizing since with
  | nil => rfl
  | cons other past ih =>
    have stays : staysOpen (entry :: since) = staysOpen since := by simp [staysOpen, event, inner]
    have inside : (since ++ [other]).any (fun other => other.event == .opened id) = true := by
      rw [List.any_append, inner]
      rfl
    rw [openSince, openSince, stays, List.cons_append, ih inside]

def OpensOnce (past : List (Entry Unit)) : Prop :=
  past.Pairwise fun later earlier => ∀ id, later.event = .opened id → earlier.event ≠ .opened id

theorem openSinceHead {since past : List (Entry Unit)} {entry : Entry Unit} {o : Opening}
    (once : OpensOnce (entry :: past)) (member : o ∈ openSince since past) : entry.event ≠ .opened o.id := by
  intro event
  obtain ⟨other, inside, again⟩ := openingsOpened (openSinceMember member)
  exact (List.pairwise_cons.mp once).1 other inside o.id event again

theorem openSinceDistinct {since past : List (Entry Unit)} (once : OpensOnce past) :
    ((openSince since past).map Opening.id).Nodup := by
  induction past generalizing since with
  | nil => exact List.nodup_nil
  | cons entry past ih =>
    have rest := @ih (since ++ [entry]) (List.pairwise_cons.mp once).2
    rw [openSince]
    split
    · cases here : entry.unfinished? past with
      | none => exact rest
      | some o =>
        have event := (openingSome (unfinishedSome here).1).1
        refine List.nodup_cons.mpr ⟨?_, rest⟩
        intro member
        obtain ⟨other, inside, same⟩ := List.mem_map.mp member
        exact openSinceHead once inside (same ▸ event)
    · exact rest

theorem openSinceClosed {entry : Entry Unit} {since past : List (Entry Unit)} {inner outer : List Opening} {o : Opening}
    (event : entry.event = .closed o.id) (once : OpensOnce past)
    (apart : since.any (fun other => other.event == .opened o.id) = false)
    (stack : openSince since past = inner ++ o :: outer) : openSince (entry :: since) past = outer := by
  induction past generalizing since inner with
  | nil => simp [openSince] at stack
  | cons other past ih =>
    have onceRest := (List.pairwise_cons.mp once).2
    have ends : staysOpen (entry :: since) = false := by simp [staysOpen, event, apart]
    rw [openSince, ends, List.cons_append, if_neg (by decide), List.nil_append]
    rw [openSince] at stack
    -- either the latest of these elements is the one closed, or that one is among the earlier
    have later (earlier : List Opening) (rest : openSince (since ++ [other]) past = earlier ++ o :: outer) :
        openSince (entry :: (since ++ [other])) past = outer := by
      have member : o ∈ openSince (since ++ [other]) past := by simp [rest]
      have differs := openSinceHead once member
      refine ih onceRest ?_ rest
      rw [List.any_append, apart]
      simpa using differs
    split at stack
    · cases here : other.unfinished? past with
      | none =>
        rw [here] at stack
        exact later inner stack
      | some latest =>
        rw [here] at stack
        cases inner with
        | nil =>
          obtain ⟨rfl, rest⟩ := List.cons.inj stack
          rw [List.append_eq, List.nil_append] at rest
          have opened := (openingSome (unfinishedSome here).1).1
          rw [openSinceInner event _ past, rest]
          simp [opened]
        | cons first inner => exact later inner (List.cons.inj stack).2
    · exact later inner stack

theorem openElementsClosed {entry : Entry Unit} {past : List (Entry Unit)} {inner outer : List Opening} {o : Opening}
    (event : entry.event = .closed o.id) (once : OpensOnce past) (stack : openElements past = inner ++ o :: outer) :
    openElements (entry :: past) = outer := by
  unfold openElements
  have none : entry.unfinished? past = none := by rw [Entry.unfinished?, openingClosed event]; rfl
  rw [openSince, none]
  exact openSinceClosed event once rfl stack

end Templating
