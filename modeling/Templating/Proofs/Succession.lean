import Templating.Proofs.Acceptance
import Templating.Proofs.Unclosed

/-!
The node finished last before another is opened. It is what the rules for conditional chains ask for: an
element that continues a chain has a condition in that node. Which node this is can be read off the tree:
it is the one beside, if that is done; else the search goes on from there, and from a first child it goes
on from the element around. So a chain may lead into an element that was opened in between.
-/
namespace Templating

def Latest (past : List (Entry Unit)) (m : NodeId) : Prop := ∃ node, past.findSome? Entry.finished? = some (m, node)

/- As the node `id` was opened, `m` was the node finished last. -/
def FinishedBefore : List (Entry Unit) → NodeId → NodeId → Prop
  | [], _, _ => False
  | entry :: past, m, id => entry.event = .opened id ∧ Latest past m ∨ FinishedBefore past m id

theorem latestSkipped {past : List (Entry Unit)} {entry : Entry Unit} (unfinished : entry.finished? = none) (m : NodeId) :
    Latest (entry :: past) m ↔ Latest past m := by
  unfold Latest
  rw [List.findSome?_cons, unfinished]

theorem latestFinished {past : List (Entry Unit)} {entry : Entry Unit} {id : NodeId} {node : Node}
    (finished : entry.finished? = some (id, node)) (m : NodeId) : Latest (entry :: past) m ↔ m = id := by
  unfold Latest
  rw [List.findSome?_cons, finished]
  constructor
  · rintro ⟨_, same⟩
    cases same
    rfl
  · rintro rfl
    exact ⟨node, rfl⟩

namespace Element

def Continues (e : Element) : Prop := e.isElse = true ∨ e.elseIfCondition.isSome = true

def chain (e : Element) : Option String × Option String × Bool := (e.ifCondition, e.elseIfCondition, e.isElse)

theorem chainContinues {e f : Element} (same : f.chain = e.chain) :
    (f.Continues ↔ e.Continues) ∧ f.hasCondition = e.hasCondition := by
  simp only [chain, Prod.mk.injEq] at same
  obtain ⟨condition, elseIf, isElse⟩ := same
  unfold Continues hasCondition
  rw [condition, elseIf, isElse]
  exact ⟨Iff.rfl, rfl⟩

theorem appendTextChain (run : String) (e : Element) : (e.appendText run).chain = e.chain := by
  unfold appendText
  split <;> rfl

end Element

def Node.chain (node : Node) : Option (Option String × Option String × Bool) := node.element?.map Element.chain

def Arena.chain (arena : Arena) (id : NodeId) : Option (Option String × Option String × Bool) :=
  (arena.get? id).bind Node.chain

namespace Arena

theorem chainElement (arena : Arena) (id : NodeId) : arena.chain id = (arena.element? id).map Element.chain := by
  unfold chain element?
  cases arena.get? id <;> rfl

theorem chainModify {arena : Arena} {id : NodeId} {change : Node → Node}
    (same : ∀ node, arena.get? id = some node → (change node).chain = node.chain) (other : NodeId) :
    (arena.modify id change).chain other = arena.chain other := by
  by_cases here : other = id
  · subst here
    unfold chain
    rw [getModify, if_pos rfl]
    cases got : arena.get? other with
    | none => rfl
    | some node => exact same node got
  · unfold chain
    rw [getModifyOther here]

theorem chainModifyElement {arena : Arena} {id : NodeId} {change : Element → Element}
    (same : ∀ e, (change e).chain = e.chain) (other : NodeId) :
    (arena.modifyElement id change).chain other = arena.chain other := by
  refine chainModify (fun node _ => ?_) other
  unfold Node.chain
  rw [Node.elementMapElement, Option.map_map]
  exact congrArg (fun view => node.element?.map view) (funext same)

theorem chainSeen {arena changed : Arena} {id : NodeId} {e : Element} (same : changed.chain id = arena.chain id)
    (found : arena.element? id = some e) : ∃ f, changed.element? id = some f ∧ f.chain = e.chain := by
  rw [chainElement, chainElement, found] at same
  exact Option.map_eq_some_iff.mp same

end Arena

theorem Builder.stepChain {b next : Builder} {event : Option Event} (h : b.Step next event)
    (nothing : ∀ id, event ≠ some (.opened id)) (id : NodeId) : next.arena.chain id = b.arena.chain id := by
  cases h with
  | opened => exact absurd rfl (nothing _)
  | passed => rfl
  | closed =>
    refine Arena.chainModify (fun node _ => ?_) id
    unfold Node.chain
    rw [Node.elementClose, Option.map_map]
    rfl
  | text run => exact Arena.chainModifyElement (Element.appendTextChain run) id

theorem Analysis.closedChain (options : Options) (id other : NodeId) (a : Analysis) (arena : Arena) :
    (closed options id a arena).2.chain other = arena.chain other := by
  unfold closed
  dsimp only
  split
  · rfl
  · refine Arena.chainModifyElement (fun e => ?_) other
    split
    · rfl
    · unfold collectData
      split <;> rfl

namespace Directive
open Analysis

theorem foldPendingChain (e : Element) : (foldPending e).chain = e.chain := by
  unfold foldPending
  split <;> rfl

theorem resolvedElse (e : Element) : (resolved e).isElse = (e.carries "v-else" || e.isElse) := by
  have bound (e : Element) : (bindAll e).isElse = e.isElse := by
    unfold bindAll
    split <;> rfl
  have slotted (e : Element) : (takeSlot e).isElse = e.isElse := by
    unfold takeSlot
    split <;> rfl
  have taken : (takeElse (takeIf e)).isElse = (e.carries "v-else" || e.isElse) := by
    unfold takeElse Element.carries
    rw [writtenTakeIf e (by decide)]
    rfl
  unfold resolved
  rw [bound, slotted]
  exact taken

theorem letInChain (a : Analysis) (options : Options) (e : Element) :
    (letIn options a.inVerbatim e).chain = e.chain ∨
      a.takesLiterally options e = false ∧ letIn options a.inVerbatim e = resolved e := by
  unfold takesLiterally letIn
  cases a.inVerbatim with
  | true => exact Or.inl (foldPendingChain e)
  | false =>
    cases e.carries "v-pre" with
    | true => exact Or.inl (foldPendingChain _)
    | false =>
      cases options.isRawText e.tag with
      | true => exact Or.inl (foldPendingChain e)
      | false => exact Or.inr ⟨rfl, rfl⟩

theorem resolvedContinues {e : Element} (continues : (resolved e).Continues) :
    e.Continues ∨ e.carries "v-else" = true ∨ e.carries "v-else-if" = true := by
  obtain ⟨_, _, elseIf, _⟩ := resolvedFields e
  unfold Element.Continues at continues ⊢
  rw [resolvedElse, elseIf, Option.isSome_or, Bool.or_eq_true, Bool.or_eq_true] at continues
  rcases continues with (carried | before) | (carried | before)
  · exact Or.inr (Or.inl carried)
  · exact Or.inl (Or.inl before)
  · exact Or.inr (Or.inr carried)
  · exact Or.inl (Or.inr before)

theorem resolvedCondition {e : Element} (condition : e.hasCondition = true) : (resolved e).hasCondition = true := by
  obtain ⟨_, ifCondition, elseIf, _⟩ := resolvedFields e
  unfold Element.hasCondition at condition ⊢
  rw [ifCondition, elseIf, Option.isSome_or, Option.isSome_or, Bool.or_eq_true, Bool.or_eq_true, Bool.or_eq_true]
  exact (Bool.or_eq_true .. ▸ condition).imp Or.inr Or.inr

end Directive

/-- An element that goes on with a chain was opened when an element with a condition had been finished last. -/
structure Preceded (past : List (Entry Unit)) (a : Analysis) (arena : Arena) : Prop where
  previous : ∀ m, a.previous = some m ↔ Latest past m
  condition : ∀ id f, arena.element? id = some f → f.Continues →
    ∃ m g, FinishedBefore past m id ∧ arena.element? m = some g ∧ g.hasCondition = true

namespace Preceded
variable {options : Options} {source : List Char} {past : List (Entry Unit)} {entry : Entry Unit} {a after : Analysis}
  {arena changed : Arena} {id : NodeId} {node : Node}

theorem start (source : List Char) : Preceded [] Analysis.start (Builder.ofSource source).arena := by
  refine ⟨?_, ?_⟩
  · intro m
    constructor
    · intro impossible
      contradiction
    · rintro ⟨_, impossible⟩
      contradiction
  · intro id f found
    simp [Builder.ofSource, Arena.empty, Arena.element?, Arena.get?] at found

theorem kept (preceded : Preceded past a arena) (same : ∀ id, changed.chain id = arena.chain id) :
    Preceded past a changed := by
  refine ⟨preceded.previous, ?_⟩
  intro id f found continues
  obtain ⟨e, before, chain⟩ := Arena.chainSeen (same id).symm found
  obtain ⟨m, g, finished, there, condition⟩ :=
    preceded.condition id e before ((Element.chainContinues chain).1.mpr continues)
  obtain ⟨h, now, still⟩ := Arena.chainSeen (same m) there
  exact ⟨m, h, finished, now, (Element.chainContinues still).2.trans condition⟩

theorem pushed (preceded : Preceded past a arena) (fresh : node.Fresh) : Preceded past a (arena.push node) := by
  refine ⟨preceded.previous, ?_⟩
  intro id f found continues
  obtain ⟨seen, got, element⟩ := Option.bind_eq_some_iff.mp found
  have content : seen.content = .element f := by
    unfold Node.element? at element
    split at element
    · rename_i content
      cases element
      exact content
    · contradiction
  rcases Arena.getPushCases got with ⟨_, _, rfl⟩ | old
  · have bare := fresh.element f content
    rw [Element.Continues, bare] at continues
    simp at continues
  · obtain ⟨m, g, finished, there, condition⟩ :=
      preceded.condition id f (by rw [Arena.element?, old]; exact element) continues
    obtain ⟨other, gotOther, elementOther⟩ := Option.bind_eq_some_iff.mp there
    refine ⟨m, g, finished, ?_, condition⟩
    rw [Arena.element?, Arena.getPushKept gotOther]
    exact elementOther

theorem closed (preceded : Preceded past a arena) (event : entry.event = .closed id) (here : entry.node = some node) :
    Preceded (entry :: past) (Analysis.closed options id a arena).1 (Analysis.closed options id a arena).2 := by
  have kept := preceded.kept fun other => Analysis.closedChain options id other a arena
  have finished : entry.finished? = some (id, node) := by simp [Entry.finished?, event, here]
  refine ⟨?_, ?_⟩
  · intro m
    rw [latestFinished finished, Followed.closedState, Option.some.injEq, eq_comm]
  · intro other f found continues
    obtain ⟨m, g, before, rest⟩ := kept.condition other f found continues
    exact ⟨m, g, Or.inr before, rest⟩

theorem followsSeen (follows : (a.surroundings source arena node).followsCondition = true) :
    ∃ m g, a.previous = some m ∧ arena.element? m = some g ∧ g.hasCondition = true := by
  obtain ⟨previous, known, conditional⟩ := (Option.any_eq_true _ _).mp follows
  obtain ⟨m, latest, seen⟩ := Option.bind_eq_some_iff.mp known
  obtain ⟨last, there, rfl⟩ := Option.map_eq_some_iff.mp seen
  obtain ⟨g, element, condition⟩ := (Option.any_eq_true _ _).mp conditional
  exact ⟨m, g, latest, by rw [Arena.element?, there]; exact element, condition⟩

theorem conditionStays {e g : Element} {m : NodeId} (here : arena.element? id = some e)
    (now : changed.element? id = some (Directive.resolved e))
    (elsewhere : ∀ m, m ≠ id → changed.element? m = arena.element? m) (there : arena.element? m = some g)
    (condition : g.hasCondition = true) : ∃ h, changed.element? m = some h ∧ h.hasCondition = true := by
  by_cases differs : m = id
  · subst differs
    cases here.symm.trans there
    exact ⟨_, now, Directive.resolvedCondition condition⟩
  · exact ⟨g, (elsewhere m differs).trans there, condition⟩

theorem resolvedFollows (preceded : Preceded past a arena) {e : Element} (here : arena.element? id = some e)
    (now : changed.element? id = some (Directive.resolved e))
    (elsewhere : ∀ m, m ≠ id → changed.element? m = arena.element? m)
    (lawful : e.carries "v-else" = true ∨ e.carries "v-else-if" = true →
      (a.surroundings source arena node).followsCondition = true)
    (other : NodeId) (f : Element) (found : changed.element? other = some f) (continues : f.Continues) :
    ∃ m g, (FinishedBefore past m other ∨ other = id ∧ Latest past m) ∧ changed.element? m = some g ∧
      g.hasCondition = true := by
  have before (x : NodeId) (e : Element) (there : arena.element? x = some e) (goes : e.Continues) :
      ∃ m g, (FinishedBefore past m x ∨ x = id ∧ Latest past m) ∧ changed.element? m = some g ∧ g.hasCondition = true := by
    obtain ⟨m, g, finished, seen, condition⟩ := preceded.condition x e there goes
    obtain ⟨h, later, conditional⟩ := conditionStays here now elsewhere seen condition
    exact ⟨m, h, Or.inl finished, later, conditional⟩
  by_cases differs : other = id
  · subst differs
    cases now.symm.trans found
    rcases Directive.resolvedContinues continues with already | carried
    · exact before other e here already
    · obtain ⟨m, g, latest, seen, condition⟩ := followsSeen (lawful carried)
      obtain ⟨h, later, conditional⟩ := conditionStays here now elsewhere seen condition
      exact ⟨m, h, Or.inr ⟨rfl, (preceded.previous m).mp latest⟩, later, conditional⟩
  · exact before other f ((elsewhere other differs).symm.trans found) continues

theorem openedCondition (preceded : Preceded past a arena) (got : arena.get? id = some node)
    (told : Analysis.opened options source id a arena = .ok (after, changed)) (other : NodeId) (f : Element)
    (found : changed.element? other = some f) (continues : f.Continues) :
    ∃ m g, (FinishedBefore past m other ∨ other = id ∧ Latest past m) ∧ changed.element? m = some g ∧
      g.hasCondition = true := by
  have kept (same : ∀ id, changed.chain id = arena.chain id) : ∃ m g,
      (FinishedBefore past m other ∨ other = id ∧ Latest past m) ∧ changed.element? m = some g ∧
        g.hasCondition = true := by
    obtain ⟨m, g, before, rest⟩ := (preceded.kept same).condition other f found continues
    exact ⟨m, g, Or.inl before, rest⟩
  rcases node.contentCases with ⟨e, content⟩ | leaf
  · have element : node.element? = some e := by simp [Node.element?, content]
    have here : arena.element? id = some e := by rw [Arena.element?, got]; exact element
    have result := (Analysis.openedElement got content told).2
    rcases Directive.letInChain a options e with chain | ⟨resolves, same⟩
    · refine kept fun other => ?_
      rw [result]
      refine Arena.chainModify (fun seen there => ?_) other
      cases got.symm.trans there
      unfold Node.chain
      rw [element]
      exact congrArg some chain
    · rw [same] at result
      have now : changed.element? id = some (Directive.resolved e) := by
        rw [result, Arena.element?, Arena.getModify, if_pos rfl, got]
        rfl
      have elsewhere (m : NodeId) (differs : m ≠ id) : changed.element? m = arena.element? m := by
        rw [result, Arena.element?, Arena.getModifyOther differs]
        rfl
      have lawful := Analysis.openedLawful got content told
      rw [Analysis.refuses?, resolves, if_neg Bool.false_ne_true, Directive.faultNone] at lawful
      exact resolvedFollows preceded here now elsewhere (fun carried => carried.elim lawful.1 lawful.2.1) other f found
        continues
  · refine kept fun other => ?_
    rw [Analysis.openedLeaf a options source got leaf] at told
    cases told
    refine Arena.chainModify (fun seen there => ?_) other
    cases got.symm.trans there
    rfl

theorem opened (preceded : Preceded past a arena) {seen : Node} (got : arena.get? id = some node)
    (told : Analysis.opened options source id a arena = .ok (after, changed)) (event : entry.event = .opened id)
    (here : entry.node = some seen) (done : seen.done = node.done) : Preceded (entry :: past) after changed := by
  have finished : entry.finished? = if node.done then some (id, seen) else none := by
    simp [Entry.finished?, event, here, done]
  refine ⟨?_, ?_⟩
  · intro m
    rw [Analysis.openedPrevious got told]
    split
    · rename_i ended
      rw [if_pos ended] at finished
      rw [latestFinished finished, Option.some.injEq, eq_comm]
    · rename_i waiting
      rw [if_neg waiting] at finished
      rw [latestSkipped finished]
      exact preceded.previous m
  · intro other f found continues
    obtain ⟨m, g, before | ⟨rfl, latest⟩, rest⟩ := preceded.openedCondition got told other f found continues
    · exact ⟨m, g, Or.inr before, rest⟩
    · exact ⟨m, g, Or.inl ⟨event, latest⟩, rest⟩

end Preceded

namespace Build
variable {options : Options} {source : List Char} {p next : Build (Journal Unit)} {q other : Build Analysis}

structure Precedes (p : Build (Journal Unit)) (q : Build Analysis) : Prop where
  alike : p.builder.Alike q.builder
  preceded : Preceded p.state.latest q.state q.builder.arena

theorem precedesTurn (precedes : Precedes p q)
    (taken : p.turn options.comments (Journal.receiver none Receiver.silent) = .ok next)
    (takenOther : q.turn options.comments (Analysis.receiver options source) = .ok other) : Precedes next other := by
  obtain ⟨alike, preceded⟩ := precedes
  rcases turnsSideBySide options.comments (Analysis.receiver options source) Journal.watches alike with
    ⟨cause, _, left, _⟩ | ⟨plain, analysed, _, stepped, alike, left, right⟩ |
    ⟨plain, analysed, event, state, _, stepped, alike, _, recorded, left, right⟩
  · rw [left] at taken
    contradiction
  · cases left.symm.trans taken
    cases right.symm.trans takenOther
    exact ⟨alike, preceded.kept (Builder.stepChain (Builder.stepCases stepped) fun _ impossible => by cases impossible)⟩
  · have entry : p.state.record event () plain.arena none = state := congrArg Prod.fst (Except.ok.inj recorded)
    cases left.symm.trans taken
    rw [right] at takenOther
    subst entry
    have step := Builder.stepCases stepped
    cases event with
    | closed id =>
      obtain ⟨_, _, _, _, _, got, _, _, arena⟩ := Builder.stepCloses step
      obtain ⟨node, here, _⟩ := Arena.alikeSeen alike.arena (by rw [arena, Arena.getModify, if_pos rfl, got]; rfl)
      have closed : Preceded (⟨.closed id, plain.arena.get? id, (), none⟩ :: p.state.latest)
          (Analysis.closed options id q.state analysed.arena).1 (Analysis.closed options id q.state analysed.arena).2 :=
        (preceded.kept (Builder.stepChain step fun _ impossible => by cases impossible)).closed rfl here
      cases takenOther
      exact ⟨⟨alike.scanner, alike.stack, alike.arena.trans (Analysis.closedAlike options id q.state _).symm⟩, closed⟩
    | opened id =>
      obtain ⟨fresh, arena, _, new, isFresh⟩ := Builder.stepOpensNext step
      have pushed := preceded.pushed isFresh
      rw [← arena] at pushed
      -- an id is given, whether or not it has been given before
      obtain ⟨node, got⟩ : ∃ node, analysed.arena.get? id = some node := by
        have bound : q.builder.arena.nextId.index ≤ q.builder.arena.size := Nat.mod_le _ _
        refine Option.ne_none_iff_exists'.mp fun missing => ?_
        rw [Arena.getNone, arena, Arena.sizePush, new] at missing
        omega
      obtain ⟨seen, here, outline⟩ := Arena.alikeSeen alike.arena got
      unfold tell at takenOther
      split at takenOther
      · rename_i after changed told
        cases takenOther
        exact ⟨⟨alike.scanner, alike.stack, alike.arena.trans (Analysis.openedAlike told).symm⟩,
          pushed.opened got told rfl here (Node.outlineCases outline).1⟩
      · contradiction

theorem precedesRun {last : Build (Journal Unit)} {analysed : Build Analysis}
    (ran : buildWith options (Journal.receiver none Receiver.silent) (Journal.ofState ()) source = .ok last)
    (ranOther : buildWith options (Analysis.receiver options source) Analysis.start source = .ok analysed) :
    Precedes last analysed := by
  refine runsInvariant (I := Precedes) ?_ ?_ ?_ ⟨Builder.alikeSelf _, Preceded.start source⟩ ran ranOther
  · intro p q precedes
    exact ⟨Builder.alikeSkipBlank precedes.alike, precedes.preceded⟩
  · intro p q precedes
    exact congrArg Markup.Scanner.atEnd precedes.alike.scanner
  · intro p q next other precedes taken takenOther
    exact precedesTurn precedes taken takenOther

end Build

theorem finishedBeforeOpened {past : List (Entry Unit)} {m id : NodeId} (before : FinishedBefore past m id) :
    ∃ entry ∈ past, entry.event = .opened id := by
  induction past with
  | nil => exact before.elim
  | cons entry past ih =>
    rcases before with ⟨event, _⟩ | earlier
    · exact ⟨entry, List.mem_cons_self, event⟩
    · obtain ⟨other, member, event⟩ := ih earlier
      exact ⟨other, List.mem_cons_of_mem _ member, event⟩

theorem finishedBeforeNew {past : List (Entry Unit)} {entry : Entry Unit} {id : NodeId} (event : entry.event = .opened id)
    (new : ∀ earlier ∈ past, earlier.event ≠ .opened id) (m : NodeId) :
    FinishedBefore (entry :: past) m id ↔ Latest past m := by
  constructor
  · rintro (⟨_, latest⟩ | earlier)
    · exact latest
    · obtain ⟨other, member, again⟩ := finishedBeforeOpened earlier
      exact absurd again (new other member)
  · exact fun latest => Or.inl ⟨event, latest⟩

theorem finishedBeforeKept {past : List (Entry Unit)} {entry : Entry Unit} {id : NodeId} (other : entry.event ≠ .opened id)
    (m : NodeId) : FinishedBefore (entry :: past) m id ↔ FinishedBefore past m id :=
  or_iff_right fun here => other here.1

namespace Arena

def isDone (arena : Arena) (id : NodeId) : Bool := (arena.get? id).any Node.done

def Behind (arena : Arena) (past : List (Entry Unit)) (s m : NodeId) : Prop :=
  if arena.isDone s then m = s else FinishedBefore past m s

theorem behindKept {arena changed : Arena} {past later : List (Entry Unit)} {s : NodeId}
    (done : changed.isDone s = arena.isDone s) (same : ∀ m, FinishedBefore later m s ↔ FinishedBefore past m s) (m : NodeId) :
    changed.Behind later s m ↔ arena.Behind past s m := by
  unfold Behind
  rw [done]
  split
  · exact Iff.rfl
  · exact same m

theorem besideKept {arena changed : Arena} {past later : List (Entry Unit)} {before : List NodeId} {q m : NodeId}
    (kept : FinishedBefore later m q ↔ FinishedBefore past m q)
    (behind : ∀ s ∈ before, changed.Behind later s m ↔ arena.Behind past s m) :
    (match before.getLast? with
      | some s => changed.Behind later s m
      | none => FinishedBefore later m q) ↔
    match before.getLast? with
      | some s => arena.Behind past s m
      | none => FinishedBefore past m q := by
  cases last : before.getLast? with
  | none => exact kept
  | some s => exact behind s (List.mem_of_getLast? last)

theorem isDoneSeen (arena : Arena) (id : NodeId) : arena.isDone id = (arena.kin id).any Kinship.done := by
  unfold isDone kin
  cases arena.get? id <;> rfl

end Arena

namespace Builder

theorem orderedApart {source : List Char} {b : Builder} (sound : b.Sound source) (ordered : b.Ordered) :
    b.stack.Nodup ∧ (∀ id ∈ b.stack, id.index < b.arena.size) ∧
    ∀ q node, b.arena.get? q = some node → ∀ c ∈ node.children, c ∉ b.stack ∧ c.index < b.arena.size := by
  have room := sound.room
  have small : b.arena.size < UInt32.size := by omega
  have places := Arena.walkPlaces ordered.walk
  have distinct := (places.nodup_iff).mpr (Arena.idsDistinct b.arena small)
  obtain ⟨roots, _, apart⟩ := List.nodup_append.mp distinct
  have child (q : NodeId) (node : Node) (got : b.arena.get? q = some node) (c : NodeId) (member : c ∈ node.children) :
      c ∈ b.arena.ids.flatMap b.arena.childrenOf := by
    have given : q ∈ b.arena.ids :=
      List.mem_map.mpr ⟨q.index, List.mem_range.mpr (Arena.getInside got), q.ofIndexIndex⟩
    refine List.mem_flatMap.mpr ⟨q, given, ?_⟩
    rw [Arena.childrenOf, got]
    exact member
  refine ⟨List.nodup_reverse.mp roots, ?_, ?_⟩
  · intro id member
    exact Arena.memIds small (places.subset (List.mem_append_left _ (List.mem_reverse.mpr member)))
  · intro q node got c member
    have below := child q node got c member
    refine ⟨fun stacked => ?_, Arena.memIds small (places.subset (List.mem_append_right _ below))⟩
    exact apart c (List.mem_reverse.mpr stacked) c below rfl

structure Successive (past : List (Entry Unit)) (b : Builder) : Prop where
  top : ∀ m, Latest past m ↔ ∃ s, b.stack.head? = some s ∧ b.arena.Behind past s m
  stack : ∀ above id outer, b.stack = above ++ id :: outer →
    ∀ m, FinishedBefore past m id ↔ ∃ s, outer.head? = some s ∧ b.arena.Behind past s m
  children : ∀ q node before id after, b.arena.get? q = some node → node.children = before ++ id :: after →
    ∀ m, FinishedBefore past m id ↔
      match before.getLast? with
      | some s => b.arena.Behind past s m
      | none => FinishedBefore past m q

namespace Successive
variable {source : List Char} {past : List (Entry Unit)} {entry : Entry Unit} {b next : Builder} {id : NodeId}

theorem start (source : List Char) : Successive [] (ofSource source) := by
  refine ⟨?_, ?_, ?_⟩
  · intro m
    constructor
    · rintro ⟨_, impossible⟩
      contradiction
    · rintro ⟨_, impossible, _⟩
      contradiction
  · intro above id outer split
    simp [ofSource] at split
  · intro q node before id after got
    simp [ofSource, Arena.empty, Arena.get?] at got

theorem quiet (successive : b.Successive past) (h : b.Step next none) : next.Successive past := by
  obtain ⟨stack, _, _⟩ := stepQuiet h
  have kin := stepQuietKin h
  have behind (s m : NodeId) : next.arena.Behind past s m ↔ b.arena.Behind past s m :=
    Arena.behindKept (by rw [Arena.isDoneSeen, Arena.isDoneSeen, kin]) (fun _ => Iff.rfl) m
  refine ⟨?_, ?_, ?_⟩
  · intro m
    rw [successive.top, stack]
    exact exists_congr fun s => and_congr_right fun _ => (behind s m).symm
  · intro above id outer split m
    rw [successive.stack above id outer (stack ▸ split)]
    exact exists_congr fun s => and_congr_right fun _ => (behind s m).symm
  · intro q node before id after got children m
    obtain ⟨earlier, found, same⟩ := Arena.kinSeen kin.symm got
    have listed : earlier.children = node.children := congrArg Kinship.children same
    rw [successive.children q earlier before id after found (listed.trans children)]
    exact (Arena.besideKept Iff.rfl fun s _ => behind s m).symm

theorem opened (successive : b.Successive past) (sound : b.Sound source) (ordered : b.Ordered)
    (known : ∀ entry ∈ past, entry.event.id.index < b.arena.size) (h : b.Step next (some (.opened id)))
    (event : entry.event = .opened id) (here : entry.node = next.arena.get? id) : next.Successive (entry :: past) := by
  obtain ⟨node, arena, stack, index, got, fresh, _⟩ := stepOpens sound h
  obtain ⟨_, below, apart⟩ := orderedApart sound ordered
  have kept {other : NodeId} (bound : other.index < b.arena.size) (m : NodeId) :
      FinishedBefore (entry :: past) m other ↔ FinishedBefore past m other := by
    refine finishedBeforeKept ?_ m
    rw [event]
    intro same
    cases same
    omega
  have behind {s : NodeId} (bound : s.index < b.arena.size) (m : NodeId) :
      next.arena.Behind (entry :: past) s m ↔ b.arena.Behind past s m := by
    refine Arena.behindKept ?_ (kept bound) m
    unfold Arena.isDone
    rw [arena, Arena.getPush, if_neg (by omega)]
  have heads {ids : List NodeId} (inside : ∀ s ∈ ids, s.index < b.arena.size) (m : NodeId) :
      (∃ s, ids.head? = some s ∧ next.arena.Behind (entry :: past) s m) ↔
        ∃ s, ids.head? = some s ∧ b.arena.Behind past s m :=
    exists_congr fun s => and_congr_right fun first => behind (inside s (List.mem_of_head? first)) m
  have new (m : NodeId) : FinishedBefore (entry :: past) m id ↔ Latest past m := by
    refine finishedBeforeNew event (fun earlier member again => ?_) m
    have bound := known earlier member
    rw [again] at bound
    simp only [Event.id] at bound
    omega
  have finished : entry.finished? = if node.done then some (id, node) else none := by
    simp [Entry.finished?, event, here.trans got]
  refine ⟨?_, ?_, ?_⟩
  · intro m
    rw [stack, List.head?_cons]
    have self : (∃ s, some id = some s ∧ next.arena.Behind (entry :: past) s m) ↔
        next.arena.Behind (entry :: past) id m := by simp
    have done : next.arena.isDone id = node.done := by rw [Arena.isDone, got, Option.any_some]
    rw [self, Arena.Behind, done]
    split
    · rename_i ended
      rw [if_pos ended] at finished
      exact latestFinished finished m
    · rename_i waiting
      rw [if_neg waiting] at finished
      rw [latestSkipped finished, new]
  · intro above other outer split m
    rw [stack] at split
    cases above with
    | nil =>
      obtain ⟨rfl, rfl⟩ := List.cons.inj split
      rw [new, heads below]
      exact successive.top m
    | cons first above =>
      have tail := (List.cons.inj split).2
      have inside (s : NodeId) (member : s ∈ other :: outer) : s.index < b.arena.size :=
        below s (by rw [tail]; exact List.mem_append_right _ member)
      rw [kept (inside other List.mem_cons_self), heads fun s member => inside s (List.mem_cons_of_mem _ member)]
      exact successive.stack above other outer tail m
  · intro q seen before other after found children m
    rw [arena, Arena.getPush] at found
    split at found
    · cases found
      rw [Node.freshChildren fresh] at children
      simp at children
    · have inside (s : NodeId) (member : s ∈ seen.children) : s.index < b.arena.size := (apart q seen found s member).2
      rw [kept (inside other (by rw [children]; simp)), successive.children q seen before other after found children]
      refine (Arena.besideKept (kept (Arena.getInside found) m) fun s member => ?_).symm
      exact behind (inside s (by rw [children]; exact List.mem_append_left _ member)) m

theorem closed (successive : b.Successive past) (sound : b.Sound source) (ordered : b.Ordered)
    (h : b.Step next (some (.closed id))) (event : entry.event = .closed id) (here : entry.node = next.arena.get? id) :
    next.Successive (entry :: past) := by
  obtain ⟨above, outside, node, stack, nextStack, got, isElement, waiting, arena⟩ := stepCloses h
  obtain ⟨distinct, _, apart⟩ := orderedApart sound ordered
  rw [stack] at distinct
  have kept (m other : NodeId) : FinishedBefore (entry :: past) m other ↔ FinishedBefore past m other :=
    finishedBeforeKept (by rw [event]; exact fun impossible => by cases impossible) m
  have closedNode : next.arena.get? id = some (node.close above.reverse next.scanner.offset) := by
    rw [arena, Arena.getModify, if_pos rfl, got]
    rfl
  have behind {s : NodeId} (differs : s ≠ id) (m : NodeId) :
      next.arena.Behind (entry :: past) s m ↔ b.arena.Behind past s m := by
    refine Arena.behindKept ?_ (fun m => kept m s) m
    unfold Arena.isDone
    rw [arena, Arena.getModifyOther differs]
  have outer {s : NodeId} (member : s ∈ outside) : s ≠ id := by
    rintro rfl
    exact (List.nodup_cons.mp (List.nodup_append.mp distinct).2.1).1 member
  have inner {s : NodeId} (member : s ∈ above) : s ≠ id := by
    rintro rfl
    exact (List.nodup_append.mp distinct).2.2 s member s List.mem_cons_self rfl
  refine ⟨?_, ?_, ?_⟩
  · intro m
    have finished : entry.finished? = some (id, node.close above.reverse next.scanner.offset) := by
      simp [Entry.finished?, event, here.trans closedNode]
    have done : next.arena.isDone id = true := by
      rw [Arena.isDone, closedNode]
      rfl
    rw [latestFinished finished, nextStack, List.head?_cons]
    simp [Arena.Behind, done]
  · intro between other rest split m
    rw [nextStack] at split
    rw [kept, successive.stack (above ++ between) other rest (by rw [stack, split, List.append_assoc])]
    refine exists_congr fun s => and_congr_right fun first => (behind ?_ m).symm
    refine outer ?_
    have member := List.mem_of_head? first
    cases between with
    | nil =>
      rw [(List.cons.inj split).2]
      exact member
    | cons top between =>
      rw [(List.cons.inj split).2]
      exact List.mem_append_right _ (List.mem_cons_of_mem _ member)
  · intro q seen before other after found children m
    rw [kept]
    by_cases same : q = id
    · subst same
      cases closedNode.symm.trans found
      obtain ⟨e, content⟩ | leaf := node.contentCases
      · rw [childrenClose content] at children
        -- what stood below a child on the stack stands before it among the children
        have split : b.stack = after.reverse ++ other :: (before.reverse ++ q :: outside) := by
          have turned := congrArg List.reverse children
          rw [List.reverse_reverse] at turned
          rw [stack, turned]
          simp
        rw [successive.stack _ _ _ split]
        rcases List.eq_nil_or_concat before with rfl | ⟨init, s, rfl⟩
        · have undone : b.arena.isDone q = false := by
            rw [Arena.isDone, got]
            exact waiting
          simp [Arena.Behind, undone, kept]
        · have member : s ∈ above := by
            rw [← List.mem_reverse, children]
            simp
          rw [List.concat_eq_append, List.getLast?_concat, List.reverse_append]
          simp [behind (inner member)]
      · rw [Node.leafIsElement leaf] at isElement
        contradiction
    · rw [arena, Arena.getModifyOther same] at found
      rw [successive.children q seen before other after found children]
      refine (Arena.besideKept (kept m q) fun s member => behind ?_ m).symm
      rintro rfl
      have listed : s ∈ seen.children := by
        rw [children]
        exact List.mem_append_left _ member
      exact (apart q seen found s listed).1 (by rw [stack]; simp)

end Successive
end Builder

theorem Build.successiveRun {options : Options} {source : List Char} {last : Build (Journal Unit)}
    (short : Text.byteLength source < UInt32.size)
    (ran : buildWith options (Journal.receiver none Receiver.silent) (Journal.ofState ()) source = .ok last) :
    last.builder.Successive last.state.latest := by
  refine (runInvariant (I := fun b : Build (Journal Unit) => b.builder.Sound source ∧ b.builder.Ordered ∧
      Reported b.state.latest b.builder ∧ b.builder.Successive b.state.latest) ?_ ?_
    ⟨Builder.soundOfSource short, Builder.orderedOfSource source, Reported.start source,
      Builder.Successive.start source⟩ ran).2.2.2
  · rintro b ⟨sound, ordered, reported, successive⟩
    exact ⟨Builder.soundSkipBlank sound, ⟨ordered.walk, ordered.childless⟩, ⟨reported.known, reported.done⟩,
      ⟨successive.top, successive.stack, successive.children⟩⟩
  · rintro b next ⟨sound, ordered, reported, successive⟩ turned
    rcases turnOk turned with ⟨stepped, same⟩ | ⟨event, builder, arena, stepped, told, same⟩
    · rw [same]
      have step := Builder.stepCases stepped
      exact ⟨Builder.soundStep sound step, Builder.orderedStep sound ordered step, reported.quiet step,
        successive.quiet step⟩
    · have entry : b.state.record event () builder.arena none = next.state := congrArg Prod.fst (Except.ok.inj told)
      have unchanged : builder.arena = arena := congrArg Prod.snd (Except.ok.inj told)
      have step := Builder.stepCases stepped
      rw [same, ← entry, ← unchanged]
      refine ⟨Builder.soundStep sound step, Builder.orderedStep sound ordered step, ?_⟩
      cases event with
      | opened id => exact ⟨reported.opened step rfl rfl, successive.opened sound ordered reported.known step rfl rfl⟩
      | closed id => exact ⟨reported.closed step rfl, successive.closed sound ordered step rfl rfl⟩

/-- Which node was finished last as another was opened, told from the tree. -/
structure Ast.Successive (ast : Ast) (past : List (Entry Unit)) : Prop where
  top : ∀ m, ¬ FinishedBefore past m ast.root
  first : ∀ q outer id rest, ast.arena.get? q = some outer → outer.children = id :: rest →
    ∀ m, FinishedBefore past m id ↔ FinishedBefore past m q
  beside : ∀ q outer before s id after node, ast.arena.get? q = some outer →
    outer.children = before ++ s :: id :: after → ast.arena.get? s = some node →
    ∀ m, FinishedBefore past m id ↔ if node.done then m = s else FinishedBefore past m s

theorem parsedSuccessive {options : Options} {template : String} {ast : Ast} (short : template.utf8ByteSize < UInt32.size)
    (accepted : parseWith options template = .ok ast) : ast.Successive (notices options template) := by
  rw [← Text.byteLengthToList] at short
  obtain ⟨forest, analysed, roots, arena⟩ := parsedForest accepted
  obtain ⟨other, ranOther, rfl⟩ := forestOfOk analysed
  obtain ⟨last, ran, alike⟩ := Build.watchedBeside (Journal.ofState ()) Journal.watches ranOther
  have successive := Build.successiveRun short ran
  have latest : last.state.latest = notices options template := by
    unfold notices
    rw [ran]
  have stack : last.builder.stack = [ast.root] := alike.stack.trans (Builder.stackOfRoots roots)
  rw [latest] at successive
  have same : last.builder.arena.Alike ast.arena := arena ▸ alike.arena
  refine ⟨?_, ?_, ?_⟩
  · intro m before
    obtain ⟨_, impossible, _⟩ := (successive.stack [] ast.root [] stack m).mp before
    contradiction
  · intro q outer id rest got children m
    obtain ⟨seen, found, outline⟩ := Arena.alikeSeen same got
    exact successive.children q seen [] id rest found ((Node.outlineChildren outline).trans children) m
  · intro q outer before s id after node got children there m
    obtain ⟨seen, found, outline⟩ := Arena.alikeSeen same got
    obtain ⟨beside, foundBeside, outlineBeside⟩ := Arena.alikeSeen same there
    have listed : seen.children = (before ++ [s]) ++ id :: after := by
      rw [Node.outlineChildren outline, children]
      simp
    have done : last.builder.arena.isDone s = node.done := by
      rw [Arena.isDone, foundBeside, Option.any_some, (Node.outlineCases outlineBeside).1]
    rw [successive.children q seen (before ++ [s]) id after found listed, List.getLast?_concat, ← done]
    exact Iff.rfl

/-
In an accepted template, as an element that goes on with a conditional chain was opened, an element with
a condition had been finished last. That is the node beside it, if it is done. Behind a node left open it
is the one from before that, and for a first child the one from before the element around it.
-/
theorem chainFollowsCondition {options : Options} {template : String} {ast : Ast}
    (accepted : parseWith options template = .ok ast) :
    (∀ id f, ast.arena.element? id = some f → f.Continues →
      ∃ m g, FinishedBefore (notices options template) m id ∧ ast.arena.element? m = some g ∧ g.hasCondition = true) ∧
    (template.utf8ByteSize < UInt32.size →
      ast.Successive (notices options template) ∧
      ∀ id f q outer before s after node, ast.arena.element? id = some f → f.Continues →
        ast.arena.get? q = some outer → outer.children = before ++ s :: id :: after →
        ast.arena.get? s = some node → node.done = true → node.hasCondition = true) := by
  have preceded : ∀ id f, ast.arena.element? id = some f → f.Continues →
      ∃ m g, FinishedBefore (notices options template) m id ∧ ast.arena.element? m = some g ∧
        g.hasCondition = true := by
    obtain ⟨forest, analysed, _, arena⟩ := parsedForest accepted
    obtain ⟨other, ranOther, rfl⟩ := forestOfOk analysed
    obtain ⟨last, ran, _⟩ := Build.watchedBeside (Journal.ofState ()) Journal.watches ranOther
    have latest : notices options template = last.state.latest := by
      unfold notices
      rw [ran]
    have condition := (Build.precedesRun ran ranOther).preceded.condition
    rw [show other.builder.arena = ast.arena from arena] at condition
    rw [latest]
    exact condition
  refine ⟨preceded, fun short => ?_⟩
  have successive := parsedSuccessive short accepted
  refine ⟨successive, ?_⟩
  intro id f q outer before s after node found continues got children there done
  obtain ⟨m, g, finished, element, condition⟩ := preceded id f found continues
  have beside := (successive.beside q outer before s id after node got children there m).mp finished
  rw [if_pos done] at beside
  subst beside
  rw [Arena.element?, there, Option.bind_some] at element
  rw [Node.hasCondition, element]
  exact condition

def nestedElse : String := "<div><a v-if=\"x\"></a><b><c v-else></c></b></div>"

theorem chainAcrossLevels :
    nestedElse.utf8ByteSize < UInt32.size ∧
    ∃ ast, parseWith Options.standard nestedElse = .ok ast ∧
      ∃ m g, FinishedBefore (notices Options.standard nestedElse) m ⟨3⟩ ∧
        FinishedBefore (notices Options.standard nestedElse) m ⟨2⟩ ∧
        ast.arena.element? m = some g ∧ g.hasCondition = true := by
  have short : nestedElse.utf8ByteSize < UInt32.size := by decide
  have shape : (parseWith Options.standard nestedElse).map (fun ast =>
      ((ast.arena.element? ⟨3⟩).map Element.isElse, (ast.arena.get? ⟨2⟩).map Node.children)) =
        .ok (some true, some [⟨3⟩]) := by decide +kernel
  cases parsed : parseWith Options.standard nestedElse with
  | error cause =>
    rw [parsed] at shape
    contradiction
  | ok ast =>
    rw [parsed] at shape
    obtain ⟨continues, listed⟩ := Prod.mk.inj (Except.ok.inj shape)
    obtain ⟨f, found, isElse⟩ := Option.map_eq_some_iff.mp continues
    obtain ⟨outer, got, children⟩ := Option.map_eq_some_iff.mp listed
    obtain ⟨preceded, told⟩ := chainFollowsCondition parsed
    obtain ⟨m, g, finished, element, condition⟩ := preceded ⟨3⟩ f found (Or.inl isElse)
    have around := ((told short).1.first ⟨2⟩ outer ⟨3⟩ [] got children m).mp finished
    exact ⟨short, ast, rfl, m, g, finished, around, element, condition⟩

/- Each element that goes on with a conditional chain has an element with a condition right before it. -/
def Ast.ChainsOfSiblings (ast : Ast) : Prop :=
  ∀ id f q outer, ast.arena.element? id = some f → f.Continues → ast.arena.get? q = some outer → id ∈ outer.children →
    ∃ before s after g, outer.children = before ++ s :: id :: after ∧ ast.arena.element? s = some g ∧
      g.hasCondition = true

/- The first child of an element may go on with a chain. -/
theorem chainsNotOfSiblings :
    ∃ ast, parse nestedElse = .ok ast ∧ ¬ ast.ChainsOfSiblings := by
  have shape : (parse nestedElse).map (fun ast =>
      ((ast.arena.element? ⟨3⟩).map Element.isElse, (ast.arena.get? ⟨2⟩).map Node.children)) =
        .ok (some true, some [⟨3⟩]) := by decide +kernel
  cases parsed : parse nestedElse with
  | error cause =>
    rw [parsed] at shape
    contradiction
  | ok ast =>
    rw [parsed] at shape
    obtain ⟨continues, listed⟩ := Prod.mk.inj (Except.ok.inj shape)
    obtain ⟨f, found, isElse⟩ := Option.map_eq_some_iff.mp continues
    obtain ⟨outer, got, children⟩ := Option.map_eq_some_iff.mp listed
    refine ⟨ast, rfl, fun all => ?_⟩
    obtain ⟨before, s, after, _, split, _⟩ := all ⟨3⟩ f ⟨2⟩ outer found (Or.inl isElse) got (by rw [children]; simp)
    -- an only child has none before it
    have length := congrArg List.length (children.symm.trans split)
    simp only [List.length_cons, List.length_nil, List.length_append] at length
    omega

end Templating
