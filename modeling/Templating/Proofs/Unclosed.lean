import Templating.Proofs.Lineage

/-!
Elements without an end of their own. A node is on the stack until an end tag takes it as a child of
the element that it closes, whether the node is done by then or not, and no later end tag reaches it
there. So an element that a template leaves open is a child of a closed one, or is left on the stack,
and then an accepted template has no other node. Nothing here asks how long a template is: ids may
have come round again.
-/
namespace Templating

namespace Builder

theorem stepOpensNext {b next : Builder} {id : NodeId} (h : b.Step next (some (.opened id))) :
    ∃ node, next.arena = b.arena.push node ∧ next.stack = id :: b.stack ∧ id = b.arena.nextId ∧ node.Fresh := by
  generalize told : some (Event.opened id) = event at h
  cases h with
  | opened moved fresh span =>
    cases told
    exact ⟨_, rfl, rfl, rfl, fresh⟩
  | passed => cases told
  | closed => cases told
  | text => cases told

/-- Every node is on the stack or among the children of another; one that is not done has no children;
and as long as any node is done, one on the stack is. -/
structure Housed (b : Builder) : Prop where
  leaf : ∀ id node, b.arena.get? id = some node → node.isElement = false → node.done = true
  childless : ∀ id node, b.arena.get? id = some node → node.done = false → node.children = []
  place : ∀ id : NodeId, id.index < b.arena.size →
    id ∈ b.stack ∨ ∃ outer node, b.arena.get? outer = some node ∧ id ∈ node.children
  shown : ∀ id node, b.arena.get? id = some node → node.done = true →
    ∃ top ∈ b.stack, ∃ seen, b.arena.get? top = some seen ∧ seen.done = true

theorem housedOfSource (source : List Char) : (ofSource source).Housed := by
  have nowhere {id : NodeId} {node : Node} (got : (ofSource source).arena.get? id = some node) : False := by
    simp [ofSource, Arena.empty, Arena.get?] at got
  refine ⟨?_, ?_, ?_, ?_⟩
  · exact fun id node got => (nowhere got).elim
  · exact fun id node got => (nowhere got).elim
  · exact fun id inside => absurd inside (Nat.not_lt_zero _)
  · exact fun id node got => (nowhere got).elim

theorem housedKept {b next : Builder} (housed : b.Housed) (stack : next.stack = b.stack)
    (size : next.arena.size = b.arena.size) (kin : next.arena.kin = b.arena.kin) : next.Housed := by
  refine ⟨?_, ?_, ?_, ?_⟩
  · intro id node got leaf
    obtain ⟨earlier, found, same⟩ := Arena.kinSeen kin.symm got
    have isElement : earlier.isElement = node.isElement := congrArg Kinship.isElement same
    have done : earlier.done = node.done := congrArg Kinship.done same
    rw [← done]
    exact housed.leaf id earlier found (isElement.trans leaf)
  · intro id node got waiting
    obtain ⟨earlier, found, same⟩ := Arena.kinSeen kin.symm got
    have done : earlier.done = node.done := congrArg Kinship.done same
    have children : earlier.children = node.children := congrArg Kinship.children same
    rw [← children]
    exact housed.childless id earlier found (done.trans waiting)
  · intro id inside
    rw [size] at inside
    rw [stack]
    rcases housed.place id inside with stacked | ⟨outer, node, got, member⟩
    · exact Or.inl stacked
    · obtain ⟨later, found, same⟩ := Arena.kinSeen kin got
      have children : later.children = node.children := congrArg Kinship.children same
      exact Or.inr ⟨outer, later, found, children ▸ member⟩
  · intro id node got done
    obtain ⟨earlier, found, same⟩ := Arena.kinSeen kin.symm got
    have before : earlier.done = node.done := congrArg Kinship.done same
    obtain ⟨top, stacked, seen, there, finished⟩ := housed.shown id earlier found (before.trans done)
    obtain ⟨later, kept, view⟩ := Arena.kinSeen kin there
    have after : later.done = seen.done := congrArg Kinship.done view
    rw [stack]
    exact ⟨top, stacked, later, kept, after.trans finished⟩

theorem housedOpen {b next : Builder} {id : NodeId} (housed : b.Housed) (h : b.Step next (some (.opened id))) :
    next.Housed := by
  obtain ⟨node, arena, stack, rfl, fresh⟩ := stepOpensNext h
  refine ⟨?_, ?_, ?_, ?_⟩
  · intro id seen got leaf
    rw [arena] at got
    rcases Arena.getPushCases got with ⟨_, _, rfl⟩ | old
    · exact fresh.leaf leaf
    · exact housed.leaf id seen old leaf
  · intro id seen got waiting
    rw [arena] at got
    rcases Arena.getPushCases got with ⟨_, _, rfl⟩ | old
    · exact Node.freshChildren fresh
    · exact housed.childless id seen old waiting
  · intro id inside
    rw [arena, Arena.sizePush] at inside
    rw [arena, stack]
    by_cases new : id.index = b.arena.size
    · exact Or.inl (List.mem_cons.mpr (Or.inl (Arena.nextIdOf new)))
    · rcases housed.place id (by omega) with stacked | ⟨outer, seen, got, member⟩
      · exact Or.inl (List.mem_cons_of_mem _ stacked)
      · exact Or.inr ⟨outer, seen, Arena.getPushKept got node, member⟩
  · intro id seen got done
    rw [arena] at got ⊢
    rw [stack]
    rcases Arena.getPushCases got with ⟨_, rfl, _⟩ | old
    · exact ⟨_, List.mem_cons_self, seen, got, done⟩
    · obtain ⟨top, stacked, there, found, finished⟩ := housed.shown id seen old done
      exact ⟨top, List.mem_cons_of_mem _ stacked, there, Arena.getPushKept found node, finished⟩

theorem housedClose {b next : Builder} {id : NodeId} (housed : b.Housed) (h : b.Step next (some (.closed id))) :
    next.Housed := by
  obtain ⟨above, outside, node, stack, nextStack, got, isElement, waiting, arena⟩ := stepCloses h
  have here : next.arena.get? id = some (node.close above.reverse next.scanner.offset) := by
    rw [arena, Arena.getModify, if_pos rfl, got]
    rfl
  have others {other : NodeId} (differs : other ≠ id) : next.arena.get? other = b.arena.get? other := by
    rw [arena, Arena.getModifyOther differs]
  refine ⟨?_, ?_, ?_, ?_⟩
  · intro other seen found leaf
    by_cases same : other = id
    · subst same
      cases here.symm.trans found
      rfl
    · exact housed.leaf other seen ((others same).symm.trans found) leaf
  · intro other seen found open_
    by_cases same : other = id
    · subst same
      cases here.symm.trans found
      contradiction
    · exact housed.childless other seen ((others same).symm.trans found) open_
  · intro other bound
    rw [arena, Arena.sizeModify] at bound
    rw [nextStack]
    rcases housed.place other bound with stacked | ⟨outer, seen, found, member⟩
    · rw [stack] at stacked
      rcases List.mem_append.mp stacked with taken | left
      · obtain ⟨e, content⟩ | leaf := node.contentCases
        · refine Or.inr ⟨id, _, here, ?_⟩
          rw [childrenClose content]
          exact List.mem_reverse.mpr taken
        · rw [Node.leafIsElement leaf] at isElement
          contradiction
      · exact Or.inl left
    · -- the element closed had no children to lose
      have differs : outer ≠ id := by
        rintro rfl
        cases got.symm.trans found
        rw [housed.childless outer node got waiting] at member
        contradiction
      exact Or.inr ⟨outer, seen, (others differs).trans found, member⟩
  · intro other seen found done
    rw [nextStack]
    exact ⟨id, List.mem_cons_self, _, here, rfl⟩

theorem housedStep {b next : Builder} {event : Option Event} (housed : b.Housed) (h : b.Step next event) :
    next.Housed := by
  match event with
  | none =>
    obtain ⟨stack, size, _⟩ := stepQuiet h
    exact housedKept housed stack size (stepQuietKin h)
  | some (.opened id) => exact housedOpen housed h
  | some (.closed id) => exact housedClose housed h

theorem housedAlone {b : Builder} (housed : b.Housed) {root : NodeId} {node : Node} (stack : b.stack = [root])
    (got : b.arena.get? root = some node) (waiting : node.done = false) : b.arena.size = 1 := by
  have onlyRoot (id : NodeId) (inside : id.index < b.arena.size) : id = root := by
    rcases housed.place id inside with stacked | ⟨outer, seen, found, member⟩
    · rw [stack] at stacked
      exact List.mem_singleton.mp stacked
    · cases done : seen.done with
      | false =>
        rw [housed.childless outer seen found done] at member
        contradiction
      | true =>
        obtain ⟨top, stacked, other, there, finished⟩ := housed.shown outer seen found done
        rw [stack] at stacked
        cases List.mem_singleton.mp stacked
        cases got.symm.trans there
        rw [waiting] at finished
        contradiction
  have some := Arena.getInside got
  by_cases one : b.arena.size = 1
  · exact one
  · have first := onlyRoot (NodeId.ofIndex 0) (by rw [NodeId.indexOfIndex (by decide)]; omega)
    have second := onlyRoot (NodeId.ofIndex 1) (by rw [NodeId.indexOfIndex (by decide)]; omega)
    exact absurd (first.trans second.symm) (by decide)

theorem housedUnfinished {b : Builder} (housed : b.Housed) {root id : NodeId} {node : Node} (stack : b.stack = [root])
    (got : b.arena.get? id = some node) (waiting : node.done = false) :
    node.isElement = true ∧ node.children = [] ∧
      ((∃ outer closed, b.arena.get? outer = some closed ∧ closed.done = true ∧ id ∈ closed.children) ∨
        id = root ∧ b.arena.size = 1) := by
  refine ⟨?_, housed.childless id node got waiting, ?_⟩
  · cases leaf : node.isElement with
    | true => rfl
    | false =>
      rw [housed.leaf id node got leaf] at waiting
      contradiction
  · rcases housed.place id (Arena.getInside got) with stacked | ⟨outer, closed, there, member⟩
    · rw [stack] at stacked
      cases List.mem_singleton.mp stacked
      exact Or.inr ⟨rfl, housedAlone housed stack got waiting⟩
    · refine Or.inl ⟨outer, closed, there, ?_, member⟩
      -- an element that is not done has no children
      cases finished : closed.done with
      | true => rfl
      | false =>
        rw [housed.childless outer closed there finished] at member
        contradiction

end Builder

def Entry.Finishes (entry : Entry Unit) (id : NodeId) : Prop :=
  entry.event = .closed id ∨ entry.event = .opened id ∧ ∃ seen, entry.node = some seen ∧ seen.done = true

theorem finishesId {entry : Entry Unit} {id : NodeId} (h : entry.Finishes id) : entry.event.id = id := by
  rcases h with event | ⟨event, _⟩ <;> rw [event] <;> rfl

structure Reported (past : List (Entry Unit)) (b : Builder) : Prop where
  known : ∀ entry ∈ past, entry.event.id.index < b.arena.size
  done : ∀ id node, b.arena.get? id = some node → (node.done = true ↔ ∃ entry ∈ past, entry.Finishes id)

namespace Reported

theorem start (source : List Char) : Reported [] (Builder.ofSource source) := by
  refine ⟨by simp, ?_⟩
  intro id node got
  simp [Builder.ofSource, Arena.empty, Arena.get?] at got

theorem quiet {past : List (Entry Unit)} {b next : Builder} (reported : Reported past b) (h : b.Step next none) :
    Reported past next := by
  obtain ⟨_, size, _⟩ := Builder.stepQuiet h
  refine ⟨by rw [size]; exact reported.known, ?_⟩
  intro id node got
  obtain ⟨earlier, found, same⟩ := Arena.kinSeen (Builder.stepQuietKin h).symm got
  have done : earlier.done = node.done := congrArg Kinship.done same
  rw [← done]
  exact reported.done id earlier found

theorem opened {past : List (Entry Unit)} {b next : Builder} {id : NodeId} {entry : Entry Unit}
    (reported : Reported past b) (h : b.Step next (some (.opened id))) (event : entry.event = .opened id)
    (here : entry.node = next.arena.get? id) : Reported (entry :: past) next := by
  obtain ⟨node, arena, _, rfl, fresh⟩ := Builder.stepOpensNext h
  have finishes (id : NodeId) (seen : Node) (got : next.arena.get? id = some seen) (now : entry.Finishes id) :
      seen.done = true := by
    rcases now with closed | ⟨again, other, same, done⟩
    · rw [event] at closed
      contradiction
    · cases event.symm.trans again
      cases (here.trans got).symm.trans same
      exact done
  refine ⟨?_, ?_⟩
  · intro other member
    rw [arena, Arena.sizePush]
    rcases List.mem_cons.mp member with rfl | earlier
    · have bound : b.arena.nextId.index ≤ b.arena.size := Nat.mod_le _ _
      rw [event]
      exact Nat.lt_succ_of_le bound
    · exact Nat.lt_succ_of_lt (reported.known other earlier)
  · intro id seen got
    have now := finishes id seen got
    rw [arena] at got
    rcases Arena.getPushCases got with ⟨new, rfl, rfl⟩ | old
    · constructor
      · intro done
        rw [← arena] at got
        exact ⟨entry, List.mem_cons_self, Or.inr ⟨event, seen, here.trans got, done⟩⟩
      · rintro ⟨other, member, finished⟩
        rcases List.mem_cons.mp member with rfl | earlier
        · exact now finished
        · have bound := reported.known other earlier
          rw [finishesId finished] at bound
          omega
    · constructor
      · intro done
        obtain ⟨other, earlier, finished⟩ := (reported.done id seen old).mp done
        exact ⟨other, List.mem_cons_of_mem _ earlier, finished⟩
      · rintro ⟨other, member, finished⟩
        rcases List.mem_cons.mp member with rfl | earlier
        · exact now finished
        · exact (reported.done id seen old).mpr ⟨other, earlier, finished⟩

theorem closed {past : List (Entry Unit)} {b next : Builder} {id : NodeId} {entry : Entry Unit}
    (reported : Reported past b) (h : b.Step next (some (.closed id))) (event : entry.event = .closed id) :
    Reported (entry :: past) next := by
  obtain ⟨above, _, node, _, _, got, _, _, arena⟩ := Builder.stepCloses h
  refine ⟨?_, ?_⟩
  · intro other member
    rw [arena, Arena.sizeModify]
    rcases List.mem_cons.mp member with rfl | earlier
    · rw [event]
      exact Arena.getInside got
    · exact reported.known other earlier
  · intro other seen found
    by_cases same : other = id
    · subst same
      rw [arena, Arena.getModify, if_pos rfl, got] at found
      cases found
      exact ⟨fun _ => ⟨entry, List.mem_cons_self, Or.inl event⟩, fun _ => rfl⟩
    · rw [arena, Arena.getModifyOther same] at found
      rw [reported.done other seen found]
      constructor
      · rintro ⟨earlier, member, finished⟩
        exact ⟨earlier, List.mem_cons_of_mem _ member, finished⟩
      · rintro ⟨earlier, member, finished⟩
        rcases List.mem_cons.mp member with rfl | before
        · have named := finishesId finished
          rw [event] at named
          exact absurd named.symm same
        · exact ⟨earlier, before, finished⟩

end Reported

namespace Build

theorem reportedRun {options : Options} {source : List Char} {last : Build (Journal Unit)}
    (ran : buildWith options (Journal.receiver none Receiver.silent) (Journal.ofState ()) source = .ok last) :
    last.builder.Housed ∧ Reported last.state.latest last.builder := by
  refine runInvariant (I := fun b : Build (Journal Unit) => b.builder.Housed ∧ Reported b.state.latest b.builder)
    ?_ ?_ ⟨Builder.housedOfSource source, Reported.start source⟩ ran
  · intro b kept
    exact ⟨Builder.housedKept kept.1 rfl rfl rfl, ⟨kept.2.known, kept.2.done⟩⟩
  · intro b next kept turned
    obtain ⟨housed, reported⟩ := kept
    rcases turnOk turned with ⟨stepped, same⟩ | ⟨event, builder, arena, stepped, told, same⟩
    · rw [same]
      have step := Builder.stepCases stepped
      exact ⟨Builder.housedStep housed step, reported.quiet step⟩
    · have entry : b.state.record event () builder.arena none = next.state := congrArg Prod.fst (Except.ok.inj told)
      have unchanged : builder.arena = arena := congrArg Prod.snd (Except.ok.inj told)
      have step := Builder.stepCases stepped
      rw [same, ← entry, ← unchanged]
      refine ⟨Builder.housedStep housed step, ?_⟩
      cases event with
      | opened id => exact reported.opened step rfl rfl
      | closed id => exact reported.closed step rfl

end Build

theorem analysedReported {options : Options} {template : String} {forest : Forest}
    (analysed : analyse options template = .ok forest) :
    ∃ b : Builder, b.Housed ∧ Reported (notices options template) b ∧ b.roots = forest.roots ∧
      b.arena.Alike forest.arena := by
  obtain ⟨other, ran, rfl⟩ := forestOfOk analysed
  obtain ⟨last, beside, alike⟩ := Build.watchedBeside (Journal.ofState ()) Journal.watches ran
  obtain ⟨housed, reported⟩ := Build.reportedRun beside
  have latest : notices options template = last.state.latest := by
    unfold notices
    rw [beside]
  exact ⟨last.builder, housed, latest ▸ reported, congrArg List.reverse alike.stack, alike.arena⟩

/-
In an accepted template a node is done if a notice finishes it. One that is not is an element without
children, and a child of a node that is done, unless it is the only node there is. A template that
leaves an element open at its top level, beside another node, is refused for the number of its roots.
-/
theorem unclosedIsSwallowed (options : Options) (template : String) :
    (∀ ast, parseWith options template = .ok ast → ∀ id node, ast.arena.get? id = some node →
      (node.done = true ↔ ∃ entry ∈ notices options template, entry.Finishes id) ∧
      (node.done = false → node.isElement = true ∧ node.children = [] ∧
        ((∃ outer closed, ast.arena.get? outer = some closed ∧ closed.done = true ∧ id ∈ closed.children) ∨
          id = ast.root ∧ ast.arena.size = 1))) ∧
    ∀ forest, analyse options template = .ok forest → ∀ id ∈ forest.roots, ∀ node, forest.arena.get? id = some node →
      node.done = false → forest.arena.size ≠ 1 →
        2 ≤ forest.roots.length ∧ parseWith options template = .error (.rootNodeCount forest.roots.length) := by
  refine ⟨?_, ?_⟩
  · intro ast accepted id node got
    obtain ⟨forest, analysed, roots, arena⟩ := parsedForest accepted
    obtain ⟨b, housed, reported, sameRoots, alike⟩ := analysedReported analysed
    rw [arena] at alike
    obtain ⟨seen, found, same⟩ := Arena.alikeSeen alike got
    have done := (Node.outlineCases same).1
    refine ⟨by rw [← done]; exact reported.done id seen found, ?_⟩
    intro waiting
    rw [← done] at waiting
    obtain ⟨isElement, children, place⟩ :=
      Builder.housedUnfinished housed (Builder.stackOfRoots (sameRoots.trans roots)) found waiting
    refine ⟨(Node.outlineIsElement same).symm.trans isElement, (Node.outlineChildren same).symm.trans children, ?_⟩
    rcases place with ⟨outer, parent, there, finished, member⟩ | ⟨root, alone⟩
    · obtain ⟨closed, kept, view⟩ := Arena.alikeSeen (Arena.alikeSymm alike) there
      refine Or.inl ⟨outer, closed, kept, ?_, ?_⟩
      · rw [(Node.outlineCases view).1, finished]
      · rw [Node.outlineChildren view]
        exact member
    · exact Or.inr ⟨root, (Arena.alikeSize alike).symm.trans alone⟩
  · intro forest analysed id root node got waiting several
    obtain ⟨b, housed, _, sameRoots, alike⟩ := analysedReported analysed
    obtain ⟨seen, found, same⟩ := Arena.alikeSeen alike got
    rw [← (Node.outlineCases same).1] at waiting
    have many : forest.roots.length ≠ 1 := by
      intro single
      obtain ⟨only, roots⟩ := List.length_eq_one_iff.mp single
      rw [roots] at root
      cases List.mem_singleton.mp root
      have stack := Builder.stackOfRoots (sameRoots.trans roots)
      exact several ((Arena.alikeSize alike).symm.trans (Builder.housedAlone housed stack found waiting))
    have positive := List.length_pos_of_mem root
    rcases parseAnalysed analysed with ⟨only, roots, _⟩ | ⟨_, refused⟩
    · rw [roots] at many
      exact absurd rfl many
    · exact ⟨by omega, refused⟩

def openItem : String := "<ul><li>one<li>two</li></ul>"

def openList : String := "<ul title=\"></ul>\"><br>"

theorem swallowedItem :
    (∃ ast item, parse openItem = .ok ast ∧ ast.arena.get? ⟨1⟩ = some item ∧
      item.done = false ∧ ∃ list closed, ast.arena.get? list = some closed ∧ closed.done = true ∧ ⟨1⟩ ∈ closed.children) ∧
    ∃ count, 2 ≤ count ∧ parse openList = .error (.rootNodeCount count) := by
  obtain ⟨accepted, _⟩ := unclosedIsSwallowed Options.standard openItem
  obtain ⟨_, refused⟩ := unclosedIsSwallowed Options.standard openList
  constructor
  · have shape : (parse openItem).map (fun ast =>
        ((ast.arena.get? ⟨1⟩).map Node.done, ast.arena.size)) = .ok (some false, 3) := by decide +kernel
    cases parsed : parse openItem with
    | error cause =>
      rw [parsed] at shape
      contradiction
    | ok ast =>
      rw [parsed] at shape
      obtain ⟨seen, size⟩ := Prod.mk.inj (Except.ok.inj shape)
      obtain ⟨item, got, waiting⟩ := Option.map_eq_some_iff.mp seen
      refine ⟨ast, item, rfl, got, waiting, ?_⟩
      rcases ((accepted ast parsed ⟨1⟩ item got).2 waiting).2.2 with swallowed | ⟨_, alone⟩
      · exact swallowed
      · rw [alone] at size
        contradiction
  · have shape : (analyse Options.standard openList).map (fun forest =>
        (forest.roots, forest.arena.size, (forest.arena.get? ⟨0⟩).map Node.done)) =
          .ok ([⟨0⟩, ⟨1⟩], 2, some false) := by decide +kernel
    cases analysed : analyse Options.standard openList with
    | error cause =>
      rw [analysed] at shape
      contradiction
    | ok forest =>
      rw [analysed] at shape
      obtain ⟨roots, rest⟩ := Prod.mk.inj (Except.ok.inj shape)
      obtain ⟨size, seen⟩ := Prod.mk.inj rest
      obtain ⟨list, got, waiting⟩ := Option.map_eq_some_iff.mp seen
      exact ⟨_, refused forest analysed ⟨0⟩ (by simp [roots]) list got waiting (by omega)⟩

/- Not every node of an accepted template is done. -/
theorem notEveryNodeIsDone :
    ∃ ast, parse openItem = .ok ast ∧
      ¬ ∀ id node, ast.arena.get? id = some node → node.done = true := by
  have shape : (parse openItem).map (fun ast => (ast.arena.get? ⟨1⟩).map Node.done) =
      .ok (some false) := by decide +kernel
  cases parsed : parse openItem with
  | error cause =>
    rw [parsed] at shape
    contradiction
  | ok ast =>
    rw [parsed] at shape
    obtain ⟨item, got, waiting⟩ := Option.map_eq_some_iff.mp (Except.ok.inj shape)
    refine ⟨ast, rfl, fun all => ?_⟩
    rw [all _ item got] at waiting
    contradiction

end Templating
