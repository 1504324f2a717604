import Templating.Proofs.Kinship
import Templating.Proofs.Marking
import Templating.Proofs.Sharing
import Templating.Proofs.Voices

/-!
Whose text is whose. Where every node of a template is done, the text of an element is told from the markup: it is
what is spoken in the stretches that come to the element, and no other element has a share in these.
-/
namespace Templating
open Markup

namespace Builder
variable {source covered : List Char} {b next : Builder} {id : NodeId} {event : Option Event} {earlier node : Node}
  {e : Element} {above outer : List NodeId}

theorem lostStep (sound : b.Sound source) (lost : b.Lost) (step : b.Step next event) : next.Lost := by
  obtain ⟨id, node, got, waiting, off⟩ := lost
  cases event with
  | none =>
    obtain ⟨stack, _, _⟩ := stepQuiet step
    obtain ⟨twin, there, same⟩ := Arena.kinSeen (stepQuietKin step) got
    have done : twin.done = node.done := congrArg Kinship.done same
    exact ⟨id, twin, there, done.trans waiting, stack ▸ off⟩
  | some event =>
    cases event with
    | opened new =>
      obtain ⟨_, arena, stack, index, _⟩ := stepOpens sound step
      refine ⟨id, node, by rw [arena]; exact Arena.getPushKept got _, waiting, fun member => ?_⟩
      rw [stack] at member
      rcases List.mem_cons.mp member with rfl | before
      · have bound := Arena.getInside got
        omega
      · exact off before
    | closed other =>
      obtain ⟨above, outer, _, stack, left, _, _, _, arena⟩ := stepCloses step
      have differs : id ≠ other := by
        rintro rfl
        exact off (by rw [stack]; simp)
      refine ⟨id, node, by rw [arena, Arena.getModifyOther differs, got], waiting, fun member => ?_⟩
      rw [left] at member
      exact off (by rw [stack]; exact List.mem_append_right above member)

theorem lostAlike (alike : b.Alike next) (lost : b.Lost) : next.Lost := by
  obtain ⟨id, node, got, waiting, off⟩ := lost
  obtain ⟨twin, there, same⟩ := Arena.alikeSeen (Arena.alikeSymm alike.arena) got
  exact ⟨id, twin, there, (Node.outlineCases same).1.trans waiting, alike.stack ▸ off⟩

theorem lostAbove (closes : b.Closes next id earlier node e above outer covered) (distinct : b.stack.Nodup)
    {other : NodeId} (member : other ∈ above) (opened : b.isOpenElement other = true) : next.Lost := by
  have differs : other ≠ id := by
    rintro rfl
    exact (closes.apart distinct).1 member
  rw [closes.stack] at distinct
  have further := (List.nodup_append.mp distinct).2.2 other member
  obtain ⟨seen, got, _, waiting⟩ := openGet opened
  refine ⟨other, seen, (closes.others other differs).trans got, waiting, fun again => ?_⟩
  rw [closes.left] at again
  exact further other again rfl

end Builder

structure Account {σ : Type} (source : List Char) (entries : List (Entry σ)) (b : Builder)
    (past : List (Option NodeId × Mark)) : Prop where
  marked : Marked source entries b.arena (past.map Prod.snd)
  behind : ∀ mark ∈ past.map Prod.snd, mark.stop ≤ b.scanner.offset
  edge : Edge source (reach 0 (past.map Prod.snd)) b.scanner
  shares : Shares past b
  voices : Voices source past b b.scanner.offset

namespace Account
variable {σ : Type} {source covered run : List Char} {entries : List (Entry σ)} {entry : Entry σ} {b next : Builder}
  {past : List (Option NodeId × Mark)} {id owner : NodeId} {earlier node : Node} {token : Token} {e : Element}
  {above outer : List NodeId}

theorem start (source : List Char) : Account source ([] : List (Entry σ)) (Builder.ofSource source) [] :=
  ⟨Marked.start source, fun mark none => by contradiction, Edge.ofSource source, Shares.start source, Voices.start source⟩

theorem skip (account : Account source entries b past) : Account source entries b.skipBlank past := by
  have reaches := b.scanner.reachesSkipBlank
  have longer := account.edge.chars reaches
  have voices := account.voices.extended (Stretch.runExtended (List.all_eq_true.mp List.all_takeWhile) longer)
  refine ⟨account.marked, fun mark member => ?_, account.edge.skip, account.shares.kept rfl rfl fun id => rfl, ?_⟩
  · have bound := account.behind mark member
    have offset := reaches.offset
    show mark.stop ≤ b.scanner.skipBlank.offset
    omega
  · exact voices.kept rfl fun id node e got content => ⟨node, e, got, content, rfl⟩

theorem alike (account : Account source entries b past) (alike : b.Alike next) : Account source entries next past := by
  have sites := Arena.alikeSites alike.arena
  have owner := (Builder.alikeTextOwner alike).symm
  refine ⟨account.marked.kept sites, alike.scanner ▸ account.behind, alike.scanner ▸ account.edge,
    account.shares.kept alike.stack.symm sites fun id => (Builder.alikeIsOpenElement alike id).symm,
    alike.scanner ▸ account.voices.kept owner fun id node e got content => ?_⟩
  obtain ⟨twin, there, same⟩ := Arena.alikeSeen alike.arena got
  obtain ⟨_, _, ⟨f, g, element, other, _, _, text⟩ | ⟨shared, leaf⟩⟩ := Node.outlineCases same
  · cases content.symm.trans other
    exact ⟨twin, f, there, element, text⟩
  · exact absurd (shared.trans content) (leaf e)

theorem spoken (account : Account source entries b past)
    (visible : ∀ c, b.scanner.rest.head? = some c → Text.isBlank c = false) (step : b.Step next none)
    (speaks : b.Speaks next owner run covered) : Account source entries next past := by
  have sites := Builder.stepQuietSite step
  have opens := (Builder.stepQuiet step).2.2
  refine ⟨account.marked.kept sites, fun mark member => ?_, account.edge.text speaks.read speaks.reaches,
    account.shares.kept speaks.stack sites opens,
    account.voices.spoken account.edge visible speaks (Builder.ownerKept speaks.stack sites opens)⟩
  have bound := account.behind mark member
  have offset := speaks.reaches.offset
  omega

theorem further (account : Account source entries b past) {event : Event} (reaches : b.scanner.Reaches covered next.scanner)
    (marked : Marked source (entries ++ [entry]) next.arena
      (past.map Prod.snd ++ [⟨event, b.scanner.offset, next.scanner.offset⟩]))
    (shares : Shares (past ++ [(b.textOwner?, ⟨event, b.scanner.offset, next.scanner.offset⟩)]) next)
    (texts : ∀ id node e, next.arena.get? id = some node → node.content = .element e →
      (∃ twin f, b.arena.get? id = some twin ∧ twin.content = .element f ∧ f.text = e.text) ∨
        e.text = none ∧ owned id (ledger 0 past b.textOwner? b.scanner.offset) = []) :
    ∃ past, Account source (entries ++ [entry]) next past := by
  have offset := reaches.offset
  refine ⟨_, ?_, ?_, ?_, shares, account.voices.marked texts⟩
  · rw [List.map_append]
    exact marked
  · rw [List.map_append]
    intro mark member
    rcases List.mem_append.mp member with before | new
    · have bound := account.behind mark before
      omega
    · rw [List.mem_singleton.mp new]
  · rw [List.map_append, List.map_singleton, reachSnoc]
    exact account.edge.mark reaches

theorem opened (account : Account source entries b past) (spread : Spread source (closedIds entries) b)
    (distinct : next.stack.Nodup) (event : entry.event = .opened id) (never : id ∉ closedIds entries)
    (opens : b.Opens next id node token covered) (fresh : ∀ e, node.content = .element e → e.text = none) :
    ∃ past, Account source (entries ++ [entry]) next past := by
  refine account.further opens.reaches (account.marked.opened spread.cursor account.behind event opens)
    (account.shares.opened spread distinct (account.marked.waits never) opens) fun other seen e got content => ?_
  by_cases differs : other = id
  · subst differs
    cases got.symm.trans opens.got
    exact Or.inr ⟨fresh e content, account.shares.unowned opens.newElement _⟩
  · exact Or.inl ⟨seen, e, (opens.others differs).symm.trans got, content, rfl⟩

theorem closed (account : Account source entries b past) (spread : Spread source (closedIds entries) b)
    (distinct : b.stack.Nodup) (event : entry.event = .closed id) (never : id ∉ closedIds entries)
    (closes : b.Closes next id earlier node e above outer covered) (opened : b.isOpenElement id = true)
    (done : ∀ o ∈ above, b.isOpenElement o = false) : ∃ past, Account source (entries ++ [entry]) next past := by
  obtain ⟨first, found, entered⟩ := account.marked.entered closes.found never
  refine account.further closes.reaches (account.marked.closed spread.cursor account.behind event never closes)
    (account.shares.closed spread distinct found entered (account.marked.waits never) closes opened done)
    fun other seen f got content => ?_
  by_cases differs : other = id
  · subst differs
    cases got.symm.trans closes.got
    cases content.symm.trans closes.content
    exact Or.inl ⟨earlier, e, closes.found, closes.before, rfl⟩
  · exact Or.inl ⟨seen, f, (closes.others other differs).symm.trans got, content, rfl⟩

theorem told (account : Account source entries b past) (sound : b.Sound source) (traced : Traced entries b)
    (spread : Spread source (closedIds entries) b) (stepped : b.step true = .ok (next, some entry.event)) :
    next.Lost ∨ ∃ past, Account source (entries ++ [entry]) next past := by
  have step := Builder.stepCases stepped
  cases event : entry.event with
  | opened id =>
    rw [event] at stepped step
    obtain ⟨node, token, covered, opens⟩ := Builder.stepOpened sound stepped
    obtain ⟨twin, _, _, _, got, fresh, _⟩ := Builder.stepOpens sound step
    cases got.symm.trans opens.got
    have distinct := (traced.openedTrail sound step event).stackDistinct
    refine Or.inr (account.opened spread distinct event (traced.newUnclosed opens.index) opens fun e content => ?_)
    rw [fresh.element e content]
  | closed id =>
    rw [event] at stepped step
    obtain ⟨earlier, node, e, above, outer, covered, closes⟩ := Builder.stepClosed sound stepped
    obtain ⟨_, _, twin, _, _, got, isElement, waiting, _⟩ := Builder.stepCloses step
    have opened : b.isOpenElement id = true := by simp [Builder.isOpenElement, got, isElement, waiting]
    have distinct := traced.trail.stackDistinct
    have never := (traced.waits id twin got waiting).2
    by_cases lost : ∃ o ∈ above, b.isOpenElement o = true
    · obtain ⟨o, member, open_⟩ := lost
      exact Or.inl (Builder.lostAbove closes distinct member open_)
    · refine Or.inr (account.closed spread distinct event never closes opened fun o member => ?_)
      exact Bool.not_eq_true _ ▸ fun open_ => lost ⟨o, member, open_⟩

end Account

namespace Build
variable {σ : Type} {inner : Receiver σ} {source : List Char} {b next : Build (Journal σ)}

structure Accounted (source : List Char) (b : Build (Journal σ)) : Prop where
  surveyed : b.Surveyed source
  account : b.builder.Lost ∨ ∃ past, Account source b.state.entries b.builder past

theorem accountedTurn (orderly : inner.Orderly) (accounted : b.Accounted source)
    (turned : b.skipBlank.turn true (Journal.receiver none inner) = .ok next) : next.Accounted source := by
  have surveyed := surveyedSkip accounted.surveyed
  refine ⟨surveyedTurn orderly surveyed turned, ?_⟩
  obtain ⟨sound, traced, spread⟩ := surveyed
  have visible : ∀ c, b.skipBlank.builder.scanner.rest.head? = some c → Text.isBlank c = false := by
    intro c head
    have rest : b.skipBlank.builder.scanner.rest = Text.trimStart b.builder.scanner.rest := Scanner.restSkipBlank _
    obtain ⟨r, whole⟩ := List.head?_eq_some_iff.mp head
    exact Text.trimStartHeadNotBlank (rest.symm.trans whole)
  rcases journalTurn orderly turned with ⟨stepped, state⟩ | ⟨builder, entry, stepped, alike, entries, _⟩
  · have step := Builder.stepCases stepped
    rcases accounted.account with lost | ⟨past, account⟩
    · exact Or.inl (Builder.lostStep sound lost step)
    · obtain ⟨owner, run, covered, speaks⟩ := Builder.stepSpoken stepped
      rw [state]
      exact Or.inr ⟨past, account.skip.spoken visible step speaks⟩
  · rw [entries]
    rcases accounted.account with lost | ⟨past, account⟩
    · exact Or.inl (Builder.lostAlike alike (Builder.lostStep sound lost (Builder.stepCases stepped)))
    · rcases account.skip.told sound traced spread stepped with lost | ⟨past, further⟩
      · exact Or.inl (Builder.lostAlike alike lost)
      · exact Or.inr ⟨past, further.alike alike⟩

end Build

namespace Forest
variable {forest : Forest} {source : List Char} {id : NodeId} {before later : List NodeId}

theorem behindHere (split : forest.roots = before ++ id :: later) (apart : id ∉ before) : forest.behind source id =
    forest.arena.gaps forest.arena.isElement (forest.arena.place id).stop.toNat later (Text.byteLength source) := by
  have others : ∀ other ∈ before, decide (other ≠ id) = true := by
    intro other member
    simpa using fun same : other = id => apart (same ▸ member)
  unfold behind
  rw [split, List.dropWhile_append_of_pos others, List.dropWhile_cons_of_neg (by simp)]

theorem behindNone (none : id ∉ forest.roots) : forest.behind source id = [] := by
  have others : ∀ other ∈ forest.roots, decide (other ≠ id) = true := by
    intro other member
    simpa using fun same : other = id => none (same ▸ member)
  have nothing : (forest.roots.dropWhile fun root => root ≠ id) = [] := by
    rw [← List.append_nil forest.roots, List.dropWhile_append_of_pos others]
    rfl
  unfold behind
  rw [nothing]

end Forest

/-- Every text is what is spoken in the stretches of its element, and each stretch in which there is text is that of
one element. No sign of markup comes into a text. -/
structure Owned (source : List Char) (forest : Forest) (marks : List Mark) : Prop where
  texts : ∀ id node e, forest.arena.get? id = some node → node.content = .element e →
    e.text = spoken source (forest.stretches source marks id)
  owners : ∀ s ∈ between 0 marks (Text.byteLength source), s.blank source = false →
    ∃! id, forest.arena.isElement id = true ∧ s ∈ forest.stretches source marks id
  plain : ∀ id node e text, forest.arena.get? id = some node → node.content = .element e → e.text = some text →
    '<' ∉ text.toList ∧ '/' ∉ text.toList

namespace Account
variable {σ : Type} {source : List Char} {entries : List (Entry σ)} {b : Builder} {past : List (Option NodeId × Mark)}
  {id : NodeId}

theorem stretchesOwned (account : Account source entries b past) (distinct : b.stack.Nodup)
    (shut : ∀ id, b.isOpenElement id = false) (element : b.isElement id = true) :
    owned id (ledger 0 past b.textOwner? (Text.byteLength source)) =
      Forest.stretches ⟨b.arena, b.roots⟩ source (past.map Prod.snd) id := by
  by_cases member : id ∈ b.stack
  · obtain ⟨above, outer, split⟩ := List.append_of_mem member
    have hears : b.Hears id above outer := ⟨split, element, Or.inr fun other _ => shut other⟩
    have takes : b.takes id = b.isElement := if_neg (by rw [shut]; decide)
    have roots : b.roots = outer.reverse ++ id :: above.reverse := by
      rw [Builder.roots, split]
      simp
    have apart : id ∉ outer.reverse := by
      rw [split] at distinct
      have below := (List.nodup_append.mp distinct).2.1
      exact fun inside => (List.nodup_cons.mp below).1 (List.mem_reverse.mp inside)
    rw [account.shares.heard id above outer hears, takes, Forest.stretches, Forest.behindHere roots apart]
    rfl
  · have unheard (above outer : List NodeId) : ¬b.Hears id above outer := fun hears =>
      member (by rw [hears.stack]; simp)
    have root : id ∉ b.roots := fun inside => member (List.mem_reverse.mp inside)
    rw [account.shares.unheard id element unheard, Forest.stretches, Forest.behindNone root, List.append_nil]

theorem upward (account : Account source entries b past) (stop : Nat) :
    ((ledger 0 past b.textOwner? stop).map Prod.snd).Nodup := by
  have forward : ∀ entry ∈ past, 0 ≤ entry.2.start ∧ entry.2.start < entry.2.stop := fun entry member =>
    ⟨Nat.zero_le _, Mark.standsForward (account.marked.stands entry.2 (List.mem_map_of_mem member))⟩
  refine List.pairwise_map.mpr ((ledgerUpward forward account.marked.ordered).2.imp ?_)
  intro first second smaller same
  rw [same] at smaller
  exact Nat.lt_irrefl _ smaller

theorem owned (account : Account source entries b past) (distinct : b.stack.Nodup) (used : b.scanner.rest = [])
    (done : ∀ id node, b.arena.get? id = some node → node.done = true) :
    Owned source ⟨b.arena, b.roots⟩ (past.map Prod.snd) := by
  have shut (id : NodeId) : b.isOpenElement id = false := by
    unfold Builder.isOpenElement
    cases got : b.arena.get? id with
    | none => rfl
    | some node => simp [done id node got]
  -- what stands behind the text is blank, so the last stretch may as well end there
  obtain ⟨blanks, blank, longer⟩ := account.edge.used used
  have voices := account.voices.extended (Stretch.runExtended blank longer)
  refine ⟨?_, ?_, ?_⟩
  · intro id node e got content
    have element : b.isElement id = true := by simp [Builder.isElement, got, Node.isElement, Node.element?, content]
    rw [← account.stretchesOwned distinct shut element]
    exact voices.texts id node e got content
  · intro s member signs
    have stretches : (ledger 0 past b.textOwner? (Text.byteLength source)).map Prod.snd = between 0 (past.map Prod.snd)
      (Text.byteLength source) := ledgerStretches
    rw [← stretches] at member
    obtain ⟨⟨had, t⟩, entry, rfl⟩ := List.mem_map.mp member
    cases had with
    | none =>
      rw [voices.silent t entry] at signs
      contradiction
    | some id =>
      have element := account.shares.ownerElement entry
      refine ⟨id, ⟨element, ?_⟩, ?_⟩
      · rw [← account.stretchesOwned distinct shut element]
        exact memOwned.mpr entry
      · rintro other ⟨also, inside⟩
        rw [← account.stretchesOwned distinct shut also] at inside
        have same := List.inj_on_of_nodup_map (account.upward _) (memOwned.mp inside) entry rfl
        exact Option.some.inj (congrArg Prod.fst same)
  · intro id node e text got content written
    have plain := voices.plain id node e text got content written
    exact ⟨fun inside => absurd (plain '<' inside) (by decide), fun inside => absurd (plain '/' inside) (by decide)⟩

end Account

/-
Where every node of a template is done, its markup is told from the nodes alone. The text of each element is what
stands in the stretches between its tags and outside of its children, and behind an element at the top in those up to
the next one; and text stands in no stretch that is not that of one element.
-/
theorem textsOwned {template : String} (short : template.utf8ByteSize < UInt32.size) {forest : Forest}
    (read : readForest Options.standard template = .ok forest)
    (done : ∀ id node, forest.arena.get? id = some node → node.done = true) :
    ∃ marks, Marked template.toList (entriesOf Options.standard Receiver.silent () template) forest.arena marks ∧
      (∀ others, Marked template.toList (entriesOf Options.standard Receiver.silent () template) forest.arena others →
        others = marks) ∧ Owned template.toList forest marks := by
  rw [← Text.byteLengthToList] at short
  rw [readForest, ← journalForest] at read
  obtain ⟨last, ran, rfl⟩ := forestOfOk read
  obtain ⟨_, before, turns, rfl, ended⟩ := Build.runEnds ran
  have start : (Build.ofSource template.toList (Journal.ofState ())).Accounted template.toList :=
    ⟨⟨Builder.soundOfSource short, Traced.start _, Spread.start _⟩, Or.inr ⟨[], Account.start _⟩⟩
  obtain ⟨surveyed, account⟩ := Build.turnsKeep (I := fun b => b.Accounted template.toList)
    (fun _ _ accounted turned => Build.accountedTurn Receiver.silentOrderly accounted turned) start turns
  have entries : entriesOf Options.standard Receiver.silent () template = before.state.entries := by
    unfold entriesOf
    rw [ran]
    rfl
  rcases account with ⟨id, node, got, waiting, _⟩ | ⟨past, account⟩
  · rw [done id node got] at waiting
    contradiction
  · have used : before.skipBlank.builder.scanner.rest = [] := List.isEmpty_iff.mp ended
    rw [entries]
    have marked := account.skip.marked
    exact ⟨_, marked, fun others => marked.once, account.skip.owned surveyed.traced.trail.stackDistinct used done⟩

def scatteredText : String := "<!--a--> <p>b<br>c</p> d<br>é<!--e--> f"

theorem textBehindElements :
    scatteredText.utf8ByteSize < UInt32.size ∧
    ∃ forest, readForest Options.standard scatteredText = .ok forest ∧
      (∀ id node, forest.arena.get? id = some node → node.done = true) ∧
      [1, 2, 3].map (fun n => (forest.arena.element? ⟨n⟩).map Element.text) =
        [some (some "b c d"), some none, some (some "é f")] ∧
      ∃ marks, Marked scatteredText.toList
          (entriesOf Options.standard Receiver.silent () scatteredText) forest.arena marks ∧
        (∀ others, Marked scatteredText.toList
          (entriesOf Options.standard Receiver.silent () scatteredText) forest.arena others →
            others = marks) ∧
        Owned scatteredText.toList forest marks := by
  have short : scatteredText.utf8ByteSize < UInt32.size := by decide
  have read : (readForest Options.standard scatteredText).map
      (fun forest => (forest.arena.nodes.toList.all Node.done,
        [1, 2, 3].map fun n => (forest.arena.element? ⟨n⟩).map Element.text)) =
          .ok (true, [some (some "b c d"), some none, some (some "é f")]) := by decide +kernel
  cases built : readForest Options.standard scatteredText with
  | error cause =>
    rw [built] at read
    contradiction
  | ok forest =>
    rw [built] at read
    obtain ⟨all, texts⟩ := Prod.mk.inj (Except.ok.inj read)
    have done (id : NodeId) (node : Node) (got : forest.arena.get? id = some node) : node.done = true :=
      List.all_eq_true.mp all node (Array.mem_toList_iff.mpr (Array.mem_of_getElem? got))
    exact ⟨short, forest, rfl, done, texts, textsOwned short built done⟩

end Templating
