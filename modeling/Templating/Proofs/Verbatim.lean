import Templating.Proofs.Settling

/-!
Verbatim subtrees, and what is outside of them. Inside, and in raw-text tags, every attribute is
literal; outside, every attribute is in one place: resolved to a field, made a binding, or literal.
-/
namespace Templating

theorem Element.literalOpening {e : Element} (literal : e.opening.Literal) (data : e.data = none) : e.Literal := by
  obtain ⟨⟩ := e
  simp only [Literal, opening, Element.mk.injEq] at literal data ⊢
  simp [literal, data]

theorem Arena.marksElement {arena : Arena} {id : NodeId} (marked : arena.kin.marks id = true) :
    ∃ f, arena.element? id = some f := by
  unfold Kindred.marks kin at marked
  unfold element?
  cases got : arena.get? id with
  | none => simp [got] at marked
  | some node =>
    cases element : node.element? with
    | none => simp [got, Node.kinship, element] at marked
    | some f => exact ⟨f, element⟩

namespace Settled
variable {options : Options} {plain analysed : Arena} {o : Opening}

theorem pair (settled : Settled options plain analysed o) {f : Element} (found : analysed.element? o.id = some f) :
    ∃ e, plain.element? o.id = some e ∧ e.opening = o.element ∧
      f.opening = Analysis.letIn options o.inside e.opening ∧ f.tag = e.tag ∧ (o.raw options = true → f.data = none) := by
  obtain ⟨e, there, written⟩ := Option.map_eq_some_iff.mp settled.written
  obtain ⟨g, same, opening, noData⟩ := settled.result
  cases found.symm.trans same
  rw [← written] at opening
  refine ⟨e, there, written, opening, ?_, noData⟩
  rw [settled.tag found, ← written]
  rfl

theorem literal (settled : Settled options plain analysed o) {e f : Element} (written : e.opening = o.element)
    (opening : f.opening = Analysis.letIn options o.inside e.opening) (noData : f.data = none)
    (raw : o.raw options = true) :
    f.Literal ∧ f.attributes.entries =
      (if o.inside then e.attributes.entries else e.attributes.entries.filter fun entry => entry.1 ≠ "v-pre") ++
        e.pendingEntries := by
  have taken : (o.inside || o.element.carries "v-pre" || options.isRawText o.element.tag) = true := by
    have cases := (o.rawCases options).mp raw
    unfold Opening.marked at cases
    simpa only [Bool.or_eq_true] using cases
  have result := Directive.letInLiteral settled.bare settled.filed taken
  rw [← written, ← opening] at result
  exact ⟨Element.literalOpening result.literal noData, result.attributes⟩

theorem resolved (settled : Settled options plain analysed o) {e f : Element} (written : e.opening = o.element)
    (opening : f.opening = Analysis.letIn options o.inside e.opening) (resolves : o.raw options = false) :
    Directive.ResolvedFrom e f := by
  have free : o.inside = false ∧ o.element.carries "v-pre" = false ∧ options.isRawText o.element.tag = false := by
    have cases := (o.rawCases options).not.mp (by simp [resolves])
    simp only [not_or, Bool.not_eq_true] at cases
    exact ⟨cases.1.1, cases.1.2, cases.2⟩
  have result := Directive.resolvedBare settled.bare settled.filed
  have same : Analysis.letIn options o.inside o.element = Directive.resolved o.element := by
    simp [Analysis.letIn, free]
  rw [written, same] at opening
  rw [← opening, ← written] at result
  exact ⟨result.tag, result.pending, result.pre, result.attributes, result.bindings, result.ifCondition,
    result.elseIfCondition, result.isElse, result.loop, result.key, result.showCondition, result.once, result.ref,
    result.slot, result.slotName⟩

theorem unmarked (settled : Settled options plain analysed o) {e f : Element} (written : e.opening = o.element)
    (opening : f.opening = Analysis.letIn options o.inside e.opening) (noData : o.raw options = true → f.data = none)
    (free : ¬ analysed.kin.Covered o.id) : "v-pre" ∉ f.attributes.names := by
  rw [settled.covered, not_or, Bool.not_eq_true, Bool.not_eq_true] at free
  have absent : "v-pre" ∉ e.attributes.names := by
    have missing : e.opening.carries "v-pre" = false := by rw [written]; exact free.2
    have kept := Element.withoutAbsent (Option.isNone_iff_eq_none.mp (Option.isSome_eq_false_iff.mp missing))
    intro known
    obtain ⟨entry, member, same⟩ := List.mem_map.mp known
    have stripped : e.attributes.erase "v-pre" = e.attributes := congrArg Element.attributes kept
    rw [← stripped, Table.entriesErase] at member
    simpa [same] using (List.mem_filter.mp member).2
  have literal : "v-pre" ∉ e.pendingEntries.map Prod.fst := by
    intro known
    have filed := settled.filed
    rw [← written] at filed
    have binds := filed.pending "v-pre" known
    revert binds
    decide
  -- wherever the attributes of the element come from, it is from these two
  have sources : ∀ entry ∈ f.attributes.entries, entry ∈ e.attributes.entries ∨ entry ∈ e.pendingEntries := by
    intro entry member
    cases raw : o.raw options with
    | true =>
      rw [(settled.literal written opening (noData raw) raw).2, free.1] at member
      rcases List.mem_append.mp member with there | there
      · exact Or.inl (List.mem_filter.mp there).1
      · exact Or.inr there
    | false =>
      rw [(settled.resolved written opening raw).attributes] at member
      rcases List.mem_append.mp member with there | there
      · exact Or.inl (List.mem_filter.mp there).1
      · exact Or.inr (List.mem_filter.mp there).1
  intro known
  obtain ⟨entry, member, same⟩ := List.mem_map.mp known
  rcases sources entry member with there | there
  · exact absent (same ▸ List.mem_map_of_mem there)
  · exact literal (same ▸ List.mem_map_of_mem there)

theorem raw (settled : Settled options plain analysed o) :
    o.raw options = true ↔ analysed.kin.Covered o.id ∨ options.isRawText o.element.tag = true := by
  rw [o.rawCases, settled.covered]

end Settled

/-
Along the parents at most one element starts a verbatim subtree, and what is below it is what was
opened while it was open. There, and in raw-text tags, nothing is resolved: the attributes are those of
the plain build, the pending ones behind the others, without the mark unless it stands inside of
another verbatim subtree. Elsewhere no mark is left.
-/
theorem verbatimSubtrees {options : Options} {template : String} {ast : Ast}
    (short : template.utf8ByteSize < UInt32.size) (accepted : parseWith options template = .ok ast) :
    (∀ id inner outer, Ancestor ast.arena.kin.parent? id inner → Ancestor ast.arena.kin.parent? id outer →
      ast.arena.kin.marks inner = true → ast.arena.kin.marks outer = true → inner = outer) ∧
    (∀ o ∈ openings (notices options template),
      ast.arena.kin.Covered o.id ↔ o.marked = true ∨ (openElements o.past).any Opening.marked = true) ∧
    ∃ plain, readForest options template = .ok plain ∧
      ∀ id f, ast.arena.element? id = some f → ∃ e, plain.arena.element? id = some e ∧ f.tag = e.tag ∧
        (ast.arena.kin.Covered id ∨ options.isRawText f.tag = true →
          f.Literal ∧
          (ast.arena.kin.Inside id → f.attributes.entries = e.attributes.entries ++ e.pendingEntries) ∧
          (¬ ast.arena.kin.Inside id → f.attributes.entries =
            (e.attributes.entries.filter fun entry => entry.1 ≠ "v-pre") ++ e.pendingEntries)) ∧
        (¬ ast.arena.kin.Covered id → "v-pre" ∉ f.attributes.names) := by
  obtain ⟨plain, read, settles, elements⟩ := parsedSettled short accepted
  refine ⟨?_, ?_, plain, read, ?_⟩
  · have single (id : NodeId) (marked : ast.arena.kin.marks id = true) : ¬ ast.arena.kin.Inside id := by
      obtain ⟨f, found⟩ := Arena.marksElement marked
      obtain ⟨o, member, rfl⟩ := elements id f found
      have settled := (settles o member).1
      rw [← settled.inside, (settled.marked.mp marked).1]
      exact Bool.false_ne_true
    intro id inner outer left right marked alsoMarked
    exact Kindred.markedOnce single left right marked alsoMarked
  · intro o member
    exact (settles o member).1.covered.trans or_comm
  · intro id f found
    obtain ⟨o, member, rfl⟩ := elements id f found
    have settled := (settles o member).1
    obtain ⟨e, there, written, opening, tag, noData⟩ := settled.pair found
    refine ⟨e, there, tag, ?_, settled.unmarked written opening noData⟩
    intro taken
    have sameTag : e.tag = o.element.tag := by rw [← written]; rfl
    rw [tag, sameTag, ← settled.raw] at taken
    obtain ⟨literal, attributes⟩ := settled.literal written opening (noData taken) taken
    refine ⟨literal, ?_, ?_⟩
    · intro inside
      rw [attributes, if_pos (settled.inside.mpr inside)]
    · intro outside
      rw [attributes, if_neg fun inside => outside (settled.inside.mp inside)]

def sampleVerbatim : String := "<a><b v-pre><i v-if=\"c\" @z=\"w\">t</i></b></a>"

theorem verbatimContent :
    sampleVerbatim.utf8ByteSize < UInt32.size ∧
    ∃ ast, parseWith Options.standard sampleVerbatim = .ok ast ∧
      ast.arena.kin.Inside ⟨2⟩ ∧ ∃ f, ast.arena.element? ⟨2⟩ = some f ∧ f.Literal := by
  have short : sampleVerbatim.utf8ByteSize < UInt32.size := by decide
  have shape : (parseWith Options.standard sampleVerbatim).map (fun ast =>
      (ast.arena.kin.parent? ⟨2⟩, ast.arena.kin.marks ⟨1⟩, (ast.arena.element? ⟨2⟩).isSome)) =
        .ok (some ⟨1⟩, true, true) := by decide +kernel
  cases parsed : parseWith Options.standard sampleVerbatim with
  | error cause =>
    rw [parsed] at shape
    contradiction
  | ok ast =>
    rw [parsed] at shape
    obtain ⟨up, rest⟩ := Prod.mk.inj (Except.ok.inj shape)
    obtain ⟨marked, present⟩ := Prod.mk.inj rest
    obtain ⟨f, found⟩ := Option.isSome_iff_exists.mp present
    have inside : ast.arena.kin.Inside ⟨2⟩ := ⟨⟨1⟩, up, ⟨1⟩, .self, marked⟩
    obtain ⟨_, _, _, _, each⟩ := verbatimSubtrees short parsed
    obtain ⟨_, _, _, literal, _⟩ := each ⟨2⟩ f found
    exact ⟨short, ast, rfl, inside, f, found, (literal (Or.inl (Kindred.coveredCases.mpr (Or.inr inside)))).1⟩

/-
An element outside of all verbatim subtrees, and of no raw-text tag, has each of its attributes in one
place: as a field where it is a directive, as a binding where it is pending and its name is that of
one, and else as a literal attribute, those that were pending behind the others.
-/
theorem attributesResolved {options : Options} {template : String} {ast : Ast}
    (short : template.utf8ByteSize < UInt32.size) (accepted : parseWith options template = .ok ast) :
    ∃ plain, readForest options template = .ok plain ∧
      ∀ id f, ast.arena.element? id = some f → ¬ ast.arena.kin.Covered id → options.isRawText f.tag = false →
        ∃ e, plain.arena.element? id = some e ∧ Directive.ResolvedFrom e f ∧
          ∀ written, e.stated? "v-for" = some written →
            ∃ loop, Loop.parse? written = some loop ∧ f.loop = some loop := by
  obtain ⟨plain, read, settles, elements⟩ := parsedSettled short accepted
  refine ⟨plain, read, ?_⟩
  intro id f found free plainTag
  obtain ⟨o, member, rfl⟩ := elements id f found
  obtain ⟨settled, lawful⟩ := settles o member
  obtain ⟨e, there, written, opening, tag, _⟩ := settled.pair found
  have sameTag : e.tag = o.element.tag := by rw [← written]; rfl
  have resolves : o.raw options = false := by
    rw [tag, sameTag] at plainTag
    rw [← Bool.not_eq_true, settled.raw, plainTag]
    simp [free]
  have result := settled.resolved written opening resolves
  refine ⟨e, there, result, ?_⟩
  intro expression carried
  have same : o.element.written? "v-for" = some expression := by
    rw [← written, Element.writtenStated]
    exact carried
  obtain ⟨loop, parsed⟩ := (lawful resolves).loop expression same
  refine ⟨loop, parsed, ?_⟩
  rw [result.loop, carried, Option.bind_some, parsed]

def sampleOutlet : String := "<p v-if=\"c\" v-once k=\"l\" :a=\"b\" x:y=\"z\"><slot name=\"n\" slot></slot></p>"

theorem attributesPlaced :
    sampleOutlet.utf8ByteSize < UInt32.size ∧ ∃ ast, parseWith Options.standard sampleOutlet = .ok ast ∧
      (¬ ast.arena.kin.Covered ⟨0⟩ ∧ ∃ f, ast.arena.element? ⟨0⟩ = some f ∧ Options.standard.isRawText f.tag = false ∧
        f.ifCondition = some "c" ∧ f.once = some "true" ∧ f.attributes.entries = [("k", .text "l"), ("x:y", .text "z")] ∧
        f.bindings = [⟨":a", "bind", some "a", [], .text "b"⟩]) ∧
      ¬ ast.arena.kin.Covered ⟨1⟩ ∧ ∃ f, ast.arena.element? ⟨1⟩ = some f ∧ Options.standard.isRawText f.tag = false ∧
        f.slotName = some "n" ∧ f.slot = none ∧ f.attributes.entries = [("slot", .flag)] := by
  have short : sampleOutlet.utf8ByteSize < UInt32.size := by decide
  have outer : (parseWith Options.standard sampleOutlet).map (fun ast =>
      (ast.arena.kin.parent? ⟨0⟩, ast.arena.kin.marks ⟨0⟩, (ast.arena.element? ⟨0⟩).map Element.tag)) =
        .ok (none, false, some "p") := by decide +kernel
  have inner : (parseWith Options.standard sampleOutlet).map (fun ast =>
      (ast.arena.kin.parent? ⟨1⟩, ast.arena.kin.marks ⟨1⟩, (ast.arena.element? ⟨1⟩).map Element.tag)) =
        .ok (some ⟨0⟩, false, some "slot") := by decide +kernel
  have written : (readForest Options.standard sampleOutlet).map (fun forest =>
      (forest.arena.element? ⟨0⟩).map fun e => (e.attributes.entries, e.pendingEntries, e.tag)) =
        .ok (some ([("v-if", .text "c"), ("v-once", .flag), ("k", .text "l")], [(":a", .text "b"), ("x:y", .text "z")], "p")) := by
    decide +kernel
  have alsoWritten : (readForest Options.standard sampleOutlet).map (fun forest =>
      (forest.arena.element? ⟨1⟩).map fun e => (e.attributes.entries, e.pendingEntries, e.tag)) =
        .ok (some ([("name", .text "n"), ("slot", .flag)], [], "slot")) := by decide +kernel
  cases parsed : parseWith Options.standard sampleOutlet with
  | error cause =>
    rw [parsed] at outer
    contradiction
  | ok ast =>
    rw [parsed] at outer inner
    simp only [Except.map, Except.ok.injEq, Prod.mk.injEq] at outer inner
    obtain ⟨up, unmarked, named⟩ := outer
    obtain ⟨upper, alsoUnmarked, alsoNamed⟩ := inner
    obtain ⟨f, found, tag⟩ := Option.map_eq_some_iff.mp named
    obtain ⟨g, alsoFound, alsoTag⟩ := Option.map_eq_some_iff.mp alsoNamed
    have free : ¬ ast.arena.kin.Covered ⟨0⟩ := Kindred.uncovered unmarked (by simp [up])
    have alsoFree : ¬ ast.arena.kin.Covered ⟨1⟩ := Kindred.uncovered alsoUnmarked (by simp [upper, free])
    have plainTag : Options.standard.isRawText f.tag = false := by rw [tag]; decide
    have alsoPlain : Options.standard.isRawText g.tag = false := by rw [alsoTag]; decide
    obtain ⟨plain, read, each⟩ := attributesResolved short parsed
    obtain ⟨e, there, result, _⟩ := each ⟨0⟩ f found free plainTag
    obtain ⟨d, alsoThere, outlet, _⟩ := each ⟨1⟩ g alsoFound alsoFree alsoPlain
    rw [read] at written alsoWritten
    simp only [Except.map, there, alsoThere, Option.map_some, Except.ok.injEq, Option.some.injEq,
      Prod.mk.injEq] at written alsoWritten
    obtain ⟨attributes, pending, name⟩ := written
    obtain ⟨further, alsoPending, alsoName⟩ := alsoWritten
    refine ⟨short, ast, rfl, ⟨free, f, found, plainTag, ?_, ?_, ?_, ?_⟩, alsoFree, g, alsoFound, alsoPlain, ?_, ?_, ?_⟩
    · rw [result.ifCondition, Element.stated?, Table.find?, attributes]
      decide
    · rw [result.once, Element.stated?, Table.find?, attributes]
      decide
    · rw [result.attributes, attributes, pending, name]
      decide +kernel
    · rw [result.bindings, pending]
      decide +kernel
    · rw [outlet.slotName, if_pos alsoName, Element.stated?, Table.find?, further]
      decide
    · rw [outlet.slot, if_pos alsoName]
    · rw [outlet.attributes, further, alsoPending, alsoName]
      decide +kernel

end Templating
