import Templating.Proofs.Outline
import Templating.Directive.Resolve

/-!
What resolving the directives of one element comes to. The rules are checked in a fixed order and
the first that is broken gives the cause (`fault?`); where none is, every directive the element
carried has become a field, and tag, children and text are as before.
-/
namespace Templating

theorem lookupFilter {α : Type} (entries : List (String × α)) (name other : String) :
    (entries.filter fun entry => entry.1 ≠ name).lookup other =
      if other = name then none else entries.lookup other := by
  induction entries with
  | nil => simp
  | cons entry rest ih =>
    obtain ⟨key, value⟩ := entry
    by_cases gone : key = name
    · rw [List.filter_cons_of_neg (by simp [gone]), ih]
      split
      · rfl
      · rename_i differs
        have other : (other == key) = false := by simpa [gone] using differs
        simp [List.lookup_cons, other]
    · rw [List.filter_cons_of_pos (by simp [gone]), List.lookup_cons, List.lookup_cons, ih]
      by_cases found : other = key
      · simp [found, gone]
      · have differs : (other == key) = false := by simpa using found
        simp [differs]

theorem Table.findErase {α : Type} (table : Table α) (name other : String) :
    (table.erase name).find? other = if other = name then none else table.find? other :=
  lookupFilter table.entries name other

namespace Element

theorem shapeTag {e f : Element} (same : f.shape = e.shape) : f.tag = e.tag := by
  simp only [shape, Shape.element.injEq] at same
  exact same.1

def written? (e : Element) (name : String) : Option String := (e.attributes.find? name).map AttributeValue.expression

def carries (e : Element) (name : String) : Bool := (e.written? name).isSome

def without (e : Element) (name : String) : Element := { e with attributes := e.attributes.erase name }

theorem withoutAbsent {e : Element} {name : String} (absent : e.written? name = none) : e.without name = e := by
  have missing : name ∉ e.attributes.names := by
    intro member
    obtain ⟨entry, inside, rfl⟩ := List.mem_map.mp member
    unfold written? Table.find? at absent
    rw [Option.map_eq_none_iff, List.lookup_eq_none_iff] at absent
    simpa using absent entry inside
  unfold without
  rw [Table.eraseAbsent missing]

end Element

namespace Directive

theorem onAttributeAbsent {name : String} {e : Element} (absent : e.written? name = none)
    (resolve : AttributeValue → Element → Except (Halt Element) Element) : onAttribute name resolve e = .ok e := by
  unfold Element.written? at absent
  rw [Option.map_eq_none_iff] at absent
  unfold onAttribute Element.take
  rw [absent]

theorem onAttributePresent {name expression : String} {e : Element} (present : e.written? name = some expression)
    (resolve : AttributeValue → Element → Except (Halt Element) Element) :
    ∃ value : AttributeValue, value.expression = expression ∧
      onAttribute name resolve e = resolve value (e.without name) := by
  unfold Element.written? at present
  obtain ⟨value, found, same⟩ := Option.map_eq_some_iff.mp present
  refine ⟨value, same, ?_⟩
  unfold onAttribute Element.take
  rw [found]
  rfl

theorem setToPut {name : String} {field : String → Element → Element} (put : Option String → Element → Element)
    (some : ∀ expression e, field expression e = put (some expression) e) (none : ∀ e, put none e = e)
    (e : Element) : setTo name field e = .ok (put (e.written? name) (e.without name)) := by
  unfold setTo
  cases written : e.written? name with
  | none => rw [onAttributeAbsent written, Element.withoutAbsent written, none]
  | some expression =>
    obtain ⟨value, same, result⟩ := onAttributePresent written fun value e => .ok (field value.expression e)
    rw [result, same, some]

def takeIf (e : Element) : Element :=
  { e.without "v-if" with ifCondition := (e.written? "v-if").or e.ifCondition }

def takeElse (e : Element) : Element :=
  { e.without "v-else" with isElse := e.carries "v-else" || e.isElse }

def takeElseIf (e : Element) : Element :=
  { e.without "v-else-if" with elseIfCondition := (e.written? "v-else-if").or e.elseIfCondition }

def takeLoop (e : Element) : Element :=
  { e.without "v-for" with loop := ((e.written? "v-for").bind Loop.parse?).or e.loop }

def takeKey (e : Element) : Element :=
  { e.without "key" with key := (e.written? "key").or e.key }

def takeShow (e : Element) : Element :=
  { e.without "v-show" with showCondition := (e.written? "v-show").or e.showCondition }

def takeOnce (e : Element) : Element :=
  { e.without "v-once" with once := (e.written? "v-once").or e.once }

def takeRef (e : Element) : Element :=
  { e.without "ref" with ref := (e.written? "ref").or e.ref }

def takeSlot (e : Element) : Element :=
  if Tag.isSlot e.tag then { e.without "name" with slotName := (e.written? "name").or e.slotName }
  else { e.without "slot" with slot := (e.written? "slot").or e.slot }

def resolved (e : Element) : Element :=
  e |> takeIf |> takeElse |> takeElseIf |> takeLoop |> takeKey |> takeShow |> takeOnce |> takeRef |> takeSlot |> bindAll

def orphaned (around : Surroundings) (name : String) (e : Element) : Bool := e.carries name && !around.followsCondition

def illegalLoop? (e : Element) : Option String := (e.written? "v-for").filter fun written => (Loop.parse? written).isNone

def unreachable (around : Surroundings) (e : Element) : Bool :=
  e.carries "ref" && (around.parentHasLoop || Tag.isWrapper e.tag)

def fault? (around : Surroundings) (e : Element) : Option CompileError :=
  if orphaned around "v-else" e then some (.elseWithoutIf e.tag around.previousName around.position)
  else if orphaned around "v-else-if" e then some (.elseIfWithoutIf e.tag around.previousName around.position)
  else match illegalLoop? e with
    | some written => some (.illegalForExpression e.tag written around.position)
    | none => if unreachable around e then some (.illegalRef e.tag around.position) else none

theorem ifPassEq (around : Surroundings) (e : Element) : ifPass around e = .ok (takeIf e) :=
  setToPut (fun written e => { e with ifCondition := written.or e.ifCondition }) (fun _ _ => rfl) (fun _ => rfl) e

theorem elsePassEq (around : Surroundings) (e : Element) :
    elsePass around e =
      if orphaned around "v-else" e then
        .error ⟨.elseWithoutIf e.tag around.previousName around.position, e.without "v-else"⟩
      else .ok (takeElse e) := by
  unfold elsePass orphaned takeElse Element.carries
  cases written : e.written? "v-else" with
  | none => rw [onAttributeAbsent written, Element.withoutAbsent written]; rfl
  | some expression =>
    obtain ⟨value, _, result⟩ := onAttributePresent written _
    rw [result]
    cases around.followsCondition <;> rfl

theorem elseIfPassEq (around : Surroundings) (e : Element) :
    elseIfPass around e =
      if orphaned around "v-else-if" e then
        .error ⟨.elseIfWithoutIf e.tag around.previousName around.position, e.without "v-else-if"⟩
      else .ok (takeElseIf e) := by
  unfold elseIfPass orphaned takeElseIf Element.carries
  cases written : e.written? "v-else-if" with
  | none => rw [onAttributeAbsent written, Element.withoutAbsent written]; rfl
  | some expression =>
    obtain ⟨value, same, result⟩ := onAttributePresent written _
    rw [result, ← same]
    cases around.followsCondition <;> rfl

theorem loopPassEq (around : Surroundings) (e : Element) :
    loopPass around e =
      match illegalLoop? e with
      | some written => .error ⟨.illegalForExpression e.tag written around.position, e.without "v-for"⟩
      | none => .ok (takeLoop e) := by
  unfold loopPass illegalLoop? takeLoop
  cases written : e.written? "v-for" with
  | none => rw [onAttributeAbsent written, Element.withoutAbsent written]; rfl
  | some expression =>
    obtain ⟨value, same, result⟩ := onAttributePresent written _
    rw [result, same]
    cases parsed : Loop.parse? expression with
    | none => simp only [Option.filter, parsed, Option.isNone_none]; rfl
    | some loop => simp only [Option.filter, Option.bind, parsed, Option.isNone_some]; rfl

theorem plainPassEq (around : Surroundings) (e : Element) :
    plainPass around e = .ok (takeOnce (takeShow (takeKey e))) := by
  have key : setTo "key" (fun key e => { e with key := some key }) e = .ok (takeKey e) :=
    setToPut (fun written e => { e with key := written.or e.key }) (fun _ _ => rfl) (fun _ => rfl) e
  have shown (e : Element) :
      setTo "v-show" (fun condition e => { e with showCondition := some condition }) e = .ok (takeShow e) :=
    setToPut (fun written e => { e with showCondition := written.or e.showCondition }) (fun _ _ => rfl)
      (fun _ => rfl) e
  have once (e : Element) : setTo "v-once" (fun once e => { e with once := some once }) e = .ok (takeOnce e) :=
    setToPut (fun written e => { e with once := written.or e.once }) (fun _ _ => rfl) (fun _ => rfl) e
  unfold plainPass
  rw [key]
  simp only [bind, Except.bind, shown, once]

theorem refPassEq (around : Surroundings) (e : Element) :
    refPass around e =
      if unreachable around e then .error ⟨.illegalRef e.tag around.position, e.without "ref"⟩
      else .ok (takeRef e) := by
  unfold refPass unreachable takeRef Element.carries
  cases written : e.written? "ref" with
  | none => rw [onAttributeAbsent written, Element.withoutAbsent written]; rfl
  | some expression =>
    obtain ⟨value, same, result⟩ := onAttributePresent written _
    rw [result, ← same]
    cases refused : around.parentHasLoop || Tag.isWrapper e.tag with
    | true => simp [Element.without, refused]
    | false => simp [Element.without, refused]

theorem slotPassEq (around : Surroundings) (e : Element) : slotPass around e = .ok (takeSlot e) := by
  unfold slotPass takeSlot
  split
  · exact setToPut (fun written e => { e with slotName := written.or e.slotName }) (fun _ _ => rfl) (fun _ => rfl) e
  · exact setToPut (fun written e => { e with slot := written.or e.slot }) (fun _ _ => rfl) (fun _ => rfl) e

theorem runPassesOk {pass : Pass} {rest : List Pass} {around : Surroundings} {e f : Element}
    (ok : pass around e = .ok f) : runPasses (pass :: rest) around e = runPasses rest around f := by
  unfold runPasses
  rw [List.foldlM_cons, ok]
  rfl

theorem runPassesError {pass : Pass} {rest : List Pass} {around : Surroundings} {e : Element} {halt : Halt Element}
    (failed : pass around e = .error halt) : runPasses (pass :: rest) around e = .error halt := by
  unfold runPasses
  rw [List.foldlM_cons, failed]
  rfl

theorem writtenTaken {e f : Element} {name other : String} (taken : f.attributes = e.attributes.erase name)
    (differs : other ≠ name) : f.written? other = e.written? other := by
  unfold Element.written?
  rw [taken, Table.findErase, if_neg differs]

theorem writtenTakeIf (e : Element) {other : String} (differs : other ≠ "v-if") :
    (takeIf e).written? other = e.written? other := writtenTaken rfl differs

theorem writtenTakeElse (e : Element) {other : String} (differs : other ≠ "v-else") :
    (takeElse e).written? other = e.written? other := writtenTaken rfl differs

theorem writtenTakeElseIf (e : Element) {other : String} (differs : other ≠ "v-else-if") :
    (takeElseIf e).written? other = e.written? other := writtenTaken rfl differs

theorem writtenTakeLoop (e : Element) {other : String} (differs : other ≠ "v-for") :
    (takeLoop e).written? other = e.written? other := writtenTaken rfl differs

theorem writtenTakePlain (e : Element) {other : String} (differs : other ∉ ["key", "v-show", "v-once"]) :
    (takeOnce (takeShow (takeKey e))).written? other = e.written? other := by
  simp only [List.mem_cons, List.not_mem_nil, or_false, not_or] at differs
  have key : (takeKey e).written? other = e.written? other := writtenTaken rfl differs.1
  have shown : (takeShow (takeKey e)).written? other = (takeKey e).written? other := writtenTaken rfl differs.2.1
  have once : (takeOnce (takeShow (takeKey e))).written? other = (takeShow (takeKey e)).written? other :=
    writtenTaken rfl differs.2.2
  rw [once, shown, key]

structure Keeps (e f : Element) : Prop where
  shape : f.shape = e.shape
  ifCondition : f.ifCondition = e.ifCondition
  elseIfCondition : f.elseIfCondition = e.elseIfCondition
  loop : f.loop = e.loop

theorem keepsTrans {e f g : Element} (left : Keeps e f) (right : Keeps f g) : Keeps e g :=
  ⟨right.shape.trans left.shape, right.ifCondition.trans left.ifCondition,
    right.elseIfCondition.trans left.elseIfCondition, right.loop.trans left.loop⟩

theorem keepsTakePlain (e : Element) : Keeps e (takeOnce (takeShow (takeKey e))) := by
  have key : Keeps e (takeKey e) := ⟨rfl, rfl, rfl, rfl⟩
  have shown (e : Element) : Keeps e (takeShow e) := ⟨rfl, rfl, rfl, rfl⟩
  have once (e : Element) : Keeps e (takeOnce e) := ⟨rfl, rfl, rfl, rfl⟩
  exact keepsTrans key (keepsTrans (shown _) (once _))

theorem keepsTakeRef (e : Element) : Keeps e (takeRef e) := ⟨rfl, rfl, rfl, rfl⟩

theorem keepsTakeSlot (e : Element) : Keeps e (takeSlot e) := by
  unfold takeSlot
  split <;> exact ⟨rfl, rfl, rfl, rfl⟩

theorem keepsBindAll (e : Element) : Keeps e (bindAll e) := by
  unfold bindAll
  split <;> exact ⟨rfl, rfl, rfl, rfl⟩

theorem keepsFoldPending (e : Element) : Keeps e (foldPending e) := by
  unfold foldPending
  split <;> exact ⟨rfl, rfl, rfl, rfl⟩

theorem fieldsTakeIf (e : Element) :
    (takeIf e).shape = e.shape ∧ (takeIf e).ifCondition = (e.written? "v-if").or e.ifCondition ∧
    (takeIf e).elseIfCondition = e.elseIfCondition ∧ (takeIf e).loop = e.loop := ⟨rfl, rfl, rfl, rfl⟩

theorem keepsTakeElse (e : Element) : Keeps e (takeElse e) := ⟨rfl, rfl, rfl, rfl⟩

theorem fieldsTakeElseIf (e : Element) :
    (takeElseIf e).shape = e.shape ∧ (takeElseIf e).ifCondition = e.ifCondition ∧
    (takeElseIf e).elseIfCondition = (e.written? "v-else-if").or e.elseIfCondition ∧
    (takeElseIf e).loop = e.loop := ⟨rfl, rfl, rfl, rfl⟩

theorem fieldsTakeLoop (e : Element) :
    (takeLoop e).shape = e.shape ∧ (takeLoop e).ifCondition = e.ifCondition ∧
    (takeLoop e).elseIfCondition = e.elseIfCondition ∧
    (takeLoop e).loop = ((e.written? "v-for").bind Loop.parse?).or e.loop := ⟨rfl, rfl, rfl, rfl⟩

theorem fieldsTaken (e : Element) :
    (takeLoop (takeElseIf (takeElse (takeIf e)))).shape = e.shape ∧
    (takeLoop (takeElseIf (takeElse (takeIf e)))).ifCondition = (e.written? "v-if").or e.ifCondition ∧
    (takeLoop (takeElseIf (takeElse (takeIf e)))).elseIfCondition =
      (e.written? "v-else-if").or e.elseIfCondition ∧
    (takeLoop (takeElseIf (takeElse (takeIf e)))).loop = ((e.written? "v-for").bind Loop.parse?).or e.loop := by
  have one := fieldsTakeIf e
  have two := keepsTakeElse (takeIf e)
  have three := fieldsTakeElseIf (takeElse (takeIf e))
  have four := fieldsTakeLoop (takeElseIf (takeElse (takeIf e)))
  have elseIf : (takeElse (takeIf e)).written? "v-else-if" = e.written? "v-else-if" := by
    rw [writtenTakeElse _ (by decide), writtenTakeIf e (by decide)]
  have loop : (takeElseIf (takeElse (takeIf e))).written? "v-for" = e.written? "v-for" := by
    rw [writtenTakeElseIf _ (by decide), writtenTakeElse _ (by decide), writtenTakeIf e (by decide)]
  refine ⟨?_, ?_, ?_, ?_⟩
  · rw [four.1, three.1, two.shape, one.1]
  · rw [four.2.1, three.2.1, two.ifCondition, one.2.1]
  · rw [four.2.2.1, three.2.2.1, two.elseIfCondition, one.2.2.1, elseIf]
  · rw [four.2.2.2, three.2.2.2, two.loop, one.2.2.2, loop]

theorem resolvedFields (e : Element) :
    (resolved e).shape = e.shape ∧ (resolved e).ifCondition = (e.written? "v-if").or e.ifCondition ∧
    (resolved e).elseIfCondition = (e.written? "v-else-if").or e.elseIfCondition ∧
    (resolved e).loop = ((e.written? "v-for").bind Loop.parse?).or e.loop := by
  obtain ⟨shape, condition, elseIf, loop⟩ := fieldsTaken e
  have later := keepsTrans (keepsTakePlain (takeLoop (takeElseIf (takeElse (takeIf e)))))
    (keepsTrans (keepsTakeRef _) (keepsTrans (keepsTakeSlot _) (keepsBindAll _)))
  exact ⟨later.shape.trans shape, later.ifCondition.trans condition, later.elseIfCondition.trans elseIf,
    later.loop.trans loop⟩

theorem elseAfterIf (around : Surroundings) (e : Element) :
    orphaned around "v-else" (takeIf e) = orphaned around "v-else" e := by
  unfold orphaned Element.carries
  rw [writtenTakeIf e (by decide)]

theorem elseIfAfterElse (around : Surroundings) (e : Element) :
    orphaned around "v-else-if" (takeElse (takeIf e)) = orphaned around "v-else-if" e := by
  unfold orphaned Element.carries
  rw [writtenTakeElse _ (by decide), writtenTakeIf e (by decide)]

theorem loopAfterElseIf (e : Element) : illegalLoop? (takeElseIf (takeElse (takeIf e))) = illegalLoop? e := by
  unfold illegalLoop?
  rw [writtenTakeElseIf _ (by decide), writtenTakeElse _ (by decide), writtenTakeIf e (by decide)]

theorem refAfterPlain (around : Surroundings) (e : Element) :
    unreachable around (takeOnce (takeShow (takeKey (takeLoop (takeElseIf (takeElse (takeIf e))))))) =
      unreachable around e := by
  have tag := Element.shapeTag ((keepsTakePlain _).shape.trans (fieldsTaken e).1)
  unfold unreachable Element.carries
  rw [writtenTakePlain _ (by decide), writtenTakeLoop _ (by decide), writtenTakeElseIf _ (by decide),
    writtenTakeElse _ (by decide), writtenTakeIf e (by decide), tag]

theorem resolveOk {around : Surroundings} {e : Element} (lawful : fault? around e = none) :
    resolve around e = .ok (resolved e) := by
  unfold fault? at lawful
  split at lawful
  · contradiction
  rename_i noElse
  split at lawful
  · contradiction
  rename_i noElseIf
  split at lawful
  · contradiction
  rename_i noLoop
  split at lawful
  · contradiction
  rename_i noRef
  rw [← elseAfterIf] at noElse
  rw [← elseIfAfterElse] at noElseIf
  rw [← loopAfterElseIf] at noLoop
  rw [← refAfterPlain] at noRef
  unfold resolve passes
  rw [runPassesOk (ifPassEq around e)]
  rw [runPassesOk ((elsePassEq around _).trans (if_neg noElse))]
  rw [runPassesOk ((elseIfPassEq around _).trans (if_neg noElseIf))]
  rw [runPassesOk (f := takeLoop (takeElseIf (takeElse (takeIf e)))) (by rw [loopPassEq, noLoop])]
  rw [runPassesOk (plainPassEq around _)]
  rw [runPassesOk ((refPassEq around _).trans (if_neg noRef))]
  rw [runPassesOk (slotPassEq around _)]
  rfl

theorem resolveFault {around : Surroundings} {e : Element} {cause : CompileError} (broken : fault? around e = some cause) :
    ∃ f, resolve around e = .error ⟨cause, f⟩ := by
  have one := Element.shapeTag (fieldsTakeIf e).1
  have two := (Element.shapeTag (keepsTakeElse (takeIf e)).shape).trans one
  have three := (Element.shapeTag (fieldsTakeElseIf (takeElse (takeIf e))).1).trans two
  have four := Element.shapeTag ((keepsTakePlain _).shape.trans (fieldsTaken e).1)
  unfold fault? at broken
  unfold resolve passes
  rw [runPassesOk (ifPassEq around e)]
  rw [← elseAfterIf] at broken
  split at broken
  · rename_i orphan
    cases broken
    have failed := (elsePassEq around _).trans (if_pos orphan)
    rw [one] at failed
    exact ⟨_, runPassesError failed⟩
  rename_i noElse
  rw [runPassesOk ((elsePassEq around _).trans (if_neg noElse))]
  rw [← elseIfAfterElse] at broken
  split at broken
  · rename_i orphan
    cases broken
    have failed := (elseIfPassEq around _).trans (if_pos orphan)
    rw [two] at failed
    exact ⟨_, runPassesError failed⟩
  rename_i noElseIf
  rw [runPassesOk ((elseIfPassEq around _).trans (if_neg noElseIf))]
  have loop := loopPassEq around (takeElseIf (takeElse (takeIf e)))
  rw [← loopAfterElseIf] at broken
  split at broken
  · rename_i illegal
    cases broken
    rw [illegal, three] at loop
    exact ⟨_, runPassesError loop⟩
  rename_i noLoop
  rw [noLoop] at loop
  rw [runPassesOk loop, runPassesOk (plainPassEq around _)]
  rw [← refAfterPlain] at broken
  split at broken
  · rename_i refused
    cases broken
    have failed := (refPassEq around _).trans (if_pos refused)
    rw [four] at failed
    exact ⟨_, runPassesError failed⟩
  · contradiction

theorem faultPosition {around : Surroundings} {e : Element} {cause : CompileError} (broken : fault? around e = some cause) :
    cause.kind = .semantic ∧ cause.position? = some around.position := by
  unfold fault? at broken
  split at broken
  · cases broken; exact ⟨rfl, rfl⟩
  split at broken
  · cases broken; exact ⟨rfl, rfl⟩
  split at broken
  · cases broken; exact ⟨rfl, rfl⟩
  split at broken
  · cases broken; exact ⟨rfl, rfl⟩
  · contradiction

theorem illegalLoopNone (e : Element) :
    illegalLoop? e = none ↔ ∀ written, e.written? "v-for" = some written → ∃ loop, Loop.parse? written = some loop := by
  unfold illegalLoop?
  cases e.written? "v-for" with
  | none => simp
  | some written =>
    cases parsed : Loop.parse? written with
    | none => simp [Option.filter, parsed]
    | some loop => simp [Option.filter, parsed]

theorem faultNone (around : Surroundings) (e : Element) :
    fault? around e = none ↔
      (e.carries "v-else" = true → around.followsCondition = true) ∧
      (e.carries "v-else-if" = true → around.followsCondition = true) ∧
      (∀ written, e.written? "v-for" = some written → ∃ loop, Loop.parse? written = some loop) ∧
      (e.carries "ref" = true → e.tag ≠ "template" ∧ around.parentHasLoop = false) := by
  rw [← illegalLoopNone]
  have orphan (name : String) :
      orphaned around name e = false ↔ (e.carries name = true → around.followsCondition = true) := by
    unfold orphaned
    cases e.carries name <;> cases around.followsCondition <;> decide
  have hidden : unreachable around e = false ↔
      (e.carries "ref" = true → e.tag ≠ "template" ∧ around.parentHasLoop = false) := by
    unfold unreachable Tag.isWrapper
    cases e.carries "ref" <;> cases around.parentHasLoop <;> simp
  rw [← orphan, ← orphan, ← hidden]
  unfold fault?
  cases orphaned around "v-else" e with
  | true => simp
  | false =>
    cases orphaned around "v-else-if" e with
    | true => simp
    | false =>
      cases illegalLoop? e with
      | some written => simp
      | none => cases unreachable around e <;> simp

end Directive
end Templating
