import Templating.Proofs.Analysing

/-!
What becomes of the attributes of one element. Where they are taken literally, the pending ones go
behind the others; where directives are resolved, an attribute is a directive and becomes a field, or
is pending and becomes a binding, or is literal in the end. The names of pending attributes are never
those of literal ones, so none takes the place of another.
-/
namespace Templating

namespace Element

def opening (e : Element) : Element := { e with children := [], text := none, data := none }

theorem openingBare {e : Element} (bare : e.Bare) : e.opening = e := by
  rw [bare]
  rfl

def pendingEntries (e : Element) : List (String × AttributeValue) := (e.pending.getD Table.empty).entries

theorem pendingDistinct (e : Element) : (e.pendingEntries.map Prod.fst).Nodup := (e.pending.getD Table.empty).distinct

/- No directive has been resolved: there are a tag, literal attributes and a content, and the mark of
a verbatim subtree. -/
def Literal (e : Element) : Prop :=
  e = { tag := e.tag, attributes := e.attributes, children := e.children, text := e.text, pre := e.pre }

/- What a literal attribute says: `true` where it is written without a value. -/
def stated? (e : Element) (name : String) : Option String :=
  match e.attributes.find? name with
  | none => none
  | some .flag => some "true"
  | some (.text value) => some value

theorem writtenStated (e : Element) (name : String) : e.written? name = e.stated? name := by
  unfold written? stated?
  cases e.attributes.find? name with
  | none => rfl
  | some value => cases value <;> rfl

theorem filedApart {e : Element} (filed : e.Filed) {entry : String × AttributeValue} (member : entry ∈ e.pendingEntries) :
    entry.1 ∉ e.attributes.names := by
  intro known
  have binds := filed.pending entry.1 (List.mem_map_of_mem member)
  rw [filed.literal entry.1 known] at binds
  contradiction

theorem filedWithout {e : Element} (filed : e.Filed) (name : String) : (e.without name).Filed := by
  refine ⟨?_, filed.pending⟩
  intro other member
  exact filed.literal other ((List.filter_sublist.map Prod.fst).subset member)

end Element

namespace Directive
open Analysis

theorem foldPendingEntries {e : Element} (filed : e.Filed) :
    (foldPending e).attributes.entries = e.attributes.entries ++ e.pendingEntries := by
  have apart (entry : String × AttributeValue) (member : entry ∈ e.pendingEntries) := Element.filedApart filed member
  have distinct := e.pendingDistinct
  unfold Element.pendingEntries at apart distinct ⊢
  unfold foldPending
  cases pending : e.pending with
  | none => exact (List.append_nil _).symm
  | some table =>
    rw [pending] at apart distinct
    exact Table.insertAllNew distinct apart

theorem foldPendingLiteral {e : Element}
    (bare : e = { tag := e.tag, attributes := e.attributes, pending := e.pending, pre := e.pre }) :
    (foldPending e).Literal ∧ (foldPending e).tag = e.tag ∧ (foldPending e).pre = e.pre := by
  rw [bare]
  unfold foldPending
  dsimp only
  split
  · rename_i none
    rw [none]
    exact ⟨rfl, rfl, rfl⟩
  · exact ⟨rfl, rfl, rfl⟩

structure TakenLiterally (inside : Bool) (e f : Element) : Prop where
  literal : f.Literal
  tag : f.tag = e.tag
  pre : f.pre = (!inside && e.carries "v-pre")
  attributes : f.attributes.entries =
    (if inside then e.attributes.entries else e.attributes.entries.filter fun entry => entry.1 ≠ "v-pre") ++
      e.pendingEntries

theorem letInLiteral {options : Options} {inside : Bool} {e : Element} (bare : e.Bare) (filed : e.Filed)
    (literal : (inside || e.carries "v-pre" || options.isRawText e.tag) = true) :
    TakenLiterally inside e (letIn options inside e) := by
  have unmarked : e.pre = false := by rw [bare]
  have plain : e = { tag := e.tag, attributes := e.attributes, pending := e.pending, pre := e.pre } := by rw [bare]
  obtain ⟨folded, tag, pre⟩ := foldPendingLiteral plain
  rw [unmarked] at pre
  unfold letIn
  cases inside with
  | true => exact ⟨folded, tag, pre, foldPendingEntries filed⟩
  | false =>
    cases marked : e.carries "v-pre" with
    | true =>
      have stripped : Element.Filed { e.without "v-pre" with pre := true } :=
        ⟨(Element.filedWithout filed "v-pre").literal, filed.pending⟩
      obtain ⟨folded, tag, pre⟩ := foldPendingLiteral (e := { e.without "v-pre" with pre := true }) (by rw [bare]; rfl)
      exact ⟨folded, tag, by rw [marked]; exact pre, foldPendingEntries stripped⟩
    | false =>
      rw [marked] at literal
      have rawText : options.isRawText e.tag = true := literal
      have kept : e.without "v-pre" = e := by
        refine Element.withoutAbsent ?_
        exact Option.isNone_iff_eq_none.mp (Option.isSome_eq_false_iff.mp marked)
      have entries := congrArg (fun e => e.attributes.entries) kept
      simp only [rawText, if_true, Bool.false_eq_true, if_false]
      refine ⟨folded, tag, by rw [marked]; exact pre, ?_⟩
      rw [foldPendingEntries filed]
      exact congrArg (· ++ e.pendingEntries) entries.symm

def directiveNames (tag : String) : List String :=
  ["v-if", "v-else", "v-else-if", "v-for", "key", "v-show", "v-once", "ref", if tag = "slot" then "name" else "slot"]

/-- What has become in `f` of each attribute of `e`. -/
structure ResolvedFrom (e f : Element) : Prop where
  tag : f.tag = e.tag
  pending : f.pending = none
  pre : f.pre = false
  attributes : f.attributes.entries =
    e.attributes.entries.filter (fun entry => entry.1 ∉ directiveNames e.tag) ++
      e.pendingEntries.filter fun entry => BindingName.parse? entry.1 = none
  bindings : f.bindings = e.pendingEntries.filterMap fun entry =>
    (BindingName.parse? entry.1).map fun name => ⟨entry.1, name.name, name.arg, name.modifiers, entry.2⟩
  ifCondition : f.ifCondition = e.stated? "v-if"
  elseIfCondition : f.elseIfCondition = e.stated? "v-else-if"
  isElse : f.isElse = (e.stated? "v-else").isSome
  loop : f.loop = (e.stated? "v-for").bind Loop.parse?
  key : f.key = e.stated? "key"
  showCondition : f.showCondition = e.stated? "v-show"
  once : f.once = e.stated? "v-once"
  ref : f.ref = e.stated? "ref"
  slot : f.slot = if e.tag = "slot" then none else e.stated? "slot"
  slotName : f.slotName = if e.tag = "slot" then e.stated? "name" else none

def taken (e : Element) : Element :=
  e |> takeIf |> takeElse |> takeElseIf |> takeLoop |> takeKey |> takeShow |> takeOnce |> takeRef |> takeSlot

theorem resolvedTaken (e : Element) : resolved e = bindAll (taken e) := rfl

theorem takenBare {e : Element} (bare : e.Bare) :
    taken e = {
      tag := e.tag
      attributes := (directiveNames e.tag).foldl Table.erase e.attributes
      pending := e.pending
      ifCondition := e.stated? "v-if"
      isElse := (e.stated? "v-else").isSome
      elseIfCondition := e.stated? "v-else-if"
      loop := (e.stated? "v-for").bind Loop.parse?
      key := e.stated? "key"
      showCondition := e.stated? "v-show"
      once := e.stated? "v-once"
      ref := e.stated? "ref"
      slot := if e.tag = "slot" then none else e.stated? "slot"
      slotName := if e.tag = "slot" then e.stated? "name" else none } := by
  simp only [← Element.writtenStated]
  unfold Element.Bare at bare
  rw [bare]
  -- each pass is evaluated on an element that says nothing but its tag and attributes
  by_cases slot : e.tag = "slot" <;>
    simp [taken, takeIf, takeElse, takeElseIf, takeLoop, takeKey, takeShow, takeOnce, takeRef, takeSlot, Element.without,
      Element.written?, Element.carries, Table.findErase, directiveNames, Tag.isSlot, slot]

theorem bindAllEntries {e : Element} (filed : e.Filed) :
    (bindAll e).attributes.entries =
      e.attributes.entries ++ e.pendingEntries.filter fun entry => BindingName.parse? entry.1 = none := by
  have apart (entry : String × AttributeValue) (member : entry ∈ e.pendingEntries) := Element.filedApart filed member
  have distinct := e.pendingDistinct
  unfold Element.pendingEntries at apart distinct ⊢
  unfold bindAll
  cases pending : e.pending with
  | none => exact (List.append_nil _).symm
  | some table =>
    rw [pending] at apart distinct
    have rejected (entry : String × AttributeValue) :
        (Binding.ofAttribute? entry.1 entry.2).isNone = decide (BindingName.parse? entry.1 = none) := by
      unfold Binding.ofAttribute?
      cases BindingName.parse? entry.1 <;> simp
    simp only [Option.getD_some] at apart distinct ⊢
    simp only [rejected]
    refine Table.insertAllNew ((List.filter_sublist.map Prod.fst).nodup distinct) ?_
    intro entry member
    exact apart entry (List.mem_filter.mp member).1

theorem bindAllBindings (e : Element) :
    (bindAll e).bindings = e.bindings ++ e.pendingEntries.filterMap fun entry => Binding.ofAttribute? entry.1 entry.2 := by
  unfold bindAll Element.pendingEntries
  cases e.pending with
  | none => exact (List.append_nil _).symm
  | some table => rfl

theorem bindAllKeeps (e : Element) :
    bindAll e = { e with
      pending := none, attributes := (bindAll e).attributes, bindings := (bindAll e).bindings } := by
  unfold bindAll
  split
  · rename_i none
    rw [← none]
  · rfl

theorem resolvedBare {e : Element} (bare : e.Bare) (filed : e.Filed) : ResolvedFrom e (resolved e) := by
  have fields := takenBare bare
  have entries : (taken e).attributes.entries = e.attributes.entries.filter fun entry => entry.1 ∉ directiveNames e.tag := by
    rw [fields, Table.entriesEraseAll]
  have pending : (taken e).pendingEntries = e.pendingEntries := by
    unfold Element.pendingEntries
    rw [fields]
  have still : (taken e).Filed := by
    refine ⟨?_, ?_⟩
    · intro name member
      rw [Table.names, entries] at member
      exact filed.literal name ((List.filter_sublist.map Prod.fst).subset member)
    · rw [fields]
      exact filed.pending
  have none : (taken e).bindings = [] := by rw [fields]
  have whole := bindAllKeeps (taken e)
  have attributes := bindAllEntries still
  have bindings := bindAllBindings (taken e)
  rw [entries, pending] at attributes
  rw [none, pending, List.nil_append] at bindings
  rw [← resolvedTaken] at whole attributes bindings
  rw [fields] at whole
  refine ⟨?_, ?_, ?_, attributes, bindings, ?_, ?_, ?_, ?_, ?_, ?_, ?_, ?_, ?_, ?_⟩
  all_goals rw [whole]

theorem letInShape (options : Options) (inside : Bool) (e : Element) : (letIn options inside e).shape = e.shape := by
  unfold letIn
  split
  · exact (keepsFoldPending e).shape
  · split
    · exact (keepsFoldPending { e.without "v-pre" with pre := true }).shape
    · split
      · exact (keepsFoldPending e).shape
      · exact (resolvedFields e).1

theorem letInOpening (options : Options) (inside : Bool) {e : Element} (bare : e.Bare) :
    (letIn options inside e).opening = letIn options inside e := by
  have shape := letInShape options inside e
  have data : (letIn options inside e).data = none := by
    have folded (g : Element) (empty : g.data = none) : (foldPending g).data = none := by
      unfold foldPending
      split <;> exact empty
    have nothing : e.data = none := by rw [bare]
    unfold letIn
    split
    · exact folded e nothing
    · split
      · exact folded { e.without "v-pre" with pre := true } nothing
      · split
        · exact folded e nothing
        · rw [resolvedTaken, bindAllKeeps, takenBare bare]
  have start : e.shape = .element e.tag [] none := by
    rw [bare]
    rfl
  rw [start, Element.shape, Shape.element.injEq] at shape
  obtain ⟨_, children, text⟩ := shape
  unfold Element.opening
  rw [← children, ← text, ← data]

theorem letInPre (options : Options) (inside : Bool) {e : Element} (bare : e.Bare) (filed : e.Filed) :
    (letIn options inside e).pre = (!inside && e.carries "v-pre") := by
  cases literal : inside || e.carries "v-pre" || options.isRawText e.tag with
  | true => exact (letInLiteral bare filed literal).pre
  | false =>
    simp only [Bool.or_eq_false_iff] at literal
    obtain ⟨⟨outside, unmarked⟩, plain⟩ := literal
    have resolves : letIn options inside e = resolved e := by simp [letIn, outside, unmarked, plain]
    rw [resolves, (resolvedBare bare filed).pre, unmarked, Bool.and_false]

end Directive
end Templating
