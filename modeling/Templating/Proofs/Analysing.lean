import Templating.Proofs.Resolution
import Templating.Analysis

/-!
The analyser as a receiver. It changes no outline, and it stops a build in one way only: an element
whose attributes are not taken literally is opened and breaks a rule.
-/
namespace Templating.Analysis
open Directive

def takesLiterally (a : Analysis) (options : Options) (e : Element) : Bool :=
  a.inVerbatim || e.carries "v-pre" || options.isRawText e.tag

def enter (a : Analysis) (id : NodeId) (e : Element) : Analysis :=
  if !a.inVerbatim && e.carries "v-pre" then { a with verbatim := some id } else a

def letIn (options : Options) (inside : Bool) (e : Element) : Element :=
  if inside then foldPending e
  else if e.carries "v-pre" then foldPending { e.without "v-pre" with pre := true }
  else if options.isRawText e.tag then foldPending e
  else resolved e

theorem startVerbatimEq (e : Element) :
    startVerbatim? e = if e.carries "v-pre" then some { e.without "v-pre" with pre := true } else none := by
  unfold startVerbatim? Element.carries Element.written? Element.take
  cases e.attributes.find? "v-pre" <;> rfl

theorem letInCases (a : Analysis) (options : Options) (e : Element) :
    if a.takesLiterally options e then Keeps e (letIn options a.inVerbatim e)
    else letIn options a.inVerbatim e = resolved e := by
  have marked : Keeps e { e.without "v-pre" with pre := true } := ⟨rfl, rfl, rfl, rfl⟩
  unfold takesLiterally letIn
  cases a.inVerbatim with
  | true => exact keepsFoldPending e
  | false =>
    cases e.carries "v-pre" with
    | true => exact keepsTrans marked (keepsFoldPending _)
    | false =>
      cases options.isRawText e.tag with
      | true => exact keepsFoldPending e
      | false => rfl

theorem openElementLiteral {a : Analysis} {options : Options} {e : Element} (literal : a.takesLiterally options e = true)
    (around : Surroundings) (id : NodeId) :
    a.openElement options around id e = .ok (a.enter id e, letIn options a.inVerbatim e) := by
  unfold takesLiterally at literal
  unfold openElement enter letIn
  rw [startVerbatimEq]
  cases inside : a.inVerbatim with
  | true => simp [inside]
  | false =>
    cases marked : e.carries "v-pre" with
    | true => simp [inVerbatim]
    | false =>
      rw [inside, marked] at literal
      have rawText : options.isRawText e.tag = true := literal
      simp [rawText]

theorem openElementResolved {a : Analysis} {options : Options} {e : Element}
    (resolves : a.takesLiterally options e = false) (around : Surroundings) (id : NodeId) :
    a.openElement options around id e = (resolve around e).map fun f => (a, f) := by
  unfold takesLiterally at resolves
  simp only [Bool.or_eq_false_iff] at resolves
  obtain ⟨⟨outside, unmarked⟩, plain⟩ := resolves
  unfold openElement
  rw [startVerbatimEq]
  simp [outside, unmarked, plain]

def noteOpened (a : Analysis) (id : NodeId) (node : Node) : Analysis :=
  if node.done then a.finish id else { a with parents := id :: a.parents }

theorem outsideSublist (id : NodeId) (parents : List NodeId) : (outside id parents).Sublist parents := by
  unfold outside
  split
  · exact (List.drop_sublist 1 _).trans (List.dropWhile_sublist _)
  · exact List.Sublist.refl parents

def refuses? (a : Analysis) (options : Options) (source : List Char) (arena : Arena) (node : Node) (e : Element) :
    Option CompileError :=
  if a.takesLiterally options e then none else fault? (a.surroundings source arena node) e

theorem openedRefused {a : Analysis} {options : Options} {source : List Char} {arena : Arena} {id : NodeId}
    {node : Node} {e : Element} {cause : CompileError} (got : arena.get? id = some node)
    (content : node.content = .element e) (refused : a.refuses? options source arena node e = some cause) :
    ∃ state, opened options source id a arena = .error ⟨cause, state⟩ := by
  unfold refuses? at refused
  split at refused
  · contradiction
  · rename_i resolves
    obtain ⟨f, failed⟩ := resolveFault refused
    have outcome := openElementResolved (by simpa using resolves) (a.surroundings source arena node) id
    rw [failed] at outcome
    unfold opened
    simp only [got, content, outcome]
    exact ⟨_, rfl⟩

theorem openedAs {a : Analysis} {options : Options} {source : List Char} {arena : Arena} {id : NodeId}
    {node : Node} {e : Element} (got : arena.get? id = some node) (content : node.content = .element e)
    (lawful : a.refuses? options source arena node e = none) :
    opened options source id a arena = .ok ((a.enter id e).noteOpened id node, arena.modify id fun _ =>
      { node with
        content := .element (letIn options a.inVerbatim e), parent := a.parents.head?, root := a.parents.isEmpty }) := by
  have outcome : a.openElement options (a.surroundings source arena node) id e =
      .ok (a.enter id e, letIn options a.inVerbatim e) := by
    unfold refuses? at lawful
    split at lawful
    · rename_i literal
      exact openElementLiteral literal _ id
    · rename_i resolves
      have unmarked : a.takesLiterally options e = false := by simpa using resolves
      have admitted := a.letInCases options e
      rw [if_neg resolves] at admitted
      have stays : a.enter id e = a := by
        unfold takesLiterally at unmarked
        simp only [Bool.or_eq_false_iff] at unmarked
        simp [enter, unmarked.1.2]
      rw [openElementResolved unmarked, resolveOk lawful, admitted, stays]
      rfl
  unfold opened noteOpened
  simp only [got, content, outcome]

theorem openedAdmitted {a : Analysis} {options : Options} {source : List Char} {arena : Arena} {id : NodeId}
    {node : Node} {e : Element} (got : arena.get? id = some node) (content : node.content = .element e)
    (lawful : a.refuses? options source arena node e = none) :
    ∃ f, opened options source id a arena =
        .ok ((a.enter id e).noteOpened id node, arena.modify id fun _ =>
          { node with content := .element f, parent := a.parents.head?, root := a.parents.isEmpty }) ∧
      if a.takesLiterally options e then Keeps e f else f = resolved e :=
  ⟨letIn options a.inVerbatim e, openedAs got content lawful, a.letInCases options e⟩

theorem openedLawful {a after : Analysis} {options : Options} {source : List Char} {arena changed : Arena} {id : NodeId}
    {node : Node} {e : Element} (got : arena.get? id = some node) (content : node.content = .element e)
    (told : opened options source id a arena = .ok (after, changed)) :
    a.refuses? options source arena node e = none := by
  cases refused : a.refuses? options source arena node e with
  | none => rfl
  | some cause =>
    obtain ⟨state, failed⟩ := openedRefused got content refused
    rw [failed] at told
    contradiction

theorem openedElement {a after : Analysis} {options : Options} {source : List Char} {arena changed : Arena} {id : NodeId}
    {node : Node} {e : Element} (got : arena.get? id = some node) (content : node.content = .element e)
    (told : opened options source id a arena = .ok (after, changed)) :
    after = (a.enter id e).noteOpened id node ∧ changed = arena.modify id fun _ =>
      { node with
        content := .element (letIn options a.inVerbatim e), parent := a.parents.head?, root := a.parents.isEmpty } := by
  rw [openedAs got content (openedLawful got content told)] at told
  cases told
  exact ⟨rfl, rfl⟩

theorem admittedShape {a : Analysis} {options : Options} {e f : Element}
    (admitted : if a.takesLiterally options e then Keeps e f else f = resolved e) : f.shape = e.shape := by
  split at admitted
  · exact admitted.shape
  · rw [admitted]
    exact (resolvedFields e).1

theorem openedLeaf (a : Analysis) (options : Options) (source : List Char) {arena : Arena} {id : NodeId} {node : Node}
    (got : arena.get? id = some node) (leaf : ∀ e, node.content ≠ .element e) :
    opened options source id a arena =
      .ok (if node.done then a.finish id else a,
        arena.modify id fun _ => { node with parent := a.parents.head?, root := a.parents.isEmpty }) := by
  unfold opened
  cases content : node.content with
  | element e => exact absurd content (leaf e)
  | comment | doctype => simp only [got, content]

theorem finishParents (a : Analysis) (id : NodeId) : (a.finish id).parents = a.parents := by
  unfold finish leave
  split <;> rfl

theorem enterParents (a : Analysis) (id : NodeId) (e : Element) : (a.enter id e).parents = a.parents := by
  unfold enter
  split <;> rfl

theorem finishPrevious (a : Analysis) (id : NodeId) : (a.finish id).previous = some id := by
  unfold finish leave
  split <;> rfl

theorem enterPrevious (a : Analysis) (id : NodeId) (e : Element) : (a.enter id e).previous = a.previous := by
  unfold enter
  split <;> rfl

theorem openedPrevious {a after : Analysis} {options : Options} {source : List Char} {arena changed : Arena} {id : NodeId}
    {node : Node} (got : arena.get? id = some node) (told : opened options source id a arena = .ok (after, changed)) :
    after.previous = if node.done then some id else a.previous := by
  rcases node.contentCases with ⟨e, content⟩ | leaf
  · rw [(openedElement got content told).1, noteOpened]
    split
    · exact finishPrevious _ id
    · exact enterPrevious a id e
  · rw [openedLeaf a options source got leaf] at told
    cases told
    split
    · exact finishPrevious a id
    · rfl

theorem collectDataShape (delimiters : Delimiters) (e : Element) : (collectData delimiters e).shape = e.shape := by
  unfold collectData
  split <;> rfl

theorem closedAlike (options : Options) (id : NodeId) (a : Analysis) (arena : Arena) :
    (closed options id a arena).2.Alike arena := by
  unfold closed
  dsimp only
  split
  · rfl
  · refine Arena.alikeModifySelf fun node _ => Node.outlineMapElementSelf fun e => ?_
    split
    · rfl
    · exact collectDataShape options.delimiters e

theorem openedAlike {options : Options} {source : List Char} {id : NodeId} {a after : Analysis} {arena changed : Arena}
    (ok : opened options source id a arena = .ok (after, changed)) : changed.Alike arena := by
  cases got : arena.get? id with
  | none =>
    simp only [opened, got] at ok
    cases ok
    rfl
  | some node =>
    rcases node.contentCases with ⟨e, content⟩ | leaf
    · obtain ⟨f, outcome, admitted⟩ := openedAdmitted got content (openedLawful got content ok)
      rw [outcome] at ok
      cases ok
      refine Arena.alikeModifySelf fun other same => ?_
      cases got.symm.trans same
      simp only [Node.outline, content, Content.shape, admittedShape admitted]
    · rw [openedLeaf a options source got leaf] at ok
      cases ok
      refine Arena.alikeModifySelf fun other same => ?_
      cases got.symm.trans same
      rfl

theorem openedError {options : Options} {source : List Char} {id : NodeId} {a : Analysis} {arena : Arena}
    {halt : Halt (Analysis × Arena)} (failed : opened options source id a arena = .error halt) :
    ∃ node e, arena.get? id = some node ∧ node.content = .element e ∧
      a.refuses? options source arena node e = some halt.cause := by
  cases got : arena.get? id with
  | none =>
    simp only [opened, got] at failed
    contradiction
  | some node =>
    rcases node.contentCases with ⟨e, content⟩ | leaf
    · refine ⟨node, e, rfl, content, ?_⟩
      cases refused : a.refuses? options source arena node e with
      | none =>
        obtain ⟨_, outcome, _⟩ := openedAdmitted got content refused
        rw [outcome] at failed
        contradiction
      | some cause =>
        obtain ⟨state, outcome⟩ := openedRefused got content refused
        rw [outcome] at failed
        cases failed
        rfl
    · rw [openedLeaf a options source got leaf] at failed
      contradiction

end Templating.Analysis
