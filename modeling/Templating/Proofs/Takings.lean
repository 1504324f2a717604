import Templating.Proofs.Attributes
import Mathlib.Data.List.Nodup
import Mathlib.Data.List.Pairwise

/-!
What a pass over an element's directives reads and sets. All but the last of the passes take
attributes of their own and set fields of their own (`Taking`), the last one files what is pending; so
each does the same before any other as behind it, and has nothing left to do where it has been.
-/
namespace Templating
open Markup

namespace Table
variable {α : Type}

theorem findEraseAll (table : Table α) (names : List String) (name : String) :
    (names.foldl erase table).find? name = if name ∈ names then none else table.find? name := by
  induction names generalizing table with
  | nil => rfl
  | cons first names ih =>
    rw [List.foldl_cons, ih, findErase]
    by_cases same : name = first <;> simp [same]

theorem eraseAllSwap (table : Table α) (names others : List String) :
    others.foldl erase (names.foldl erase table) = names.foldl erase (others.foldl erase table) := by
  apply entriesInjective
  simp only [entriesEraseAll, List.filter_filter, Bool.and_comm]

theorem placeFilter {name : String} {value : α} {names : List String} (kept : name ∉ names) (entries : List (String × α)) :
    (place name value entries).filter (fun entry => entry.1 ∉ names) =
      place name value (entries.filter fun entry => entry.1 ∉ names) := by
  induction entries with
  | nil => simp [place, kept]
  | cons entry rest ih =>
    by_cases here : entry.1 = name
    · simp [place, here, kept]
    · by_cases gone : entry.1 ∈ names
      · simp only [place, here, if_false, List.filter_cons, gone, not_true_eq_false, decide_false, Bool.false_eq_true, ih]
      · simp only [place, here, if_false, List.filter_cons, gone, not_false_eq_true, decide_true, if_true, ih]

theorem eraseAllInsertAll {entries : List (String × α)} {names : List String} (kept : ∀ entry ∈ entries, entry.1 ∉ names)
    (table : Table α) : names.foldl erase (table.insertAll entries) = (names.foldl erase table).insertAll entries := by
  induction entries generalizing table with
  | nil => rfl
  | cons entry rest ih =>
    have one : names.foldl erase (table.insert entry.1 entry.2) = (names.foldl erase table).insert entry.1 entry.2 := by
      apply entriesInjective
      rw [entriesEraseAll, insertEntries, insertEntries, entriesEraseAll]
      exact placeFilter (kept entry List.mem_cons_self) table.entries
    calc names.foldl erase (table.insertAll (entry :: rest))
        = names.foldl erase ((table.insert entry.1 entry.2).insertAll rest) := rfl
      _ = (names.foldl erase (table.insert entry.1 entry.2)).insertAll rest :=
          ih (fun other member => kept other (List.mem_cons_of_mem entry member)) _
      _ = ((names.foldl erase table).insert entry.1 entry.2).insertAll rest := by rw [one]
      _ = (names.foldl erase table).insertAll (entry :: rest) := rfl

end Table

namespace Element

/- Only names of bindings are pending, as start tags file attributes. -/
def Queued (e : Element) : Prop := ∀ name ∈ (e.pending.getD Table.empty).names, isBindingName name.toList = true

def among (e : Element) (names : List String) (name : String) : Option String :=
  if name ∈ names then e.written? name else none

def withoutAll (e : Element) (names : List String) : Element := { e with attributes := names.foldl Table.erase e.attributes }

def refiled (e : Element) (attributes : Table AttributeValue) (pending : Option (Table AttributeValue))
    (bindings : List Binding) : Element :=
  { e with attributes, pending, bindings }

theorem amongOnly (e : Element) (name : String) : e.among [name] name = e.written? name :=
  if_pos (List.mem_singleton_self name)

theorem amongApart {names others : List String} (apart : ∀ name ∈ others, name ∉ names) {e f : Element}
    (attributes : f.attributes = names.foldl Table.erase e.attributes) : f.among others = e.among others := by
  funext name
  unfold among written?
  split
  · rename_i member
    rw [attributes, Table.findEraseAll, if_neg (apart name member)]
  · rfl

theorem amongTaken {names : List String} {e f : Element} (attributes : f.attributes = names.foldl Table.erase e.attributes) :
    f.among names = fun _ => none := by
  funext name
  unfold among written?
  split
  · rename_i member
    rw [attributes, Table.findEraseAll, if_pos member]
    rfl
  · rfl

theorem withoutNothing {e : Element} {names : List String} (nothing : e.among names = fun _ => none) :
    e.withoutAll names = e := by
  have absent : ∀ name ∈ names, e.written? name = none := by
    intro name member
    have here := congrFun nothing name
    rwa [among, if_pos member] at here
  clear nothing
  induction names with
  | nil => rfl
  | cons name names ih =>
    have first : e.without name = e := withoutAbsent (absent name List.mem_cons_self)
    have later := ih fun other member => absent other (List.mem_cons_of_mem name member)
    calc e.withoutAll (name :: names) = (e.without name).withoutAll names := rfl
      _ = e := by rw [first, later]

end Element

namespace Directive

def bindingsOf (table : Table AttributeValue) : List Binding :=
  table.entries.filterMap fun entry => Binding.ofAttribute? entry.1 entry.2

def literalsOf (table : Table AttributeValue) : List (String × AttributeValue) :=
  table.entries.filter fun entry => (Binding.ofAttribute? entry.1 entry.2).isNone

theorem bindAllNone {e : Element} (none : e.pending = none) : bindAll e = e := by
  unfold bindAll
  rw [none]

theorem bindAllSome {e : Element} {table : Table AttributeValue} (pending : e.pending = some table) :
    bindAll e = e.refiled (e.attributes.insertAll (literalsOf table)) none (e.bindings ++ bindingsOf table) := by
  unfold bindAll
  rw [pending]
  rfl

/-- What a pass does that goes by attributes of its own: it refuses the element for what they say, or
sets fields of its own to that and takes them off. Where nothing is written under their names the
element stays as it is. -/
structure Taking where
  names : String → List String
  refuses : Surroundings → String → (String → Option String) → Bool
  put : (String → Option String) → Element → Element
  literal : ∀ tag, ∀ name ∈ names tag, isBindingName name.toList = false := by intro _; decide
  tag : ∀ written e, (put written e).tag = e.tag := by intros; rfl
  frame : ∀ written (e : Element) attributes pending bindings,
    put written (e.refiled attributes pending bindings) = (put written e).refiled attributes pending bindings := by
      intros; rfl
  idle : ∀ e, put (fun _ => none) e = e := by intros; rfl
  lawful : ∀ around tag, refuses around tag (fun _ => none) = false := by intros; rfl

namespace Taking

def outcome (t : Taking) (around : Surroundings) (e : Element) : Option Element :=
  if t.refuses around e.tag (e.among (t.names e.tag)) then none
  else some (t.put (e.among (t.names e.tag)) (e.withoutAll (t.names e.tag)))

theorem outcomeOf {t : Taking} {around : Surroundings} {e f : Element} {refused : Bool}
    (refuses : t.refuses around e.tag (e.among (t.names e.tag)) = refused)
    (put : t.put (e.among (t.names e.tag)) (e.withoutAll (t.names e.tag)) = f) :
    t.outcome around e = if refused then none else some f := by
  rw [outcome, refuses, put]

theorem putFiled (t : Taking) (written : String → Option String) (e : Element) :
    t.put written e = (t.put written e).refiled e.attributes e.pending e.bindings :=
  t.frame written e e.attributes e.pending e.bindings

theorem putAttributes (t : Taking) (written : String → Option String) (e : Element) :
    (t.put written e).attributes = e.attributes := by
  rw [t.putFiled]
  rfl

theorem putPending (t : Taking) (written : String → Option String) (e : Element) :
    (t.put written e).pending = e.pending := by
  rw [t.putFiled]
  rfl

theorem putBindings (t : Taking) (written : String → Option String) (e : Element) :
    (t.put written e).bindings = e.bindings := by
  rw [t.putFiled]
  rfl

theorem putWithoutAll (t : Taking) (written : String → Option String) (e : Element) (names : List String) :
    (t.put written e).withoutAll names = t.put written (e.withoutAll names) := by
  calc (t.put written e).withoutAll names
      = (t.put written e).refiled (names.foldl Table.erase (t.put written e).attributes) (t.put written e).pending
          (t.put written e).bindings := rfl
    _ = (t.put written e).refiled (names.foldl Table.erase e.attributes) e.pending e.bindings := by
        rw [t.putAttributes, t.putPending, t.putBindings]
    _ = t.put written (e.withoutAll names) := (t.frame written e _ _ _).symm

theorem putBindAll (t : Taking) (written : String → Option String) (e : Element) :
    bindAll (t.put written e) = t.put written (bindAll e) := by
  have kept := t.putPending written e
  cases pending : e.pending with
  | none => rw [bindAllNone pending, bindAllNone (kept.trans pending)]
  | some table =>
    rw [bindAllSome pending, bindAllSome (kept.trans pending), t.putAttributes, t.putBindings, t.frame]

end Taking

theorem literalsApart {e : Element} (queued : e.Queued) {table : Table AttributeValue} (pending : e.pending = some table)
    {names : List String} (literal : ∀ name ∈ names, isBindingName name.toList = false) :
    ∀ entry ∈ literalsOf table, entry.1 ∉ names := by
  intro entry member known
  have binds : isBindingName entry.1.toList = true := by
    apply queued
    rw [pending]
    exact List.mem_map_of_mem (List.mem_filter.mp member).1
  rw [literal entry.1 known] at binds
  contradiction

theorem bindAllWithoutAll {e : Element} (queued : e.Queued) {names : List String}
    (literal : ∀ name ∈ names, isBindingName name.toList = false) :
    bindAll (e.withoutAll names) = (bindAll e).withoutAll names := by
  cases pending : e.pending with
  | none => rw [bindAllNone pending, bindAllNone (e := e.withoutAll names) pending]
  | some table =>
    rw [bindAllSome pending, bindAllSome (e := e.withoutAll names) pending]
    simp only [Element.withoutAll, Element.refiled, Table.eraseAllInsertAll (literalsApart queued pending literal)]

theorem bindAllAmong {e : Element} (queued : e.Queued) {names : List String}
    (literal : ∀ name ∈ names, isBindingName name.toList = false) : (bindAll e).among names = e.among names := by
  cases pending : e.pending with
  | none => rw [bindAllNone pending]
  | some table =>
    rw [bindAllSome pending]
    funext name
    unfold Element.among Element.written?
    split
    · rename_i member
      have apart : name ∉ (literalsOf table).map Prod.fst := by
        intro known
        obtain ⟨entry, found, rfl⟩ := List.mem_map.mp known
        exact literalsApart queued pending literal entry found member
      simp only [Element.refiled, Table.findInsertOthers apart]
    · rfl

namespace Taking

structure Apart (t u : Taking) : Prop where
  names : ∀ tag, ∀ name ∈ t.names tag, name ∉ u.names tag
  puts : ∀ written further e, t.put written (u.put further e) = u.put further (t.put written e)

theorem apartSymm {t u : Taking} (apart : t.Apart u) : u.Apart t :=
  ⟨fun tag name member known => apart.names tag name known member, fun written further e => (apart.puts further written e).symm⟩

theorem outcomeBehind {t u : Taking} (apart : t.Apart u) (around : Surroundings) (e : Element) :
    (t.outcome around e).bind (u.outcome around) =
      if t.refuses around e.tag (e.among (t.names e.tag)) || u.refuses around e.tag (e.among (u.names e.tag)) then none
      else some (u.put (e.among (u.names e.tag)) (t.put (e.among (t.names e.tag))
        ((e.withoutAll (t.names e.tag)).withoutAll (u.names e.tag)))) := by
  have others : ∀ name ∈ u.names e.tag, name ∉ t.names e.tag := (apartSymm apart).names e.tag
  have tag := t.tag (e.among (t.names e.tag)) (e.withoutAll (t.names e.tag))
  have seen := Element.amongApart others (t.putAttributes (e.among (t.names e.tag)) (e.withoutAll (t.names e.tag)))
  change _ = e.tag at tag
  cases refused : t.refuses around e.tag (e.among (t.names e.tag)) with
  | true => simp [outcome, refused]
  | false => simp [outcome, refused, tag, seen, t.putWithoutAll]

def Interchanges (t u : Taking) : Prop :=
  ∀ around e, (t.outcome around e).bind (u.outcome around) = (u.outcome around e).bind (t.outcome around)

theorem interchange {t u : Taking} (apart : t.Apart u) : t.Interchanges u := by
  intro around e
  have erased : (e.withoutAll (u.names e.tag)).withoutAll (t.names e.tag) =
      (e.withoutAll (t.names e.tag)).withoutAll (u.names e.tag) := by
    unfold Element.withoutAll
    dsimp only
    rw [Table.eraseAllSwap]
  rw [outcomeBehind apart, outcomeBehind (apartSymm apart), erased, apart.puts, Bool.or_comm]

theorem interchangeBindAll (t : Taking) (around : Surroundings) {e : Element} (queued : e.Queued) :
    (t.outcome around e).map bindAll = t.outcome around (bindAll e) := by
  have tag : (bindAll e).tag = e.tag := by rw [bindAllKeeps]
  unfold outcome
  rw [tag, bindAllAmong queued (t.literal e.tag)]
  split
  · rfl
  · rw [Option.map_some, t.putBindAll, bindAllWithoutAll queued (t.literal e.tag)]

theorem outcomeOnce {t : Taking} {around : Surroundings} {e f : Element} (taken : t.outcome around e = some f)
    (other : Surroundings) : t.outcome other f = some f := by
  unfold outcome at taken
  split at taken
  · contradiction
  have same : t.put (e.among (t.names e.tag)) (e.withoutAll (t.names e.tag)) = f := Option.some.inj taken
  have tag : f.tag = e.tag := by rw [← same]; exact t.tag _ _
  have attributes : f.attributes = (t.names e.tag).foldl Table.erase e.attributes := by
    rw [← same]
    exact t.putAttributes _ _
  have nothing := Element.amongTaken attributes
  rw [outcome, tag, nothing, t.lawful, Element.withoutNothing nothing, t.idle]
  rfl

theorem outcomeQueued {t : Taking} {around : Surroundings} {e f : Element} (taken : t.outcome around e = some f)
    (queued : e.Queued) : f.Queued := by
  unfold outcome at taken
  split at taken
  · contradiction
  have same : t.put (e.among (t.names e.tag)) (e.withoutAll (t.names e.tag)) = f := Option.some.inj taken
  have pending : f.pending = e.pending := by
    rw [← same]
    exact t.putPending _ _
  unfold Element.Queued
  rw [pending]
  exact queued

end Taking
def takingIf : Taking where
  names _ := ["v-if"]
  refuses _ _ _ := false
  put written e := { e with ifCondition := (written "v-if").or e.ifCondition }

def takingElse : Taking where
  names _ := ["v-else"]
  refuses around _ written := (written "v-else").isSome && !around.followsCondition
  put written e := { e with isElse := (written "v-else").isSome || e.isElse }

def takingElseIf : Taking where
  names _ := ["v-else-if"]
  refuses around _ written := (written "v-else-if").isSome && !around.followsCondition
  put written e := { e with elseIfCondition := (written "v-else-if").or e.elseIfCondition }

def takingLoop : Taking where
  names _ := ["v-for"]
  refuses _ _ written := (written "v-for").any fun expression => (Loop.parse? expression).isNone
  put written e := { e with loop := ((written "v-for").bind Loop.parse?).or e.loop }

def takingPlain : Taking where
  names _ := ["key", "v-show", "v-once"]
  refuses _ _ _ := false
  put written e := { e with
    key := (written "key").or e.key
    showCondition := (written "v-show").or e.showCondition
    once := (written "v-once").or e.once }

def takingRef : Taking where
  names _ := ["ref"]
  refuses around tag written := (written "ref").isSome && (around.parentHasLoop || Tag.isWrapper tag)
  put written e := { e with ref := (written "ref").or e.ref }

/- Which of both attributes is read is up to the tag, so the other one is not written under its names. -/
def takingSlot : Taking where
  names tag := [if Tag.isSlot tag then "name" else "slot"]
  refuses _ _ _ := false
  put written e := { e with slot := (written "slot").or e.slot, slotName := (written "name").or e.slotName }
  literal tag := by split <;> decide

def takings : List Taking :=
  [takingIf, takingElse, takingElseIf, takingLoop, takingPlain, takingRef, takingSlot]

theorem directiveNamesDistinct (tag : String) : (directiveNames tag).Nodup := by
  unfold directiveNames
  split <;> decide

theorem takingsApart : takings.Pairwise Taking.Apart := by
  have distinct (tag : String) : (takings.flatMap fun t => t.names tag).Nodup := by
    have names : (takings.flatMap fun t => t.names tag) = directiveNames tag := by
      simp [takings, takingIf, takingElse, takingElseIf, takingLoop, takingPlain, takingRef, takingSlot, directiveNames,
        Tag.isSlot]
    rw [names]
    exact directiveNamesDistinct tag
  have puts : takings.Pairwise fun t u =>
      ∀ written further e, t.put written (u.put further e) = u.put further (t.put written e) := by
    simp only [takings, List.pairwise_cons, List.forall_mem_cons, List.not_mem_nil, false_implies, implies_true, and_true,
      List.Pairwise.nil]
    -- each of them sets fields that no other one does
    and_intros <;> exact fun _ _ _ => rfl
  rw [List.pairwise_iff_getElem] at puts ⊢
  intro i j first second before
  refine ⟨fun tag name member known => ?_, puts i j first second before⟩
  have disjoint := List.pairwise_iff_getElem.mp (List.nodup_flatMap.mp (distinct tag)).2 i j first second before
  exact disjoint member known

theorem takingsInterchange {t u : Taking} (known : t ∈ takings) (further : u ∈ takings) : t.Interchanges u := by
  have there : takings.Pairwise Taking.Interchanges := takingsApart.imp Taking.interchange
  have back : takings.Pairwise (flip Taking.Interchanges) :=
    takingsApart.imp fun apart => Taking.interchange (Taking.apartSymm apart)
  exact there.forall_of_forall_of_flip (fun _ _ _ _ => rfl) back known further

def Pass.outcome (pass : Pass) (around : Surroundings) (e : Element) : Option Element := (pass around e).toOption

theorem okSome {result : Except (Halt Element) Element} {f : Element} : result.toOption = some f ↔ result = .ok f := by
  cases result <;> simp [Except.toOption]

theorem followsIf : Pass.outcome ifPass = takingIf.outcome := by
  funext around e
  have put : takingIf.put (e.among ["v-if"]) (e.withoutAll ["v-if"]) = takeIf e := by
    simp [takingIf, takeIf, Element.amongOnly, Element.withoutAll, Element.without]
  rw [Pass.outcome, ifPassEq, Taking.outcomeOf rfl put]
  rfl

theorem followsElse : Pass.outcome elsePass = takingElse.outcome := by
  funext around e
  have refuses : takingElse.refuses around e.tag (e.among ["v-else"]) = orphaned around "v-else" e := by
    simp [takingElse, orphaned, Element.amongOnly, Element.carries]
  have put : takingElse.put (e.among ["v-else"]) (e.withoutAll ["v-else"]) = takeElse e := by
    simp [takingElse, takeElse, Element.amongOnly, Element.withoutAll, Element.without, Element.carries]
  rw [Pass.outcome, elsePassEq, Taking.outcomeOf refuses put]
  split <;> rfl

theorem followsElseIf : Pass.outcome elseIfPass = takingElseIf.outcome := by
  funext around e
  have refuses : takingElseIf.refuses around e.tag (e.among ["v-else-if"]) = orphaned around "v-else-if" e := by
    simp [takingElseIf, orphaned, Element.amongOnly, Element.carries]
  have put : takingElseIf.put (e.among ["v-else-if"]) (e.withoutAll ["v-else-if"]) = takeElseIf e := by
    simp [takingElseIf, takeElseIf, Element.amongOnly, Element.withoutAll, Element.without]
  rw [Pass.outcome, elseIfPassEq, Taking.outcomeOf refuses put]
  split <;> rfl

theorem followsLoop : Pass.outcome loopPass = takingLoop.outcome := by
  funext around e
  have refuses : takingLoop.refuses around e.tag (e.among ["v-for"]) = (illegalLoop? e).isSome := by
    simp [takingLoop, illegalLoop?, Element.amongOnly, Option.isSome_filter]
  have put : takingLoop.put (e.among ["v-for"]) (e.withoutAll ["v-for"]) = takeLoop e := by
    simp [takingLoop, takeLoop, Element.amongOnly, Element.withoutAll, Element.without]
  rw [Pass.outcome, loopPassEq, Taking.outcomeOf refuses put]
  cases illegalLoop? e <;> rfl

theorem followsPlain : Pass.outcome plainPass = takingPlain.outcome := by
  funext around e
  have put : takingPlain.put (e.among ["key", "v-show", "v-once"]) (e.withoutAll ["key", "v-show", "v-once"]) =
      takeOnce (takeShow (takeKey e)) := by
    simp [takingPlain, takeKey, takeShow, takeOnce, Element.among, Element.withoutAll, Element.without, Element.written?,
      Table.findErase]
  rw [Pass.outcome, plainPassEq, Taking.outcomeOf rfl put]
  rfl

theorem followsRef : Pass.outcome refPass = takingRef.outcome := by
  funext around e
  have refuses : takingRef.refuses around e.tag (e.among ["ref"]) = unreachable around e := by
    simp [takingRef, unreachable, Element.amongOnly, Element.carries]
  have put : takingRef.put (e.among ["ref"]) (e.withoutAll ["ref"]) = takeRef e := by
    simp [takingRef, takeRef, Element.amongOnly, Element.withoutAll, Element.without]
  rw [Pass.outcome, refPassEq, Taking.outcomeOf refuses put]
  split <;> rfl

theorem followsSlot : Pass.outcome slotPass = takingSlot.outcome := by
  funext around e
  have put : takingSlot.put (e.among (takingSlot.names e.tag)) (e.withoutAll (takingSlot.names e.tag)) = takeSlot e := by
    cases slot : Tag.isSlot e.tag <;>
      simp [takingSlot, takeSlot, Element.among, Element.withoutAll, Element.without, slot]
  rw [Pass.outcome, slotPassEq, Taking.outcomeOf rfl put]
  rfl

theorem passCases {pass : Pass} (known : pass ∈ passes) :
    pass = bindingPass ∨ ∃ t ∈ takings, pass.outcome = t.outcome := by
  simp only [passes, List.mem_cons, List.not_mem_nil, or_false] at known
  rcases known with rfl | rfl | rfl | rfl | rfl | rfl | rfl | rfl
  · exact Or.inr ⟨takingIf, by simp [takings], followsIf⟩
  · exact Or.inr ⟨takingElse, by simp [takings], followsElse⟩
  · exact Or.inr ⟨takingElseIf, by simp [takings], followsElseIf⟩
  · exact Or.inr ⟨takingLoop, by simp [takings], followsLoop⟩
  · exact Or.inr ⟨takingPlain, by simp [takings], followsPlain⟩
  · exact Or.inr ⟨takingRef, by simp [takings], followsRef⟩
  · exact Or.inr ⟨takingSlot, by simp [takings], followsSlot⟩
  · exact Or.inl rfl

theorem outcomeBinding (around : Surroundings) (e : Element) : Pass.outcome bindingPass around e = some (bindAll e) := rfl

section
variable {pass other : Pass} {around : Surroundings} {e f : Element}

theorem passQueued (known : pass ∈ passes) (queued : e.Queued) (ok : pass.outcome around e = some f) : f.Queued := by
  rcases passCases known with rfl | ⟨t, _, follows⟩
  · have same : bindAll e = f := Option.some.inj ok
    intro name member
    rw [← same, bindAllKeeps] at member
    contradiction
  · rw [follows] at ok
    exact Taking.outcomeQueued ok queued

theorem passesInterchange (known : pass ∈ passes) (further : other ∈ passes) (around : Surroundings) (queued : e.Queued) :
    (pass.outcome around e).bind (other.outcome around) = (other.outcome around e).bind (pass.outcome around) := by
  have filed (t : Taking) : (t.outcome around e).bind (Pass.outcome bindingPass around) =
      (Pass.outcome bindingPass around e).bind (t.outcome around) :=
    Option.map_eq_bind.symm.trans (t.interchangeBindAll around queued)
  rcases passCases known with rfl | ⟨t, listed, follows⟩
  · rcases passCases further with rfl | ⟨u, _, followsToo⟩
    · rfl
    · rw [followsToo, filed u]
  · rcases passCases further with rfl | ⟨u, listedToo, followsToo⟩
    · rw [follows, filed t]
    · rw [follows, followsToo]
      exact takingsInterchange listed listedToo around e

theorem passOnce (known : pass ∈ passes) (ok : pass.outcome around e = some f) (elsewhere : Surroundings) :
    pass elsewhere f = .ok f := by
  apply okSome.mp
  change pass.outcome elsewhere f = some f
  rcases passCases known with rfl | ⟨t, _, follows⟩
  · have same : bindAll e = f := Option.some.inj ok
    have pending : f.pending = none := by rw [← same, bindAllKeeps]
    rw [outcomeBinding, bindAllNone pending]
  · rw [follows] at ok ⊢
    exact Taking.outcomeOnce ok elsewhere

end

end Directive
end Templating
