import Templating.Proofs.Takings

/-!
The passes over an element's directives in any order and more than once. An order is as good as any
other, since each two passes can be interchanged; and a pass that comes last has nothing left to do, so
none has anything left to do on a resolved element.
-/
namespace Templating

namespace Directive

theorem runCons (pass : Pass) (rest : List Pass) (around : Surroundings) (e : Element) :
    (runPasses (pass :: rest) around e).toOption =
      (pass.outcome around e).bind fun f => (runPasses rest around f).toOption := by
  unfold runPasses Pass.outcome
  rw [List.foldlM_cons]
  cases pass around e <;> rfl

theorem runPermuted {order other : List Pass} (permuted : order.Perm other) (known : ∀ pass ∈ order, pass ∈ passes)
    (around : Surroundings) {e : Element} (queued : e.Queued) :
    (runPasses order around e).toOption = (runPasses other around e).toOption := by
  -- The element varies, since what the first pass leaves is what the rest go over; it is still queued.
  induction permuted generalizing e with
  | nil => rfl
  | @cons pass order other _ ih =>
    rw [runCons, runCons]
    cases first : pass.outcome around e with
    | none => rfl
    | some f =>
      have later := passQueued (known pass List.mem_cons_self) queued first
      exact ih (fun next member => known next (List.mem_cons_of_mem pass member)) later
  | swap pass next rest =>
    have swapped := passesInterchange (known next List.mem_cons_self)
      (known pass (List.mem_cons_of_mem next List.mem_cons_self)) around queued
    simp only [runCons, ← Option.bind_assoc]
    rw [swapped]
  | trans left _ ihLeft ihRight =>
    have also := fun pass member => known pass (left.mem_iff.mpr member)
    exact (ihLeft known queued).trans (ihRight also queued)

theorem runIdle {order : List Pass} {around : Surroundings} {e : Element} (idle : ∀ pass ∈ order, pass around e = .ok e) :
    runPasses order around e = .ok e := by
  induction order with
  | nil => rfl
  | cons pass rest ih =>
    rw [runPassesOk (idle pass List.mem_cons_self)]
    exact ih fun next member => idle next (List.mem_cons_of_mem pass member)

theorem runLast {order : List Pass} {pass : Pass} {around : Surroundings} {e f : Element}
    (ok : runPasses (order ++ [pass]) around e = .ok f) : ∃ g, pass around g = .ok f := by
  unfold runPasses at ok
  rw [List.foldlM_append] at ok
  cases before : order.foldlM (fun e pass => pass around e) e with
  | error halt => simp [before, bind, Except.bind] at ok
  | ok g =>
    simp only [before, bind, Except.bind, List.foldlM_cons, List.foldlM_nil, pure, Except.pure] at ok
    cases behind : pass around g with
    | error halt => simp [behind] at ok
    | ok last => exact ⟨g, behind.trans (by simpa [behind] using ok)⟩

theorem resolvedIdle {around : Surroundings} {e f : Element} (queued : e.Queued) (ok : resolve around e = .ok f)
    (other : Surroundings) : ∀ pass ∈ passes, pass other f = .ok f := by
  intro pass known
  obtain ⟨before, after, split⟩ := List.append_of_mem known
  have permuted : passes.Perm (before ++ after ++ [pass]) := by
    rw [split]
    exact List.perm_middle.trans (List.perm_append_singleton pass (before ++ after)).symm
  have same := runPermuted permuted (fun _ member => member) around queued
  have last : runPasses (before ++ after ++ [pass]) around e = .ok f := by
    rw [← okSome, ← same, okSome]
    exact ok
  obtain ⟨g, behind⟩ := runLast last
  exact passOnce known (okSome.mpr behind) other

end Directive

section
open Directive

/-
In whatever order the eight passes go over an element, they succeed where the resolution succeeds, and leave the
same element, with its attributes and bindings in the same order.
-/
theorem passesInAnyOrder {e : Element} (queued : e.Queued) (around : Surroundings) {order : List Pass}
    (permuted : order.Perm passes) (f : Element) : runPasses order around e = .ok f ↔ resolve around e = .ok f := by
  have known : ∀ pass ∈ order, pass ∈ passes := fun pass member => permuted.mem_iff.mp member
  have same := runPermuted permuted known around queued
  rw [← okSome, same, okSome]
  rfl

def chainedOutlet : Element where
  tag := "slot"
  attributes := Table.ofList [("class", .text "c"), ("v-else", .flag), ("name", .text "head"), ("v-for", .text "x of xs")]
  pending := some (Table.ofList [("xlink:href", .text "#a"), (":width", .text "w")])

def chainedOutletResolved : Element where
  tag := "slot"
  attributes := Table.ofList [("class", .text "c"), ("xlink:href", .text "#a")]
  bindings := [⟨":width", "bind", some "width", [], .text "w"⟩]
  isElse := true
  loop := some ⟨.ofWord, "x", "xs"⟩
  slotName := some "head"

def behindCondition : Surroundings where
  source := "<p v-if=\"a\"></p><slot v-else>".toList
  offset := 16
  previous := some ⟨"p", true⟩

theorem chainedOutletQueued : chainedOutlet.Queued := by
  unfold Element.Queued
  decide

theorem chainedOutletResolves : resolve behindCondition chainedOutlet = .ok chainedOutletResolved := by decide +kernel

theorem passesReversed : chainedOutlet.Queued ∧ passes.reverse.Perm passes ∧
    runPasses passes.reverse behindCondition chainedOutlet = .ok chainedOutletResolved := by
  have permuted : passes.reverse.Perm passes := List.reverse_perm passes
  exact ⟨chainedOutletQueued, permuted,
    (passesInAnyOrder chainedOutletQueued behindCondition permuted chainedOutletResolved).mpr chainedOutletResolves⟩

/- Once the directives of an element are resolved, nothing is left of them for any surroundings to change or refuse. -/
theorem resolvedOnce {e f : Element} (queued : e.Queued) {around : Surroundings} (resolved : resolve around e = .ok f)
    (other : Surroundings) : resolve other f = .ok f :=
  runIdle (resolvedIdle queued resolved other)

theorem resolvedBesideNothing : chainedOutlet.Queued ∧
    resolve behindCondition chainedOutlet = .ok chainedOutletResolved ∧
    resolve { behindCondition with previous := none } chainedOutletResolved = .ok chainedOutletResolved :=
  have again := resolvedOnce chainedOutletQueued chainedOutletResolves { behindCondition with previous := none }
  ⟨chainedOutletQueued, chainedOutletResolves, again⟩

end

end Templating
