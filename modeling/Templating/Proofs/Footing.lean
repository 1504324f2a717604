import Templating.Proofs.Outline

/-!
The footing of a build. In a source of less than 2^32 bytes every step reads at least one character
and opens at most one node, so there are words enough: no offset and no node id wraps, and the node
that a step opens is the one its event names.
-/
namespace Templating

theorem NodeId.indexOfIndex {n : Nat} (small : n < UInt32.size) : (NodeId.ofIndex n).index = n :=
  UInt32.toNat_ofNat_of_lt' small

theorem NodeId.indexInjective {a b : NodeId} (same : a.index = b.index) : a = b := by
  cases a
  cases b
  simpa [index, UInt32.toNat_inj] using same

theorem NodeId.ofIndexIndex (id : NodeId) : NodeId.ofIndex id.index = id := by
  cases id
  simp [ofIndex, index]

theorem Arena.getInside {arena : Arena} {id : NodeId} {node : Node} (got : arena.get? id = some node) :
    id.index < arena.size := (Array.getElem?_eq_some_iff.mp got).1

theorem Arena.getNone {arena : Arena} {id : NodeId} : arena.get? id = none ↔ arena.size ≤ id.index :=
  Array.getElem?_eq_none_iff

theorem Arena.getModifyOther {arena : Arena} {id other : NodeId} (differs : other ≠ id) (f : Node → Node) :
    (arena.modify id f).get? other = arena.get? other := by
  rw [getModify, if_neg fun same => differs (NodeId.indexInjective same).symm]

namespace Arena

theorem nextIdOf {arena : Arena} {id : NodeId} (new : id.index = arena.size) : id = arena.nextId := by
  rw [nextId, ← new, NodeId.ofIndexIndex]

theorem getPushCases {arena : Arena} {node seen : Node} {id : NodeId} (got : (arena.push node).get? id = some seen) :
    (id.index = arena.size ∧ id = arena.nextId ∧ seen = node) ∨ arena.get? id = some seen := by
  rw [getPush] at got
  split at got
  · rename_i new
    exact Or.inl ⟨new, nextIdOf new, (Option.some.inj got).symm⟩
  · exact Or.inr got

theorem getPushKept {arena : Arena} {seen : Node} {id : NodeId} (got : arena.get? id = some seen) (node : Node) :
    (arena.push node).get? id = some seen := by
  have inside := getInside got
  rw [getPush, if_neg (by omega), got]

end Arena

namespace Builder

structure Sound (source : List Char) (b : Builder) : Prop where
  short : Text.byteLength source < UInt32.size
  source : b.scanner.source = source
  placed : b.scanner.Placed
  room : b.arena.size + b.scanner.rest.length < UInt32.size

theorem soundOfSource {source : List Char} (short : Text.byteLength source < UInt32.size) :
    (ofSource source).Sound source := by
  have bound := Markup.Scanner.placedBound (Markup.Scanner.placedOfSource source)
  have chars := Text.lengthLeByteLength (Markup.Scanner.ofSource source).rest
  have empty : (ofSource source).arena.size = 0 := rfl
  refine ⟨short, rfl, Markup.Scanner.placedOfSource source, ?_⟩
  simp only [ofSource, Markup.Scanner.ofSource] at *
  omega

theorem soundSkipBlank {source : List Char} {b : Builder} (sound : b.Sound source) : b.skipBlank.Sound source := by
  have reaches := b.scanner.reachesSkipBlank
  refine ⟨sound.short, reaches.source.trans sound.source, Markup.Scanner.placedReaches sound.placed reaches, ?_⟩
  have room := sound.room
  have length := b.scanner.restSkipBlankLength
  simp only [skipBlank]
  omega

theorem soundStep {source : List Char} {b next : Builder} {event : Option Event} (sound : b.Sound source)
    (h : b.Step next event) : next.Sound source := by
  have moved := stepAdvances h
  have length := Markup.Scanner.advancesLength moved
  have room := sound.room
  have size : next.arena.size ≤ b.arena.size + 1 := by
    cases h with
    | opened => simp [openNode]
    | passed => simp
    | closed => simp
    | text => simp [Arena.modifyElement]
  refine ⟨sound.short, ?_, Markup.Scanner.placedAdvances sound.placed moved, by omega⟩
  obtain ⟨_, _, reaches⟩ := moved
  exact reaches.source.trans sound.source

theorem soundAlike {source : List Char} {p q : Builder} (alike : p.Alike q) (sound : p.Sound source) :
    q.Sound source := by
  have size := Arena.alikeSize alike.arena
  have room := sound.room
  refine ⟨sound.short, ?_, ?_, ?_⟩
  · rw [← alike.scanner]
    exact sound.source
  · rw [← alike.scanner]
    exact sound.placed
  · rw [← alike.scanner, ← size]
    exact room

theorem offsetShort {source : List Char} {b : Builder} (sound : b.Sound source) : b.scanner.offset < UInt32.size := by
  have bound := Markup.Scanner.placedBound sound.placed
  have short := sound.short
  rw [sound.source] at bound
  omega

theorem soundLocate {source : List Char} {b : Builder} (sound : b.Sound source) :
    (Position.locate source b.scanner.offset).offset.toNat = b.scanner.offset := by
  have located := Markup.Scanner.placedLocate sound.placed (sound.source ▸ sound.short)
  rwa [sound.source] at located

theorem stepOpens {source : List Char} {b next : Builder} {id : NodeId} (sound : b.Sound source)
    (h : b.Step next (some (.opened id))) :
    ∃ node, next.arena = b.arena.push node ∧ next.stack = id :: b.stack ∧ id.index = b.arena.size ∧
      next.arena.get? id = some node ∧ node.Fresh ∧ node.span.start.toNat = b.scanner.offset := by
  generalize told : some (Event.opened id) = event at h
  cases h with
  | opened moved fresh span =>
    cases told
    rename_i scanner node
    have room := sound.room
    have index : b.arena.nextId.index = b.arena.size := NodeId.indexOfIndex (by omega)
    refine ⟨node, rfl, rfl, index, ?_, fresh, ?_⟩
    · simp only [openNode, Arena.getPush, index, if_true]
    · rw [span]
      exact UInt32.toNat_ofNat_of_lt' (offsetShort sound)
  | passed => cases told
  | closed => cases told
  | text => cases told

end Builder
end Templating
