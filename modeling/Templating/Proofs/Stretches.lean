import Templating.Proofs.Layout
import Templating.Proofs.Places

/-!
What stands between the markup of a source. The tokens of markup leave stretches of text between them, and these
are shared out among the elements: to each come those between its tags and outside of its children, and to one that
nothing is around also those behind it, up to the next element. The runs of the stretches, joined, are what is spoken.
-/
namespace Templating
open Markup

namespace Text

def slice (start stop : Nat) (source : List Char) : List Char := takeBytes (stop - start) (dropBytes start source)

theorem sliceExact (lead middle after : List Char) :
    slice (byteLength lead) (byteLength (lead ++ middle)) (lead ++ (middle ++ after)) = middle := by
  rw [slice, dropBytesAppend, byteLengthAppend, Nat.add_sub_cancel_left, takeBytesBefore]

theorem sliceNone (offset : Nat) (source : List Char) : slice offset offset source = [] := by
  rw [slice, Nat.sub_self, takeBytesZero]

end Text

structure Stretch where
  start : Nat
  stop : Nat
  deriving DecidableEq, Repr

namespace Stretch
variable {source : List Char} {s t : Stretch}

def chars (source : List Char) (s : Stretch) : List Char := Text.slice s.start s.stop source

def blank (source : List Char) (s : Stretch) : Bool := (s.chars source).all Text.isBlank

def run (source : List Char) (s : Stretch) : String := String.ofList (Text.trim (s.chars source))

theorem blankNone (offset : Nat) (source : List Char) : blank source ⟨offset, offset⟩ = true := by
  rw [blank, chars, Text.sliceNone]
  rfl

end Stretch

/- The runs of the stretches that are not blank, with a space between any two. -/
def spoken (source : List Char) (stretches : List Stretch) : Option String :=
  Document.joined ((stretches.filter fun s => !s.blank source).map (Stretch.run source))

section Spoken
variable {source : List Char} {stretches : List Stretch} {s t : Stretch}

theorem spokenBlank (blank : s.blank source = true) : spoken source (stretches ++ [s]) = spoken source stretches := by
  unfold spoken
  rw [List.filter_append, List.filter_singleton, blank]
  simp

theorem spokenText {e : Element} (text : e.text = spoken source stretches) (some : s.blank source = false) :
    (e.appendText (s.run source)).text = spoken source (stretches ++ [s]) := by
  rw [Document.appendTextSnoc text, spoken, List.filter_append, List.filter_singleton, some]
  simp

theorem spokenExtended (trimmed : t.run source = s.run source) (blank : t.blank source = s.blank source) :
    spoken source (stretches ++ [t]) = spoken source (stretches ++ [s]) := by
  unfold spoken
  rw [List.filter_append, List.filter_append, List.filter_singleton, List.filter_singleton, blank]
  cases s.blank source <;> simp [trimmed]

end Spoken

structure Mark where
  event : Event
  start : Nat
  stop : Nat

def between (start : Nat) : List Mark → Nat → List Stretch
  | [], stop => [⟨start, stop⟩]
  | mark :: later, stop => ⟨start, mark.start⟩ :: between mark.stop later stop

def reach (start : Nat) : List Mark → Nat
  | [] => start
  | mark :: later => reach mark.stop later

namespace Arena

def place (arena : Arena) (id : NodeId) : Span := (arena.span? id).getD ⟨0, 0⟩

def isElement (arena : Arena) (id : NodeId) : Bool := (arena.get? id).any Node.isElement

def children (arena : Arena) (id : NodeId) : List NodeId := ((arena.get? id).map Node.children).getD []

/- What the nodes leave, from `start` on and up to the first of them that `ends` it, or to `stop`. -/
def gaps (arena : Arena) (ends : NodeId → Bool) (start : Nat) : List NodeId → Nat → List Stretch
  | [], stop => [⟨start, stop⟩]
  | id :: later, stop =>
      ⟨start, (arena.place id).start.toNat⟩ ::
        if ends id then [] else arena.gaps ends (arena.place id).stop.toNat later stop

/- The stretches between the start tag and the end tag of an element that its children leave. Without an end tag there
are none. -/
def inside (arena : Arena) (marks : List Mark) (id : NodeId) : List Stretch :=
  match marks.find? (fun mark => mark.event = .opened id), marks.find? (fun mark => mark.event = .closed id) with
  | some first, some last => arena.gaps (fun _ => false) first.stop (arena.children id) last.start
  | _, _ => []

end Arena

/- The stretches behind an element at the top, up to the next element there or to the end of the source. -/
def Forest.behind (forest : Forest) (source : List Char) (id : NodeId) : List Stretch :=
  match forest.roots.dropWhile fun root => root ≠ id with
  | [] => []
  | _ :: later =>
      forest.arena.gaps forest.arena.isElement (forest.arena.place id).stop.toNat later (Text.byteLength source)

def Forest.stretches (forest : Forest) (source : List Char) (marks : List Mark) (id : NodeId) : List Stretch :=
  forest.arena.inside marks id ++ forest.behind source id

namespace Arena
variable {arena changed : Arena} {ends other : NodeId → Bool} {start stop later : Nat} {id : NodeId} {ids rest : List NodeId}

theorem placeGot {node : Node} (got : arena.get? id = some node) : arena.place id = node.span := by
  rw [place, span?, got]
  rfl

theorem childGot {child : NodeId} (member : child ∈ arena.children id) :
    ∃ node, arena.get? id = some node ∧ child ∈ node.children := by
  unfold children at member
  cases got : arena.get? id with
  | none =>
    rw [got] at member
    contradiction
  | some node =>
    rw [got] at member
    exact ⟨node, rfl, member⟩

theorem placeAgree (sites : arena.Agree Node.site changed) : changed.place = arena.place := by
  funext id
  have span : (arena.get? id).map Node.span = (changed.get? id).map Node.span :=
    agreeMap sites (fun _ _ same => congrArg Site.span same) id
  rw [place, span?, ← span, place, span?]

theorem childrenAgree (sites : arena.Agree Node.site changed) : changed.children = arena.children := by
  funext id
  have nested : (arena.get? id).map Node.children = (changed.get? id).map Node.children :=
    agreeMap sites (fun _ _ same => congrArg Site.children same) id
  rw [children, ← nested, children]

theorem gapsEnded (ended : ends id = true) :
    arena.gaps ends start (ids ++ id :: rest) stop = arena.gaps ends start ids (arena.place id).start.toNat := by
  induction ids generalizing start with
  | nil => simp [gaps, ended]
  | cons first ids ih =>
    rw [List.cons_append, gaps, gaps, ih]

theorem gapsSnoc : arena.gaps ends start (ids ++ [id]) stop =
    arena.gaps ends start ids (arena.place id).start.toNat ++
      if ids.any ends || ends id then [] else [⟨(arena.place id).stop.toNat, stop⟩] := by
  induction ids generalizing start with
  | nil => cases ended : ends id <;> simp [gaps, ended]
  | cons first ids ih =>
    rw [List.cons_append, gaps, gaps, ih, List.any_cons]
    cases ended : ends first <;> simp

theorem gapsSame (places : ∀ id ∈ ids, changed.place id = arena.place id) (same : ∀ id ∈ ids, ends id = other id) :
    changed.gaps ends start ids stop = arena.gaps other start ids stop := by
  induction ids generalizing start with
  | nil => rfl
  | cons first ids ih =>
    rw [gaps, gaps, places first List.mem_cons_self, same first List.mem_cons_self,
      ih (fun id member => places id (List.mem_cons_of_mem first member))
        (fun id member => same id (List.mem_cons_of_mem first member))]

section Inside
variable {marks : List Mark} {mark first : Mark}

theorem insideOther (differs : mark.event.id ≠ id) : arena.inside (marks ++ [mark]) id = arena.inside marks id := by
  have opened : mark.event ≠ .opened id := fun same => differs (congrArg Event.id same)
  have closed : mark.event ≠ .closed id := fun same => differs (congrArg Event.id same)
  unfold inside
  rw [List.find?_append, List.find?_append]
  simp [opened, closed]

theorem unended (waiting : .closed id ∉ marks.map Mark.event) : marks.find? (fun mark => mark.event = .closed id) = none := by
  refine List.find?_eq_none.mpr fun mark member told => ?_
  exact waiting (List.mem_map.mpr ⟨mark, member, of_decide_eq_true told⟩)

theorem insideOpen (waiting : .closed id ∉ marks.map Mark.event) : arena.inside marks id = [] := by
  unfold inside
  rw [unended waiting]
  split
  · contradiction
  · rfl

theorem insideClosed (found : marks.find? (fun mark => mark.event = .opened id) = some first)
    (waiting : .closed id ∉ marks.map Mark.event) :
    arena.inside (marks ++ [⟨.closed id, start, stop⟩]) id =
      arena.gaps (fun _ => false) first.stop (arena.children id) start := by
  unfold inside
  rw [List.find?_append, List.find?_append, found, unended waiting]
  simp

theorem insideSame (same : changed.children id = arena.children id)
    (places : ∀ child ∈ arena.children id, changed.place child = arena.place child) :
    changed.inside marks id = arena.inside marks id := by
  unfold inside
  rw [same]
  split
  · exact gapsSame places fun _ _ => rfl
  · rfl

end Inside

end Arena

/- The stretches that the marks leave, each with the one who had the text before that mark; the last one is open. -/
def ledger (start : Nat) : List (Option NodeId × Mark) → Option NodeId → Nat → List (Option NodeId × Stretch)
  | [], owner, stop => [(owner, ⟨start, stop⟩)]
  | (had, mark) :: later, owner, stop => (had, ⟨start, mark.start⟩) :: ledger mark.stop later owner stop

def owned (id : NodeId) (entries : List (Option NodeId × Stretch)) : List Stretch :=
  (entries.filter fun entry => entry.1 = some id).map Prod.snd

section Ledger
variable {start stop : Nat} {past : List (Option NodeId × Mark)} {owner had : Option NodeId} {mark : Mark} {id : NodeId}

theorem ledgerSnoc : ledger start (past ++ [(had, mark)]) owner stop =
    ledger start past had mark.start ++ [(owner, ⟨mark.stop, stop⟩)] := by
  induction past generalizing start with
  | nil => rfl
  | cons first past ih =>
    rw [List.cons_append, ledger, ledger, ih, List.cons_append]

theorem ledgerStretches : (ledger start past owner stop).map Prod.snd = between start (past.map Prod.snd) stop := by
  induction past generalizing start with
  | nil => rfl
  | cons first past ih =>
    rw [ledger, List.map_cons, List.map_cons, between, ih]

theorem ledgerLast (start : Nat) (past : List (Option NodeId × Mark)) :
    ∃ settled, ∀ owner stop,
      ledger start past owner stop = settled ++ [(owner, ⟨reach start (past.map Prod.snd), stop⟩)] := by
  induction past generalizing start with
  | nil => exact ⟨[], fun owner stop => rfl⟩
  | cons first past ih =>
    obtain ⟨settled, same⟩ := ih first.2.stop
    refine ⟨(first.1, ⟨start, first.2.start⟩) :: settled, fun owner stop => ?_⟩
    rw [ledger, same, List.map_cons, reach, List.cons_append]

theorem reachSnoc (start : Nat) (marks : List Mark) (mark : Mark) : reach start (marks ++ [mark]) = mark.stop := by
  induction marks generalizing start with
  | nil => rfl
  | cons first marks ih => rw [List.cons_append, reach, ih]

theorem memOwned {entries : List (Option NodeId × Stretch)} {s : Stretch} :
    s ∈ owned id entries ↔ (some id, s) ∈ entries := by
  simp [owned]

theorem ownedSnoc : owned id (ledger start (past ++ [(had, mark)]) owner stop) =
    owned id (ledger start past had mark.start) ++ if owner = some id then [⟨mark.stop, stop⟩] else [] := by
  rw [ledgerSnoc, owned, List.filter_append, List.map_append, owned]
  by_cases here : owner = some id <;> simp [here]

theorem ownedLast (start : Nat) (past : List (Option NodeId × Mark)) (id : NodeId) :
    ∃ settled, ∀ owner stop, owned id (ledger start past owner stop) =
      settled ++ if owner = some id then [⟨reach start (past.map Prod.snd), stop⟩] else [] := by
  obtain ⟨settled, same⟩ := ledgerLast start past
  refine ⟨owned id settled, fun owner stop => ?_⟩
  rw [same, owned, List.filter_append, List.map_append, owned]
  by_cases here : owner = some id <;> simp [here]

theorem ledgerOwner {s : Stretch} (member : (had, s) ∈ ledger start past owner stop) :
    had = owner ∨ ∃ entry ∈ past, entry.1 = had := by
  induction past generalizing start with
  | nil =>
    rw [ledger, List.mem_singleton] at member
    exact Or.inl (congrArg Prod.fst member)
  | cons first past ih =>
    rw [ledger] at member
    rcases List.mem_cons.mp member with same | later
    · exact Or.inr ⟨first, List.mem_cons_self, (congrArg Prod.fst same).symm⟩
    · exact (ih later).imp_right fun ⟨entry, inside, same⟩ => ⟨entry, List.mem_cons_of_mem first inside, same⟩

theorem ledgerUpward (forward : ∀ entry ∈ past, start ≤ entry.2.start ∧ entry.2.start < entry.2.stop)
    (ordered : (past.map Prod.snd).Pairwise fun mark later => mark.stop ≤ later.start) :
    (∀ entry ∈ ledger start past owner stop, start ≤ entry.2.start) ∧
      (ledger start past owner stop).Pairwise fun first second => first.2.start < second.2.start := by
  induction past generalizing start with
  | nil =>
    refine ⟨fun entry member => ?_, List.pairwise_singleton _ _⟩
    rw [List.mem_singleton.mp member]
  | cons first past ih =>
    obtain ⟨before, onwards⟩ := List.pairwise_cons.mp ordered
    have bounds := forward first List.mem_cons_self
    have later : ∀ entry ∈ past, first.2.stop ≤ entry.2.start ∧ entry.2.start < entry.2.stop := fun entry member =>
      ⟨before entry.2 (List.mem_map_of_mem member), (forward entry (List.mem_cons_of_mem first member)).2⟩
    obtain ⟨above, upward⟩ := ih later onwards
    refine ⟨fun entry member => ?_, List.pairwise_cons.mpr ⟨fun entry member => ?_, upward⟩⟩
    · rcases List.mem_cons.mp member with rfl | further
      · exact Nat.le_refl start
      · have bound := above entry further
        omega
    · have bound := above entry member
      show start < entry.2.start
      omega

end Ledger

end Templating
