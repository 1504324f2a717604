import Templating.Proofs.Analysing
import Templating.Proofs.Footing
import Templating.Proofs.Running
import Templating.Compile
import Mathlib.Control.Monad.Basic

/-!
Directive analysis leaves reading undisturbed. A build that is analysed and one that nobody looks at
take the same turns; the analysed one may only be stopped earlier, for a rule that an element breaks.
-/
namespace Templating

namespace Analysis

theorem receiverAlike (options : Options) (source : List Char) :
    ∀ event state after arena changed, receiver options source event state arena = .ok (after, changed) →
      changed.Alike arena := by
  intro event state after arena changed told
  cases event with
  | opened id => exact openedAlike told
  | closed id =>
    simp only [receiver, Except.ok.injEq] at told
    have same := closedAlike options id state arena
    rw [told] at same
    exact same

/- The rule that stopped the build is one about the element just opened, which starts before `offset`. -/
def StopsBefore (source : List Char) (offset : Nat) (cause : CompileError) : Prop :=
  cause.kind = .semantic ∧
  ∃ start, start < offset ∧ cause.position? = some (Position.locate source start) ∧
    (Position.locate source start).offset.toNat = start

theorem receiverStops {options : Options} {source : List Char} {b next : Builder} {event : Event} {state : Analysis}
    {halt : Halt (Analysis × Arena)} (sound : b.Sound source) (stepped : b.Step next (some event))
    (failed : receiver options source event state next.arena = .error halt) :
    StopsBefore source next.scanner.offset halt.cause := by
  cases event with
  | closed id => simp [receiver] at failed
  | opened id =>
    obtain ⟨node, e, got, _, refused⟩ := openedError failed
    obtain ⟨other, _, _, _, found, _, start⟩ := Builder.stepOpens sound stepped
    cases found.symm.trans got
    unfold refuses? at refused
    split at refused
    · contradiction
    · obtain ⟨kind, position⟩ := Directive.faultPosition refused
      have moved := Markup.Scanner.advancesOffset (Builder.stepAdvances stepped)
      refine ⟨kind, b.scanner.offset, moved, ?_, Builder.soundLocate sound⟩
      rw [position]
      simp only [Surroundings.position, surroundings, start]

end Analysis

namespace Build

structure Undisturbed {σ τ : Type} (source : List Char) (p : Build σ) (q : Build τ) : Prop where
  alike : p.builder.Alike q.builder
  sound : p.builder.Sound source

def StoppedAt {σ : Type} (source : List Char) (p : Build σ) (cause : CompileError) : Prop :=
  p.builder.Sound source ∧ Analysis.StopsBefore source p.builder.scanner.offset cause

theorem undisturbedTurn {σ : Type} {comments : Bool} {options : Options} {source : List Char} {watcher : Receiver σ}
    (watches : watcher.Watches) {p : Build σ} {q : Build Analysis} (related : Undisturbed source p q) :
    TurnsAgree (Undisturbed source) (StoppedAt source) (p.turn comments watcher)
      (q.turn comments (Analysis.receiver options source)) := by
  rcases turnsSideBySide comments (Analysis.receiver options source) watches related.alike with
    ⟨cause, _, left, right⟩ | ⟨next, other, stepped, _, alike, left, right⟩ |
    ⟨next, other, event, state, stepped, steppedOther, alike, _, _, left, right⟩
  · rw [left, right]
    exact .failed rfl
  · rw [left, right]
    exact .together ⟨alike, Builder.soundStep related.sound (Builder.stepCases stepped)⟩
  · have sound := Builder.soundStep related.sound (Builder.stepCases stepped)
    rw [left, right]
    unfold tell
    cases told : Analysis.receiver options source event q.state other.arena with
    | ok result =>
      obtain ⟨after, arena⟩ := result
      have kept := Analysis.receiverAlike options source _ _ _ _ _ told
      exact .together ⟨⟨alike.scanner, alike.stack, alike.arena.trans kept.symm⟩, sound⟩
    | error halt =>
      have otherSound := Builder.soundAlike related.alike related.sound
      have stops := Analysis.receiverStops otherSound (Builder.stepCases steppedOther) told
      rw [← alike.scanner] at stops
      exact .stopped ⟨sound, stops⟩

theorem undisturbedRun {σ : Type} (options : Options) {source : List Char} {watcher : Receiver σ} (state : σ)
    (watches : watcher.Watches) (short : Text.byteLength source < UInt32.size) :
    (∃ last other, buildWith options watcher state source = .ok last ∧
      buildWith options (Analysis.receiver options source) Analysis.start source = .ok other ∧
      Undisturbed source last other) ∨
    (∃ h k, buildWith options watcher state source = .error h ∧
      buildWith options (Analysis.receiver options source) Analysis.start source = .error k ∧ h.cause = k.cause) ∨
    ∃ next k, buildWith options watcher state source = run options.comments watcher next ∧
      buildWith options (Analysis.receiver options source) Analysis.start source = .error k ∧
      StoppedAt source next k.cause := by
  have start : Undisturbed source (ofSource source state) (ofSource source Analysis.start) :=
    ⟨⟨rfl, rfl, rfl⟩, Builder.soundOfSource short⟩
  refine runsAgree options.comments ?_ ?_ (fun p q => undisturbedTurn watches) start
  · intro p q related
    exact ⟨Builder.alikeSkipBlank related.alike, Builder.soundSkipBlank related.sound⟩
  · intro p q related
    exact congrArg Markup.Scanner.atEnd related.alike.scanner

theorem watchedBeside {σ : Type} {options : Options} {source : List Char} {watcher : Receiver σ} (state : σ)
    (watches : watcher.Watches) {other : Build Analysis}
    (ran : buildWith options (Analysis.receiver options source) Analysis.start source = .ok other) :
    ∃ last, buildWith options watcher state source = .ok last ∧ last.builder.Alike other.builder := by
  have turn (p : Build σ) (q : Build Analysis) (alike : p.builder.Alike q.builder) :
      TurnsAgree (fun p q => p.builder.Alike q.builder) (fun _ _ => True) (p.turn options.comments watcher)
        (q.turn options.comments (Analysis.receiver options source)) := by
    rcases turnsSideBySide options.comments (Analysis.receiver options source) watches alike with
      ⟨cause, _, left, right⟩ | ⟨next, other, _, _, alike, left, right⟩ |
      ⟨next, other, event, _, _, _, alike, _, _, left, right⟩
    · rw [left, right]
      exact .failed rfl
    · rw [left, right]
      exact .together alike
    · rw [left, right]
      unfold tell
      cases told : Analysis.receiver options source event q.state other.arena with
      | ok result =>
        have kept := Analysis.receiverAlike options source _ _ _ _ _ told
        exact .together ⟨alike.scanner, alike.stack, alike.arena.trans kept.symm⟩
      | error halt => exact .stopped trivial
  rcases runsAgree options.comments (fun p q alike => Builder.alikeSkipBlank alike)
      (fun p q alike => congrArg Markup.Scanner.atEnd alike.scanner) turn
      (p := ofSource source state) (q := ofSource source Analysis.start) ⟨rfl, rfl, rfl⟩ with
    ⟨last, same, left, right, alike⟩ | ⟨_, _, _, right, _⟩ | ⟨_, _, _, right, _⟩
  · rw [buildWith, right] at ran
    cases ran
    exact ⟨last, left, alike⟩
  · rw [buildWith, right] at ran
    contradiction
  · rw [buildWith, right] at ran
    contradiction

theorem watchedError {σ : Type} {comments : Bool} {source : List Char} {watcher : Receiver σ}
    (watches : watcher.Watches) {b : Build σ} (sound : b.builder.Sound source) {halt : Halt (Build σ)}
    (ran : b.run comments watcher = .error halt) :
    ∃ reason place, b.builder.scanner.offset ≤ place ∧
      halt.cause = .illegalTemplate reason (Position.locate source place) ∧
      (Position.locate source place).offset.toNat = place := by
  have skip (other : Build σ) (kept : other.builder.Sound source ∧ b.builder.scanner.offset ≤ other.builder.scanner.offset) :
      other.skipBlank.builder.Sound source ∧ b.builder.scanner.offset ≤ other.skipBlank.builder.scanner.offset := by
    have reaches := other.builder.scanner.reachesSkipBlank
    refine ⟨Builder.soundSkipBlank kept.1, ?_⟩
    have offset : other.skipBlank.builder.scanner.offset = _ := reaches.offset
    omega
  have turn (other next : Build σ)
      (kept : other.builder.Sound source ∧ b.builder.scanner.offset ≤ other.builder.scanner.offset)
      (turned : other.turn comments watcher = .ok next) :
      next.builder.Sound source ∧ b.builder.scanner.offset ≤ next.builder.scanner.offset := by
    obtain ⟨builder, event, stepped, alike⟩ := turnStep (fun event state after arena changed told => by
      obtain ⟨_, same⟩ := watches event state arena
      cases same.symm.trans told
      rfl) turned
    have step := Builder.stepCases stepped
    have moved := Markup.Scanner.advancesOffset (Builder.stepAdvances step)
    refine ⟨Builder.soundAlike (Builder.alikeSymm alike) (Builder.soundStep kept.1 step), ?_⟩
    rw [alike.scanner]
    omega
  obtain ⟨before, ⟨kept, behind⟩, failed⟩ := runError skip turn ⟨sound, Nat.le_refl _⟩ ran
  rcases turnsSideBySide comments watcher watches (Builder.alikeSelf before.builder) with
    ⟨cause, stepped, left, _⟩ | ⟨_, _, _, _, _, left, _⟩ | ⟨_, _, _, _, _, _, _, _, _, left, _⟩
  · rw [left] at failed
    cases failed
    obtain ⟨reason, t, fails, same⟩ := Builder.stepFails stepped
    obtain ⟨covered, reaches⟩ := Builder.failsReaches fails
    have placed := Markup.Scanner.placedReaches kept.placed reaches
    have source := reaches.source.trans kept.source
    have offset := reaches.offset
    refine ⟨reason, t.offset, by omega, ?_, ?_⟩
    · rw [same, Markup.Scanner.illegal, source]
    · have located := Markup.Scanner.placedLocate placed (source ▸ kept.short)
      rw [source] at located
      exact located
  · rw [left] at failed
    contradiction
  · rw [left] at failed
    contradiction

end Build

theorem analysisUndisturbing {options : Options} {template : String} (short : template.utf8ByteSize < UInt32.size) :
    (∀ analysed, analyse options template = .ok analysed →
      ∃ plain, readForest options template = .ok plain ∧ plain.roots = analysed.roots ∧
        plain.arena.size = analysed.arena.size ∧
        ∀ id, (plain.arena.get? id).map Node.outline = (analysed.arena.get? id).map Node.outline) ∧
    (∀ fault, readForest options template = .error fault →
      ∃ cause, analyse options template = .error cause ∧
        (cause = fault ∨ cause.kind = .semantic ∧
          ∃ early late, cause.position? = some early ∧ fault.position? = some late ∧ early.offset < late.offset)) ∧
    (∀ plain cause, readForest options template = .ok plain → analyse options template = .error cause →
      cause.code ≠ .illegalTemplate) := by
  rw [← Text.byteLengthToList] at short
  unfold analyse readForest
  rcases Build.undisturbedRun options () Receiver.silentWatches short with
    ⟨last, other, left, right, related⟩ | ⟨h, k, left, right, same⟩ | ⟨next, k, left, right, sound, kind, start, behind, position, located⟩
  · rw [left, right]
    refine ⟨?_, ?_, ?_⟩
    · intro analysed same
      cases same
      exact ⟨_, rfl, congrArg List.reverse related.alike.stack, Arena.alikeSize related.alike.arena,
        Arena.alikeGet related.alike.arena⟩
    · intro fault failed
      contradiction
    · intro plain cause _ failed
      contradiction
  · rw [left, right]
    refine ⟨?_, ?_, ?_⟩
    · intro analysed done
      contradiction
    · intro fault failed
      cases failed
      exact ⟨_, rfl, Or.inl same.symm⟩
    · intro plain cause done
      contradiction
  · rw [left, right]
    refine ⟨?_, ?_, ?_⟩
    · intro analysed done
      contradiction
    · intro fault failed
      cases ran : Build.run options.comments Receiver.silent next with
      | ok last =>
        rw [ran] at failed
        contradiction
      | error halt =>
        rw [ran] at failed
        cases failed
        obtain ⟨reason, place, beyond, cause, there⟩ := Build.watchedError Receiver.silentWatches sound ran
        refine ⟨_, rfl, Or.inr ⟨kind, _, _, position, by rw [cause]; rfl, ?_⟩⟩
        rw [UInt32.lt_iff_toNat_lt, located, there]
        omega
    · intro plain cause _ failed
      cases failed
      intro illegal
      rw [CompileError.kind, illegal] at kind
      contradiction

def strayElse : String := "<p v-else></i>"

theorem analysisStopsEarlier :
    strayElse.utf8ByteSize < UInt32.size ∧
    ∃ cause, analyse Options.standard strayElse = .error cause ∧ cause.kind = .semantic ∧
      ∃ early, cause.position? = some early ∧ early.offset < 10 := by
  have short : strayElse.utf8ByteSize < UInt32.size := by decide
  have plain : readForest Options.standard strayElse =
      .error (.illegalTemplate (.unmatchedEndTag "i") ⟨10, 1, 11⟩) := by decide +kernel
  have analysed : analyse Options.standard strayElse ≠
      .error (.illegalTemplate (.unmatchedEndTag "i") ⟨10, 1, 11⟩) := by decide +kernel
  obtain ⟨cause, failed, rfl | ⟨kind, early, late, position, there, before⟩⟩ :=
    (analysisUndisturbing short).2.1 _ plain
  · exact absurd failed analysed
  · cases there
    exact ⟨short, cause, failed, kind, early, position, before⟩

end Templating
