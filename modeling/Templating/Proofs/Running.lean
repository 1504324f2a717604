import Templating.Proofs.Outline

/-!
Runs of a build. What every turn keeps, a whole run keeps; and two runs of one source that take their
turns alike come out alike, up to the turn in which the receiver of one of them stops it.
-/
namespace Templating

namespace Receiver
variable {σ : Type}

/- Looks on: it neither changes a node nor stops a build. -/
def Watches (receiver : Receiver σ) : Prop :=
  ∀ event state arena, ∃ after, receiver event state arena = .ok (after, arena)

theorem silentWatches : silent.Watches := fun _ _ _ => ⟨(), rfl⟩

end Receiver

namespace Build
variable {σ τ : Type}

theorem turnOk {comments : Bool} {receiver : Receiver σ} {b next : Build σ} (h : b.turn comments receiver = .ok next) :
    (b.builder.step comments = .ok (next.builder, none) ∧ next.state = b.state) ∨
    ∃ event builder arena, b.builder.step comments = .ok (builder, some event) ∧
      receiver event b.state builder.arena = .ok (next.state, arena) ∧ next.builder = { builder with arena } := by
  unfold turn at h
  split at h
  · contradiction
  · rename_i builder stepped
    cases h
    exact Or.inl ⟨stepped, rfl⟩
  · rename_i builder event stepped
    unfold tell at h
    split at h
    · rename_i state arena told
      cases h
      exact Or.inr ⟨event, builder, arena, stepped, told, rfl⟩
    · contradiction

theorem turnStep {comments : Bool} {receiver : Receiver σ} {b next : Build σ}
    (keeps : ∀ event state after arena changed, receiver event state arena = .ok (after, changed) → changed.Alike arena)
    (h : b.turn comments receiver = .ok next) :
    ∃ builder event, b.builder.step comments = .ok (builder, event) ∧ next.builder.Alike builder := by
  rcases turnOk h with ⟨stepped, _⟩ | ⟨event, builder, arena, stepped, told, same⟩
  · exact ⟨next.builder, none, stepped, rfl, rfl, rfl⟩
  · refine ⟨builder, some event, stepped, ?_⟩
    rw [same]
    exact ⟨rfl, rfl, keeps _ _ _ _ _ told⟩

theorem turnsSideBySide (comments : Bool) {watcher : Receiver σ} (receiver : Receiver τ) (watches : watcher.Watches)
    {p : Build σ} {q : Build τ} (alike : p.builder.Alike q.builder) :
    (∃ cause, p.builder.step comments = .error cause ∧
      p.turn comments watcher = .error ⟨cause, p⟩ ∧ q.turn comments receiver = .error ⟨cause, q⟩) ∨
    (∃ next other, p.builder.step comments = .ok (next, none) ∧ q.builder.step comments = .ok (other, none) ∧
      next.Alike other ∧ p.turn comments watcher = .ok ⟨next, p.state⟩ ∧
      q.turn comments receiver = .ok ⟨other, q.state⟩) ∨
    ∃ next other event state, p.builder.step comments = .ok (next, some event) ∧
      q.builder.step comments = .ok (other, some event) ∧ next.Alike other ∧
      (∀ id, event = .opened id →
        ∃ node, next.arena = p.builder.arena.push node ∧ other.arena = q.builder.arena.push node) ∧
      watcher event p.state next.arena = .ok (state, next.arena) ∧
      p.turn comments watcher = .ok ⟨next, state⟩ ∧
      q.turn comments receiver = tell receiver event ⟨other, q.state⟩ := by
  have steps := Builder.stepAlike alike comments
  unfold turn
  generalize p.builder.step comments = left at steps ⊢
  generalize q.builder.step comments = right at steps ⊢
  cases steps with
  | failed cause => exact Or.inl ⟨cause, rfl, rfl, rfl⟩
  | @moved next other event alike opened =>
    cases event with
    | none => exact Or.inr (Or.inl ⟨next, other, rfl, rfl, alike, rfl, rfl⟩)
    | some event =>
      obtain ⟨state, told⟩ := watches event p.state next.arena
      refine Or.inr (Or.inr ⟨next, other, event, state, rfl, rfl, alike, ?_, told, ?_, rfl⟩)
      · intro id same
        exact opened id (congrArg some same)
      · simp only [tell, told]

theorem runInvariant {comments : Bool} {receiver : Receiver σ} {I : Build σ → Prop}
    (skip : ∀ b, I b → I b.skipBlank) (turn : ∀ b next, I b → b.turn comments receiver = .ok next → I next)
    {b last : Build σ} (start : I b) (ran : b.run comments receiver = .ok last) : I last := by
  fun_induction run comments receiver b with
  | case1 b ended =>
    cases ran
    exact skip b start
  | case2 => contradiction
  | case3 b more next taken ih => exact ih (turn _ next (skip b start) taken) ran

theorem runError {comments : Bool} {receiver : Receiver σ} {I : Build σ → Prop}
    (skip : ∀ b, I b → I b.skipBlank) (turn : ∀ b next, I b → b.turn comments receiver = .ok next → I next)
    {b : Build σ} {halt : Halt (Build σ)} (start : I b) (ran : b.run comments receiver = .error halt) :
    ∃ before, I before ∧ before.turn comments receiver = .error halt := by
  fun_induction run comments receiver b with
  | case1 => contradiction
  | case2 b more other taken =>
    cases ran
    exact ⟨_, skip b start, taken⟩
  | case3 b more next taken ih => exact ih (turn _ next (skip b start) taken) ran

inductive Outcomes (Related : Build σ → Build τ → Prop) (Fails : CompileError → CompileError → Prop)
    (Stops : Build σ → CompileError → Prop) :
    Except (Halt (Build σ)) (Build σ) → Except (Halt (Build τ)) (Build τ) → Prop where
  | together {p q} (related : Related p q) : Outcomes Related Fails Stops (.ok p) (.ok q)
  | failed {h k} (fails : Fails h.cause k.cause) : Outcomes Related Fails Stops (.error h) (.error k)
  | stopped {p k} (reason : Stops p k.cause) : Outcomes Related Fails Stops (.ok p) (.error k)

/- Runs whose turns come out side by side do so as a whole; the two may differ in what they do with
comments, in their receivers and in their sources. -/
theorem runsCorrespond (comments other : Bool) {first : Receiver σ} {second : Receiver τ}
    {Related : Build σ → Build τ → Prop} {Fails : CompileError → CompileError → Prop}
    {Stops : Build σ → CompileError → Prop}
    (atEnd : ∀ p q, Related p q → p.skipBlank.builder.atEnd = q.skipBlank.builder.atEnd)
    (turn : ∀ p q, Related p q → p.skipBlank.builder.atEnd = false →
      Outcomes Related Fails Stops (p.skipBlank.turn comments first) (q.skipBlank.turn other second))
    {p : Build σ} {q : Build τ} (start : Related p q) :
    (∃ last beside, p.run comments first = .ok last.skipBlank ∧ q.run other second = .ok beside.skipBlank ∧
      Related last beside) ∨
    (∃ h k, p.run comments first = .error h ∧ q.run other second = .error k ∧ Fails h.cause k.cause) ∨
    ∃ next k, p.run comments first = next.run comments first ∧ q.run other second = .error k ∧ Stops next k.cause := by
  fun_induction run comments first p generalizing q with
  | case1 p ended =>
    rw [atEnd _ _ start] at ended
    exact Or.inl ⟨p, q, rfl, by rw [run, if_pos ended], start⟩
  | case2 p more h taken =>
    have outcome := turn _ _ start (Bool.not_eq_true _ ▸ more)
    rw [atEnd _ _ start] at more
    rw [taken] at outcome
    rw [run, if_neg more]
    split
    · rename_i k failed
      rw [failed] at outcome
      cases outcome with
      | failed fails => exact Or.inr (Or.inl ⟨_, _, rfl, rfl, fails⟩)
    · rename_i next passed
      rw [passed] at outcome
      cases outcome
  | case3 p more next taken ih =>
    have outcome := turn _ _ start (Bool.not_eq_true _ ▸ more)
    rw [atEnd _ _ start] at more
    rw [taken] at outcome
    rw [run.eq_def other second q, if_neg more]
    split
    · rename_i k failed
      rw [failed] at outcome
      cases outcome with
      | stopped reason => exact Or.inr (Or.inr ⟨next, _, rfl, rfl, reason⟩)
    · rename_i beside passed
      rw [passed] at outcome
      cases outcome with
      | together related => exact ih related

abbrev TurnsAgree (Related : Build σ → Build τ → Prop) (Stops : Build σ → CompileError → Prop) :
    Except (Halt (Build σ)) (Build σ) → Except (Halt (Build τ)) (Build τ) → Prop := Outcomes Related Eq Stops

theorem runsAgree (comments : Bool) {first : Receiver σ} {second : Receiver τ}
    {Related : Build σ → Build τ → Prop} {Stops : Build σ → CompileError → Prop}
    (skip : ∀ p q, Related p q → Related p.skipBlank q.skipBlank)
    (atEnd : ∀ p q, Related p q → p.builder.atEnd = q.builder.atEnd)
    (turn : ∀ p q, Related p q → TurnsAgree Related Stops (p.turn comments first) (q.turn comments second))
    {p : Build σ} {q : Build τ} (start : Related p q) :
    (∃ last other, p.run comments first = .ok last ∧ q.run comments second = .ok other ∧ Related last other) ∨
    (∃ h k, p.run comments first = .error h ∧ q.run comments second = .error k ∧ h.cause = k.cause) ∨
    ∃ next k, p.run comments first = next.run comments first ∧ q.run comments second = .error k ∧
      Stops next k.cause := by
  rcases runsCorrespond comments comments (fun p q related => atEnd _ _ (skip p q related))
      (fun p q related _ => turn _ _ (skip p q related)) start with
    ⟨last, beside, ran, ranOther, related⟩ | failed | stopped
  · exact Or.inl ⟨last.skipBlank, beside.skipBlank, ran, ranOther, skip last beside related⟩
  · exact Or.inr (Or.inl failed)
  · exact Or.inr (Or.inr stopped)

theorem runsInvariant {comments : Bool} {first : Receiver σ} {second : Receiver τ} {I : Build σ → Build τ → Prop}
    (skip : ∀ p q, I p q → I p.skipBlank q.skipBlank)
    (atEnd : ∀ p q, I p q → p.builder.atEnd = q.builder.atEnd)
    (turn : ∀ p q next other, I p q → p.turn comments first = .ok next → q.turn comments second = .ok other →
      I next other)
    {p last : Build σ} {q other : Build τ} (start : I p q) (ran : p.run comments first = .ok last)
    (ranOther : q.run comments second = .ok other) : I last other := by
  fun_induction run comments first p generalizing q with
  | case1 p ended =>
    have related := skip p q start
    rw [atEnd _ _ related] at ended
    rw [run, if_pos ended] at ranOther
    cases ran
    cases ranOther
    exact related
  | case2 => contradiction
  | case3 p more next taken ih =>
    have related := skip p q start
    rw [atEnd _ _ related] at more
    rw [run, if_neg more] at ranOther
    split at ranOther
    · contradiction
    · rename_i nextOther takenOther
      exact ih (turn _ _ _ _ related taken takenOther) ran ranOther

theorem watchersAgree (comments : Bool) {first : Receiver σ} {second : Receiver τ} (watches : first.Watches)
    (alsoWatches : second.Watches) {p : Build σ} {q : Build τ} (same : p.builder = q.builder) :
    (∃ last other, p.run comments first = .ok last ∧ q.run comments second = .ok other ∧
      last.builder = other.builder) ∨
    ∃ h k, p.run comments first = .error h ∧ q.run comments second = .error k ∧ h.cause = k.cause := by
  have turn (p : Build σ) (q : Build τ) (same : p.builder = q.builder) :
      TurnsAgree (fun p q => p.builder = q.builder) (fun _ _ => False) (p.turn comments first)
        (q.turn comments second) := by
    unfold turn
    rw [same]
    split
    · exact .failed rfl
    · exact .together rfl
    · rename_i builder event _
      obtain ⟨_, told⟩ := watches event p.state builder.arena
      obtain ⟨_, alsoTold⟩ := alsoWatches event q.state builder.arena
      rw [tell, told, tell, alsoTold]
      exact .together rfl
  have skip (p : Build σ) (q : Build τ) (same : p.builder = q.builder) : p.skipBlank.builder = q.skipBlank.builder :=
    congrArg Builder.skipBlank same
  rcases runsAgree comments skip (fun p q same => congrArg Builder.atEnd same) turn same with
    together | failed | stopped
  · exact Or.inl together
  · exact Or.inr failed
  · obtain ⟨_, _, _, _, impossible⟩ := stopped
    exact absurd impossible id

end Build
end Templating
