import Orchestra.Proofs.Accounting.Books

/-!
# Orchestra.Proofs.Events.Interruption — nobody is interrupted but by a cancelled task

Whatever a provider fails with is reported as a failure of the provider, so that a fan-out never ends as an interruption
of its caller (`FanOut.look_ne_interrupted`), and reading an answer makes none (`answerTo_interrupted`).
-/

namespace Orchestra

namespace FanOut

variable {kind : Capability} {policy : Policy} {calls : Calls} {f : Fault}

/-- What providers fail with is never reported as an interruption of the caller. -/
theorem reported_ne_interrupted (kind : Capability) (p : ProviderRef) (f : Fault) : reported kind p f ≠ .interrupted := by
  unfold reported
  split <;> exact nofun

/-- No fault among the skipped is an interruption. -/
def Uninterrupted (skipped : Skipped) : Prop := ∀ x ∈ skipped, x.2 ≠ .interrupted

theorem sift_uninterrupted (kind : Capability) (policy : Policy) (round : Round) (place : Nat) (calls : Calls)
    {skipped : Skipped} (h : Uninterrupted skipped) :
    (∀ f : Fault, sift kind policy round place calls skipped = .error f → f ≠ .interrupted) ∧
      ∀ skipped', sift kind policy round place calls skipped = .ok skipped' → Uninterrupted skipped' := by
  induction calls generalizing place skipped with
  | nil =>
    refine ⟨fun f hf => (by cases hf), fun skipped' hs => ?_⟩
    cases hs
    exact h
  | cons call rest ih =>
    obtain ⟨p, task⟩ := call
    unfold sift
    split
    · refine ⟨fun f hf => ?_, fun _ hs => by cases hs⟩
      cases hf
      exact reported_ne_interrupted kind p _
    · exact ih _ (List.forall_mem_append.mpr ⟨h, List.forall_mem_singleton.mpr (reported_ne_interrupted kind p _)⟩)
    · exact ih _ h

theorem gather_ne_interrupted {ended : Round} {skipped : Skipped} (h : Uninterrupted skipped)
    (hg : gather kind calls ended skipped = .error f) : f ≠ .interrupted := by
  unfold gather at hg
  split at hg
  · next hfirst =>
    cases hg
    obtain ⟨place, -, hlookup⟩ := Option.bind_eq_some_iff.mp hfirst
    obtain ⟨l₁, l₂, hl, -⟩ := List.lookup_eq_some_iff.mp hlookup
    exact h (place, f) (by rw [hl]; simp)
  · unfold Result.merge at hg
    split at hg
    all_goals cases hg
    exact nofun

theorem await_ne_interrupted {ended : Round} {pending : List Nat} {skipped : Skipped} {rounds : List Round}
    (h : Uninterrupted skipped) (ha : await kind policy calls ended pending skipped rounds = some (.error f)) :
    f ≠ .interrupted := by
  induction rounds generalizing pending skipped with
  | nil =>
    cases pending with
    | nil => exact gather_ne_interrupted h (Option.some.inj ha)
    | cons p ps => cases ha
  | cons round rounds ih =>
    cases pending with
    | nil => exact gather_ne_interrupted h (Option.some.inj ha)
    | cons p ps =>
      obtain ⟨herror, hok⟩ := sift_uninterrupted kind policy round 0 calls h
      rw [await] at ha
      split at ha
      · next hs =>
        cases ha
        exact herror f hs
      · next skipped' hs => exact ih (hok skipped' hs) ha

/-- **A fan-out never ends as interrupted**, however its providers end. -/
theorem look_ne_interrupted {cancelled : Bool} {rounds : List Round} {outcome : Except Fault Result}
    (h : look kind policy cancelled calls rounds = some outcome) : outcome ≠ .error .interrupted := by
  rintro rfl
  unfold look at h
  split at h
  · cases h
  · exact await_ne_interrupted (List.forall_mem_nil _) h rfl

theorem invited_ne_interrupted {r : Registry} {cancelled : Bool} (h : invited r kind cancelled = .error f) :
    f ≠ .interrupted := by
  unfold invited at h
  split at h
  · cases h; exact nofun
  · split at h
    · cases h; exact nofun
    · split at h <;> cases h
      exact nofun

end FanOut

theorem score_ne_interrupted {text : String} : score text ≠ .error .interrupted := by
  unfold score
  split
  · exact nofun
  · split <;> exact nofun

theorem Analysis.ofText_ne_interrupted (a : Analysis) (text : String) : a.ofText text ≠ .error .interrupted := by
  rcases hs : score text with f | n
  · have hf : f ≠ .interrupted := fun h => score_ne_interrupted (hs.trans (congrArg _ h))
    cases a <;> simp [ofText, Review.ofText, Performance.ofText, Security.ofText, hs, bind, Except.bind, Except.map, hf]
  · cases a <;> simp [ofText, Review.ofText, Performance.ofText, Security.ofText, hs, bind, Except.bind, Except.map, pure,
      Except.pure]

/-- Reading an answer interrupts nobody. -/
theorem Reading.read_ne_interrupted (reading : Reading) (r : Result) : reading.read r ≠ .error .interrupted := by
  cases reading with
  | whole => exact nofun
  | message => exact nofun
  | report analysis =>
    have hne := analysis.ofText_ne_interrupted (messageOf r)
    show (analysis.ofText (messageOf r)).map Answer.report ≠ _
    rcases hr : analysis.ofText (messageOf r) with f | report
    · rw [hr] at hne
      simpa [Except.map] using hne
    · exact nofun

theorem answerTo_interrupted (assistant : Option AssistantRecord) {outcome : Except Fault Result}
    (h : answerTo assistant outcome = .error .interrupted) : outcome = .error .interrupted := by
  rcases outcome with f | r
  · cases assistant <;> (cases h; rfl)
  · cases assistant with
    | none => cases h
    | some a => exact absurd h (a.reading.read_ne_interrupted r)

end Orchestra
