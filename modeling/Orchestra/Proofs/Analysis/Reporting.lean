import Orchestra.Proofs.Accounting.Accounts
import Orchestra.Proofs.Analysis.Scores

/-!
# Orchestra.Proofs.Analysis.Reporting — what an analysis of code comes to

The assistant asks for an analysis in a chat and makes a report of the message that it gets.  A request that has been
answered with a result leaves nothing to its operation but to tell hooks and to read this result; so the caller gets the
report of its message, unless the first score in it is too long to be read (`run_reports`).
-/

namespace Orchestra

/-- What the assistant is given to do for an analysis of code. -/
def Analysis.assignment : Analysis → String → Assignment
  | review, code => .reviewCode code
  | performance, code => .optimizePerformance code
  | security, code => .analyzeSecurity code

theorem Analysis.assignment_reading (a : Analysis) (code : String) : (a.assignment code).reading = .report a := by
  cases a <;> rfl

/-- A request that is answered by a response was decided by its result. -/
theorem RequestRecord.outcome_of_response {r : RequestRecord} {outcome : Except Fault Result} {id : RequestId}
    {subject : Subject} {result : Result} {ticks ticks' : Nat}
    (h : .response id subject (.result result) ticks = r.event outcome ticks') : outcome = .ok result := by
  cases outcome with
  | ok result' => cases h; rfl
  | error f => cases h

namespace World

variable {w : World} {occs : List Occurrence} {op : Nat} {r : RequestRecord} {outcome : Except Fault Result}
  {result : Result} {ticks : Nat}

/-- A response that was told of a request is the event that it was answered with. -/
theorem AnsweredIn.outcome_eq (h : w.AnsweredIn occs op r outcome)
    (htold : .response r.id (.capability r.kind) (.result result) ticks ∈ (w.after occs).eventsOf r.id) :
    outcome = .ok result := by
  obtain ⟨tick, -, hevents⟩ := h
  rw [hevents, List.mem_singleton] at htold
  exact RequestRecord.outcome_of_response htold

end World

namespace Scenario.Service

open World Reading

/-- **Reports.**  Every analysis reads every text: it makes a report with the first score that the text gives, and fails
only over a score that is too long.  And whatever occurs, in whatever order, an analysis of code whose request has been
answered with a result is still telling hooks of what is handed to it, or has come to what the analysis makes of the message
that it is handed, unless the caller went away in between. -/
theorem run_reports (analysis : Analysis) :
    (∀ text, analysis.Reads text (analysis.ofText text)) ∧
    ∀ (s : Setting) (w u : World) (occs : List Occurrence) (op : Nat) (o : Operation) (code : String)
      (r : RequestRecord) (result : Result) (ticks : Nat), s.world = .ok w →
      (w.after occs).operations[op]? = some o →
      o.assistant = some (u.recordOf (analysis.assignment code)) → o.request = some r →
      .response r.id (.capability r.kind) (.result result) ticks ∈ (w.after occs).published →
      ∃ standing, w.Hands (.ok result) standing ∧
        ((∃ telling queue, o.stage = .relaying telling queue standing) ∨
        ∃ answer tick, o.stage = .done answer tick ∧
          (answer = standing.bind (fun handed => (analysis.ofText (messageOf handed)).map .report) ∨
            answer = .error .interrupted ∧ w.AbandonedIn occs op)) := by
  refine ⟨analysis.ofText_reads, fun s w u occs op o code r result ticks hw ho ha hr htold => ?_⟩
  obtain ⟨-, haccount⟩ := after_accounted (world_balanced hw) (world_accounted hw) occs op o r ho hr
  have htold : .response r.id (.capability r.kind) (.result result) ticks ∈ (w.after occs).eventsOf r.id :=
    List.mem_filter.mpr ⟨htold, beq_self_eq_true _⟩
  unfold AccountedIn at haccount
  split at haccount
  · exact haccount.elim
  · exact absurd (haccount ▸ htold) List.not_mem_nil
  · next telling queue standing hstage =>
    obtain ⟨outcome, hanswered, hhands⟩ := haccount
    cases hanswered.outcome_eq htold
    exact ⟨standing, hhands, .inl ⟨telling, queue, hstage⟩⟩
  · next answer tick hstage =>
    obtain ⟨outcome, standing, hanswered, hhands, hanswer⟩ := haccount
    cases hanswered.outcome_eq htold
    rw [ha, answerTo, recordOf, analysis.assignment_reading] at hanswer
    exact ⟨standing, hhands, .inr ⟨answer, tick, hstage, hanswer⟩⟩

/-- A service with nothing around it. -/
def surgery : Setting := { watched with coordinator := none }

/-- The word comes three times, but only once with a number. -/
def diagnosis : String := "No score yet.\nScores: 9\nwarning: \u017fCORE :\t08/10"

/-- A review that is asked for, and answered after a tick. -/
def visit : List Occurrence := [
  .register ⟨0, "alpha", [.chat]⟩ none,
  .begin (.assistant (Analysis.review.assignment "x = 1")) .none,
  .clock { now := 1, nextTask := 1, ended := [⟨0, 1, .ok (.result (.chat { message := some diagnosis }))⟩] },
  .resume 0]

theorem run_reports_visit :
    ∃ w o, surgery.world = .ok w ∧ (w.after visit).operations[0]? = some o ∧
      (∃ answer, o.stage = .done answer 1 ∧ answer = (Analysis.review.ofText diagnosis).map .report) ∧
      firstScore? diagnosis.toList = some ['0', '8'] := by
  obtain ⟨w, hw⟩ : ∃ w, surgery.world = .ok w := ⟨_, rfl⟩
  cases hw
  obtain ⟨standing, hhands, hcame⟩ :=
    (run_reports .review).2 surgery _ _ visit 0 _ "x = 1" _ (.chat { message := some diagnosis }) 1 rfl rfl rfl rfl
      (.head _)
  have hstanding : standing = .ok (.chat { message := some diagnosis }) := hands_iff.mp hhands
  obtain ⟨telling, queue, hstage⟩ | ⟨answer, tick, hstage, hanswer⟩ := hcame
  · cases hstage
  · cases hstage
    rw [hstanding] at hanswer
    refine ⟨_, _, rfl, rfl, ⟨_, rfl, ?_⟩, by decide +kernel⟩
    obtain hanswer | ⟨hlost, -⟩ := hanswer
    · exact hanswer
    · cases hlost

/-- A text that gives these digits as its score right away. -/
def labelled (digits : List Char) : String := String.ofList (['s', 'c', 'o', 'r', 'e'] ++ ([':', ' '] ++ digits))

theorem labelled_gives {digits : List Char} (hne : digits ≠ []) (hdigits : ∀ c ∈ digits, Text.isDigit c = true) :
    GivesFirst (labelled digits).toList digits := by
  have hword : ScoreWord ['s', 'c', 'o', 'r', 'e'] := scoreWord_iff.mp (by decide)
  have hgap : ∀ c ∈ [':', ' '], InGap c := by
    intro c hc
    rcases List.mem_pair.mp hc with rfl | rfl
    · exact .inl rfl
    · exact .inr (by decide)
  refine (givesFirst_here ⟨hne, hdigits, _, _, [], ?_, hword, hgap, nofun⟩).mpr rfl
  rw [labelled, String.toList_ofList, List.append_nil]

/-- Seven, with more zeros before it than are read. -/
def padded : List Char := List.replicate Number.digitLimit '0' ++ ['7']

theorem padded_length : padded.length = 4301 := by
  rw [padded, List.length_append, List.length_replicate]
  rfl

/-- Here a score of seven is given, and there is no report. -/
theorem run_unreported :
    GivesFirst (labelled padded).toList padded ∧ Text.natOfDigits padded = 7 ∧
      Analysis.review.ofText (labelled padded) = .error (.tooManyDigits 4301) := by
  have hdigits : ∀ c ∈ padded, Text.isDigit c = true := by
    intro c hc
    rcases List.mem_append.mp hc with hc | hc
    · rw [(List.mem_replicate.mp hc).2]
      decide
    · rw [List.mem_singleton.mp hc]
      decide
  have hne : padded ≠ [] := List.append_ne_nil_of_right_ne_nil _ (List.cons_ne_nil _ _)
  have hfirst := labelled_gives hne hdigits
  refine ⟨hfirst, ?_, ?_⟩
  · rw [padded, Text.natOfDigits, List.foldl_append]
    decide +kernel
  · obtain ⟨report, heq, -⟩ := Analysis.review.ofText_eq (labelled padded)
    have hlong : padded.length > Number.digitLimit := by rw [padded_length]; decide
    have hscore : score (labelled padded) = .error (.tooManyDigits 4301) := by
      rw [score, firstScore?_eq_some.mpr hfirst, ← padded_length]
      exact if_pos hlong
    rw [heq, hscore]
    rfl

end Scenario.Service

end Orchestra
