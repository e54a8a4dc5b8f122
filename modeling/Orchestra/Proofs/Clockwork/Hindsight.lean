import Orchestra.Proofs.Bridge
import Orchestra.Proofs.Clockwork.Foresight

/-!
# Orchestra.Proofs.Clockwork.Hindsight — how a call ends, once it is known when its token was cancelled

Foresight holds as long as a token is not cancelled.  In hindsight, when and how a call ends depends on its own reply and on
its token alone: on when the token was cancelled and, if that was at a tick at which the call had its turn, on which of the
two came first (`Reply.courseUnder`, `Provider.courseUnder`).
-/

namespace Orchestra

/-- When a token was cancelled, and whether a call that had its turn at that tick found it so. -/
abbrev Firing := Option (Tick × Bool)

/-- Whether a call that has its turn at a tick finds its token cancelled. -/
def Firing.found (fires : Firing) (tick : Tick) : Bool := fires.any fun f => f.1 < tick || f.1 == tick && f.2

namespace Reply

variable {α : Type}

/-- When a call ends that begins at a tick, if it ever does. -/
def endsAt (r : Reply α) (start : Tick) (firesAt : Option Tick) : Option Tick :=
  match r.wait with
  | none => some (start + r.delay)
  | some .forever => none
  | some .cancellation => firesAt.map (max (start + r.delay))

/-- The call cancels its own token. -/
def cancels (r : Reply α) (token : Token) : Bool := r.cancel.any (Token.source · == token)

/-- How a call ends; `found` says that it finds its token cancelled, and `read` what it answers. -/
def endingWith (r : Reply α) (token : Token) (found : Bool) (read : Bool → Ending) : Ending :=
  let cancelled := r.cancels token || found
  match r.check with
  | some operation => if cancelled then .error (.cancelled operation none) else read cancelled
  | none => read cancelled

/-- When and how a call ends that begins at a tick, given when its token is cancelled. -/
def courseUnder (r : Reply α) (token : Token) (start : Tick) (fires : Firing) (read : Tick → Bool → Ending) : Course :=
  (r.endsAt start (fires.map Prod.fst)).map fun tick => (tick, r.endingWith token (fires.found tick) (read tick))

/-- What is left to do after all waiting. -/
def rest (r : Reply α) : List Move := (r.cancel.map .cancel).toList ++ (r.check.map .checkpoint).toList

/-- What is left to do after the delay. -/
def afterDelay (r : Reply α) : List Move := (r.wait.map (·.move)).toList ++ r.rest

theorem moves_eq (r : Reply α) :
    r.moves = if r.delay = 0 then r.afterDelay else .pause r.delay :: r.afterDelay := by
  unfold moves afterDelay rest
  split <;> simp [List.append_assoc]

theorem le_endsAt {r : Reply α} {start tick : Tick} {firesAt : Option Tick} (h : r.endsAt start firesAt = some tick) :
    start + r.delay ≤ tick := by
  unfold endsAt at h
  split at h
  · cases h; exact Nat.le_refl _
  · cases h
  · obtain ⟨f, -, rfl⟩ := Option.map_eq_some_iff.mp h
    exact Nat.le_max_left _ _

end Reply

/-- When and how the call of a provider ends that begins at a tick, given when its token is cancelled. -/
def Provider.courseUnder (kind : Capability) (payload : Payload) (context : Context) (token : Token) (start : Tick)
    (fires : Firing) : Provider → Course
  | .scripted p =>
    let r := p.script.reply p.record.calls
    r.courseUnder token start fires fun _ _ => r.outcome.bind fun build => build kind
  | .bridge b =>
    match b.request (fires.found start) payload.message context with
    | .error f => some (start, .error f)
    | .ok _ =>
      let r := (b.script.reply b.asked).withoutToken
      r.courseUnder token start fires fun tick cancelled =>
        (Bridge.finish b.name b.written cancelled (tick - start) r.outcome).map .chat

theorem Provider.courseUnder_bridge (kind : Capability) (payload : Payload) (context : Context) (token : Token)
    (start : Tick) (fires : Firing) (b : ModelBridge) :
    (Provider.bridge b).courseUnder kind payload context token start fires =
      match b.request (fires.found start) payload.message context with
      | .error f => some (start, .error f)
      | .ok _ => (b.script.reply b.asked).withoutToken.courseUnder token start fires fun tick cancelled =>
        (Bridge.finish b.name b.written cancelled (tick - start) (b.script.reply b.asked).outcome).map .chat := rfl

/-- What a call ends with whose moves are made. -/
def Finish.reads (cancelled : Bool) (now : Tick) : Finish → Option Ending
  | .provider _ reply => some (reply.bind id)
  | .model _ name written since reply => some ((Bridge.finish name written cancelled (now - since) reply).map .chat)
  | _ => none

/-! ### A late cancellation -/

/-- Whoever had its turn before did not find the token cancelled. -/
theorem Firing.found_late {start now : Tick} (h : start ≤ now) : Firing.found (some (now, false)) start = false := by
  simp [Firing.found, Nat.not_lt.mpr h]

/-- A cancellation after the end of a call changes nothing for it. -/
theorem Reply.courseUnder_late {α : Type} {r : Reply α} {token : Token} {start now : Tick} {read : Tick → Bool → Ending}
    {x : Tick × Ending} (h : r.courseUnder token start none read = some x) (hle : x.1 ≤ now) :
    r.courseUnder token start (some (now, false)) read = some x := by
  obtain ⟨tick, htick, rfl⟩ := Option.map_eq_some_iff.mp h
  have hends : r.endsAt start ((some (now, false) : Firing).map Prod.fst) = some tick := by
    unfold endsAt at htick ⊢
    split at htick
    · exact htick
    · cases htick
    · cases htick
  rw [courseUnder, hends, Option.map_some, Firing.found_late hle]
  rfl

theorem Provider.courseUnder_late {p : Provider} {kind : Capability} {payload : Payload} {context : Context}
    {token : Token} {start now : Tick} {x : Tick × Ending}
    (h : p.courseUnder kind payload context token start none = some x) (hle : x.1 ≤ now) :
    p.courseUnder kind payload context token start (some (now, false)) = some x := by
  cases p with
  | scripted p => exact Reply.courseUnder_late h hle
  | bridge b =>
    rw [courseUnder_bridge] at h ⊢
    have hstart : start ≤ x.1 := by
      split at h
      · cases h; exact Nat.le_refl _
      · obtain ⟨tick, htick, rfl⟩ := Option.map_eq_some_iff.mp h
        exact Nat.le_trans (Nat.le_add_right _ _) (Reply.le_endsAt htick)
    rw [Firing.found_late (Nat.le_trans hstart hle)]
    have hnone : Firing.found none start = false := rfl
    rw [hnone] at h
    cases hr : b.request false payload.message context with
    | error f =>
      rw [hr] at h
      exact h
    | ok messages =>
      rw [hr] at h
      exact Reply.courseUnder_late h hle

namespace Clockwork

variable {c c' : Clockwork} {t : Task} {token : Token} {start : Tick} {F : List Tick}

/-- When and how a call ends that is made now, given when its token is cancelled. -/
def courseUnder (c : Clockwork) (kind : Capability) (payload : Payload) (context : Context) (token : Token)
    (index : Nat) (fires : Firing) : Course :=
  match c.providers[index]? with
  | some p => p.courseUnder kind payload context token c.now fires
  | none => some (c.now, .error (.unsupported kind none))

/-! ### What a call finds -/

/-- When the token was cancelled; the call found it so in its turns at certain ticks. -/
def firing (c : Clockwork) (token : Token) (F : List Tick) : Firing :=
  (c.cancelledAt? token).map fun f => (f, F.contains f)

/-- The tick, if a task has its turn now and finds its token cancelled. -/
def finding? (c : Clockwork) (task : Nat) : Option Tick :=
  (c.tasks.find? c.isReady).bind fun t => if t.id == task && c.isCancelled t.token then some c.now else none

theorem cancelledAt?_within (h : Within c c') (t : Token) :
    c'.cancelledAt? t = c.cancelledAt? t ∨ c.cancelledAt? t = none ∧ c'.cancelledAt? t = some c.now := by
  obtain ⟨more, hmore, hnow⟩ := h.cancelled
  cases t with
  | none => exact .inl rfl
  | source name =>
    simp only [cancelledAt?, hmore, List.lookup_append]
    cases hl : c.cancelled.lookup name with
    | some tick => exact .inl rfl
    | none =>
      rw [Option.none_or]
      cases hl' : more.lookup name with
      | none => exact .inl rfl
      | some tick =>
        obtain ⟨l₁, l₂, hmem, -⟩ := List.lookup_eq_some_iff.mp hl'
        have htick : tick = c.now := hnow (name, tick) (by rw [hmem]; simp)
        exact .inr ⟨rfl, by rw [htick]⟩

/-- Whoever found the token cancelled found it so because it was. -/
def Founded (c : Clockwork) (token : Token) (F : List Tick) : Prop := c.cancelledAt? token = none → F = []

/-- Others leave what a call finds as it is, or cancel its token now, which it has not yet found. -/
theorem firing_within (h : Within c c') (hF : c.Founded token F) :
    c'.firing token F = c.firing token F ∨ c.firing token F = none ∧ c'.firing token F = some (c.now, false) := by
  unfold firing
  rcases cancelledAt?_within h token with hsame | ⟨hnone, hsome⟩
  · exact .inl (by rw [hsame])
  · exact .inr ⟨by rw [hnone]; rfl, by rw [hsome, hF hnone]; rfl⟩

/-- What a call finds that has its turn now. -/
def findings (c : Clockwork) (token : Token) (F : List Tick) : List Tick :=
  F ++ if c.isCancelled token then [c.now] else []

theorem Founded.findings (h : Within c c') (hF : c.Founded token F) : c'.Founded token (c.findings token F) := by
  intro hnone
  rcases cancelledAt?_within h token with hsame | ⟨-, hsome⟩
  · have hc : c.cancelledAt? token = none := hsame ▸ hnone
    rw [Clockwork.findings, hF hc, isCancelled_eq, hc]
    rfl
  · rw [hsome] at hnone
    cases hnone

theorem Founded.within (h : Within c c') (hF : c.Founded token F) : c'.Founded token F := by
  intro hnone
  rcases cancelledAt?_within h token with hsame | ⟨-, hsome⟩
  · exact hF (hsame ▸ hnone)
  · rw [hsome] at hnone
    cases hnone

/-- In hindsight, a call that has its turn now finds what it finds. -/
theorem found_now (h : Within c c') (ht : c.Timely) (hF : c.Founded token F) :
    (c'.firing token (c.findings token F)).found c.now = c.isCancelled token := by
  unfold firing
  rw [isCancelled_eq]
  cases hc : c.cancelledAt? token with
  | some f =>
    obtain ⟨name, rfl, hmem⟩ := mem_of_cancelledAt? hc
    have hle : f ≤ c.now := ht.cancelled _ hmem
    rcases cancelledAt?_within h (.source name) with hsame | ⟨hnone, -⟩
    · have hin : c.now ∈ c.findings (.source name) F := by
        rw [findings, isCancelled_eq, hc]
        simp
      rw [hsame, hc]
      rcases Nat.lt_or_eq_of_le hle with hlt | heq
      · simp [Firing.found, hlt]
      · simp [Firing.found, heq, hin]
    · rw [hc] at hnone
      cases hnone
  | none =>
    have hnil : c.findings token F = [] := by
      rw [findings, hF hc, isCancelled_eq, hc]
      rfl
    rcases cancelledAt?_within h token with hsame | ⟨-, hsome⟩
    · rw [hsame, hc]
      rfl
    · rw [hsome, hnil]
      exact Firing.found_late (Nat.le_refl _)

/-- A call that did not find its token cancelled when it began did not, whatever it finds now. -/
theorem found_before (h : Within c c') (hF : c.Founded token F) (hle : start ≤ c.now)
    (hlt : start < c.now ∨ c.isCancelled token = false) (hmissed : (c.firing token F).found start = false) :
    (c'.firing token (c.findings token F)).found start = false := by
  unfold firing at hmissed ⊢
  cases hc : c.cancelledAt? token with
  | some f =>
    rw [isCancelled_eq, hc] at hlt
    have hlt : start < c.now := hlt.resolve_right (by simp)
    rcases cancelledAt?_within h token with hsame | ⟨hnone, -⟩
    · rw [hsame, hc]
      rw [hc] at hmissed
      have hne : start ≠ c.now := Nat.ne_of_lt hlt
      simp only [Firing.found, Option.map_some, Option.any_some, Bool.or_eq_false_iff, Bool.and_eq_false_iff,
        decide_eq_false_iff_not, beq_eq_false_iff_ne] at hmissed ⊢
      refine ⟨hmissed.1, ?_⟩
      by_cases hf : f = start
      · refine .inr ?_
        have hno := hmissed.2.resolve_left (fun hne => hne hf)
        rw [findings, List.contains_append, hno, Bool.false_or, isCancelled_eq, hc, hf]
        simp [hne]
      · exact .inl hf
    · rw [hc] at hnone
      cases hnone
  | none =>
    have hnil : c.findings token F = [] := by
      rw [findings, hF hc, isCancelled_eq, hc]
      rfl
    rcases cancelledAt?_within h token with hsame | ⟨-, hsome⟩
    · rw [hsame, hc]
      rfl
    · rw [hsome, hnil]
      exact Firing.found_late hle

end Clockwork

end Orchestra
