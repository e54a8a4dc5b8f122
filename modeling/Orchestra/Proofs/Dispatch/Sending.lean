import Orchestra.Proofs.Context.Hearsay
import Orchestra.Proofs.Context.Overlay
import Orchestra.Proofs.Dispatch.Undertaking
import Orchestra.Proofs.Events.Announcements
import Orchestra.Proofs.Runs.Lookup

/-!
# Orchestra.Proofs.Dispatch.Sending — the assistant sends once what it is asked, in the context of its beginning

The context is built from the current one when the assistant takes an assignment on.  Only the workspace may still be
looked up for it, and until then nothing is sent (`Readies`); whatever happens to the service meanwhile, what is sent then
is what would have been sent at once, had the workspace been there.
-/

namespace Orchestra

/-- The context with the workspace that was found for it, if it has none. -/
def Context.completed (c : Context) (found : Option (Except Fault Workspace)) : Context :=
  match c.workspace, found with
  | none, some (.ok workspace) => { c with workspace := some workspace }
  | _, _ => c

/-- The happening with which the assistant takes an assignment on. -/
def Assignment.taken (a : Assignment) (token : Token) : Happening := .occurs (.begin (.assistant a) token)

namespace World

variable {u v w : World} {x : Happening} {xs : List Happening} {op task : Nat} {o : Operation} {c : Context} {ask : Ask}
  {start : Tick} {reply : Reply Workspace} {b : Brief} {a : Assignment} {token : Token}

/-! ### While the workspace is looked up -/

/-- An operation whose workspace has been found or not found sends what it asks in the context that is completed by it. -/
theorem resume_found (op : Nat) (hs : o.stage = .resolving c ask task) (hnone : c.workspace = none)
    (hreply : reply.outcome ≠ .error .interrupted)
    (hending : w.clock.ending? task = some (reply.outcome.map .workspace)) :
    w.resume op o = some (w.send op o.assistant o.token (c.completed (some reply.outcome)) ask) ∧
      w.resolved? op o = ask.brief? op o.token (c.completed (some reply.outcome)) := by
  unfold resume resolved? Context.completed
  rw [hs, hnone]
  dsimp only
  rw [hending]
  cases h : reply.outcome with
  | ok workspace => exact ⟨rfl, rfl⟩
  | error f =>
    have hf : f ≠ .interrupted := fun heq => hreply (heq ▸ h)
    cases f <;> first | exact ⟨rfl, rfl⟩ | exact absurd rfl hf

theorem resume_unfound (op : Nat) (hs : o.stage = .resolving c ask task) (hending : w.clock.ending? task = none) :
    w.resume op o = none ∧ w.resolved? op o = none := by
  unfold resume resolved?
  rw [hs]
  dsimp only
  rw [hending]
  exact ⟨rfl, rfl⟩

/-- The operation is the only one that waits for the task. -/
def Sole (w : World) (op task : Nat) : Prop :=
  ∀ (i : Nat) (o : Operation) context ask, w.operations[i]? = some o → o.stage = .resolving context ask task → i = op

theorem Goes.sole (h : Goes w x v) (hw : w.Sound) (hr : w.Resolves task) (hsole : w.Sole op task) : v.Sole op task := by
  intro i o context ask ho hs
  cases h with
  | works stopped works _ _ =>
    obtain ⟨o', ho', hs'⟩ | ⟨-, hle, -⟩ := works.resolving i o context ask task ho hs
    · exact hsole i o' context ask ho' hs'
    · exact absurd (hw.resolving task hr) (Nat.not_lt_of_le hle)
  | turn _ | pass _ _ _ _ => exact hsole i o context ask ho hs

/-- What has become of an operation that began to look up its workspace: it is still at that, with nothing sent, or it has
sent what it asks, or it was aborted before. -/
inductive Readies (v : World) (xs : List Happening) (op : Nat) (o : Operation) (task : Nat) (start : Tick)
    (reply : Reply Workspace) (b : Brief) : Prop
  | looking (there : (v.unfold xs).operations[op]? = some o) (sole : (v.unfold xs).Sole op task)
      (looksUp : LooksUp v xs task start reply) (unsent : v.dispatches op xs = [])
  | sent (past : (v.unfold xs).Past op) (ps : List ProviderRef) (sent : v.dispatches op xs = [(b, ps)])
  | aborted (past : (v.unfold xs).Past op) (abort : .occurs (.abort op) ∈ xs) (unsent : v.dispatches op xs = [])

theorem dispatches_concat (v : World) (op : Nat) (xs : List Happening) (x : Happening) :
    v.dispatches op (xs ++ [x]) =
      v.dispatches op xs ++ if (v.unfold xs).atWork x = some op then (v.unfold xs).dispatched x else [] :=
  during_concat dispatched v op xs x

theorem Past.dispatches (h : (v.unfold xs).Past op) (x : Happening) :
    (v.unfold (xs ++ [x])).Past op ∧ v.dispatches op (xs ++ [x]) = v.dispatches op xs := by
  obtain ⟨hpast, hnone⟩ := h.happen x
  rw [unfold_concat, dispatches_concat]
  refine ⟨hpast, ?_⟩
  split
  · next hx => rw [hnone hx, List.append_nil]
  · exact List.append_nil _

/-- **Whatever happens next**, the operation sends what it asks once its workspace has been looked up, and never again. -/
theorem Readies.concat (h : Readies v xs op o task start reply b) (hs : o.stage = .resolving c ask task)
    (hnone : c.workspace = none) (hreply : reply.outcome ≠ .error .interrupted)
    (hb : ask.brief? op o.token (c.completed (some reply.outcome)) = some b) (hv : (v.unfold xs).Sound) (x : Happening) :
    Readies v (xs ++ [x]) op o task start reply b := by
  cases h with
  | sent past ps sent =>
    obtain ⟨hpast, hsame⟩ := past.dispatches x
    exact .sent hpast ps (hsame.trans sent)
  | aborted past abort unsent =>
    obtain ⟨hpast, hsame⟩ := past.dispatches x
    exact .aborted hpast (List.mem_append_left _ abort) (hsame.trans unsent)
  | looking there sole looksUp unsent =>
    have hlt := (List.getElem?_eq_some_iff.mp there).1
    -- unless it is aborted or has something to send, the operation is still at it
    have hstays : x ≠ .occurs (.abort op) → ((v.unfold xs).happen x).operations[op]? = some o →
        ((v.unfold xs).atWork x = some op → (v.unfold xs).dispatched x = []) →
        Readies v (xs ++ [x]) op o task start reply b := by
      intro hx hthere hquiet
      refine .looking (unfold_concat v xs x ▸ hthere) ?_ (looksUp.concat hv ?_) ?_
      · rw [unfold_concat]
        exact (happen_goes _ x).sole hv ⟨op, o, c, ask, there, hs⟩ sole
      · intro i o' context ask' hi ho' hs'
        rw [sole i o' context ask' ho' hs'] at hi
        exact hx hi
      · rw [dispatches_concat, unsent]
        split
        · next hwork => exact hquiet hwork
        · rfl
    by_cases hx : (v.unfold xs).atWork x = some op
    · obtain rfl | rfl := atWork_eq_some hlt hx
      · by_cases hstep : (v.unfold xs).clock.step = none
        · have hhappen := happen_resume hstep there
          have hdispatched := starts_resume hstep there
          cases hending : (v.unfold xs).clock.ending? task with
          | none =>
            obtain ⟨hresume, hresolved⟩ := resume_unfound op hs hending
            rw [hresume] at hhappen
            rw [hresolved] at hdispatched
            exact hstays nofun (hhappen.symm ▸ there) fun _ => by rw [dispatched, hdispatched]; rfl
          | some outcome =>
            rw [looksUp.ending hv hending] at hending
            obtain ⟨hresume, hresolved⟩ := resume_found op hs hnone hreply hending
            rw [hresume] at hhappen
            rw [hresolved, hb] at hdispatched
            refine .sent ?_ (((v.unfold xs).invites b).toOption.getD []) ?_
            · rw [unfold_concat, hhappen]
              exact send_past hlt _ _ _ _
            · rw [dispatches_concat, unsent, if_pos hx, dispatched, hdispatched]
              rfl
        · obtain ⟨hsame, hstarts⟩ := happen_resume_early op hstep
          exact hstays nofun (hsame.symm ▸ there) fun _ => by rw [dispatched, hstarts]; rfl
      · refine .aborted ?_ (List.mem_append_right _ (List.mem_singleton.mpr rfl)) ?_
        · rw [unfold_concat]
          show ((v.unfold xs).abort op).Past op
          obtain ⟨-, hdone⟩ | ⟨u, _, _, hpasses, hops, -⟩ := (v.unfold xs).abort_cases op
          · have hdone := hdone o there
            rw [Operation.outcome?, hs] at hdone
            cases hdone
          · exact hpasses.past (hops ▸ hlt)
        · rw [dispatches_concat, unsent, if_pos hx]
          rfl
    · refine hstays ?_ ((happen_goes _ x).operation hx there) fun hwork => absurd hwork hx
      rintro rfl
      exact hx rfl

theorem Readies.lt (h : Readies v xs op o task start reply b) : op < (v.unfold xs).operations.length := by
  cases h with
  | looking there _ _ _ => exact (List.getElem?_eq_some_iff.mp there).1
  | sent past _ _ | aborted past _ _ => exact past.lt

theorem Readies.unfold (h : Readies v [] op o task start reply b) (hs : o.stage = .resolving c ask task)
    (hnone : c.workspace = none) (hreply : reply.outcome ≠ .error .interrupted)
    (hb : ask.brief? op o.token (c.completed (some reply.outcome)) = some b) (hv : v.Sound) (xs : List Happening) :
    Readies v xs op o task start reply b := by
  induction xs using List.reverseRecOn with
  | nil => exact h
  | append_singleton xs x ih => exact ih.concat hs hnone hreply hb (hv.unfold xs) x

/-- At rest, and once the time for the look-up is over, an operation that was not aborted has sent what it asks. -/
theorem Readies.sends (h : Readies v xs op o task start reply b) (hs : o.stage = .resolving c ask task)
    (hnone : c.workspace = none) (hreply : reply.outcome ≠ .error .interrupted) (hwait : reply.wait = none)
    (hv : (v.unfold xs).Sound) (hxs : .occurs (.abort op) ∉ xs)
    (hover : ((v.unfold xs).outcome? op).isSome ∨ (v.unfold xs).clock.step = none ∧ (v.unfold xs).resumeFirst = none ∧
      start + reply.delay ≤ (v.unfold xs).now) : ∃ ps, v.dispatches op xs = [(b, ps)] := by
  cases h with
  | sent _ ps sent => exact ⟨ps, sent⟩
  | aborted _ abort _ => exact absurd abort hxs
  | looking there _ looksUp _ =>
    obtain hsome | ⟨hstep, hrest, hle⟩ := hover
    · rw [World.outcome?, there, Option.bind_some, Operation.outcome?, hs] at hsome
      cases hsome
    · obtain ⟨outcome, hending⟩ := looksUp.elapsed hv hstep hwait hle
      rw [looksUp.ending hv hending] at hending
      have hresume := (resume_found op hs hnone hreply hending).1
      rw [resumeFirst_eq_none.mp hrest op o there] at hresume
      cases hresume

/-! ### The beginning -/

end World

end Orchestra
