import Orchestra.Proofs.Accounting.Accounts
import Orchestra.Proofs.Events.Furthering

/-!
# Orchestra.Proofs.Events.Announcements — one event for every operation of the assistant

At every point of a run, the events of the assistant are, up to their order, what its operations announce
(`World.Announces`), and ids tell the operations apart.  So an operation has no event of its own until it is done and
exactly one from then on, which says what the caller gets; but one whose task was cancelled never has any
(`Scenario.Service.run_announces`).
-/

namespace Orchestra

/-- The tasks that the assistant offers. -/
inductive Assignment.Offered : Assignment → Prop
  | explain (code : String) (extras : Extras) : Offered (explain code extras)
  | refactor (code instruction : String) : Offered (refactor code instruction)
  | fixBug (code : String) (error : Option String) : Offered (fixBug code error)
  | generateTests (code : String) (framework : Option String) : Offered (generateTests code framework)
  | generateDocumentation (code : String) (docType : Option String) : Offered (generateDocumentation code docType)
  | insertCode (code position : String) (extras : Extras) : Offered (insertCode code position extras)
  | replaceCode (old new : String) (extras : Extras) : Offered (replaceCode old new extras)
  | reviewCode (code : String) : Offered (reviewCode code)
  | optimizePerformance (code : String) : Offered (optimizePerformance code)
  | analyzeSecurity (code : String) : Offered (analyzeSecurity code)
  | chat (message : String) (extras : Extras) : Offered (chat message extras)
  | chatWithFile (message : String) (file : FileContext) : Offered (chatWithFile message file)
  | chatWithSelection (message : String) (selection : Selection) : Offered (chatWithSelection message selection)
  | editCode (instruction : String) (path : Option String) (range : Option Range) (options : Option EditOptions)
      (extras : Extras) : Offered (editCode instruction path range options extras)

/-- Whatever the assistant offers, it sends something for it. -/
theorem Assignment.Offered.sends {a : Assignment} (h : a.Offered) : a.ask ≠ .context := by
  cases h <;> exact fun h => by cases h

/-- What the assistant is asked to do is not only to build a context. -/
def Occurrence.Sends (x : Occurrence) : Prop :=
  ∀ assignment token, x = .begin (.assistant assignment) token → assignment.ask ≠ .context

namespace World

open Books

variable {u v w : World} {occs : List Occurrence} {x : Occurrence} {op : Nat} {o : Operation} {a : AssistantRecord}
  {cut : Prop}

/-! ### What an occurrence is for the assistant -/

/-- What occurs cancels the task of the operation: it is aborted where it waits, or finds that the look-up of its workspace
has been cancelled. -/
def Cancels (w : World) (x : Occurrence) (op : Nat) : Prop :=
  ∃ o, w.operations[op]? = some o ∧ o.outcome? = none ∧ (x = .abort op ∨ x = .resume op ∧ w.CutShort o)

/-- One operation at most gets on, after it has begun now or before. -/
inductive Passage (w : World) (x : Occurrence) : World → Prop
  | aside {v : World} (operations : v.operations = w.operations) (announced : v.announced = w.announced)
      (assistantIds : v.assistantIds = w.assistantIds) : Passage w x v
  | further {op : Nat} {o : Operation} {v : World} (there : w.operations[op]? = some o) (running : o.outcome? = none)
      (furthers : Furthers op o.assistant (o.stage.Interrupted ∨ w.Cancels x op) w v) : Passage w x v
  | begins {order : Order} {token : Token} {o : Operation} {u v : World} (ordered : x = .begin order token)
      (enters : w.Enters order o u) (furthers : Furthers w.operations.length o.assistant False u v) : Passage w x v

theorem Silent.passage (h : Silent w v) : Passage w x v :=
  .aside (congrArg Books.operations h.books) h.announced (congrArg Books.assistantIds h.books)

theorem foldl_log_published (es : List Entry) (w : World) : (es.foldl log w).published = w.published := by
  induction es generalizing w with
  | nil => rfl
  | cons e es ih => exact ih (w.log e)

theorem tellAll_published (w : World) : w.tellAll.published = w.published := foldl_log_published _ w

/-- **Whatever occurs** is such a passage. -/
theorem occur_passage (hb : w.books.Kept) (hsends : ∀ o ∈ w.operations, o.Sends) (hx : x.Sends) :
    Passage w x (w.occur x) := by
  have hsame : Passage w x w := .aside rfl rfl rfl
  cases x with
  | begin order token =>
    have hask : ∀ a, order = .assistant a → a.ask ≠ .context := fun a ha => hx a token (ha ▸ rfl)
    obtain ⟨o, v, henters, hfurthers⟩ := begin_furthers hb token hask
    exact .begins rfl henters hfurthers
  | resume op =>
    simp only [occur]
    cases ho : w.operations[op]? with
    | none => exact hsame
    | some o =>
      rw [Option.bind_some]
      cases hr : w.resume op o with
      | none => exact hsame
      | some v =>
        have hmem := List.mem_of_getElem? ho
        have hrunning := running_of_resume hr
        refine .further ho hrunning ((resume_furthers hb hmem (hsends o hmem) hr).mono ?_)
        exact Or.imp_right fun hcut => ⟨o, ho, hrunning, .inr ⟨rfl, hcut⟩⟩
  | abort op =>
    by_cases hdone : ∀ o, w.operations[op]? = some o → o.outcome?.isSome = true
    · rw [occur, abort_of_done hdone]
      exact hsame
    · push Not at hdone
      obtain ⟨o, ho, hdone⟩ := hdone
      have hrunning := Option.not_isSome_iff_eq_none.mp hdone
      refine .further ho hrunning ((abort_furthers hb ho hrunning).mono fun _ => .inr ?_)
      exact ⟨o, ho, hrunning, .inl rfl⟩
  | clock c => exact .aside rfl rfl rfl
  | tell =>
    have hannounced : w.tellAll.announced = w.announced := by rw [announced, tellAll_published]; rfl
    exact .aside (told_tellAll w).operations hannounced (congrArg Books.assistantIds w.tellAll_books)
  | due | deed _ | register _ _ | dispose _ | onDispose _ _ | listen _ _ _ | unlisten _ | setContext _ _ | commit _ _
  | clearContext | close => exact (occur_silent rfl).passage

/-! ### The events of the assistant are what its operations announce -/

/-- The operations of the assistant, by their records. -/
def assistants (w : World) : List AssistantRecord := w.operations.filterMap (·.assistant)

structure Announces (w : World) : Prop where
  events : w.announced.Perm (w.operations.flatMap (·.announcement))
  issued : ∀ a ∈ w.assistants, a.id.count < w.assistantIds.issued
  distinct : (w.assistants.map (·.id)).Nodup
  sends : ∀ o ∈ w.operations, o.Sends

theorem Announces.of_same (h : w.Announces) (hops : v.operations = w.operations) (hannounced : v.announced = w.announced)
    (hids : v.assistantIds = w.assistantIds) : v.Announces := by
  refine ⟨?_, ?_, ?_, ?_⟩
  · rw [hannounced, hops]; exact h.events
  · rw [assistants, hops, hids]; exact h.issued
  · rw [assistants, hops]; exact h.distinct
  · rw [hops]; exact h.sends

/-- One operation among the others, before it is taken further and afterwards. -/
theorem Furthers.split (h : Furthers op o.assistant cut w v) (there : w.operations[op]? = some o) :
    ∃ before later o' said, w.operations = before ++ o :: later ∧ v.operations = before ++ o' :: later ∧
      v.announced = w.announced ++ said ∧ o'.Furthered o.assistant cut said ∧ v.operations[op]? = some o' := by
  obtain ⟨f, said, hops, hannounced, hf⟩ := h.went
  have there : w.books.operations[op]? = some o := there
  obtain ⟨before, later, hbefore, hmodify⟩ := modify_split there f
  have hself := modify_self there f
  exact ⟨before, later, f o, said, hbefore, hops.trans hmodify, hannounced, hf o rfl,
    (congrArg (·[op]?) hops).trans hself⟩

theorem Furthers.announces (h : Furthers op o.assistant cut w v) (hw : w.Announces)
    (there : w.operations[op]? = some o) (hnone : o.announcement = []) : v.Announces := by
  obtain ⟨before, later, o', said, hops, hops', hannounced, hfurthered, -⟩ := h.split there
  have hassistants : v.assistants = w.assistants := by
    rw [assistants, assistants, hops, hops', List.filterMap_append, List.filterMap_append, List.filterMap_cons,
      List.filterMap_cons, hfurthered.assistant]
  refine ⟨?_, ?_, ?_, ?_⟩
  · have hevents := hw.events
    rw [hops, List.flatMap_append, List.flatMap_cons, hnone, List.nil_append] at hevents
    rw [hannounced, hops', List.flatMap_append, List.flatMap_cons, hfurthered.announcement]
    refine (hevents.append_right said).trans ?_
    rw [List.append_assoc]
    exact List.perm_append_comm.append_left _
  · rw [hassistants, h.assistantIds]
    exact hw.issued
  · rw [hassistants]
    exact hw.distinct
  · have hsends := hw.sends
    rw [hops] at hsends
    rw [hops']
    simp only [List.forall_mem_append, List.forall_mem_cons] at hsends ⊢
    exact ⟨hsends.1, hfurthered.sends, hsends.2.2⟩

theorem Enters.announces {order : Order} (h : w.Enters order o v) (hw : w.Announces) : v.Announces := by
  have hassistants : v.assistants = w.assistants ++ o.assistant.toList := by
    rw [assistants, h.operations, List.filterMap_append]
    cases ha : o.assistant <;> simp [assistants, ha]
  have hsends : ∀ o ∈ v.operations, o.Sends := by
    rw [h.operations]
    exact List.forall_mem_append.mpr ⟨hw.sends, List.forall_mem_singleton.mpr h.sends⟩
  have hevents : v.announced.Perm (v.operations.flatMap (·.announcement)) := by
    rw [h.announced, h.operations, List.flatMap_append, List.flatMap_singleton, h.announcement, List.append_nil]
    exact hw.events
  obtain ⟨hnone, hids⟩ | ⟨assignment, -, ha, hids⟩ := h.issued
  · rw [hnone, Option.toList_none, List.append_nil] at hassistants
    refine ⟨hevents, ?_, ?_, hsends⟩
    · rw [hassistants, hids]; exact hw.issued
    · rw [hassistants]; exact hw.distinct
  · rw [ha, Option.toList_some] at hassistants
    refine ⟨hevents, ?_, ?_, hsends⟩
    · rw [hassistants, hids]
      refine List.forall_mem_append.mpr ⟨fun a ha => Nat.lt_succ_of_lt (hw.issued a ha), ?_⟩
      exact List.forall_mem_singleton.mpr (Nat.lt_succ_self _)
    · rw [hassistants, List.map_append, List.map_singleton, List.nodup_append]
      -- the new id is told from those before by its count
      refine ⟨hw.distinct, List.nodup_singleton _, fun id hid id' hid' heq => ?_⟩
      obtain ⟨a, ha, rfl⟩ := List.mem_map.mp hid
      rw [List.mem_singleton.mp hid'] at heq
      have hlt := hw.issued a ha
      rw [heq] at hlt
      exact Nat.lt_irrefl _ hlt

theorem Enters.there {order : Order} (h : w.Enters order o v) : v.operations[w.operations.length]? = some o := by
  rw [h.operations, List.getElem?_concat_length]

theorem Passage.announces (h : Passage w x v) (hw : w.Announces) : v.Announces := by
  cases h with
  | aside operations announced assistantIds => exact hw.of_same operations announced assistantIds
  | further there running furthers =>
    refine furthers.announces hw there (Operation.announcement_of_not_done fun outcome tick hs => ?_)
    rw [Operation.outcome?, hs] at running
    cases running
  | begins _ enters furthers => exact furthers.announces (enters.announces hw) enters.there enters.announcement

/-- **A whole run** keeps to it. -/
theorem after_announces (hb : w.books.Balanced) (hw : w.Announces) (hocc : ∀ x ∈ occs, x.Sends) :
    (w.after occs).Announces := by
  induction occs using List.reverseRecOn with
  | nil => exact hw
  | append_singleton occs x ih =>
    obtain ⟨hocc, hx⟩ := List.forall_mem_append.mp hocc
    have hbefore := ih hocc
    rw [after_concat]
    exact (occur_passage (after_balanced occs hb).toKept hbefore.sends (hx x (List.mem_singleton.mpr rfl))).announces
      hbefore

/-! ### The events of one operation -/

theorem id_of_announcement {e : BusEvent} (h : e ∈ o.announcement) :
    ∃ a, o.assistant = some a ∧ e.id? = some a.id := by
  unfold Operation.announcement at h
  split at h
  · cases h
  · next a outcome tick _ ha _ =>
    rw [List.mem_singleton.mp h]
    exact ⟨a, ha, a.event_id? _ _⟩
  · cases h

theorem length_announcement_le (o : Operation) : o.announcement.length ≤ 1 := by
  unfold Operation.announcement
  split
  · exact Nat.zero_le 1
  · exact Nat.le_refl 1
  · exact Nat.zero_le 1

/-- The events of an operation of the assistant are among the assistant's. -/
theorem eventsOf_announced (w : World) {id : RequestId} (hsource : id.source = RequestIds.assistant.source) :
    w.eventsOf id = w.announced.filter (·.id? == some id) := by
  rw [announced, List.filter_filter]
  refine List.filter_congr fun e _ => ?_
  cases heq : e.id? == some id with
  | false => rfl
  | true =>
    rw [Bool.true_and, BusEvent.ofAssistant, beq_iff_eq.mp heq, Option.any_some, hsource]
    exact (beq_self_eq_true _).symm

/-- **The events under the id of an operation** are those that it announces, and in this order. -/
theorem Announces.eventsOf (h : w.Announces) (hb : w.books.Kept) (ho : w.operations[op]? = some o)
    (ha : o.assistant = some a) : w.eventsOf a.id = o.announcement := by
  obtain ⟨before, later, hops, -⟩ := modify_split (b := w.books) ho id
  have hops : w.operations = before ++ o :: later := hops
  have hdistinct := h.distinct
  rw [assistants, hops, List.filterMap_append, List.filterMap_cons, ha, List.map_append, List.map_cons,
    List.nodup_middle, List.nodup_cons, ← List.map_append, ← List.filterMap_append] at hdistinct
  -- no other operation has the id, so none of the others has announced anything under it
  have hothers : ∀ o' ∈ before ++ later, ∀ e ∈ o'.announcement, ¬ (e.id? == some a.id) = true := by
    intro o' ho' e he heq
    obtain ⟨a', ha', hid⟩ := id_of_announcement he
    have hsame : a'.id = a.id := Option.some.inj (hid.symm.trans (beq_iff_eq.mp heq))
    exact hdistinct.1 (List.mem_map.mpr ⟨a', List.mem_filterMap.mpr ⟨o', ho', ha'⟩, hsame⟩)
  have hnone : ∀ os : List Operation, (∀ o' ∈ os, o' ∈ before ++ later) →
      (os.flatMap (·.announcement)).filter (·.id? == some a.id) = [] := by
    intro os hos
    refine List.filter_eq_nil_iff.mpr fun e he => ?_
    obtain ⟨o', ho', he⟩ := List.mem_flatMap.mp he
    exact hothers o' (hos o' ho') e he
  have hown : o.announcement.filter (·.id? == some a.id) = o.announcement := by
    refine List.filter_eq_self.mpr fun e he => ?_
    obtain ⟨a', ha', hid⟩ := id_of_announcement he
    cases ha.symm.trans ha'
    exact beq_iff_eq.mpr hid
  have hperm : (w.eventsOf a.id).Perm o.announcement := by
    rw [eventsOf_announced w (hb.foreign o (List.mem_of_getElem? ho) a ha)]
    refine (h.events.filter _).trans (List.Perm.of_eq ?_)
    rw [hops, List.flatMap_append, List.flatMap_cons, List.filter_append, List.filter_append, hown,
      hnone before fun o' => List.mem_append_left _, hnone later fun o' => List.mem_append_right _, List.nil_append,
      List.append_nil]
  have hle := length_announcement_le o
  match hsaid : o.announcement with
  | [] => rw [hsaid] at hperm; exact hperm.eq_nil
  | [e] => rw [hsaid] at hperm; exact hperm.eq_singleton
  | _ :: _ :: _ => rw [hsaid] at hle; simp at hle

/-! ### When an operation began, and when it was cancelled -/

/-- The operation began when the assistant was given an assignment, and the record says which and when. -/
def BegunIn (w : World) (occs : List Occurrence) (op : Nat) (a : AssistantRecord) : Prop :=
  w.Happens occs fun w x _ => ∃ assignment token, x = .begin (.assistant assignment) token ∧
    op = w.operations.length ∧ a = w.recordOf assignment

/-- The task of the operation was cancelled while the operation was not yet done. -/
def CancelledIn (w : World) (occs : List Occurrence) (op : Nat) : Prop := w.Happens occs fun w x _ => w.Cancels x op

/-- **A passage**, seen from an operation of the assistant that is there afterwards. -/
theorem Passage.operation (h : Passage w x v) (ho : v.operations[op]? = some o) (ha : o.assistant = some a) :
    (∃ old, w.operations[op]? = some old ∧ old.assistant = some a ∧
      (o.stage.Interrupted → old.stage.Interrupted ∨ w.Cancels x op)) ∨
    (∃ assignment token, x = .begin (.assistant assignment) token ∧ op = w.operations.length ∧
      a = w.recordOf assignment) ∧ ¬ o.stage.Interrupted := by
  -- what is taken further is one operation, and the others are as they were
  have hfurther : ∀ {u : World} {op' : Nat} {old : Operation} {cut : Prop}, u.operations[op']? = some old →
      Furthers op' old.assistant cut u v → (op' ≠ op ∧ u.operations[op]? = some o) ∨
        op' = op ∧ old.assistant = some a ∧ (o.stage.Interrupted → cut) := by
    intro u op' old cut there furthers
    obtain ⟨f, said, hops, -, hf⟩ := furthers.went
    by_cases hop : op' = op
    · subst hop
      rw [hops, List.getElem?_modify_eq, there] at ho
      cases ho
      have hfurthered := hf old rfl
      exact .inr ⟨rfl, hfurthered.assistant.symm.trans ha, hfurthered.interrupted⟩
    · rw [hops, List.getElem?_modify_ne _ _ hop] at ho
      exact .inl ⟨hop, ho⟩
  cases h with
  | aside operations _ _ => exact .inl ⟨o, operations ▸ ho, ha, .inl⟩
  | further there running furthers =>
    obtain ⟨-, ho⟩ | ⟨rfl, hold, hcut⟩ := hfurther there furthers
    · exact .inl ⟨o, ho, ha, .inl⟩
    · exact .inl ⟨_, there, hold, hcut⟩
  | begins ordered enters furthers =>
    obtain ⟨hne, ho⟩ | ⟨rfl, hold, hcut⟩ := hfurther enters.there furthers
    · rw [enters.operations, List.getElem?_append] at ho
      split at ho
      · exact .inl ⟨o, ho, ha, .inl⟩
      · next hge =>
        rw [List.getElem?_eq_none (by simp; omega)] at ho
        cases ho
    · obtain ⟨hnone, -⟩ | ⟨assignment, rfl, hissued, -⟩ := enters.issued
      · cases hnone.symm.trans hold
      · cases hissued.symm.trans hold
        exact .inr ⟨⟨assignment, _, ordered, rfl, rfl⟩, hcut⟩

theorem after_operation (hb : w.books.Balanced) (hw : w.Announces) (hnone : w.operations = [])
    (hocc : ∀ x ∈ occs, x.Sends) (ho : (w.after occs).operations[op]? = some o) (ha : o.assistant = some a) :
    w.BegunIn occs op a ∧ (o.stage.Interrupted → w.CancelledIn occs op) := by
  induction occs using List.reverseRecOn generalizing o with
  | nil => rw [after_nil, hnone] at ho; cases ho
  | append_singleton occs x ih =>
    obtain ⟨hocc, hx⟩ := List.forall_mem_append.mp hocc
    have hsends := (after_announces hb hw hocc).sends
    have hpassage := occur_passage (after_balanced occs hb).toKept hsends (hx x (List.mem_singleton.mpr rfl))
    rw [after_concat] at ho
    obtain ⟨old, hold, hassistant, hcut⟩ | ⟨hbegun, hnot⟩ := hpassage.operation ho ha
    · obtain ⟨hbegun, hcancelled⟩ := ih hocc hold hassistant
      refine ⟨Happens.later hbegun x, fun hinterrupted => ?_⟩
      obtain hbefore | hnow := hcut hinterrupted
      · exact Happens.later (hcancelled hbefore) x
      · exact happens_last hnow
    · exact ⟨happens_last hbegun, fun h => absurd h hnot⟩

end World

namespace Scenario.Service

open World

variable {s : Setting} {w : World} {occs : List Occurrence} {op : Nat} {o : Operation} {a : AssistantRecord}

/-- **Announcements** of the assistant.  Whatever occurs, in whatever order, every operation of the assistant has begun
with what the assistant was asked to do, and the events under its id are what it announces: none until it is done, and
then one with the very outcome that the caller gets, under the name of the operation.  Only an operation that ends as
interrupted has none, and its task was cancelled before it was done. -/
theorem run_announces (hw : s.world = .ok w) (hocc : ∀ x ∈ occs, x.Sends)
    (ho : (w.after occs).operations[op]? = some o) (ha : o.assistant = some a) :
    w.BegunIn occs op a ∧ (w.after occs).eventsOf a.id = o.announcement ∧
      ∀ tick, o.stage = .done (.error .interrupted) tick → w.CancelledIn occs op := by
  have hb := world_balanced hw
  have hops : w.operations = [] := congrArg Books.operations (world_books hw)
  have hnew : w.Announces := by
    refine ⟨?_, ?_, ?_, ?_⟩
    · rw [announced, (world_unspoken hw).1, hops]; exact .nil
    · rw [assistants, hops]; exact List.forall_mem_nil _
    · rw [assistants, hops]; exact List.nodup_nil
    · rw [hops]; exact List.forall_mem_nil _
  obtain ⟨hbegun, hcancelled⟩ := after_operation hb hnew hops hocc ho ha
  refine ⟨hbegun, (after_announces hb hnew hocc).eventsOf (after_balanced occs hb).toKept ho ha, fun tick hs => ?_⟩
  exact hcancelled (by rw [hs]; rfl)

/-- A service whose assistant has to look up its workspace, which takes a while and then fails. -/
def consulted : Setting where
  config := []
  coordinator := none
  providers := []
  cancelled := []
  resolver := some { delay := 2, outcome := .error (.outside .os "no disk" false) }
  beforehand := []
  mounts := false
  steps := []
  suffix := fun _ _ => "0"

/-- Two questions at once: one is answered without a workspace, and for the other the look-up is cancelled. -/
def consultation : List Occurrence := [
  .register ⟨0, "alpha", [.chat]⟩ none,
  .begin (.assistant (.chat "hello" .nothing)) .none,
  .begin (.assistant (.chat "anyone?" .nothing)) .none,
  .clock { now := 2, nextTask := 2, ended := [⟨0, 2, .error (.outside .os "no disk" false)⟩, ⟨1, 2, .error .interrupted⟩] },
  .resume 0,
  .resume 1,
  .clock { now := 5, nextTask := 3, ended := [⟨2, 5, .ok (.result (.emptyFor .chat))⟩] },
  .resume 0]

theorem run_consultation :
    ∃ w, consulted.world = .ok w ∧
      (w.after consultation).eventsOf ⟨"assistant", 1000000, 0, "0"⟩ =
        [.response ⟨"assistant", 1000000, 0, "0"⟩ (.operation "chat") (.result (.emptyFor .chat)) 5] ∧
      (w.after consultation).eventsOf ⟨"assistant", 1000000, 1, "0"⟩ = [] ∧ w.CancelledIn consultation 1 := by
  have hsends : ∀ x ∈ consultation, x.Sends := by
    rintro x hx assignment token rfl
    simp only [consultation, List.mem_cons, List.not_mem_nil, or_false] at hx
    rcases hx with h | h | h | h | h | h | h | h <;> cases h <;> exact nofun
  obtain ⟨-, hanswered, -⟩ := @run_announces consulted _ consultation 0 _ _ rfl hsends rfl rfl
  obtain ⟨-, hsilent, hcancelled⟩ := @run_announces consulted _ consultation 1 _ _ rfl hsends rfl rfl
  exact ⟨_, rfl, hanswered, hsilent, hcancelled 2 rfl⟩

/-- The same service, but the look-up ends as a task that was cancelled. -/
def stranded : Setting := { consulted with resolver := some { outcome := .error .interrupted } }

/-- A question is asked, its workspace is looked up, and it goes on. -/
def stranding : List Happening := [
  .occurs (.begin (.assistant (.chat "hello" .nothing)) .none),
  .turn,
  .occurs (.resume 0)]

/-- Here an operation of the assistant ends, and no event ever says so. -/
theorem run_unannounced :
    ∃ w o a, stranded.world = .ok w ∧ (w.unfold stranding).operations[0]? = some o ∧ o.assistant = some a ∧
      a.operation = "chat" ∧ o.outcome? = some (.error .interrupted, 0) ∧ (w.unfold stranding).published = [] :=
  ⟨_, _, _, rfl, rfl, rfl, rfl, rfl, rfl⟩

end Scenario.Service

end Orchestra
