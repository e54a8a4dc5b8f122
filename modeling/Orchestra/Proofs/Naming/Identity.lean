import Mathlib.Data.List.Flatten
import Orchestra.Proofs.Accounting.Accounts
import Orchestra.Proofs.Naming.Names
import Orchestra.Proofs.Naming.Texts

/-!
# Orchestra.Proofs.Naming.Identity — every request and every operation of the assistant has an id of its own

At every point of a run, the requests have all the counts of the service, each once, and the operations of the assistant
have all the counts of the assistant, in their order (`Names.Counted`).  With suffixes of one length, the texts of the ids
tell the counts, and the sources tell the ids of the service from those of the assistant; so no two texts are the same
(`Scenario.Service.run_identifies`).
-/

namespace Orchestra

namespace Names

variable {n n' u : Names} {millis : Int} {order? : Option World.Order} {asked : Option Nat} {op : Nat}
  {own : Option RequestId}

/-- The ids of the operations of the assistant, in the order of the operations. -/
def owned (n : Names) : List RequestId := n.given.filterMap (·.own)

/-- The ids of the requests, in the order of their operations. -/
def made (n : Names) : List RequestId := n.given.filterMap (·.request)

/-- The id is of that source, and has the suffix that goes with its count. -/
structure Genuine (suffix : String → Nat → String) (source : RequestIds) (id : RequestId) : Prop where
  source : id.source = source.source
  suffix : id.suffix = suffix id.source id.count

/-- All ids that were given are there, each once, and they are all that there are. -/
structure Counted (n : Names) : Prop where
  serviceSource : n.service.source = RequestIds.service.source
  assistantSource : n.assistant.source = RequestIds.assistant.source
  requests : n.requests = n.service.issued
  made : (n.made.map (·.count)).Perm (List.range n.service.issued)
  owned : n.owned.map (·.count) = List.range n.assistant.issued
  genuine : ∀ id ∈ n.made, Genuine n.suffix .service id
  genuine' : ∀ id ∈ n.owned, Genuine n.suffix .assistant id

/-! ### What one operation does to the names -/

theorem Counted.enter (h : n.Counted) : n.enter.Counted := by
  have hmade : n.enter.made = n.made := by
    rw [Names.made, Names.enter, List.filterMap_append]
    exact List.append_nil _
  have howned : n.enter.owned = n.owned := by
    rw [Names.owned, Names.enter, List.filterMap_append]
    exact List.append_nil _
  refine ⟨h.serviceSource, h.assistantSource, h.requests, ?_, ?_, ?_, ?_⟩
  · rw [hmade]; exact h.made
  · rw [howned]; exact h.owned
  · rw [hmade]; exact h.genuine
  · rw [howned]; exact h.genuine'

theorem Counted.assign (h : n.Counted) (millis : Int) : (n.assign millis).Counted := by
  have hmade : (n.assign millis).made = n.made := by
    rw [Names.made, Names.assign, List.filterMap_append]
    exact List.append_nil _
  have howned : (n.assign millis).owned = n.owned ++ [n.fresh n.assistant millis] := by
    rw [Names.owned, Names.assign, List.filterMap_append]
    rfl
  refine ⟨h.serviceSource, h.assistantSource, h.requests, ?_, ?_, ?_, ?_⟩
  · rw [hmade]; exact h.made
  · rw [howned, List.map_append, h.owned]
    exact List.range_succ.symm
  · rw [hmade]; exact h.genuine
  · rw [howned]
    exact List.forall_mem_append.mpr ⟨h.genuine', List.forall_mem_singleton.mpr ⟨h.assistantSource, rfl⟩⟩

/-- Where an operation asks, the id of its request comes to those that there are. -/
theorem made_ask (there : n.given[op]? = some ⟨own, none⟩) (millis : Int) :
    (n.ask op millis).made.Perm (n.made ++ [n.fresh n.service millis]) ∧ (n.ask op millis).owned = n.owned := by
  obtain ⟨hlt, hget⟩ := List.getElem?_eq_some_iff.mp there
  obtain ⟨before, g, later, hgiven, hlength, hmodify⟩ :=
    List.exists_of_modify (fun g : GivenIds => { g with request := some (n.fresh n.service millis) }) hlt
  have hg : g = ⟨own, none⟩ := by
    rw [← hget]
    simp [hgiven, ← hlength]
  subst hg
  refine ⟨?_, ?_⟩
  · rw [made, made, ask, hmodify, hgiven, List.filterMap_append, List.filterMap_append]
    refine List.perm_middle.trans ((List.perm_append_singleton _ _).symm)
  · rw [owned, owned, ask, hmodify, hgiven, List.filterMap_append, List.filterMap_append]
    rfl

theorem Counted.ask (h : n.Counted) (there : n.given[op]? = some ⟨own, none⟩) (millis : Int) :
    (n.ask op millis).Counted := by
  obtain ⟨hmade, howned⟩ := made_ask there millis
  refine ⟨h.serviceSource, h.assistantSource, congrArg (· + 1) h.requests, ?_, ?_, fun id hid => ?_, ?_⟩
  · refine (hmade.map _).trans ?_
    rw [List.map_append]
    exact (h.made.append_right _).trans (List.Perm.of_eq List.range_succ.symm)
  · rw [howned]; exact h.owned
  · rcases List.mem_append.mp (hmade.mem_iff.mp hid) with hid | hid
    · exact h.genuine id hid
    · rw [List.mem_singleton.mp hid]
      exact ⟨h.serviceSource, rfl⟩
  · rw [howned]; exact h.genuine'

theorem Opens.suffix (h : n.Opens millis order? n') : n'.suffix = n.suffix := by cases h <;> rfl

theorem Asks.suffix (h : n.Asks millis asked n') : n'.suffix = n.suffix := by cases h <;> rfl

theorem Asks.assistant (h : n.Asks millis asked n') : n'.assistant = n.assistant := by cases h <;> rfl

theorem Opens.counted (h : n.Opens millis order? n') (hn : n.Counted) : n'.Counted := by
  cases h with
  | none => exact hn
  | enter _ => exact hn.enter
  | assign _ => exact hn.assign millis

theorem Asks.counted (h : n.Asks millis asked n') (hn : n.Counted) : n'.Counted := by
  cases h with
  | none => exact hn
  | ask there => exact hn.ask there millis

/-- **All texts differ** if all suffixes are of one length. -/
theorem Counted.texts_nodup (h : n.Counted)
    (hsuffix : ∀ source count, (n.suffix source count).length = RequestId.suffixLength) :
    ((n.owned ++ n.made).map (·.text)).Nodup := by
  have hlength : ∀ {source : RequestIds} {id : RequestId}, Genuine n.suffix source id →
      id.suffix.length = RequestId.suffixLength := fun hid => hid.suffix ▸ hsuffix _ _
  rw [List.map_append, List.nodup_append]
  refine ⟨RequestId.texts_nodup (h.owned ▸ List.nodup_range) fun id hid => hlength (h.genuine' id hid),
    RequestId.texts_nodup (h.made.nodup_iff.mpr List.nodup_range) fun id hid => hlength (h.genuine id hid), ?_⟩
  rintro text htext text' htext' rfl
  obtain ⟨id, hid, rfl⟩ := List.mem_map.mp htext
  obtain ⟨id', hid', heq⟩ := List.mem_map.mp htext'
  exact RequestId.text_ne (h.genuine id' hid').source (h.genuine' id hid).source heq

/-! ### Ids are kept -/

/-- Whatever id an operation was given, it keeps. -/
def Keeps (n n' : Names) : Prop :=
  ∀ (op : Nat) (g : GivenIds), n.given[op]? = some g →
    ∃ g', n'.given[op]? = some g' ∧ g'.own = g.own ∧ ∀ id, g.request = some id → g'.request = some id

theorem Keeps.refl (n : Names) : n.Keeps n := fun _ g hg => ⟨g, hg, rfl, fun _ h => h⟩

theorem Keeps.trans (h : n.Keeps u) (h' : u.Keeps n') : n.Keeps n' := by
  intro op g hg
  obtain ⟨g₁, hg₁, hown₁, hrequest₁⟩ := h op g hg
  obtain ⟨g₂, hg₂, hown₂, hrequest₂⟩ := h' op g₁ hg₁
  exact ⟨g₂, hg₂, hown₂.trans hown₁, fun id hid => hrequest₂ id (hrequest₁ id hid)⟩

theorem Opens.keeps (h : n.Opens millis order? n') : n.Keeps n' := by
  have happended : ∀ {n' : Names} {gs : List GivenIds}, n'.given = n.given ++ gs → n.Keeps n' := by
    intro n' gs hgiven op g hg
    refine ⟨g, ?_, rfl, fun _ h => h⟩
    rw [hgiven, List.getElem?_append_left (List.getElem?_eq_some_iff.mp hg).1, hg]
  cases h with
  | none => exact .refl n
  | enter _ => exact happended rfl
  | assign _ => exact happended rfl

theorem Asks.keeps (h : n.Asks millis asked n') : n.Keeps n' := by
  cases h with
  | none => exact .refl n
  | @ask op own there =>
    intro op' g hg
    by_cases hop : op = op'
    · subst hop
      cases there.symm.trans hg
      refine ⟨⟨own, some (n.fresh n.service millis)⟩, ?_, rfl, nofun⟩
      rw [Names.ask, List.getElem?_modify_eq, there]
      rfl
    · refine ⟨g, ?_, rfl, fun _ h => h⟩
      rw [Names.ask, List.getElem?_modify_ne _ _ hop, hg]

end Names

/-- An operation of the assistant is begun. -/
def Occurrence.assigns (x : Occurrence) : Bool :=
  match x.order? with
  | some (.assistant _) => true
  | _ => false

theorem Names.Opens.issued {x : Occurrence} {n n' : Names} {millis : Int} (h : n.Opens millis x.order? n') :
    n'.assistant.issued = n.assistant.issued + if x.assigns then 1 else 0 := by
  unfold Occurrence.assigns
  generalize x.order? = order? at h
  cases h with
  | none => rfl
  | assign a => rfl
  | @enter order hservice =>
    cases order with
    | assistant a => exact absurd rfl (hservice a)
    | bare _ _ _ | service _ _ _ _ | context _ => rfl

/-- The ids of an operation that is begun in this order: a request to the service has the next id of the service, an
operation of the assistant the next of the assistant, and no other operation is one of the assistant. -/
def World.Order.Named (w : World) (g : GivenIds) : World.Order → Prop
  | .service _ _ _ _ => g = ⟨none, some (w.naming.fresh w.service.ids w.millis)⟩
  | .assistant _ => g.own = some (w.naming.fresh w.assistantIds w.millis)
  | _ => g.own = none

namespace World

open Names

variable {u v w : World} {x : Occurrence} {order : Order} {token : Token} {g g' : GivenIds}

/-! ### Runs -/

/-- What holds of the names of a world at first, and is kept when an operation begins and when one makes a request, holds
throughout a run. -/
theorem after_induction {P : List Occurrence → Names → Prop} (hb : w.books.Balanced) (nil : P [] w.naming)
    (concat : ∀ occs x n u n' millis asked, P occs n → n.Opens millis (x : Occurrence).order? u →
      u.Asks millis asked n' → P (occs ++ [x]) n') (occs : List Occurrence) : P occs (w.after occs).naming := by
  induction occs using List.reverseRecOn with
  | nil => exact nil
  | append_singleton occs x ih =>
    obtain ⟨u, asked, hopens, hasks, -⟩ := occur_naming (after_balanced occs hb).resolving x
    rw [after_concat]
    exact concat occs x _ u _ _ asked ih hopens hasks

/-- Whatever occurs keeps the ids counted. -/
theorem after_counted (hb : w.books.Balanced) (hw : w.naming.Counted) (occs : List Occurrence) :
    (w.after occs).naming.Counted :=
  after_induction (P := fun _ n => n.Counted) hb hw
    (fun _ _ _ _ _ _ _ h hopens hasks => hasks.counted (hopens.counted h)) occs

theorem after_keeps (hb : w.books.Balanced) (occs : List Occurrence) : w.naming.Keeps (w.after occs).naming :=
  after_induction (P := fun _ n => w.naming.Keeps n) hb (.refl _)
    (fun _ _ _ _ _ _ _ h hopens hasks => h.trans (hopens.keeps.trans hasks.keeps)) occs

/-- The suffixes of the ids to come are not chosen anew. -/
theorem after_suffix (hb : w.books.Balanced) (occs : List Occurrence) : (w.after occs).suffix = w.suffix :=
  after_induction (P := fun _ n => n.suffix = w.suffix) hb rfl
    (fun _ _ _ _ _ _ _ h hopens hasks => hasks.suffix.trans (hopens.suffix.trans h)) occs

/-- Every operation of the assistant takes an id when it begins, and nothing else does. -/
theorem after_assigned (hb : w.books.Balanced) (occs : List Occurrence) :
    (w.after occs).assistantIds.issued = w.assistantIds.issued + occs.countP (·.assigns) := by
  refine after_induction (P := fun occs n => n.assistant.issued = w.assistantIds.issued + occs.countP (·.assigns))
    hb rfl (fun occs x n u n' millis asked h hopens hasks => ?_) occs
  rw [hasks.assistant, hopens.issued, List.countP_append, List.countP_singleton, ← Nat.add_assoc, h]

/-! ### Operations that have begun -/

theorem Order.Named.keep (h : order.Named w g) (hown : g'.own = g.own)
    (hrequest : ∀ id, g.request = some id → g'.request = some id) : order.Named w g' := by
  cases order with
  | service _ _ _ _ =>
    cases h
    obtain ⟨own, request⟩ := g'
    cases hown
    cases hrequest _ rfl
    rfl
  | assistant _ => exact hown.trans h
  | bare _ _ _ => exact hown.trans h
  | context _ => exact hown.trans h

/-- **An operation that begins** is given its ids. -/
theorem begin_named (hresolving : ∀ o ∈ w.operations, ∀ context ask task, o.stage = .resolving context ask task →
    o.request = none) (order : Order) (token : Token) :
    ∃ g, (w.occur (.begin order token)).naming.given[w.operations.length]? = some g ∧ order.Named w g := by
  obtain ⟨n, asked, hopens, hasks, hservice⟩ := occur_naming hresolving (.begin order token)
  generalize (w.occur (.begin order token)).naming = n' at hasks
  have hlength : w.naming.given.length = w.operations.length := List.length_map _
  have hlast : ∀ {g : GivenIds}, (w.naming.given ++ [g])[w.operations.length]? = some g := by
    intro g
    rw [← hlength]
    exact List.getElem?_concat_length
  -- what it is given when it begins, it keeps when it goes on to ask
  have hkept : ∀ {g : GivenIds}, n.given[w.operations.length]? = some g → order.Named w g →
      ∃ g, n'.given[w.operations.length]? = some g ∧ order.Named w g := by
    intro g hg hnamed
    obtain ⟨g', hg', hown, hrequest⟩ := hasks.keeps _ _ hg
    exact ⟨g', hg', hnamed.keep hown hrequest⟩
  cases hopens with
  | assign a => exact hkept hlast rfl
  | enter hne =>
    cases order with
    | assistant a => exact absurd rfl (hne a)
    | bare _ _ _ => exact hkept hlast rfl
    | context _ => exact hkept hlast rfl
    | service operation kind payload context =>
      cases hservice operation kind payload context rfl
      cases hasks with
      | ask there =>
        refine ⟨_, ?_, rfl⟩
        rw [Names.ask, List.getElem?_modify_eq, Names.enter, hlast]
        rfl

/-- Everything that was begun in a run has its ids, no two of them alike. -/
structure Identifies (w : World) (occs : List Occurrence) : Prop where
  /-- No two ids of operations of the assistant and of requests have the same text. -/
  distinct : (((w.after occs).naming.owned ++ (w.after occs).naming.made).map (·.text)).Nodup
  /-- The requests have the counts that the service has given, each once. -/
  made : ((w.after occs).naming.made.map (·.count)).Perm (List.range (w.after occs).service.ids.issued)
  /-- There are as many as were counted. -/
  requests : (w.after occs).service.requests = (w.after occs).service.ids.issued
  /-- The operations of the assistant have the counts that the assistant has given, in their order. -/
  owned : (w.after occs).naming.owned.map (·.count) = List.range (w.after occs).assistantIds.issued
  /-- There are as many as were begun. -/
  assigned : (w.after occs).assistantIds.issued = occs.countP (·.assigns)
  begun : ∀ before order token later, occs = before ++ .begin order token :: later →
    ∃ o, (w.after occs).operations[(w.after before).operations.length]? = some o ∧ order.Named (w.after before) o.ids

end World

namespace Scenario.Service

open World

variable {s : Setting} {w : World}

/-- A new service has given no ids. -/
theorem world_counted (hw : s.world = .ok w) : w.naming = ⟨s.suffix, .service, .assistant, 0, []⟩ := by
  obtain ⟨config, context, rfl⟩ := Setting.world_new hw
  rfl

/-- **Ids never collide.**  What one source hands out is counted from zero, and no two ids have the same text, whatever the
source is, whatever is read off the clock and whatever the suffixes are.  And whatever occurs to a service and its
assistant, in whatever order, every request and every operation of the assistant has one id, no two of them the same. -/
theorem run_identifies :
    (∀ (source : String) (readings : List (Int × String)),
      (∀ reading ∈ readings, reading.2.length = RequestId.suffixLength) →
        (RequestIds.run ⟨source, 0⟩ readings).map (·.count) = List.range readings.length ∧
          ((RequestIds.run ⟨source, 0⟩ readings).map (·.text)).Nodup) ∧
    ∀ (s : Setting) (w : World) (occs : List Occurrence), s.world = .ok w →
      (∀ source count, (s.suffix source count).length = RequestId.suffixLength) → w.Identifies occs := by
  refine ⟨RequestIds.run_counted, fun s w occs hw hsuffix => ?_⟩
  have hb := world_balanced hw
  have hnew := world_counted hw
  have hcounted : w.naming.Counted := by
    rw [hnew]
    exact ⟨rfl, rfl, rfl, .nil, rfl, List.forall_mem_nil _, List.forall_mem_nil _⟩
  have hafter := after_counted hb hcounted occs
  have hsame : (w.after occs).naming.suffix = s.suffix := (after_suffix hb occs).trans (congrArg Names.suffix hnew)
  refine ⟨hafter.texts_nodup (hsame ▸ hsuffix), hafter.made, hafter.requests, hafter.owned, ?_, ?_⟩
  · have hissued : w.assistantIds.issued = 0 := congrArg (·.assistant.issued) hnew
    rw [after_assigned hb, hissued, Nat.zero_add]
  · rintro before order token later rfl
    have hbefore := after_balanced before hb
    obtain ⟨g, hg, hnamed⟩ := begin_named hbefore.resolving order token
    obtain ⟨g', hg', hown, hrequest⟩ := after_keeps (occur_balanced (.begin order token) hbefore) later _ _ hg
    have hafter : w.after (before ++ .begin order token :: later) =
        ((w.after before).occur (.begin order token)).after later := after_append w before _
    rw [hafter]
    have hids : (((w.after before).occur (.begin order token)).after later).naming.given[
        (w.after before).operations.length]? = some g' := hg'
    rw [naming, List.getElem?_map, Option.map_eq_some_iff] at hids
    obtain ⟨o, ho, rfl⟩ := hids
    exact ⟨o, ho, hnamed.keep hown hrequest⟩

/-- A service that draws the same suffix every time. -/
def monotonous : Setting := { watched with suffix := fun _ _ => "aaaaaaaaa" }

/-- The clock stands still and runs backwards; no provider is there for the first two requests. -/
def confusion : List Occurrence := [
  .begin (.service "ask" .chat (.text "hello") none) .none,
  .clock { now := 8 },
  .begin (.assistant (.chat "hello" .nothing)) .none,
  .register ⟨0, "alpha", [.chat]⟩ none,
  .clock { now := 0 },
  .begin (.assistant (.chat "hello?" .nothing)) .none]

theorem run_identifies_confusion :
    ∃ w, monotonous.world = .ok w ∧ w.Identifies confusion ∧
      (w.after confusion).naming.owned = [⟨"assistant", 1000125, 0, "aaaaaaaaa"⟩, ⟨"assistant", 1000000, 1, "aaaaaaaaa"⟩] ∧
      (w.after confusion).naming.made =
        [⟨"ai", 1000000, 0, "aaaaaaaaa"⟩, ⟨"ai", 1000125, 1, "aaaaaaaaa"⟩, ⟨"ai", 1000000, 2, "aaaaaaaaa"⟩] ∧
      ((RequestIds.run ⟨"a-1", 0⟩ [(1, "aaaaaaaaa"), (-1, "aaaaaaaaa"), (1, "aaaaaaaaa")]).map (·.text)).Nodup := by
  have hsuffix : "aaaaaaaaa".length = RequestId.suffixLength := by decide
  have hidentifies := run_identifies.2 monotonous _ confusion rfl fun _ _ => hsuffix
  have hnodup := (run_identifies.1 "a-1" [(1, "aaaaaaaaa"), (-1, "aaaaaaaaa"), (1, "aaaaaaaaa")] (by decide)).2
  exact ⟨_, rfl, hidentifies, rfl, rfl, hnodup⟩

end Scenario.Service

end Orchestra
