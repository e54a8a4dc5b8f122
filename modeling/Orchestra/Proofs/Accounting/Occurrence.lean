import Orchestra.Scenario.Service

/-!
# Orchestra.Proofs.Accounting.Occurrence — a run as a list of what occurs

Between two points where anyone can look, one thing occurs: an operation begins, gets on or is aborted, hooks have their
turn, the service is used in some other way, or the clock moves.  `World.after` runs any list of these in any order, and
one world follows another if it is what comes of such a list.
-/

namespace Orchestra

inductive Occurrence where
  | begin (order : World.Order) (token : Token)
  /-- An operation gets on, if what it waits for has come. -/
  | resume (op : Nat)
  | abort (op : Nat)
  /-- Tasks run, time passes, providers come, go or are read.  What the clock shows afterwards is left open. -/
  | clock (c : Clockwork)
  /-- Hooks have their turn. -/
  | tell
  | due
  | deed (d : Deed)
  | register (p : ProviderRef) (kinds : Option (List Capability))
  | dispose (handle : Nat)
  | onDispose (handle : Nat) (callback : ServiceCallback)
  | listen (stream : Stream) (name : String) (reaction : Option Reaction)
  | unlisten (name : String)
  | setContext (extras : Extras) (fields : Changes)
  /-- The context is updated where nobody is told. -/
  | commit (extras : Extras) (fields : Changes)
  | clearContext
  | close

/-- The request that an occurrence can make, by operation and kind: the one that is ordered, or one that the assistant
makes. -/
def Occurrence.Asks : Occurrence → String → Capability → Prop
  | .begin (.service operation kind _ _) _, operation', kind' => operation' = operation ∧ kind' = kind
  | _, operation, kind =>
    (operation = "get_chat_response" ∧ kind = .chat) ∨ (operation = "get_code_edit" ∧ kind = .codeEdit)

/-- Whatever the assistant asks can be asked. -/
def Occurrence.Assists (x : Occurrence) : Prop := x.Asks "get_chat_response" .chat ∧ x.Asks "get_code_edit" .codeEdit

namespace World

def occur (w : World) : Occurrence → World
  | .begin order token => (w.begin order token).1
  | .resume op => ((w.operations[op]?).bind (w.resume op)).getD w
  | .abort op => w.abort op
  | .clock clock => { w with clock }
  | .tell => w.tellAll
  | .due => w.doDue
  | .deed d => w.doDeed d
  | .register p kinds =>
    match w.register p kinds with
    | .error _ => w
    | .ok (w, _) => w
  | .dispose handle => (w.dispose handle).1
  | .onDispose handle callback => w.onDispose handle callback
  | .listen stream name reaction => w.listen stream name reaction
  | .unlisten name => w.unlisten name
  | .setContext extras fields =>
    match w.setContext extras fields with
    | .error _ => w
    | .ok (w, _) => w
  | .commit extras fields =>
    match w.commit extras fields with
    | .error _ => w
    | .ok (w, _) => w
  | .clearContext => w.clearContext
  | .close => w.close.1

/-- The world after all that occurs, in this order. -/
def after (w : World) (occs : List Occurrence) : World := occs.foldl occur w

@[simp] theorem after_nil (w : World) : w.after [] = w := rfl

theorem after_append (w : World) (xs ys : List Occurrence) : w.after (xs ++ ys) = (w.after xs).after ys :=
  List.foldl_append

theorem after_concat (w : World) (xs : List Occurrence) (x : Occurrence) :
    w.after (xs ++ [x]) = (w.after xs).occur x := after_append w xs [x]

/-! ### What runs of the model are -/

/-- The second world is the first after something occurred. -/
def Follows (w v : World) : Prop := ∃ occs, v = w.after occs

variable {u v w : World}

theorem Follows.refl (w : World) : Follows w w := ⟨[], rfl⟩

theorem Follows.trans (h : Follows w v) (h' : Follows v u) : Follows w u := by
  obtain ⟨xs, rfl⟩ := h
  obtain ⟨ys, rfl⟩ := h'
  exact ⟨xs ++ ys, (after_append w xs ys).symm⟩

theorem occur_follows (w : World) (x : Occurrence) : Follows w (w.occur x) := ⟨[x], rfl⟩

theorem clock_follows (w : World) (clock : Clockwork) : Follows w { w with clock } := w.occur_follows (.clock clock)

end World

namespace Scenario.Service

/-- A new service has been through nothing, and in its world nothing has happened yet. -/
theorem Setting.world_new {s : Setting} {w : World} (hw : s.world = .ok w) :
    ∃ config context, w = {
      clock := { cancelled := s.cancelled.map (·, 0), providers := s.providers }
      service := { config, hooks := if config.forwards then hooksOf s.coordinator else none, context }
      suffix := s.suffix
      display := s.display
      resolver := s.resolver } := by
  unfold Setting.world at hw
  rcases hc : Config.ofObject s.config with f | config
  · rw [hc] at hw; cases hw
  · rcases hn : ContextStore.new config.historyLimit with f | context
    · simp only [hc, Orchestra.Service.new, hn, bind, Except.bind] at hw
      cases hw
    · simp only [hc, Orchestra.Service.new, hn, bind, Except.bind, pure, Except.pure] at hw
      cases hw
      exact ⟨config, context, rfl⟩

end Scenario.Service

end Orchestra
