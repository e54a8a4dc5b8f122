import Orchestra.Proofs.Context.Wording
import Orchestra.Proofs.ModelReply
import Orchestra.Simulation.Provider

/-!
# Orchestra.Proofs.Bridge — when a bridge asks its model, and what it makes of the reply

A call asks the model exactly if it is not cancelled, the bridge is not disposed of, all that is written of the context can
be written, and the model takes its arguments (`CanAsk`, `canAsk_iff`); what is missing first is what the call fails with.
What it makes of the reply, its failure, its delay or what cannot be written of it is said by `Replied`.
-/

namespace Orchestra

namespace ModelBridge

variable {b : ModelBridge} {cancelled : Bool} {message : String} {context : Context}

/-! ### Before -/

/-- Nothing stands in the way of asking the model. -/
structure CanAsk (b : ModelBridge) (cancelled : Bool) (context : Context) : Prop where
  going : cancelled = false
  kept : b.disposed = false
  written : ∀ x ∈ context.writes, ∃ s, b.written x = .ok s
  accepted : b.accepts b.arguments = .ok ()

theorem request_cancelled (b : ModelBridge) (message : String) (context : Context) :
    b.request true message context = .error (.cancelled (some ("amplifier:" ++ b.name ++ ":chat")) none) := rfl

theorem request_disposed (message : String) (context : Context) (hd : b.disposed = true) :
    b.request false message context = .error (.bridgeDisposed b.name) := by
  rw [request, Bridge.ready, hd]
  rfl

theorem request_unwritten (message : String) (hd : b.disposed = false)
    (hx : ∃ x ∈ context.writes, ∀ s, b.written x ≠ .ok s) :
    ∃ x ∈ context.writes, ∃ f, b.written x = .error f ∧ b.request false message context = .error f := by
  cases hmessages : chatMessages b.written message context b.system with
  | ok messages =>
    obtain ⟨x, hx, hno⟩ := hx
    obtain ⟨s, hs⟩ := chatMessages_ok_iff.mp ⟨messages, hmessages⟩ x hx
    exact absurd hs (hno s)
  | error f =>
    obtain ⟨x, hx, hf⟩ := chatMessages_eq_error hmessages
    refine ⟨x, hx, f, hf, ?_⟩
    rw [request, Bridge.ready, hd, hmessages]
    rfl

theorem request_unaccepted (message : String) (hd : b.disposed = false)
    (hwritten : ∀ x ∈ context.writes, ∃ s, b.written x = .ok s) {f : Fault} (hf : b.accepts b.arguments = .error f) :
    b.request false message context = .error f := by
  obtain ⟨messages, hmessages⟩ := chatMessages_ok_iff.mpr hwritten
  rw [request, Bridge.ready, hd, hmessages, hf]
  rfl

theorem CanAsk.request (h : b.CanAsk cancelled context) (message : String) :
    ∃ messages, chatMessages b.written message context b.system = .ok messages ∧
      b.request cancelled message context = .ok messages := by
  obtain ⟨rfl, hd, hwritten, haccepted⟩ := h
  obtain ⟨messages, hmessages⟩ := chatMessages_ok_iff.mpr hwritten
  refine ⟨messages, hmessages, ?_⟩
  rw [ModelBridge.request, Bridge.ready, hd, hmessages, haccepted]
  rfl

/-- **A bridge asks its model** exactly if nothing stands in the way. -/
theorem canAsk_iff : (∃ messages, b.request cancelled message context = .ok messages) ↔ b.CanAsk cancelled context := by
  constructor
  · rintro ⟨messages, h⟩
    cases cancelled with
    | true => cases h
    | false =>
      have kept : b.disposed = false := by
        by_contra hd
        rw [request_disposed message context (by simpa using hd)] at h
        cases h
      have written : ∀ x ∈ context.writes, ∃ s, b.written x = .ok s := by
        by_contra hunwritten
        obtain ⟨x, -, f, -, hf⟩ := request_unwritten message kept (by simpa using hunwritten)
        cases hf.symm.trans h
      refine ⟨rfl, kept, written, ?_⟩
      cases haccepts : b.accepts b.arguments with
      | ok _ => rfl
      | error f => cases (request_unaccepted message kept written haccepts).symm.trans h
  · intro h
    obtain ⟨messages, -, hrequest⟩ := h.request message
    exact ⟨messages, hrequest⟩

/-! ### After -/

/-- How a call ends whose model has replied, so many ticks after it was asked. -/
inductive Replied (b : ModelBridge) (cancelled : Bool) (ticks : Nat) : Except Fault (Option ModelReply) → Ending → Prop
  /-- A failure of the model is passed on. -/
  | failed {f : Fault} : Replied b cancelled ticks (.error f) (.error f)
  /-- The reply comes too late. -/
  | late {reply : Option ModelReply} (h : cancelled = true) :
      Replied b cancelled ticks (.ok reply) (.error (.cancelled (some ("amplifier:" ++ b.name ++ ":chat")) none))
  /-- The reply counts, and with it is told how long it took, in whole milliseconds; a tick is 125/8 of them. -/
  | counts {reply : Option ModelReply} {chat : ChatResponse} {metadata : Object} (h : cancelled = false)
      (converts : ModelReply.Converts b.written b.name reply chat) (hmetadata : chat.metadata = some metadata) :
      Replied b cancelled ticks (.ok reply) (.ok (.chat { chat with
        metadata := some (metadata ++ [("duration_ms", .number (.int (ticks * 125 / 8 : Nat)))]) }))
  /-- A text of the reply cannot be written. -/
  | unwritten {r : ModelReply} {block : ContentBlock} {f : Fault} (h : cancelled = false) (mem : block ∈ r.content)
      (speaks : (block.bearsText && block.text.isSet) = true) (hf : b.written block.text = .error f) :
      Replied b cancelled ticks (.ok (some r)) (.error f)

/-- Nothing else is kept under the name of the duration. -/
theorem put_duration {written : Writing} {provider : String} {reply : Option ModelReply} {chat : ChatResponse} (v : Value)
    (h : ModelReply.Converts written provider reply chat) :
    ∃ metadata, chat.metadata = some metadata ∧ metadata.put "duration_ms" v = metadata ++ [("duration_ms", v)] := by
  cases h with
  | nothing => exact ⟨_, rfl, rfl⟩
  | reply _ hcounts hfinish =>
    refine ⟨_, rfl, ?_⟩
    rcases hcounts with ⟨-, rfl⟩ | ⟨u, -, rfl⟩ <;> rcases hfinish with ⟨-, rfl⟩ | ⟨s, -, -, rfl⟩ <;> rfl

theorem finish_replied (b : ModelBridge) (cancelled : Bool) (ticks : Nat) (reply : Except Fault (Option ModelReply)) :
    Replied b cancelled ticks reply ((Bridge.finish b.name b.written cancelled ticks reply).map .chat) := by
  rcases reply with f | reply
  · exact .failed
  · cases cancelled with
    | true => exact .late rfl
    | false =>
      simp only [Bridge.finish, Bool.false_eq_true, if_false]
      cases hchat : ModelReply.toChat b.written reply b.name with
      | error f =>
        obtain ⟨r, rfl, block, mem, speaks, hf⟩ := ModelReply.toChat_eq_error hchat
        exact .unwritten rfl mem speaks hf
      | ok chat =>
        have converts := ModelReply.converts_of_toChat hchat
        obtain ⟨metadata, hmetadata, hput⟩ :=
          put_duration (.number (.int (Time.wholeMillis ticks))) converts
        have hduration : (chat.metadata.map (Object.put · "duration_ms" (.number (.int (Time.wholeMillis ticks))))) =
            some (metadata ++ [("duration_ms", .number (.int (ticks * 125 / 8 : Nat)))]) := by
          rw [hmetadata, Option.map_some, hput]
          rfl
        have hcounts : Replied b false ticks (.ok reply) _ := .counts rfl converts hmetadata
        rw [← hduration] at hcounts
        exact hcounts

end ModelBridge

end Orchestra
