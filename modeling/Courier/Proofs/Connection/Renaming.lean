import Courier.Connection
import Courier.Proofs.Hub.Renaming

set_option autoImplicit false

namespace Courier.Connection

variable {ρ : Key → Caller → Caller} (c : Connection) (h : Hub)

theorem finish_rename (error : Option ConnectionError) :
    c.finish (h.rename ρ) error = ((c.finish h error).1, (c.finish h error).2.rename ρ) := by
  unfold finish
  cases c.phase.seat? with
  | none => rfl
  | some seat =>
    have removed := h.recast_remove (Hub.disguise_rename ρ) seat.id .disconnected
    exact Prod.ext rfl (congrArg Prod.fst removed)

theorem acknowledged_rename (seat : Seat) (result : Except SendError Nat) :
    c.acknowledged (h.rename ρ) seat result =
      ((c.acknowledged h seat result).1, (c.acknowledged h seat result).2.rename ρ) := by
  cases result with
  | ok n => rfl
  | error e => exact c.finish_rename h _

theorem answered_rename (seat : Seat) (n : Nat) (result : Except SendError Nat) :
    c.answered (h.rename ρ) seat n result =
      ((c.answered h seat n result).1, (c.answered h seat n result).2.rename ρ) := by
  unfold answered
  split
  · rfl
  · exact c.finish_rename h none
  · split
    · exact c.finish_rename h _
    · rfl

theorem notified_rename (outcome : Outcome) : c.notified (h.rename ρ) outcome =
    ((c.notified h outcome).1, (c.notified h outcome).2.rename ρ) := by
  have concluded (seat : Seat) := h.recast_conclude (Hub.disguise_rename ρ) seat.id seat.key outcome
  unfold notified
  split
  · rename_i seat _
    rw [Hub.rename, concluded seat]
    exact c.acknowledged_rename _ seat _
  · rename_i seat n _
    rw [Hub.rename, concluded seat]
    exact c.answered_rename _ seat n _
  · rfl

variable (connections : ∀ key name, ρ key (.connection name) = .connection name)

include connections

theorem send_rename (seat : Seat) (m : Message) (now : Nat) : c.send (h.rename ρ) seat m now =
    ((c.send h seat m now).1, (c.send h seat m now).2.rename ρ) := by
  have route : (h.rename ρ).route seat.id = h.route seat.id :=
    h.route_recast (Hub.disguise_rename ρ) seat.id
  unfold send
  rw [route]
  cases h.route seat.id with
  | error e =>
    simp only
    split
    · exact c.acknowledged_rename h _ _
    · exact c.answered_rename h _ _ _
    · rfl
  | ok key =>
    have offered := h.rename_offer (ρ := ρ) key ⟨c.caller, m.encode⟩ .endless false now
    have own : Parcel.rename (ρ key) ⟨c.caller, m.encode⟩ = ⟨c.caller, m.encode⟩ := by
      simp only [Parcel.rename, caller, connections]
    rw [own] at offered
    simp only [offered]
    generalize h.offer key ⟨c.caller, m.encode⟩ .endless false now = done
    obtain ⟨hub, refusal⟩ := done
    cases refusal with
    | none => rfl
    | some why => exact c.notified_rename hub _

theorem welcome_rename (id : SessionId) (client : Client) (socket : Socket) (now : Nat) :
    c.welcome (h.rename ρ) id client socket now =
      ((c.welcome h id client socket now).1, (c.welcome h id client socket now).2.rename ρ) := by
  have new : Lane.rename (ρ h.lanes.length) ⟨id, client, .start h.config now, .socket socket⟩ =
      ⟨id, client, .start h.config now, .socket socket⟩ :=
    Lane.rename_of_new ⟨h.config, now, .inl rfl⟩
  have entered : (h.rename ρ).enter ⟨id, client, .start h.config now, .socket socket⟩ = _ :=
    h.recast_enter (Hub.disguise_rename ρ) new
  unfold welcome
  rw [show (h.rename ρ).config = h.config from rfl, entered]
  generalize h.enter ⟨id, client, .start h.config now, .socket socket⟩ = done
  obtain ⟨hub, result⟩ := done
  cases result with
  | error e => exact c.finish_rename hub _
  | ok key => exact send_rename _ hub connections _ _ _

theorem request_rename (seat : Seat) (n : Nat) (text : String) (now : Nat) :
    c.request (h.rename ρ) seat n text now =
      ((c.request h seat n text now).1, (c.request h seat n text now).2.rename ρ) := by
  have touched : (h.rename ρ).touch seat.id now = _ :=
    h.recast_touch (Hub.disguise_rename ρ) seat.id now
  unfold request
  split
  · rw [touched]
    generalize h.touch seat.id now = done
    obtain ⟨hub, known⟩ := done
    cases known with
    | false => exact finish_rename _ _ _
    | true => exact send_rename _ _ connections _ _ _
  · exact send_rename _ _ connections _ _ _

theorem readRequest?_rename (seat : Seat) (n now : Nat) : c.readRequest? (h.rename ρ) seat n now =
    (c.readRequest? h seat n now).map fun r => (r.1, r.2.rename ρ) := by
  unfold readRequest?
  cases c.incoming.next c.maxRequest with
  | pending => rfl
  | finished => exact congrArg some (finish_rename _ _ _)
  | error e => exact congrArg some (finish_rename _ _ _)
  | line text rest =>
    simp only
    split
    · rfl
    · exact congrArg some (request_rename _ _ connections _ _ _ _)

theorem act?_rename (id : SessionId) (socket : Socket) (now : Nat) :
    c.act? (h.rename ρ) id socket now =
      (c.act? h id socket now).map fun r => (r.1, r.2.rename ρ) := by
  unfold act?
  cases c.phase with
  | greeting =>
    simp only [readHandshake?]
    cases c.incoming.next c.maxRequest with
    | pending => rfl
    | finished => exact congrArg some (finish_rename _ _ _)
    | error e => exact congrArg some (finish_rename _ _ _)
    | line text rest =>
      simp only
      cases greet { c with incoming := rest } text with
      | error e => exact congrArg some (finish_rename _ _ _)
      | ok client => exact congrArg some (welcome_rename _ _ connections _ _ _ _)
  | serving seat n =>
    have closing : ((h.rename ρ).lane? seat.key).any (·.session.closing) =
        (h.lane? seat.key).any (·.session.closing) := by
      rw [Hub.rename, Hub.lane?_recast, Option.any_map]
      rfl
    simp only [seeClosing?, closing]
    split
    · exact congrArg some (finish_rename _ _ _)
    · exact c.readRequest?_rename h connections seat n now
  | _ => rfl

end Courier.Connection
