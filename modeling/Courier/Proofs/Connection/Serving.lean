import Courier.Connection
import Courier.Proofs.Hub.Registration
import Courier.Proofs.Lines

set_option autoImplicit false

namespace Courier

namespace Hub

def seated (h : Hub) (l : Lane) : Hub :=
  { h with
    lanes := h.lanes ++ [l]
    entries := h.entries ++ [⟨l.id, h.lanes.length⟩]
    journal := h.journal ++ [.registered l.id l.client] }

@[simp]
theorem lane?_seated (h : Hub) (l : Lane) : (h.seated l).lane? h.lanes.length = some l := by
  simp [seated, lane?]

theorem enter_free {h : Hub} {l : Lane} (free : h.entry? l.id = none) :
    h.enter l = (h.seated l, .ok h.lanes.length) := by
  have lane := h.lane?_added l
  have none : entry? (h.addLane l) l.id = none := free
  simp only [enter, register, lane, none]
  rfl

theorem entry_seated {h : Hub} {l : Lane} (free : h.entry? l.id = none) :
    entry? (h.seated l) l.id = some ⟨l.id, h.lanes.length⟩ := by
  rw [entry_eq] at free ⊢
  simp [seated, List.find?_append, free]

theorem route_seated {h : Hub} {l : Lane} (free : h.entry? l.id = none) (live : l.isLive = true) :
    (h.seated l).route l.id = .ok h.lanes.length := by
  have found : (h.seated l).isLive h.lanes.length = true :=
    (isLive_of_lane (h.lane?_seated l)).trans live
  have looked : (h.seated l).lookup l.id = some h.lanes.length := by
    simp only [lookup, entry_seated free, Option.map_some, Option.filter, found, if_true]
  simp [route, looked]

theorem offer_seated (h : Hub) (l : Lane) (p : Parcel) (patience : Patience) (spent : Bool)
    (now : Nat) : (h.seated l).offer h.lanes.length p patience spent now =
      (h.seated { l with session := (l.session.offer p patience spent now).1 },
        (l.session.offer p patience spent now).2) := by
  simp only [offer, lane?_seated, setLane]
  simp [seated]

theorem lane?_updateSession {h : Hub} {key : Key} {l : Lane} (there : h.lane? key = some l)
    (f : Session → Session) :
    (h.updateSession key f).lane? key = some { l with session := f l.session } := by
  rw [updateSession, lane?_modify, there, Option.map_some, if_pos rfl]

structure Act.Tame (now : Nat) (a : Act) : Prop where
  timely : a.At now
  opens : ∀ l, a ≠ .enter l
  registers : ∀ key, a ≠ .register key

theorem tame_conclude (now : Nat) (id : SessionId) (key : Key) (outcome : Outcome) :
    (Act.conclude id key outcome).Tame now := ⟨by simp [Act.At], by simp, by simp⟩

theorem tame_remove (now : Nat) (id : SessionId) (reason : Reason) :
    (Act.remove id reason).Tame now := ⟨by simp [Act.At], by simp, by simp⟩

theorem tame_touch (now : Nat) (key : Key) : (Act.session key (.touch now)).Tame now :=
  ⟨by simp [Act.At], by simp, by simp⟩

theorem tame_offer (now : Nat) (key : Key) (p : Parcel) (patience : Patience) (spent : Bool)
    (t : Nat) : (Act.session key (.offer p patience spent t)).Tame now :=
  ⟨by simp [Act.At], by simp, by simp⟩

theorem remove_unknown {h : Hub} {id : SessionId} (unknown : id ∉ h.ids) (reason : Reason) :
    h.remove id reason = (h, false) := by simp [remove, entry_none.mpr unknown]

theorem absent_remove (h : Hub) (id : SessionId) (reason : Reason) :
    id ∉ Hub.ids (h.remove id reason).1 := by
  unfold remove
  cases entry : h.entry? id with
  | none => exact entry_none.mp entry
  | some e => simp [takeOut, ids, (entry_mem entry).2]

theorem conclude_unknown {h : Hub} {id : SessionId} (unknown : id ∉ h.ids) (key : Key)
    (outcome : Outcome) : (h.conclude id key outcome).1 = h := by
  unfold conclude
  cases answer id outcome with
  | ok n => rfl
  | error e => simp [removeIfSame, entry_none.mpr unknown]

end Hub

namespace Connection

/-- What a connection may do next by itself. When a line has come and its session is closed, it may
see either of them first. -/
inductive Serves (c : Connection) (h : Hub) (id : SessionId) (socket : Socket) (now : Nat)
    (r : Connection × Hub) : Prop
  | greets (phase : c.phase = .greeting) (did : c.readHandshake? h id socket now = some r)
  | sees (seat : Seat) (n : Nat) (phase : c.phase = .serving seat n)
      (did : c.seeClosing? h seat = some r)
  | reads (seat : Seat) (n : Nat) (phase : c.phase = .serving seat n)
      (did : c.readRequest? h seat n now = some r)

theorem serves_act? {c : Connection} {h : Hub} {id : SessionId} {socket : Socket} {now : Nat}
    {r : Connection × Hub} (did : c.act? h id socket now = some r) : c.Serves h id socket now r := by
  unfold act? at did
  cases phase : c.phase with
  | greeting => exact .greets phase (by simpa [phase] using did)
  | serving seat n =>
    simp only [phase] at did
    cases sees : c.seeClosing? h seat with
    | some r' =>
      rw [sees] at did
      exact .sees seat n phase (sees.trans did)
    | none =>
      rw [sees] at did
      exact .reads seat n phase did
  | _ => simp [phase] at did

theorem readHandshake?_none {c : Connection} {h : Hub} {id : SessionId} {socket : Socket} {now : Nat}
    (idle : c.readHandshake? h id socket now = none) : c.incoming.next c.maxRequest = .pending := by
  unfold readHandshake? at idle
  split at idle
  · assumption
  · simp at idle
  · simp at idle
  · simp only at idle
    split at idle <;> simp at idle

theorem readRequest?_none {c : Connection} {h : Hub} {seat : Seat} {n now : Nat}
    (idle : c.readRequest? h seat n now = none) : c.incoming.next c.maxRequest = .pending := by
  unfold readRequest? at idle
  split at idle
  · assumption
  · simp at idle
  · simp at idle
  · simp only at idle
    split at idle <;> simp at idle

/-- What a connection keeps in all that it does. -/
structure Frames (c c' : Connection) : Prop where
  name : c'.name = c.name
  maxRequest : c'.maxRequest = c.maxRequest
  ended : c'.incoming.ended = c.incoming.ended

/-- A connection with a session has done something: it still has that session, is not over unless the
session was taken out, and has done nothing on the hub where the session is unknown. -/
structure Proceeds (c : Connection) (seat : Seat) (now : Nat) (h : Hub) (r : Connection × Hub) :
    Prop where
  frame : c.Frames r.1
  own : r.1.phase.seat? = some seat
  run : ∃ acts, r.2 = h.run acts ∧ ∀ a ∈ acts, a.Tame now
  gone : r.1.phase.isOver = true → seat.id ∉ r.2.ids
  unknown : seat.id ∉ h.ids → r.2 = h

theorem Proceeds.after {c : Connection} {seat : Seat} {now : Nat} {h h' : Hub}
    {r : Connection × Hub} (proceeds : c.Proceeds seat now h' r) {a : Hub.Act} (tame : a.Tame now)
    (acted : h' = h.act a) (unknown : seat.id ∉ h.ids → h' = h) : c.Proceeds seat now h r := by
  obtain ⟨frame, own, ⟨acts, run, all⟩, gone, still⟩ := proceeds
  refine ⟨frame, own, ⟨a :: acts, by rw [run, acted]; rfl, by simpa [tame] using all⟩, gone, ?_⟩
  intro absent
  have same := unknown absent
  rw [same] at still
  exact still absent

theorem Frames.trans {a b c : Connection} (first : a.Frames b) (second : b.Frames c) : a.Frames c :=
  ⟨second.name.trans first.name, second.maxRequest.trans first.maxRequest,
    second.ended.trans first.ended⟩

theorem Proceeds.framed {b c : Connection} {seat : Seat} {now : Nat} {h : Hub} {r : Connection × Hub}
    (proceeds : c.Proceeds seat now h r) (frame : b.Frames c) : b.Proceeds seat now h r :=
  { proceeds with frame := frame.trans proceeds.frame }

theorem proceeds_still {c c' : Connection} {seat : Seat} (now : Nat) {h : Hub} (frame : c.Frames c')
    (own : c'.phase.seat? = some seat) (gone : c'.phase.isOver = true → seat.id ∉ h.ids) :
    c.Proceeds seat now h (c', h) := ⟨frame, own, ⟨[], rfl, by simp⟩, gone, fun _ => rfl⟩

theorem proceeds_finish {c : Connection} {seat : Seat} (now : Nat) (h : Hub)
    (own : c.phase.seat? = some seat) (error : Option ConnectionError) :
    c.Proceeds seat now h (c.finish h error) := by
  unfold finish
  rw [own]
  refine ⟨⟨rfl, rfl, rfl⟩, rfl, ⟨[.remove seat.id .disconnected], rfl, ?_⟩, ?_, ?_⟩
  · simpa using Hub.tame_remove now seat.id .disconnected
  · intro _
    exact h.absent_remove seat.id .disconnected
  · intro unknown
    simp [Hub.remove_unknown unknown]

theorem proceeds_acknowledged {c : Connection} {seat : Seat} (now : Nat) (h : Hub)
    (own : c.phase.seat? = some seat) (result : Except SendError Nat) :
    c.Proceeds seat now h (c.acknowledged h seat result) := by
  cases result with
  | ok n => exact proceeds_still now ⟨rfl, rfl, rfl⟩ rfl (by simp)
  | error e => exact proceeds_finish now h own _

theorem proceeds_answered {c : Connection} {seat : Seat} (now : Nat) (h : Hub)
    (own : c.phase.seat? = some seat) (n : Nat) (result : Except SendError Nat) :
    c.Proceeds seat now h (c.answered h seat n result) := by
  unfold answered
  cases result with
  | ok m => exact proceeds_still now ⟨rfl, rfl, rfl⟩ rfl (by simp)
  | error e =>
    cases e with
    | unknownSession id => exact proceeds_finish now h own _
    | _ =>
      simp only
      split
      · exact proceeds_finish now h own _
      · exact proceeds_still now ⟨rfl, rfl, rfl⟩ rfl (by simp)

theorem proceeds_notified {c : Connection} {seat : Seat} (now : Nat) (h : Hub)
    (own : c.phase.seat? = some seat) (gone : c.phase.isOver = true → seat.id ∉ h.ids)
    (outcome : Outcome) : c.Proceeds seat now h (c.notified h outcome) := by
  unfold notified
  cases phase : c.phase with
  | acknowledging seat' =>
    obtain rfl : seat' = seat := by simpa [phase] using own
    exact (proceeds_acknowledged now _ own _).after (Hub.tame_conclude now _ _ _) rfl
      fun unknown => Hub.conclude_unknown unknown _ _
  | answering seat' n =>
    obtain rfl : seat' = seat := by simpa [phase] using own
    exact (proceeds_answered now _ own n _).after (Hub.tame_conclude now _ _ _) rfl
      fun unknown => Hub.conclude_unknown unknown _ _
  | _ => exact proceeds_still now ⟨rfl, rfl, rfl⟩ own gone

theorem incoming_acknowledged (c : Connection) (h : Hub) (seat : Seat) (result : Except SendError Nat) :
    (c.acknowledged h seat result).1.incoming = c.incoming := by
  cases result <;> rfl

theorem incoming_answered (c : Connection) (h : Hub) (seat : Seat) (n : Nat)
    (result : Except SendError Nat) : (c.answered h seat n result).1.incoming = c.incoming := by
  unfold answered
  split
  · rfl
  · rfl
  · split <;> rfl

theorem incoming_notified (c : Connection) (h : Hub) (outcome : Outcome) :
    (c.notified h outcome).1.incoming = c.incoming := by
  unfold notified
  split
  · exact c.incoming_acknowledged _ _ _
  · exact c.incoming_answered _ _ _ _
  · rfl

theorem incoming_send (c : Connection) (h : Hub) (seat : Seat) (m : Message) (now : Nat) :
    (c.send h seat m now).1.incoming = c.incoming := by
  unfold send
  split
  · split
    · exact c.incoming_acknowledged _ _ _
    · exact c.incoming_answered _ _ _ _
    · rfl
  · split
    · rfl
    · exact c.incoming_notified _ _

theorem notified_unseated {c : Connection} (own : c.phase.seat? = none) (h : Hub) (outcome : Outcome) :
    c.notified h outcome = (c, h) := by
  unfold notified
  cases phase : c.phase <;> simp [phase] at own ⊢

theorem incoming_request (c : Connection) (h : Hub) (seat : Seat) (n : Nat) (text : String)
    (now : Nat) : (c.request h seat n text now).1.incoming = c.incoming := by
  unfold request
  split
  · split
    · rfl
    · exact incoming_send _ _ _ _ _
  · exact incoming_send _ _ _ _ _

theorem proceeds_send {c : Connection} {seat : Seat} (now : Nat) (h : Hub)
    (phase : c.phase = .acknowledging seat ∨ ∃ n, c.phase = .answering seat n) (m : Message) :
    c.Proceeds seat now h (c.send h seat m now) := by
  have own : c.phase.seat? = some seat := by
    rcases phase with here | ⟨n, here⟩ <;> rw [here] <;> rfl
  have goesOn : c.phase.isOver = false := by
    rcases phase with here | ⟨n, here⟩ <;> rw [here] <;> rfl
  unfold send
  cases route : h.route seat.id with
  | error e =>
    rcases phase with here | ⟨n, here⟩
    · simpa [here] using proceeds_acknowledged now h own (.error e)
    · simpa [here] using proceeds_answered now h own n (.error e)
  | ok key =>
    have offered := h.offer_eq key ⟨c.caller, m.encode⟩ .endless false now
    have tame := Hub.tame_offer now key ⟨c.caller, m.encode⟩ .endless false now
    have known : seat.id ∉ h.ids → False := fun unknown => by
      simp [Hub.route_unknown unknown] at route
    simp only
    generalize h.offer key ⟨c.caller, m.encode⟩ .endless false now = done at offered
    obtain ⟨h', refusal⟩ := done
    cases refusal with
    | none =>
      exact (proceeds_still now ⟨rfl, rfl, rfl⟩ own (by simp [goesOn])).after tame offered
        fun unknown => (known unknown).elim
    | some why =>
      exact (proceeds_notified now h' own (by simp [goesOn]) _).after tame offered
        fun unknown => (known unknown).elim

theorem proceeds_request (c : Connection) (seat : Seat) (now : Nat) (h : Hub) (n : Nat)
    (text : String) : c.Proceeds seat now h (c.request h seat n text now) := by
  unfold request
  simp only
  refine .framed (c := { c with phase := .answering seat n }) ?_ ⟨rfl, rfl, rfl⟩
  split
  · cases entry : h.entry? seat.id with
    | none =>
      simp only [Hub.touch, entry]
      exact proceeds_finish now h rfl none
    | some e =>
      simp only [Hub.touch, entry]
      refine (proceeds_send now _ (.inr ⟨n, rfl⟩) _).after (Hub.tame_touch now e.key) rfl ?_
      intro unknown
      simp [Hub.entry_none.mpr unknown] at entry
  · exact proceeds_send now h (.inr ⟨n, rfl⟩) _

theorem proceeds_seeClosing {c : Connection} {h : Hub} {seat : Seat} (now : Nat)
    {r : Connection × Hub} (own : c.phase.seat? = some seat) (did : c.seeClosing? h seat = some r) :
    c.Proceeds seat now h r := by
  unfold seeClosing? at did
  split at did
  · obtain rfl := Option.some.inj did
    exact proceeds_finish now h own none
  · simp at did

theorem proceeds_readRequest {c : Connection} {h : Hub} {seat : Seat} {n now : Nat}
    {r : Connection × Hub} (phase : c.phase = .serving seat n)
    (did : c.readRequest? h seat n now = some r) : c.Proceeds seat now h r := by
  have own : c.phase.seat? = some seat := by
    rw [phase]
    rfl
  unfold readRequest? at did
  cases read : c.incoming.next c.maxRequest with
  | pending => simp [read] at did
  | finished =>
    simp only [read, Option.some.injEq] at did
    exact did ▸ proceeds_finish now h own none
  | error e =>
    simp only [read, Option.some.injEq] at did
    exact did ▸ proceeds_finish now h own _
  | line text rest =>
    obtain ⟨_, _, _, ended⟩ := Incoming.next_line read [] fun _ => rfl
    have frame : c.Frames { c with incoming := rest } := ⟨rfl, rfl, ended⟩
    simp only [read] at did
    split at did
    · obtain rfl := Option.some.inj did
      exact proceeds_still now frame own (by simp [phase])
    · obtain rfl := Option.some.inj did
      exact (proceeds_request { c with incoming := rest } seat now h (n + 1) _).framed frame

theorem Serves.proceeds {c : Connection} {h : Hub} {id : SessionId} {socket : Socket} {now : Nat}
    {r : Connection × Hub} (serves : c.Serves h id socket now r) {seat : Seat}
    (own : c.phase.seat? = some seat) : c.Proceeds seat now h r := by
  cases serves with
  | greets phase => simp [phase] at own
  | sees seat' n phase did =>
    obtain rfl : seat' = seat := by simpa [phase] using own
    exact proceeds_seeClosing now own did
  | reads seat' n phase did =>
    obtain rfl : seat' = seat := by simpa [phase] using own
    exact proceeds_readRequest phase did

/-- A request for a session that is unknown ends the serving without an error. -/
theorem request_unknown (c : Connection) {h : Hub} {seat : Seat} (unknown : seat.id ∉ h.ids) (n : Nat)
    (text : String) (now : Nat) :
    c.request h seat n text now = ({ c with phase := .over (some seat) none }, h) := by
  unfold request
  simp only
  split
  · simp [Hub.touch, Hub.entry_none.mpr unknown, finish, Hub.remove_unknown unknown]
  · simp [send, Hub.route_unknown unknown, answered, finish, Hub.remove_unknown unknown]

def welcomed (c : Connection) (h : Hub) (id : SessionId) (client : Client) (socket : Socket)
    (now : Nat) : Lane where
  id
  client
  session := { Session.start h.config now with queue := [⟨c.caller, (acknowledgement id).encode⟩] }
  stream := .socket socket

theorem offer_start (config : Config) (now : Nat) (p : Parcel) :
    (Session.start config now).offer p .endless false now =
      ({ Session.start config now with queue := [p] }, none) := by
  have room : 0 < max config.queueCapacity 1 := by omega
  simp [Session.offer, Session.isLive, Session.hasRoom, room]

theorem welcome_free (c : Connection) {h : Hub} {id : SessionId} (free : h.entry? id = none)
    (client : Client) (socket : Socket) (now : Nat) :
    c.welcome h id client socket now =
      ({ c with phase := .acknowledging ⟨id, h.lanes.length⟩ },
        h.seated (c.welcomed h id client socket now)) := by
  have entered := Hub.enter_free (l := ⟨id, client, .start h.config now, .socket socket⟩) free
  have route := Hub.route_seated (l := ⟨id, client, .start h.config now, .socket socket⟩) free rfl
  simp only [welcome, entered, send, route, Hub.offer_seated]
  rw [offer_start]
  rfl

/-- What is read of the handshake: the session is opened and acknowledged at once, or nothing is. -/
inductive Greeting (c : Connection) (h : Hub) (id : SessionId) (socket : Socket) (now : Nat) :
    Connection × Hub → Prop
  | welcomes (text : String) (rest : Incoming) (client : Client)
      (read : c.incoming.next c.maxRequest = .line text rest) (valid : c.greet text = .ok client) :
      Greeting c h id socket now
        ({ c with incoming := rest, phase := .acknowledging ⟨id, h.lanes.length⟩ },
          h.seated (c.welcomed h id client socket now))
  | refuses (text : String) (rest : Incoming) (e : ConnectionError)
      (read : c.incoming.next c.maxRequest = .line text rest) (invalid : c.greet text = .error e) :
      Greeting c h id socket now ({ c with incoming := rest, phase := .over none (some e) }, h)
  | unread (e : LineError) (read : c.incoming.next c.maxRequest = .error e) :
      Greeting c h id socket now
        ({ c with phase := .over none (some (.unreadHandshake e)) }, h)
  | missing (read : c.incoming.next c.maxRequest = .finished) :
      Greeting c h id socket now ({ c with phase := .over none (some .noHandshake) }, h)

theorem readHandshake?_greeting {c : Connection} {h : Hub} {id : SessionId} {socket : Socket}
    {now : Nat} {r : Connection × Hub} (phase : c.phase = .greeting) (free : h.entry? id = none)
    (did : c.readHandshake? h id socket now = some r) : c.Greeting h id socket now r := by
  unfold readHandshake? at did
  cases read : c.incoming.next c.maxRequest with
  | pending => simp [read] at did
  | finished =>
    simp only [read, finish, phase, Phase.seat?, Option.some.injEq] at did
    exact did ▸ .missing read
  | error e =>
    simp only [read, finish, phase, Phase.seat?, Option.some.injEq] at did
    exact did ▸ .unread e read
  | line text rest =>
    simp only [read] at did
    cases greet : c.greet text with
    | error e =>
      have greet' : Connection.greet { c with incoming := rest } text = .error e := greet
      simp only [greet'] at did
      simp only [finish, phase, Phase.seat?, Option.some.injEq] at did
      exact did ▸ .refuses text rest e read greet
    | ok client =>
      have greet' : Connection.greet { c with incoming := rest } text = .ok client := greet
      simp only [greet', welcome_free _ free, Option.some.injEq] at did
      exact did ▸ .welcomes text rest client read greet

theorem Greeting.frames {c : Connection} {h : Hub} {id : SessionId} {socket : Socket} {now : Nat}
    {r : Connection × Hub} (greeting : c.Greeting h id socket now r) : c.Frames r.1 := by
  cases greeting with
  | welcomes text rest client read =>
    obtain ⟨_, _, _, ended⟩ := Incoming.next_line read [] fun _ => rfl
    exact ⟨rfl, rfl, ended⟩
  | refuses text rest e read =>
    obtain ⟨_, _, _, ended⟩ := Incoming.next_line read [] fun _ => rfl
    exact ⟨rfl, rfl, ended⟩
  | unread | missing => exact ⟨rfl, rfl, rfl⟩

theorem Serves.frames {c : Connection} {h : Hub} {id : SessionId} {socket : Socket} {now : Nat}
    {r : Connection × Hub} (serves : c.Serves h id socket now r)
    (free : c.phase = .greeting → h.entry? id = none) : c.Frames r.1 := by
  cases own : c.phase.seat? with
  | some seat => exact (serves.proceeds own).frame
  | none =>
    cases serves with
    | greets phase did => exact (readHandshake?_greeting phase (free phase) did).frames
    | sees seat n phase => simp [phase] at own
    | reads seat n phase => simp [phase] at own

end Connection

end Courier
