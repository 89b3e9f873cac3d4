import Courier.Proofs.Connection.Serving
import Courier.Proofs.Lines

set_option autoImplicit false

namespace Courier

open Relation (ReflTransGen)

def handshake? (longest : Nat) (bytes : List UInt8) : Option Client :=
  match linesOf bytes with
  | [] => none
  | line :: _ =>
    match readLine longest line with
    | .ok text => (Client.decode text).toOption
    | .error _ => none

namespace Connection

theorem valid_of_greet {c : Connection} {i rest : Incoming} {text : String} {client : Client}
    (read : i.next c.maxRequest = .line text rest) (valid : c.greet text = .ok client)
    (more : List UInt8) (whole : i.ended = true → more = []) :
    ∃ client, handshake? c.maxRequest (i.bytes ++ more) = some client := by
  obtain ⟨line, lines, said, _⟩ := Incoming.next_line read more whole
  unfold greet at valid
  cases decoded : Client.decode text with
  | error e => simp [decoded] at valid
  | ok client' => exact ⟨client', by simp [handshake?, lines, said, decoded, Except.toOption]⟩

theorem invalid_of_greet {c : Connection} {i rest : Incoming} {text : String} {e : ConnectionError}
    (read : i.next c.maxRequest = .line text rest) (invalid : c.greet text = .error e)
    (more : List UInt8) (whole : i.ended = true → more = []) :
    handshake? c.maxRequest (i.bytes ++ more) = none := by
  obtain ⟨line, lines, said, _⟩ := Incoming.next_line read more whole
  unfold greet at invalid
  cases decoded : Client.decode text with
  | error e' => simp [handshake?, lines, said, decoded, Except.toOption]
  | ok client => simp [decoded] at invalid

theorem invalid_of_error {longest : Nat} {i : Incoming} {e : LineError}
    (read : i.next longest = .error e) (more : List UInt8) (whole : i.ended = true → more = []) :
    handshake? longest (i.bytes ++ more) = none := by
  rcases Incoming.next_error read more whole with ⟨line, lines, split, said⟩ | ⟨_, none⟩
  · simp [handshake?, split, said]
  · simp [handshake?, none]

theorem invalid_of_finished {longest : Nat} {i : Incoming} (read : i.next longest = .finished)
    (more : List UInt8) (whole : i.ended = true → more = []) :
    handshake? longest (i.bytes ++ more) = none := by
  obtain ⟨ended, none⟩ := Incoming.next_finished read
  simp [handshake?, whole ended, none]

end Connection

namespace Hub

def line (h : Hub) (key : Key) : List Parcel := ((h.lane? key).map (·.session.line)).getD []

/-- The events of an id that is registered once, and not any more if it was taken out. -/
inductive Told (id : SessionId) : List Event → Prop
  | present (client : Client) : Told id [.registered id client]
  | departed (client : Client) (reason : Reason) (sent : Nat) :
      Told id [.registered id client, .removed id reason sent]

theorem eventsOf_removals {old more : List Event} {id : SessionId} (turns : Alternate (old ++ more))
    (removals : ∀ e ∈ eventsOf more id, e.isRemoval = true) : eventsOf more id = [] ∨
      (eventsOf old id).length % 2 = 1 ∧ ∃ reason sent, eventsOf more id = [.removed id reason sent] := by
  have turn := turns.turns id
  rw [eventsOf_append] at turn
  cases events : eventsOf more id with
  | nil => exact .inl rfl
  | cons e rest =>
    rw [events] at turn removals
    have first := turn (eventsOf old id).length e (by simp)
    have odd := first.mp (removals e List.mem_cons_self)
    have own : e.id = id := by
      have member : e ∈ eventsOf more id := events ▸ List.mem_cons_self
      simpa using (List.mem_filter.mp member).2
    cases rest with
    | nil =>
      cases e with
      | registered id' client => simpa using removals _ List.mem_cons_self
      | removed id' reason sent => exact .inr ⟨odd, reason, sent, by rw [← own]; rfl⟩
    | cons e' rest =>
      -- two removals do not follow each other
      have second := turn ((eventsOf old id).length + 1) e' (by simp)
      have even := second.mp (removals e' (List.mem_cons_of_mem _ List.mem_cons_self))
      omega

theorem Told.append {id : SessionId} {old more : List Event} (told : Told id (eventsOf old id))
    (turns : Alternate (old ++ more)) (removals : ∀ e ∈ eventsOf more id, e.isRemoval = true) :
    Told id (eventsOf (old ++ more) id) := by
  rw [eventsOf_append]
  rcases eventsOf_removals turns removals with none | ⟨odd, reason, sent, one⟩
  · rw [none, List.append_nil]
    exact told
  · generalize eventsOf old id = events at told odd
    rw [one]
    cases told with
    | present client => exact .departed client reason sent
    | departed client => simp at odd

theorem Sound.mem_ids {h : Hub} (sound : h.Sound) (id : SessionId) :
    id ∈ h.ids ↔ (eventsOf h.journal id).length % 2 = 1 := by
  rw [← sound.faithful.mem_replay, sound.faithful.alternate.present]

theorem removals_act {h : Hub} {a : Act} {id : SessionId} (spares : ¬a.Registers h id) :
    ∃ more, (h.act a).journal = h.journal ++ more ∧ ∀ e ∈ eventsOf more id, e.isRemoval = true := by
  obtain ⟨more, journal, registers⟩ := h.journal_act a
  refine ⟨more, journal, fun e member => ?_⟩
  obtain ⟨there, own⟩ := List.mem_filter.mp member
  cases e with
  | removed => rfl
  | registered id' client =>
    obtain rfl : id' = id := by simpa using own
    exact absurd (registers id' client there) spares

structure Unborn (h : Hub) (id : SessionId) : Prop where
  sound : h.Sound
  silent : eventsOf h.journal id = []

/-- An id under which one lane was registered once. -/
structure Known (h : Hub) (id : SessionId) (key : Key) : Prop where
  sound : h.Sound
  lane : ∃ l, h.lane? key = some l
  told : Told id (eventsOf h.journal id)

theorem Unborn.absent {h : Hub} {id : SessionId} (unborn : h.Unborn id) : id ∉ h.ids := by
  rw [unborn.sound.mem_ids, unborn.silent]
  simp

theorem Unborn.act {h : Hub} {id : SessionId} (unborn : h.Unborn id) {a : Act}
    (spares : ¬a.Registers h id) : (h.act a).Unborn id := by
  obtain ⟨more, journal, removals⟩ := removals_act spares
  have sound := (act_sound unborn.sound a).1
  refine ⟨sound, ?_⟩
  rcases eventsOf_removals (journal ▸ sound.faithful.alternate) removals with none | ⟨odd, _⟩
  · rw [journal, eventsOf_append, unborn.silent, none, List.append_nil]
  · simp [unborn.silent] at odd

theorem Known.act {h : Hub} {id : SessionId} {key : Key} (known : h.Known id key) {a : Act}
    (spares : ¬a.Registers h id) : (h.act a).Known id key := by
  obtain ⟨more, journal, removals⟩ := removals_act spares
  have sound := (act_sound known.sound a).1
  obtain ⟨l, lane⟩ := known.lane
  obtain ⟨l', lane', _⟩ := h.act_lane a lane
  refine ⟨sound, ⟨l', lane'⟩, ?_⟩
  rw [journal]
  exact known.told.append (journal ▸ sound.faithful.alternate) removals

theorem Known.absent_act {h : Hub} {id : SessionId} {key : Key} (known : h.Known id key) {a : Act}
    (spares : ¬a.Registers h id) (absent : id ∉ h.ids) : id ∉ (h.act a).ids := by
  obtain ⟨more, journal, removals⟩ := removals_act spares
  have sound := (act_sound known.sound a).1
  rw [known.sound.mem_ids] at absent
  rw [sound.mem_ids, journal, eventsOf_append]
  rcases eventsOf_removals (journal ▸ sound.faithful.alternate) removals with none | ⟨odd, _⟩
  · rw [none, List.append_nil]
    exact absent
  · exact absurd odd absent

theorem Act.Tame.spares {now : Nat} {a : Act} (tame : a.Tame now) (h : Hub) (id : SessionId) :
    ¬a.Registers h id := by
  rintro (⟨l, enters, _⟩ | ⟨key, registers, _⟩)
  · exact tame.opens l enters
  · exact tame.registers key registers

theorem Known.run {h : Hub} {id : SessionId} {key : Key} (known : h.Known id key) {now : Nat}
    {acts : List Act} (tame : ∀ a ∈ acts, a.Tame now) : (h.run acts).Known id key := by
  induction acts generalizing h with
  | nil => exact known
  | cons a acts ih =>
    exact ih (known.act ((tame a List.mem_cons_self).spares h id))
      fun b member => tame b (List.mem_cons_of_mem _ member)

theorem Unborn.seated {h : Hub} {l : Lane} (unborn : h.Unborn l.id) :
    (h.seated l).Known l.id h.lanes.length := by
  have free : h.entry? l.id = none := entry_none.mpr unborn.absent
  have entered : h.act (.enter l) = h.seated l := by simp [Hub.act, enter_free free]
  refine ⟨entered ▸ (act_sound unborn.sound (.enter l)).1, ⟨l, h.lane?_seated l⟩, ?_⟩
  have events : eventsOf (h.seated l).journal l.id = [.registered l.id l.client] := by
    rw [Hub.seated, eventsOf_append, unborn.silent, eventsOf_singleton]
    simp
  rw [events]
  exact .present l.client

end Hub

/-- A connection with the hub, all that its client has sent, and all that the queue of its session has
taken. -/
structure Service where
  connection : Connection
  hub : Hub
  received : List UInt8
  taken : List Parcel

namespace Service

@[simp]
def start (config : Config) (name host : String) (maxRequest : Nat) : Service :=
  ⟨.start name host maxRequest, .start config, [], []⟩

def become (s : Service) (r : Connection × Hub) : Service :=
  { s with
    connection := r.1
    hub := r.2
    taken := s.taken ++ match r.1.phase.seat? with
      | some seat => (r.2.line seat.key).drop (s.hub.line seat.key).length
      | none => [] }

inductive Step (id : SessionId) (s : Service) : Service → Prop
  | arrives (bytes : List UInt8) (more : s.connection.incoming.ended = false) :
      Step id s { s with
        connection := { s.connection with incoming := s.connection.incoming.add bytes }
        received := s.received ++ bytes }
  | ends : Step id s { s with
        connection := { s.connection with incoming := { s.connection.incoming with ended := true } } }
  | serves (socket : Socket) (now : Nat) (r : Connection × Hub)
      (did : s.connection.Serves s.hub id socket now r) : Step id s (s.become r)
  /-- The connection hears what became of its last message, which may be anything. -/
  | hears (outcome : Outcome) : Step id s (s.become (s.connection.notified s.hub outcome))
  /-- Anything happens to the hub, the session included. The id is nobody else's. -/
  | happens (a : Hub.Act) (spares : ¬a.Registers s.hub id) :
      Step id s (s.become (s.connection, s.hub.act a))

/-- What the stream of the client may still turn out to be. -/
def Completes (s : Service) (bytes : List UInt8) : Prop :=
  ∃ more, bytes = s.received ++ more ∧ (s.connection.incoming.ended = true → more = [])

structure Sound (id : SessionId) (s : Service) : Prop where
  greeting : s.connection.phase = .greeting → s.connection.incoming.bytes = s.received
  unborn : s.connection.phase.seat? = none → s.hub.Unborn id ∧ s.taken = []
  known : ∀ seat, s.connection.phase.seat? = some seat → seat.id = id ∧ s.hub.Known id seat.key ∧
    s.taken.head? = some ⟨s.connection.caller, (Connection.acknowledgement id).encode⟩
  gone : s.connection.phase.isOver = true → id ∉ s.hub.ids
  valid : ∀ seat, s.connection.phase.seat? = some seat → ∀ bytes, s.Completes bytes →
    ∃ client, handshake? s.connection.maxRequest bytes = some client
  invalid : s.connection.phase.isOver = true → s.connection.phase.seat? = none → ∀ bytes,
    s.Completes bytes → handshake? s.connection.maxRequest bytes = none

theorem sound_start (id : SessionId) (config : Config) (name host : String) (maxRequest : Nat) :
    (start config name host maxRequest).Sound id where
  greeting _ := rfl
  unborn _ := ⟨⟨Hub.sound_start config, rfl⟩, rfl⟩
  known seat own := by simp at own
  gone ended := by simp at ended
  valid seat own := by simp at own
  invalid ended := by simp at ended

theorem Sound.goes {id : SessionId} {s : Service} (sound : s.Sound id) {seat : Seat}
    (own : s.connection.phase.seat? = some seat) {r : Connection × Hub}
    (frame : s.connection.Frames r.1) (own' : r.1.phase.seat? = some seat)
    (known : r.2.Known id seat.key) (gone : r.1.phase.isOver = true → id ∉ r.2.ids) :
    (s.become r).Sound id := by
  have none : r.1.phase.seat? ≠ Option.none := by simp [own']
  obtain ⟨mine, _, first⟩ := sound.known seat own
  refine ⟨?_, fun unseated => absurd unseated none, ?_, gone, ?_, fun _ unseated => absurd unseated none⟩
  · intro phase
    change r.1.phase = .greeting at phase
    simp [phase] at own'
  · intro seat' there
    obtain rfl : seat = seat' := Option.some.inj (own'.symm.trans there)
    refine ⟨mine, known, ?_⟩
    change (s.taken ++ _).head? = some ⟨.connection r.1.name, _⟩
    rw [List.head?_append, first, frame.name]
    rfl
  · rintro seat' - bytes ⟨more, split, whole⟩
    change ∃ client, handshake? r.1.maxRequest bytes = some client
    rw [frame.maxRequest]
    exact sound.valid seat own bytes ⟨more, split, fun ended => whole (frame.ended.trans ended)⟩

theorem Sound.proceeds {id : SessionId} {s : Service} (sound : s.Sound id) {seat : Seat}
    (own : s.connection.phase.seat? = some seat) {now : Nat} {r : Connection × Hub}
    (proceeds : s.connection.Proceeds seat now s.hub r) : (s.become r).Sound id := by
  obtain ⟨mine, known, _⟩ := sound.known seat own
  obtain ⟨acts, run, tame⟩ := proceeds.run
  exact sound.goes own proceeds.frame proceeds.own (run ▸ known.run tame) (mine ▸ proceeds.gone)

theorem Sound.unseated {id : SessionId} {s : Service} (sound : s.Sound id)
    (own : s.connection.phase.seat? = none) {h : Hub} (unborn : h.Unborn id) :
    (s.become (s.connection, h)).Sound id := by
  obtain ⟨_, nothing⟩ := sound.unborn own
  refine ⟨sound.greeting, fun _ => ⟨unborn, ?_⟩, ?_, fun _ => unborn.absent, ?_, sound.invalid⟩
  · simp [become, own, nothing]
  · intro seat there
    change s.connection.phase.seat? = some seat at there
    simp [own] at there
  · intro seat there
    change s.connection.phase.seat? = some seat at there
    simp [own] at there

theorem Sound.greets {id : SessionId} {s : Service} (sound : s.Sound id)
    (phase : s.connection.phase = .greeting) {socket : Socket} {now : Nat} {r : Connection × Hub}
    (greeting : s.connection.Greeting s.hub id socket now r) : (s.become r).Sound id := by
  obtain ⟨unborn, nothing⟩ := sound.unborn (by rw [phase]; rfl)
  have bytes := sound.greeting phase
  -- without a session the hub is as it was
  have refused (i : Incoming) (e : ConnectionError) (ended : i.ended = s.connection.incoming.ended)
      (invalid : ∀ bytes, s.Completes bytes → handshake? s.connection.maxRequest bytes = none) :
      (s.become ({ s.connection with incoming := i, phase := .over none (some e) }, s.hub)).Sound id := by
    refine ⟨by simp [become], fun _ => ⟨unborn, by simp [become, nothing]⟩,
      by simp [become], fun _ => unborn.absent, by simp [become], ?_⟩
    rintro - - bytes ⟨more, split, whole⟩
    exact invalid bytes ⟨more, split, fun closed => whole (ended.trans closed)⟩
  cases greeting with
  | welcomes text rest client read valid =>
    have known := unborn.seated (l := s.connection.welcomed s.hub id client socket now)
    refine ⟨by simp [become], by simp [become], ?_, by simp [become], ?_,
      by simp [become]⟩
    · intro seat there
      obtain rfl : (⟨id, s.hub.lanes.length⟩ : Seat) = seat := Option.some.inj there
      refine ⟨rfl, known, ?_⟩
      have before : s.hub.line s.hub.lanes.length = [] := by simp [Hub.line, Hub.lane?]
      have after : (s.hub.seated (s.connection.welcomed s.hub id client socket now)).line
          s.hub.lanes.length = [⟨s.connection.caller, (Connection.acknowledgement id).encode⟩] := by
        rw [Hub.line, Hub.lane?_seated]
        rfl
      simp only [become, Phase.seat?, before, after, nothing]
      rfl
    · rintro seat - all ⟨more, split, whole⟩
      obtain ⟨_, _, _, ended⟩ := Incoming.next_line read [] fun _ => rfl
      rw [split, show (s.become _).received = s.received from rfl, ← bytes]
      exact Connection.valid_of_greet read valid more fun closed => whole (ended.trans closed)
  | refuses text rest e read invalid =>
    obtain ⟨_, _, _, ended⟩ := Incoming.next_line read [] fun _ => rfl
    refine refused rest e ended ?_
    rintro all ⟨more, split, whole⟩
    rw [split, ← bytes]
    exact Connection.invalid_of_greet read invalid more whole
  | unread e read =>
    refine refused _ _ rfl ?_
    rintro all ⟨more, split, whole⟩
    rw [split, ← bytes]
    exact Connection.invalid_of_error read more whole
  | missing read =>
    refine refused _ _ rfl ?_
    rintro all ⟨more, split, whole⟩
    rw [split, ← bytes]
    exact Connection.invalid_of_finished read more whole

theorem Step.sound {id : SessionId} {s s' : Service} (step : Step id s s') (sound : s.Sound id) :
    s'.Sound id := by
  cases step with
  | arrives bytes more =>
    -- what comes later was still to come before
    have earlier : ∀ all, (∃ rest, all = s.received ++ bytes ++ rest ∧
        (s.connection.incoming.ended = true → rest = [])) → s.Completes all := by
      rintro all ⟨rest, split, -⟩
      exact ⟨bytes ++ rest, by rw [split, List.append_assoc], fun ended => by simp [more] at ended⟩
    refine { sound with greeting := ?_, valid := ?_, invalid := ?_ }
    · intro phase
      exact congrArg (· ++ bytes) (sound.greeting phase)
    · exact fun seat own all completes => sound.valid seat own all (earlier all completes)
    · exact fun ended own all completes => sound.invalid ended own all (earlier all completes)
  | ends =>
    have earlier : ∀ all, (∃ rest, all = s.received ++ rest ∧ (true = true → rest = [])) →
        s.Completes all := by
      rintro all ⟨rest, split, last⟩
      exact ⟨rest, split, fun _ => last rfl⟩
    exact { sound with
      valid := fun seat own all completes => sound.valid seat own all (earlier all completes)
      invalid := fun ended own all completes => sound.invalid ended own all (earlier all completes) }
  | serves socket now r did =>
    cases own : s.connection.phase.seat? with
    | some seat => exact sound.proceeds own (did.proceeds own)
    | none =>
      cases did with
      | greets phase did =>
        have free := Hub.entry_none.mpr (sound.unborn own).1.absent
        exact sound.greets phase (Connection.readHandshake?_greeting phase free did)
      | sees seat n phase => simp [phase] at own
      | reads seat n phase => simp [phase] at own
  | hears outcome =>
    cases own : s.connection.phase.seat? with
    | some seat =>
      have gone := (sound.known seat own).1 ▸ sound.gone
      exact sound.proceeds own (Connection.proceeds_notified 0 s.hub own gone outcome)
    | none =>
      rw [Connection.notified_unseated own]
      exact sound.unseated own (sound.unborn own).1
  | happens a spares =>
    cases own : s.connection.phase.seat? with
    | some seat =>
      have known := (sound.known seat own).2.1
      exact sound.goes own ⟨rfl, rfl, rfl⟩ own (known.act spares)
        fun ended => known.absent_act spares (sound.gone ended)
    | none => exact sound.unseated own ((sound.unborn own).1.act spares)

theorem Sound.hub {id : SessionId} {s : Service} (sound : s.Sound id) : s.hub.Sound := by
  cases own : s.connection.phase.seat? with
  | none => exact (sound.unborn own).1.sound
  | some seat => exact (sound.known seat own).2.1.sound

theorem Sound.run {id : SessionId} {s s' : Service} (sound : s.Sound id)
    (run : ReflTransGen (Step id) s s') : s'.Sound id := by
  induction run with
  | refl => exact sound
  | tail _ step ih => exact step.sound ih

theorem Step.maxRequest {id : SessionId} {s s' : Service} (step : Step id s s') (sound : s.Sound id) :
    s'.connection.maxRequest = s.connection.maxRequest := by
  cases step with
  | serves socket now r did =>
    have free (phase : s.connection.phase = .greeting) : s.hub.entry? id = none :=
      Hub.entry_none.mpr (sound.unborn (by rw [phase]; rfl)).1.absent
    exact (did.frames free).maxRequest
  | hears outcome =>
    cases own : s.connection.phase.seat? with
    | some seat =>
      have gone := (sound.known seat own).1 ▸ sound.gone
      exact (Connection.proceeds_notified 0 s.hub own gone outcome).frame.maxRequest
    | none =>
      change (s.connection.notified s.hub outcome).1.maxRequest = _
      rw [Connection.notified_unseated own]
  | _ => rfl

theorem maxRequest_run {id : SessionId} {s s' : Service} (sound : s.Sound id)
    (run : ReflTransGen (Step id) s s') : s'.connection.maxRequest = s.connection.maxRequest := by
  induction run with
  | refl => rfl
  | @tail t u before step ih =>
    calc u.connection.maxRequest
      _ = t.connection.maxRequest := step.maxRequest (sound.run before)
      _ = s.connection.maxRequest := ih

theorem Sound.events {id : SessionId} {s : Service} (sound : s.Sound id) {seat : Seat}
    (own : s.connection.phase.seat? = some seat) : ∃ client,
      (id ∈ s.hub.ids ∧ eventsOf s.hub.journal id = [.registered id client]) ∨
      (id ∉ s.hub.ids ∧ ∃ reason sent,
        eventsOf s.hub.journal id = [.registered id client, .removed id reason sent]) := by
  obtain ⟨_, known, _⟩ := sound.known seat own
  have told := known.told
  rw [known.sound.mem_ids]
  generalize eventsOf s.hub.journal id = events at told
  cases told with
  | present client => exact ⟨client, .inl ⟨rfl, rfl⟩⟩
  | departed client reason sent => exact ⟨client, .inr ⟨by simp, reason, sent, rfl⟩⟩

/-- A connection whose handshake is not valid never has a session, and nothing is registered or
published for it. With a valid one there is exactly one registration, and when the serving is over
exactly one removal; the first parcel in the queue is the acknowledgement. Once the session was taken
out, nothing that the connection does changes the hub, and the next request ends the serving. -/
theorem serve_lifecycle (config : Config) (name host : String) (maxRequest : Nat) (id : SessionId)
    {s : Service} (run : ReflTransGen (Step id) (start config name host maxRequest) s) :
    let c := s.connection
    let events := eventsOf s.hub.journal id
    (c.phase.seat? = none → id ∉ s.hub.ids ∧ events = []) ∧
    (∀ bytes, s.Completes bytes → handshake? maxRequest bytes = none → c.phase.seat? = none) ∧
    (∀ bytes, s.Completes bytes → ∀ client, handshake? maxRequest bytes = some client →
      c.phase.isOver = true → c.phase.seat? ≠ none) ∧
    (∀ socket now r, c.Serves s.hub id socket now r → r.1.phase.seat? = none → r.2 = s.hub) ∧
    (∀ seat, c.phase.seat? = some seat → seat.id = id ∧
      (∃ client, (id ∈ s.hub.ids ∧ events = [.registered id client]) ∨
        (id ∉ s.hub.ids ∧ ∃ reason sent,
          events = [.registered id client, .removed id reason sent])) ∧
      s.taken.head? = some ⟨c.caller, (Connection.acknowledgement id).encode⟩) ∧
    (c.phase.isOver = true → id ∉ s.hub.ids) ∧
    (∀ seat, c.phase.seat? = some seat → id ∉ s.hub.ids →
      (∀ socket now r, c.Serves s.hub id socket now r → r.2 = s.hub) ∧
      (∀ outcome, (c.notified s.hub outcome).2 = s.hub) ∧
      ∀ n now text rest, c.phase = .serving seat n →
        c.incoming.next c.maxRequest = .line text rest → Text.trim text ≠ "" →
        c.readRequest? s.hub seat n now =
          some ({ c with incoming := rest, phase := .over (some seat) none }, s.hub)) := by
  intro c events
  have initial := sound_start id config name host maxRequest
  have sound : s.Sound id := initial.run run
  have longest : c.maxRequest = maxRequest := maxRequest_run initial run
  refine ⟨?_, ?_, ?_, ?_, ?_, sound.gone, ?_⟩
  · exact fun own => ⟨(sound.unborn own).1.absent, (sound.unborn own).1.silent⟩
  · intro bytes completes invalid
    cases own : c.phase.seat? with
    | none => rfl
    | some seat =>
      obtain ⟨client, valid⟩ := sound.valid seat own bytes completes
      rw [longest] at valid
      simp [invalid] at valid
  · intro bytes completes client valid ended own
    have invalid := sound.invalid ended own bytes completes
    rw [longest] at invalid
    simp [invalid] at valid
  · intro socket now r did unseated
    cases own : c.phase.seat? with
    | some seat => simp [(did.proceeds own).own] at unseated
    | none =>
      cases did with
      | greets phase did =>
        have free := Hub.entry_none.mpr (sound.unborn own).1.absent
        cases Connection.readHandshake?_greeting phase free did with
        | welcomes => simp at unseated
        | _ => rfl
      | sees seat n phase => simp [c, phase] at own
      | reads seat n phase => simp [c, phase] at own
  · intro seat own
    obtain ⟨mine, _, first⟩ := sound.known seat own
    exact ⟨mine, sound.events own, first⟩
  · intro seat own absent
    obtain ⟨mine, _, _⟩ := sound.known seat own
    have unknown : seat.id ∉ s.hub.ids := mine ▸ absent
    refine ⟨fun socket now r did => (did.proceeds own).unknown unknown, fun outcome => ?_, ?_⟩
    · exact (Connection.proceeds_notified 0 s.hub own (fun _ => unknown) outcome).unknown unknown
    · intro n now text rest phase read some
      simp only [Connection.readRequest?, read]
      rw [if_neg (by simpa using some), Connection.request_unknown _ unknown]

def serve (s : Service) (id : SessionId) (socket : Socket) (now : Nat) : Service :=
  (s.connection.act? s.hub id socket now).elim s s.become

theorem step_serve {s : Service} {id : SessionId} {socket : Socket} {now : Nat}
    (some : (s.connection.act? s.hub id socket now).isSome = true) :
    Step id s (s.serve id socket now) := by
  obtain ⟨r, did⟩ := Option.isSome_iff_exists.mp some
  rw [serve, did]
  exact .serves socket now r (Connection.serves_act? did)

def arrive (s : Service) (text : String) : Service :=
  { s with
    connection := { s.connection with incoming := s.connection.incoming.add text.toUTF8.data.toList }
    received := s.received ++ text.toUTF8.data.toList }

/-- The session is swept before the answer to its handshake is written, and a heartbeat comes later. -/
def sweptVisit : Service :=
  let id : SessionId := ⟨"s1"⟩
  let s := ((start .default "c" "h" 100).arrive "{}\n").serve id (.start 10 .reading) 0
  let s := s.become (s.connection, s.hub.act (.remove id .idleTimeout))
  let s := s.become (s.connection.notified s.hub (.written 1))
  (s.arrive "heartbeat\n").serve id (.start 10 .reading) 9

theorem serve_lifecycle_sweptVisit :
    ReflTransGen (Step ⟨"s1"⟩) (start .default "c" "h" 100) sweptVisit ∧
      sweptVisit.connection.phase.isOver = true ∧ ⟨"s1"⟩ ∉ sweptVisit.hub.ids := by
  have run : ReflTransGen (Step ⟨"s1"⟩) (start .default "c" "h" 100) sweptVisit := by
    refine .tail (.tail (.tail (.tail (.tail (.single (.arrives _ rfl)) (step_serve ?_))
      (.happens _ ?_)) (.hears _)) (.arrives _ ?_)) (step_serve ?_)
    · decide +kernel
    · simp [Hub.Act.Registers]
    · decide +kernel
    · decide +kernel
  have ended : sweptVisit.connection.phase.isOver = true := by decide +kernel
  obtain ⟨_, _, _, _, _, gone, _⟩ := serve_lifecycle .default "c" "h" 100 ⟨"s1"⟩ run
  exact ⟨run, ended, gone ended⟩

end Service

end Courier
