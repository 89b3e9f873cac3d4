import Courier.Proofs.Connection.Lifecycle
import Courier.Proofs.Connection.Delivery

/-!
# Heartbeats in time

A client sends whole heartbeat lines so often that none of them comes later than the idle limit after
the one before. A heartbeat counts when it is read, and it is read when the answer to the request
before it is written. So a sweep can find the session idle, but only while a heartbeat line lies
unread behind an answer that the client does not take.
-/

set_option autoImplicit false

namespace Courier

open Relation (ReflTransGen)

def isHeartbeat (longest : Nat) (line : List UInt8) : Bool :=
  match readLine longest line with
  | .ok text => Text.trim text == Connection.heartbeat
  | .error _ => false

/-- The number of whole heartbeat lines. -/
def heartbeats (longest : Nat) (bytes : List UInt8) : Nat :=
  (wholeLines bytes).countP (isHeartbeat longest)

theorem heartbeats_append (longest : Nat) (bytes more : List UInt8) :
    heartbeats longest bytes ≤ heartbeats longest (bytes ++ more) :=
  (wholeLines_append bytes more).sublist.countP_le

theorem heartbeats_next {i rest : Incoming} {longest : Nat} {text : String}
    (read : i.next longest = .line text rest) (other : Text.trim text ≠ Connection.heartbeat) :
    heartbeats longest i.bytes ≤ heartbeats longest rest.bytes := by
  rcases Incoming.next_whole read with ⟨line, whole, said⟩ | none
  · have no : isHeartbeat longest line = false := by simpa [isHeartbeat, said] using other
    simp [heartbeats, whole, no]
  · simp [heartbeats, none]

theorem heartbeats_pending {i : Incoming} {longest : Nat} (idle : i.next longest = .pending) :
    heartbeats longest i.bytes = 0 := by
  obtain ⟨_, single, _⟩ := Incoming.next_pending idle
  simp [heartbeats, wholeLines_none single]

namespace Hub

theorem entry_some {h : Hub} {id : SessionId} : id ∈ h.ids ↔ ∃ e, h.entry? id = some e := by
  rw [← Option.ne_none_iff_exists', ne_eq, entry_none, not_not]

theorem mem_ids_of_entries {h h' : Hub} {id : SessionId}
    (entries : ∀ e, h'.entry? id = some e → h.entry? id = some e) (present : id ∈ h'.ids) :
    id ∈ h.ids := entry_some.mpr ((entry_some.mp present).imp entries)

theorem entry?_act {h : Hub} (sound : h.Sound) {id : SessionId} {a : Act}
    (spares : ¬a.Registers h id) {e : Entry} (there : entry? (h.act a) id = some e) :
    h.entry? id = some e := by
  obtain ⟨member, own⟩ := entry_mem there
  obtain ⟨l, lane, same⟩ := (act_sound sound a).1.lane member
  rcases h.entries_act a member with old | ⟨l', rfl, key⟩ | rfl
  · exact own ▸ sound.entry old
  · -- the lane is the one that is entered
    rcases h.act_old _ lane with ⟨k, before, _⟩ | ⟨k, opens, goes⟩
    · simp [key, lane?] at before
    · obtain rfl : l' = k := by simpa using opens
      have named : l'.id = id :=
        calc l'.id = l.id := goes.id.symm
          _ = e.id := same
          _ = id := own
      exact absurd (.inl ⟨l', rfl, named⟩) spares
  · rcases h.act_old _ lane with ⟨k, before, goes⟩ | ⟨k, opens, _⟩
    · refine absurd (.inr ⟨e.key, rfl, ?_⟩) spares
      rw [idOf_of_lane before, ← goes.id, same, own]
    · simp at opens

theorem entry?_run {h : Hub} (sound : h.Sound) {id : SessionId} {now : Nat} {acts : List Act}
    (tame : ∀ a ∈ acts, a.Tame now) {e : Entry} (there : entry? (h.run acts) id = some e) :
    h.entry? id = some e := by
  induction acts generalizing h with
  | nil => exact there
  | cons a acts ih =>
    have later := ih (act_sound sound a).1 (fun b member => tame b (List.mem_cons_of_mem _ member)) there
    exact entry?_act sound ((tame a List.mem_cons_self).spares h id) later

theorem active_act {h : Hub} {now : Nat} {a : Act} (timely : a.At now) {key : Key} {l : Lane}
    (lane : h.lane? key = some l) : ∃ l', (h.act a).lane? key = some l' ∧
      (l'.session.lastActivity = l.session.lastActivity ∨ l'.session.lastActivity = now) := by
  obtain ⟨l', lane', _⟩ := h.act_lane a lane
  refine ⟨l', lane', (lastActivity_act lane lane').imp_right ?_⟩
  rintro ⟨t, rfl, touched⟩
  exact touched.trans (timely.2 key t rfl)

theorem active_run {h : Hub} {now : Nat} {acts : List Act} (tame : ∀ a ∈ acts, a.Tame now) {key : Key}
    {l : Lane} (lane : h.lane? key = some l) : ∃ l', (h.run acts).lane? key = some l' ∧
      (l'.session.lastActivity = l.session.lastActivity ∨ l'.session.lastActivity = now) := by
  induction acts generalizing h l with
  | nil => exact ⟨l, lane, .inl rfl⟩
  | cons a acts ih =>
    obtain ⟨m, between, first⟩ := active_act (tame a List.mem_cons_self).timely lane
    obtain ⟨l', lane', second⟩ := ih (fun b member => tame b (List.mem_cons_of_mem _ member)) between
    exact ⟨l', lane', second.elim (fun same => same ▸ first) .inr⟩

end Hub

namespace Connection

section

variable {c : Connection} {seat : Seat} {now : Nat} {h : Hub} {r : Connection × Hub}

theorem Proceeds.entries (proceeds : c.Proceeds seat now h r) (sound : h.Sound) (id : SessionId)
    (e : Entry) (there : Hub.entry? r.2 id = some e) : h.entry? id = some e := by
  obtain ⟨acts, run, tame⟩ := proceeds.run
  exact Hub.entry?_run sound tame (run ▸ there)

theorem Proceeds.active (proceeds : c.Proceeds seat now h r) {key : Key} (l : Lane)
    (lane : h.lane? key = some l) : ∃ l', r.2.lane? key = some l' ∧
      (l'.session.lastActivity = l.session.lastActivity ∨ l'.session.lastActivity = now) := by
  obtain ⟨acts, run, tame⟩ := proceeds.run
  exact run ▸ Hub.active_run tame lane

end

theorem active_request (c : Connection) {h : Hub} {seat : Seat}
    (entry : h.entry? seat.id = some ⟨seat.id, seat.key⟩) {l : Lane}
    (lane : h.lane? seat.key = some l) (n now : Nat) : ∃ l',
      (c.request h seat n heartbeat now).2.lane? seat.key = some l' ∧
      l'.session.lastActivity = now := by
  simp only [request, beq_self_eq_true, if_true, Hub.touch, entry]
  have touched := Hub.lane?_updateSession lane (·.touch now)
  obtain ⟨l', lane', active⟩ := (proceeds_send (c := { c with phase := .answering seat n }) now
    (h.updateSession seat.key (·.touch now)) (.inr ⟨n, rfl⟩)
    ⟨answerHeader seat.id n, .success⟩).active _ touched
  exact ⟨l', lane', active.elim id id⟩

end Connection

/-- The connection waits for what becomes of its last message. -/
def Phase.waits : Phase → Bool
  | .acknowledging _ => true
  | .answering _ _ => true
  | _ => false

/-- A service at a time. The last beat is the registration of the session, or the last arrival of a
whole heartbeat line. -/
structure Vigil where
  service : Service
  now : Nat
  beat : Nat

namespace Vigil

@[simp]
def start (config : Config) (name host : String) (maxRequest : Nat) : Vigil :=
  ⟨.start config name host maxRequest, 0, 0⟩

def arrive (v : Vigil) (bytes : List UInt8) : Vigil :=
  let c := v.service.connection
  { v with
    service := { v.service with
      connection := { c with incoming := c.incoming.add bytes }
      received := v.service.received ++ bytes }
    beat := if heartbeats c.maxRequest c.incoming.bytes <
        heartbeats c.maxRequest (c.incoming.bytes ++ bytes) then v.now else v.beat }

/-- The connection has done something; without a session the first beat is still to come. -/
def serve (v : Vigil) (r : Connection × Hub) : Vigil :=
  { v with
    service := v.service.become r
    beat := if v.service.connection.phase.seat? = none then v.now else v.beat }

def happen (v : Vigil) (a : Hub.Act) : Vigil :=
  { v with service := v.service.become (v.service.connection, v.service.hub.act a) }

def Idle (v : Vigil) (id : SessionId) : Prop :=
  ∀ socket r, ¬v.service.connection.Serves v.service.hub id socket v.now r

/-- Time passes while the connection waits, and as long as the session is there no further than to
where the next beat is due. -/
inductive Step (id : SessionId) (maxIdle : Nat) (v : Vigil) : Vigil → Prop
  | arrives (bytes : List UInt8) (more : v.service.connection.incoming.ended = false) :
      Step id maxIdle v (v.arrive bytes)
  | ends : Step id maxIdle v { v with service := { v.service with
      connection := { v.service.connection with
        incoming := { v.service.connection.incoming with ended := true } } } }
  | serves (socket : Socket) (r : Connection × Hub)
      (did : v.service.connection.Serves v.service.hub id socket v.now r) :
      Step id maxIdle v (v.serve r)
  | hears (outcome : Outcome) : Step id maxIdle v
      { v with service := v.service.become (v.service.connection.notified v.service.hub outcome) }
  | happens (a : Hub.Act) (spares : ¬a.Registers v.service.hub id) (timely : a.At v.now) :
      Step id maxIdle v (v.happen a)
  | passes (t : Nat) (later : v.now ≤ t) (idle : v.Idle id)
      (punctual : id ∈ v.service.hub.ids → t ≤ v.beat + maxIdle) : Step id maxIdle v { v with now := t }

/-- A whole heartbeat line has come and is not read yet. -/
def Unheard (v : Vigil) : Prop :=
  0 < heartbeats v.service.connection.maxRequest v.service.connection.incoming.bytes

/-- The session of a connection that is not over: it is as active as the last beat, if no heartbeat is
unread. -/
structure Attended (v : Vigil) (id : SessionId) (seat : Seat) : Prop where
  entry : v.service.hub.entry? id = some ⟨id, seat.key⟩
  lane : ∃ l, v.service.hub.lane? seat.key = some l ∧ (v.Unheard ∨ v.beat ≤ l.session.lastActivity)

structure Sound (id : SessionId) (maxIdle : Nat) (v : Vigil) : Prop where
  service : v.service.Sound id
  past : v.beat ≤ v.now
  punctual : id ∈ v.service.hub.ids → v.now ≤ v.beat + maxIdle
  attended : ∀ seat, v.service.connection.phase.seat? = some seat → id ∈ v.service.hub.ids →
    v.Attended id seat

theorem sound_start (id : SessionId) (maxIdle : Nat) (config : Config) (name host : String)
    (maxRequest : Nat) : (start config name host maxRequest).Sound id maxIdle where
  service := Service.sound_start id config name host maxRequest
  past := le_rfl
  punctual _ := Nat.zero_le _
  attended seat own := by
    simp at own

variable {id : SessionId} {maxIdle : Nat} {v w : Vigil} {seat : Seat}

theorem Sound.before (sound : v.Sound id maxIdle)
    (own : v.service.connection.phase.seat? = some seat) {h : Hub}
    (entries : ∀ e, h.entry? id = some e → v.service.hub.entry? id = some e) (present : id ∈ h.ids) :
    v.Attended id seat ∧ h.entry? id = some ⟨id, seat.key⟩ := by
  obtain ⟨e, there⟩ := Hub.entry_some.mp present
  have attended := sound.attended seat own (Hub.entry_some.mpr ⟨e, entries e there⟩)
  have same := Option.some.inj ((entries e there).symm.trans attended.entry)
  exact ⟨attended, same ▸ there⟩

theorem Sound.goes (sound : v.Sound id maxIdle) (own : v.service.connection.phase.seat? = some seat)
    (entries : ∀ e, w.service.hub.entry? id = some e → v.service.hub.entry? id = some e)
    (present : id ∈ w.service.hub.ids)
    (active : ∀ l, v.service.hub.lane? seat.key = some l → ∃ l',
      w.service.hub.lane? seat.key = some l' ∧ (l'.session.lastActivity = l.session.lastActivity ∨
        l'.session.lastActivity = v.now))
    (beat : w.beat = v.beat) (unheard : v.Unheard → w.Unheard) : w.Attended id seat := by
  obtain ⟨⟨_, l, lane, heard⟩, entry⟩ := sound.before own entries present
  obtain ⟨l', lane', later⟩ := active l lane
  refine ⟨entry, l', lane', heard.imp unheard fun since => ?_⟩
  have past := sound.past
  rcases later with kept | touched <;> omega

theorem Sound.attended_serve (sound : v.Sound id maxIdle)
    (own : v.service.connection.phase.seat? = some seat) {socket : Socket} {r : Connection × Hub}
    (did : v.service.connection.Serves v.service.hub id socket v.now r) (present : id ∈ r.2.ids) :
    (v.serve r).Attended id seat := by
  have proceeds := did.proceeds own
  obtain ⟨mine, known, _⟩ := sound.service.known seat own
  have goesOn : r.1.phase.isOver = false := by
    cases ended : r.1.phase.isOver with
    | false => rfl
    | true => exact absurd present (mine ▸ proceeds.gone ended)
  have entries := proceeds.entries known.sound id
  have beat : (v.serve r).beat = v.beat := by simp [serve, own]
  cases did with
  | greets phase => simp [phase] at own
  | sees seat' n phase did =>
    unfold Connection.seeClosing? at did
    split at did
    · obtain rfl := Option.some.inj did
      simp [Connection.finish] at goesOn
    · simp at did
  | reads seat' n phase did =>
    obtain rfl : seat' = seat := by simpa [phase] using own
    unfold Connection.readRequest? at did
    cases read : v.service.connection.incoming.next v.service.connection.maxRequest with
    | pending => simp [read] at did
    | finished =>
      simp only [read, Option.some.injEq] at did
      simp [← did, Connection.finish] at goesOn
    | error e =>
      simp only [read, Option.some.injEq] at did
      simp [← did, Connection.finish] at goesOn
    | line text rest =>
      have limit := proceeds.frame.maxRequest
      simp only [read] at did
      by_cases beats : Text.trim text = Connection.heartbeat
      · -- the heartbeat is heard, so the session is active now
        obtain ⟨⟨before, l, lane, _⟩, entry⟩ := sound.before own entries present
        rw [← mine] at before
        obtain ⟨l', lane', active⟩ := Connection.active_request
          { v.service.connection with incoming := rest } before lane (n + 1) v.now
        rw [beats, if_neg (by decide)] at did
        rw [Option.some.inj did] at lane'
        refine ⟨entry, l', lane', .inr ?_⟩
        rw [active, beat]
        exact sound.past
      · have left := heartbeats_next read beats
        have rests : r.1.incoming = rest := by
          split at did
          · exact (Option.some.inj did) ▸ rfl
          · exact (Option.some.inj did) ▸ Connection.incoming_request _ _ _ _ _ _
        refine sound.goes own entries present proceeds.active beat fun unheard => ?_
        change 0 < heartbeats r.1.maxRequest r.1.incoming.bytes
        rw [limit, rests]
        exact Nat.lt_of_lt_of_le unheard left

theorem Sound.arrive (sound : v.Sound id maxIdle) (bytes : List UInt8)
    (more : v.service.connection.incoming.ended = false) : (v.arrive bytes).Sound id maxIdle := by
  have past := sound.past
  have grown := heartbeats_append v.service.connection.maxRequest
    v.service.connection.incoming.bytes bytes
  refine ⟨(Service.Step.arrives bytes more).sound sound.service, ?_, fun present => ?_,
    fun seat own present => ?_⟩
  · simp only [Vigil.arrive]
    split <;> omega
  · have punctual := sound.punctual present
    simp only [Vigil.arrive]
    split <;> omega
  · obtain ⟨entry, l, lane, heard⟩ := sound.attended seat own present
    refine ⟨entry, l, lane, ?_⟩
    by_cases beats : heartbeats v.service.connection.maxRequest v.service.connection.incoming.bytes <
        heartbeats v.service.connection.maxRequest (v.service.connection.incoming.bytes ++ bytes)
    · exact .inl (Nat.lt_of_le_of_lt (Nat.zero_le _) beats)
    · have same : (v.arrive bytes).beat = v.beat := by simp only [Vigil.arrive, if_neg beats]
      exact heard.imp (fun unheard => Nat.lt_of_lt_of_le unheard grown) fun since => same ▸ since

theorem Sound.greet (sound : v.Sound id maxIdle) (own : v.service.connection.phase.seat? = none)
    {socket : Socket} {r : Connection × Hub}
    (did : v.service.connection.Serves v.service.hub id socket v.now r) :
    (v.serve r).Sound id maxIdle := by
  have service := (Service.Step.serves socket v.now r did).sound sound.service
  have beat : (v.serve r).beat = v.now := by simp [serve, own]
  have free := Hub.entry_none.mpr (sound.service.unborn own).1.absent
  refine ⟨service, beat.le, fun _ => beat ▸ Nat.le_add_right _ _, fun seat' own' _ => ?_⟩
  cases did with
  | sees seat n phase => simp [phase] at own
  | reads seat n phase => simp [phase] at own
  | greets phase did =>
    cases Connection.readHandshake?_greeting phase free did with
    | welcomes text rest client read valid =>
      obtain rfl : (⟨id, v.service.hub.lanes.length⟩ : Seat) = seat' := Option.some.inj own'
      exact ⟨Hub.entry_seated free, _, Hub.lane?_seated _ _, .inr beat.le⟩
    | refuses | unread | missing => simp [serve, Service.become] at own'

theorem Sound.serve (sound : v.Sound id maxIdle) {socket : Socket} {r : Connection × Hub}
    (did : v.service.connection.Serves v.service.hub id socket v.now r) :
    (v.serve r).Sound id maxIdle := by
  cases own : v.service.connection.phase.seat? with
  | none => exact sound.greet own did
  | some seat =>
    have proceeds := did.proceeds own
    have entries := proceeds.entries sound.service.hub id
    have beat : (v.serve r).beat = v.beat := by simp [Vigil.serve, own]
    refine ⟨(Service.Step.serves socket v.now r did).sound sound.service, beat ▸ sound.past,
      fun present => ?_, fun seat' own' present => ?_⟩
    · rw [beat]
      exact sound.punctual (Hub.mem_ids_of_entries entries present)
    · obtain rfl : seat = seat' := Option.some.inj (proceeds.own.symm.trans own')
      exact sound.attended_serve own did present

theorem Sound.hear (sound : v.Sound id maxIdle) (outcome : Outcome) : Sound id maxIdle
    { v with service := v.service.become (v.service.connection.notified v.service.hub outcome) } := by
  have service := (Service.Step.hears outcome).sound sound.service
  cases own : v.service.connection.phase.seat? with
  | none =>
    rw [Connection.notified_unseated own] at service ⊢
    refine ⟨service, sound.past, sound.punctual, fun seat' own' _ => ?_⟩
    exact absurd (own.symm.trans own') (by simp)
  | some seat =>
    obtain ⟨mine, _, _⟩ := sound.service.known seat own
    have proceeds := Connection.proceeds_notified v.now v.service.hub own
      (mine ▸ sound.service.gone) outcome
    have entries := proceeds.entries sound.service.hub id
    refine ⟨service, sound.past, fun present => ?_, fun seat' own' present => ?_⟩
    · exact sound.punctual (Hub.mem_ids_of_entries entries present)
    · obtain rfl : seat = seat' := Option.some.inj (proceeds.own.symm.trans own')
      refine sound.goes own entries present proceeds.active rfl fun unheard => ?_
      change 0 < heartbeats (v.service.connection.notified _ outcome).1.maxRequest
        (v.service.connection.notified _ outcome).1.incoming.bytes
      rw [proceeds.frame.maxRequest, Connection.incoming_notified]
      exact unheard

theorem Sound.happen (sound : v.Sound id maxIdle) {a : Hub.Act}
    (spares : ¬a.Registers v.service.hub id) (timely : a.At v.now) : (v.happen a).Sound id maxIdle := by
  have entries (e : Entry) (there : Hub.entry? (v.service.hub.act a) id = some e) :
      v.service.hub.entry? id = some e := Hub.entry?_act sound.service.hub spares there
  refine ⟨(Service.Step.happens a spares).sound sound.service, sound.past, fun present => ?_,
    fun seat own present => ?_⟩
  · exact sound.punctual (Hub.mem_ids_of_entries entries present)
  · exact sound.goes own entries present (fun l lane => Hub.active_act timely lane) rfl
      fun unheard => unheard

theorem Step.sound (step : Step id maxIdle v w) (sound : v.Sound id maxIdle) :
    w.Sound id maxIdle := by
  cases step with
  | arrives bytes more => exact sound.arrive bytes more
  | ends =>
    refine ⟨Service.Step.ends.sound sound.service, sound.past, sound.punctual,
      fun seat own present => ?_⟩
    obtain ⟨entry, lane⟩ := sound.attended seat own present
    exact ⟨entry, lane⟩
  | serves socket r did => exact sound.serve did
  | hears outcome => exact sound.hear outcome
  | happens a spares timely => exact sound.happen spares timely
  | passes t later idle punctual =>
    refine ⟨sound.service, sound.past.trans later, punctual, fun seat own present => ?_⟩
    obtain ⟨entry, lane⟩ := sound.attended seat own present
    exact ⟨entry, lane⟩

theorem Sound.run (sound : v.Sound id maxIdle) (run : ReflTransGen (Step id maxIdle) v w) :
    w.Sound id maxIdle := by
  induction run with
  | refl => exact sound
  | tail _ step ih => exact step.sound ih

/-- A connection with nothing to do leaves a heartbeat unread only while it waits. -/
theorem Sound.waits (sound : v.Sound id maxIdle) (present : id ∈ v.service.hub.ids) (idle : v.Idle id)
    (unheard : v.Unheard) : v.service.connection.phase.waits = true := by
  cases phase : v.service.connection.phase with
  | greeting => exact absurd present (sound.service.unborn (by rw [phase]; rfl)).1.absent
  | acknowledging | answering => rfl
  | serving seat n =>
    cases did : v.service.connection.readRequest? v.service.hub seat n v.now with
    | some r => exact absurd (.reads seat n phase did) (idle (.start 0 .reading) r)
    | none =>
      have none := heartbeats_pending (Connection.readRequest?_none did)
      rw [Unheard, none] at unheard
      exact absurd unheard (Nat.lt_irrefl 0)
  | _ => exact absurd present (sound.service.gone (by rw [phase]; rfl))

/-- A client whose heartbeats are punctual is expired as idle only while a whole heartbeat line has
come and is not read; and when the connection has nothing left to do, it then waits for the outcome of
an earlier answer. -/
theorem expired_only_unheard (config : Config) (name host : String) (maxRequest : Nat)
    (run : ReflTransGen (Step id maxIdle) (start config name host maxRequest) v) {limit : Nat}
    (lenient : maxIdle ≤ limit) :
    ∃ more, (v.service.hub.sweepIdle limit v.now).1.journal = v.service.hub.journal ++ more ∧
      ∀ sent, .removed id .idleTimeout sent ∈ more → v.Unheard ∧
        (v.Idle id → v.service.connection.phase.waits = true) := by
  have sound := (sound_start id maxIdle config name host maxRequest).run run
  obtain ⟨_, more, journal, removals⟩ :=
    v.service.hub.thins_removeWhere (v.service.hub.sweepReason? limit v.now)
  refine ⟨more, journal, fun sent member => ?_⟩
  obtain ⟨e, entry, reason, _, removed, because⟩ := removals _ member
  obtain ⟨rfl, rfl, rfl⟩ := Event.removed.inj removed
  have there := sound.service.hub.entry entry
  have present : e.id ∈ v.service.hub.ids := Hub.entry_some.mpr ⟨e, there⟩
  cases own : v.service.connection.phase.seat? with
  | none => exact absurd present (sound.service.unborn own).1.absent
  | some seat =>
    obtain ⟨entry', l, lane, heard⟩ := sound.attended seat own present
    have key : e.key = seat.key := congrArg Entry.key (Option.some.inj (there.symm.trans entry'))
    have unheard : v.Unheard := by
      refine heard.resolve_right fun since => ?_
      have punctual := sound.punctual present
      have short : l.session.idleFor v.now ≤ limit := by
        unfold Session.idleFor
        omega
      rw [Hub.sweepReason?, key, lane] at because
      cases live : l.isLive <;> simp [live, Nat.not_lt.mpr short] at because
    exact ⟨unheard, fun idle => sound.waits present idle unheard⟩

/-- The client takes nothing, so that its acknowledgement is never written. It sends a heartbeat after
ten units of time, and ten more pass. -/
def stalled : Vigil :=
  let id : SessionId := ⟨"s1"⟩
  let socket : Socket := .start 0 .paused
  let v := (start .default "c" "h" 100).arrive "\x7b\x7d\n".toUTF8.data.toList
  let v := (v.service.connection.act? v.service.hub id socket v.now).elim v v.serve
  let v := v.happen (.session 0 (.turn 0))
  let v := v.happen (.stream 0 (.socket (socket.begin (Connection.acknowledgement id).encode)))
  let v := { v with now := 10 }
  let v := v.arrive "heartbeat\n".toUTF8.data.toList
  { v with now := 20 }

theorem idle_of_waits (waits : v.service.connection.phase.waits = true) : v.Idle id := by
  intro socket r did
  cases did with
  | greets phase | sees _ _ phase | reads _ _ phase => simp [phase, Phase.waits] at waits

theorem step_serve {socket : Socket}
    (some : (v.service.connection.act? v.service.hub id socket v.now).isSome = true) :
    Step id maxIdle v ((v.service.connection.act? v.service.hub id socket v.now).elim v v.serve) := by
  obtain ⟨r, did⟩ := Option.isSome_iff_exists.mp some
  rw [did]
  exact .serves socket r (Connection.serves_act? did)

theorem stalled_run : ReflTransGen (Step ⟨"s1"⟩ 10) (start .default "c" "h" 100) stalled := by
  refine .tail (.tail (.tail (.tail (.tail (.tail (.single (.arrives _ rfl)) (step_serve ?_))
    (.happens _ ?_ ?_)) (.happens _ ?_ ?_)) (.passes 10 ?_ (idle_of_waits ?_) ?_)) (.arrives _ ?_))
    (.passes 20 ?_ (idle_of_waits ?_) ?_)
  · decide +kernel
  · simp [Hub.Act.Registers]
  · simp [Hub.Act.At]
  · simp [Hub.Act.Registers]
  · simp [Hub.Act.At]
  · decide +kernel
  · decide +kernel
  · decide +kernel
  · decide +kernel
  · decide +kernel
  · decide +kernel
  · decide +kernel

theorem act?_stalled {l : Lane} {p : Parcel} {since : Nat} {m : Message} (fits : m.Fits)
    (writer : l.session.writer = .writing p since)
    (stream : l.stream = .socket ((Socket.start 0 .paused).begin m.encode)) (now : Nat) :
    l.act? now = none := by
  have begun : (Socket.start 0 .paused).begin m.encode =
      ⟨0, none, .paused, .sending ((Shipment.ofPayload m.encode.toUTF8).advance 0),
        ByteArray.empty ++ (Shipment.ofPayload m.encode.toUTF8).portion 0, 0, false⟩ := by
    simp only [Socket.begin, fits.accepted, Socket.absorb, Socket.room, Socket.start, Nat.zero_sub,
      Nat.min_zero]
  have unsent : ((Shipment.ofPayload m.encode.toUTF8).advance 0).isDone = false := by
    have size := length_encoding m.encode.toUTF8
    rw [encoding, length_toList] at size
    rw [Shipment.isDone, Shipment.left_advance]
    simp only [Shipment.ofPayload, Shipment.left, size, beq_eq_false_iff_ne]
    omega
  have pass : l.stream.pass? now = none := by rw [stream, Stream.pass?]
  have ending : l.stream.ending? = none := by
    rw [stream, begun]
    simp only [Stream.ending?, Socket.ending?, unsent, Bool.false_eq_true, if_false, Option.map_none]
  simp only [Lane.act?, writer, pass, ending]

theorem stalled_expired :
    ReflTransGen (Step ⟨"s1"⟩ 10) (start .default "c" "h" 100) stalled ∧
      (∃ l, stalled.service.hub.lane? 0 = some l ∧ l.act? stalled.now = none) ∧
      .removed ⟨"s1"⟩ .idleTimeout 0 ∈
        (stalled.service.hub.sweepIdle 10 stalled.now).1.journal := by
  refine ⟨stalled_run, ?_, by decide +kernel⟩
  have fits : (Connection.acknowledgement ⟨"s1"⟩).Fits := Message.fits_correlated (by decide +kernel)
  exact ⟨_, rfl, act?_stalled fits rfl rfl _⟩

theorem expired_only_unheard_stalled :
    stalled.Unheard ∧ stalled.service.connection.phase.waits = true := by
  obtain ⟨more, journal, unheard⟩ :=
    expired_only_unheard .default "c" "h" 100 stalled_run (le_refl 10)
  have before : stalled.service.hub.journal = [.registered ⟨"s1"⟩ { Client.default with host := "h" }] := by
    decide +kernel
  have after : (stalled.service.hub.sweepIdle 10 stalled.now).1.journal =
      [.registered ⟨"s1"⟩ { Client.default with host := "h" }] ++ [.removed ⟨"s1"⟩ .idleTimeout 0] := by
    decide +kernel
  rw [before, after] at journal
  obtain ⟨waiting, waits⟩ := unheard 0 (by simp [← List.append_cancel_left journal])
  have idle : stalled.Idle ⟨"s1"⟩ := idle_of_waits (by decide +kernel)
  exact ⟨waiting, waits idle⟩

end Vigil

end Courier
