import Courier.Proofs.Session.Act
import Mathlib.Tactic.Simps.Basic

/-!
# A session, one access at a time

A session is worked on by its writer, by callers that offer parcels and by calls that close it. Each
of them takes several steps, and the others may come in between. Here a step is one access to what
they share: the life of the session, the mark that it is closing, the queue and the number of
written parcels. What nobody comes in between is an act, and the functions of a session say what it
does.
-/

set_option autoImplicit false

namespace Courier

namespace Session

/-- The second half of an offer, of a caller that saw the session live in the first half. -/
def accept (s : Session) (p : Parcel) (patience : Patience) (spent : Bool) (now : Nat) :
    Session × Option Refusal :=
  let (t, refusal) := { s with life := .active }.offer p patience spent now
  ({ t with life := s.life }, refusal)

/-- The first half of a close. -/
@[simps]
def drained (s : Session) : Session := { s with life := s.life.drain }

/-- The second half of a close. -/
@[simps]
def marked (s : Session) : Session := { s with closing := true }

theorem close_eq (s : Session) : s.close = s.drained.marked := rfl

theorem offer_eq_accept (s : Session) (p : Parcel) (patience : Patience) (spent : Bool) (now : Nat) :
    s.offer p patience spent now =
      if s.isLive then s.accept p patience spent now else (s, some (.failed .closed)) := by
  cases live : s.isLive with
  | false => simp [offer, live]
  | true =>
    have active : s.life = .active := by simpa [isLive] using live
    have same : { s with life := .active } = s := by rw [← active]
    rw [accept, same, ← s.life_offer p patience spent now]
    rfl

theorem accept_cases (s : Session) (p : Parcel) (patience : Patience) (spent : Bool) (now : Nat) :
    (∃ r, s.accept p patience spent now = (s, some r)) ∨
    (s.intake = true ∧
      s.accept p patience spent now = ({ s with queue := s.queue ++ [p] }, none)) ∨
    (s.intake = true ∧ s.accept p patience spent now =
      ({ s with waiting := s.waiting ++ [⟨p, patience, now⟩] }, none)) := by
  unfold accept
  rcases offer_cases { s with life := .active } p patience spent now with
    ⟨r, e⟩ | ⟨_, intake, _, e⟩ | ⟨_, intake, _, e⟩
  · exact .inl ⟨r, by rw [e]⟩
  · exact .inr (.inl ⟨intake, by rw [e]⟩)
  · exact .inr (.inr ⟨intake, by rw [e]⟩)

theorem offer_open {s : Session} (live : s.isLive = true) (intake : s.intake = true) (p : Parcel)
    (patience : Patience) (spent : Bool) (now : Nat) :
    (s.offer p patience spent now).2 ≠ some (.failed .closed) := by
  by_cases room : s.hasRoom = true
  · simp [offer, live, intake, room]
  · cases mode : s.backpressure <;> cases spent <;> simp [offer, live, intake, room, mode]

theorem accept_open {s : Session} (intake : s.intake = true) (p : Parcel) (patience : Patience)
    (spent : Bool) (now : Nat) : (s.accept p patience spent now).2 ≠ some (.failed .closed) :=
  offer_open (s := { s with life := .active }) rfl intake p patience spent now

end Session

/-- Where the writer is between two of its steps. -/
inductive Place
  /-- Where `Session.writer` says. -/
  | steady
  /-- It saw that nobody closes the session, and looks into the queue next. -/
  | looking
  | broken (p : Parcel) (f : StreamFault)
  /-- After a failed write the session is not live any more, and the caller is told next. -/
  | reporting (p : Parcel) (f : StreamFault)
  /-- The queue is shut next, after a failed write or without one. -/
  | parting (failed : Bool)
  | aborting
  deriving DecidableEq, Repr

inductive Happening
  | began (p : Parcel)
  | ended (p : Parcel) (fault : Option StreamFault)
  /-- The writer drained the session after a failed write; was it live before? -/
  | gaveUp (first : Bool)
  | releasing
  | released
  /-- A close has returned; did it begin the closing? -/
  | closed (first : Bool)
  deriving DecidableEq, Repr

structure Strands where
  session : Session
  place : Place
  /-- What was called to send, each parcel by a caller of its own. -/
  offers : List Parcel
  /-- Who saw the session live and has not come to the queue yet. -/
  admitted : List Parcel
  /-- The closes that have done their first half, and whether the session was live before. -/
  closers : List Bool
  told : List Notice
  log : List Happening
  deriving DecidableEq, Repr

namespace Strands

def senders (x : Strands) : List Caller := x.offers.map (·.caller)

inductive Step
  | check (p : Parcel)
  | put (p : Parcel) (patience : Patience) (spent : Bool) (now : Nat)
  | quit (caller : Caller)
  | lapse (caller : Caller)
  | drain
  | mark (i : Nat)
  | touch (now : Nat)
  | orphan
  | move (now : Nat)
  | wrote
  | fail (f : StreamFault)
  | released
  deriving DecidableEq, Repr

@[simp]
def start (c : Config) (now : Nat) : Strands := ⟨.start c now, .steady, [], [], [], [], []⟩

@[simps]
def tell (x : Strands) (notices : List Notice) : Strands := { x with told := x.told ++ notices }

@[simps]
def note (x : Strands) (e : Happening) : Strands := { x with log := x.log ++ [e] }

@[simp]
def refuses (x : Strands) (p : Parcel) (f : StreamFault) : Strands :=
  x.tell [⟨p.caller, .refused (.failed f)⟩]

def beginWrite (x : Strands) (p : Parcel) (rest : List Parcel) (now : Nat) : Strands :=
  { x with
    session := { x.session with queue := rest, writer := .writing p now }.refill
    place := .steady }.note (.began p)

@[simp]
def release (x : Strands) (now : Nat) : Strands :=
  { x with session := { x.session with writer := .releasing now }, place := .steady }.note .releasing

def move (x : Strands) (now : Nat) : Strands :=
  match x.place with
  | .steady =>
    match x.session.writer with
    | .idle =>
      if x.session.intake then
        { x with place := if x.session.closing then .parting false else .looking }
      else
        match x.session.queue with
        | p :: rest => x.beginWrite p rest now
        | [] => x.release now
    | _ => x
  | .looking =>
    match x.session.queue with
    | p :: rest => x.beginWrite p rest now
    | [] => { x with place := if x.session.orphaned then .parting false else .steady }
  | .broken p f =>
    { x with session := x.session.drained, place := .reporting p f }.note (.gaveUp x.session.isLive)
  | .reporting p f => { x with place := .parting true }.refuses p f
  | .parting failed =>
    { x with
      session := x.session.shut.1, place := if failed then .aborting else .steady }.tell
        x.session.shut.2
  | .aborting =>
    match x.session.queue with
    | p :: rest => { x with session := { x.session with queue := rest } }.refuses p .closed
    | [] => x.release now

/-- The write in progress failed. Before the queue is shut the session is still to be drained. -/
def broke (x : Strands) (p : Parcel) (f : StreamFault) : Strands :=
  let session := { x.session with writer := .idle }
  if x.session.intake then { x with session, place := .broken p f }.note (.ended p (some f))
  else ({ x with session, place := .aborting }.note (.ended p (some f))).refuses p f

def step (x : Strands) : Step → Strands
  | .check p =>
    if x.senders.contains p.caller || x.session.orphaned then x
    else
      let x := { x with offers := x.offers ++ [p] }
      if x.session.isLive then { x with admitted := x.admitted ++ [p] } else x.refuses p .closed
  | .put p patience spent now =>
    if x.admitted.contains p then
      let (session, refusal) := x.session.accept p patience spent now
      { x with session, admitted := x.admitted.erase p }.tell
        (refusal.toList.map fun r => ⟨p.caller, .refused r⟩)
    else x
  | .quit caller =>
    { x with
      session := x.session.forget caller
      admitted := x.admitted.filter (·.caller != caller) }
  | .lapse caller =>
    if x.session.isWaiting caller then
      { x with session := x.session.forget caller }.tell [⟨caller, .refused .lapsed⟩]
    else x
  | .drain =>
    if x.session.orphaned then x
    else { x with session := x.session.drained, closers := x.closers ++ [x.session.isLive] }
  | .mark i =>
    match x.closers[i]? with
    | some first =>
      { x with session := x.session.marked, closers := x.closers.eraseIdx i }.note (.closed first)
    | none => x
  | .touch now => { x with session := x.session.touch now }
  | .orphan =>
    if x.admitted.isEmpty && x.closers.isEmpty && x.session.waiting.isEmpty then
      { x with session := { x.session with orphaned := true } }
    else x
  | .move now => x.move now
  | .wrote =>
    match x.session.writer with
    | .writing p _ =>
      ({ x with session := x.session.wrote.1 }.tell x.session.wrote.2).note (.ended p none)
    | _ => x
  | .fail f =>
    match x.session.writer with
    | .writing p _ => x.broke p f
    | _ => x
  | .released =>
    match x.session.writer with
    | .releasing _ => { x with session := x.session.released }.note .released
    | _ => x

def run (x : Strands) (steps : List Step) : Strands := steps.foldl step x

theorem run_append (x : Strands) (steps more : List Step) :
    x.run (steps ++ more) = (x.run steps).run more :=
  List.foldl_append

/-- Every step leaves all as it is or has one of these effects. -/
inductive Effect (x : Strands) : Strands → Prop
  | still : Effect x x
  | turnedAway (p : Parcel) (new : p.caller ∉ x.senders) (dead : x.session.isLive = false) :
      Effect x ({ x with offers := x.offers ++ [p] }.refuses p .closed)
  | admitted (p : Parcel) (new : p.caller ∉ x.senders) (live : x.session.isLive = true)
      (held : x.session.orphaned = false) :
      Effect x { x with offers := x.offers ++ [p], admitted := x.admitted ++ [p] }
  | refused (p : Parcel) (member : p ∈ x.admitted) (r : Refusal) :
      Effect x ({ x with admitted := x.admitted.erase p }.tell [⟨p.caller, .refused r⟩])
  | queued (p : Parcel) (member : p ∈ x.admitted) (intake : x.session.intake = true) :
      Effect x { x with
        session := { x.session with queue := x.session.queue ++ [p] }
        admitted := x.admitted.erase p }
  | waits (w : Waiter) (member : w.parcel ∈ x.admitted) (intake : x.session.intake = true) :
      Effect x { x with
        session := { x.session with waiting := x.session.waiting ++ [w] }
        admitted := x.admitted.erase w.parcel }
  | left (caller : Caller) (kept : List Parcel) (sublist : kept.Sublist x.admitted)
      (notices : List Notice) (refusals : ∀ n ∈ notices, ∃ r, n.outcome = .refused r) :
      Effect x ({ x with
        session := x.session.forget caller, admitted := kept }.tell notices)
  | drained (held : x.session.orphaned = false) : Effect x { x with
      session := x.session.drained, closers := x.closers ++ [x.session.isLive] }
  | marked (i : Nat) (first : Bool) (there : x.closers[i]? = some first) :
      Effect x ({ x with
        session := x.session.marked, closers := x.closers.eraseIdx i }.note (.closed first))
  | touched (now : Nat) : Effect x { x with session := x.session.touch now }
  | orphaned (admitted : x.admitted = []) (closers : x.closers = [])
      (waiting : x.session.waiting = []) :
      Effect x { x with session := { x.session with orphaned := true } }
  | looks (place : x.place = .steady) (writer : x.session.writer = .idle)
      (intake : x.session.intake = true) : Effect x { x with place := .looking }
  | looked (place : x.place = .looking) : Effect x { x with place := .steady }
  | parts (intake : (x.place = .steady ∧ x.session.writer = .idle ∧ x.session.intake = true ∧
        x.session.closing = true) ∨
      (x.place = .looking ∧ x.session.orphaned = true ∧ x.session.queue = [])) :
      Effect x { x with place := .parting false }
  | begins (p : Parcel) (rest : List Parcel) (moved ws : List Waiter) (now : Nat)
      (queue : x.session.queue = p :: rest) (waiting : x.session.waiting = moved ++ ws)
      (place : (x.place = .steady ∧ x.session.writer = .idle ∧ x.session.intake = false) ∨
        x.place = .looking) :
      Effect x ({ x with
        session := { x.session with
          queue := rest ++ moved.map Waiter.parcel, waiting := ws, writer := .writing p now }
        place := .steady }.note (.began p))
  | releases (now : Nat) (queue : x.session.queue = [])
      (place : (x.place = .steady ∧ x.session.writer = .idle ∧ x.session.intake = false) ∨
        x.place = .aborting) : Effect x (x.release now)
  | givesUp (p : Parcel) (f : StreamFault) (place : x.place = .broken p f) :
      Effect x ({ x with
        session := x.session.drained, place := .reporting p f }.note (.gaveUp x.session.isLive))
  | reports (p : Parcel) (f : StreamFault) (place : x.place = .reporting p f) :
      Effect x ({ x with place := .parting true }.refuses p f)
  | shuts (failed : Bool) (place : x.place = .parting failed) :
      Effect x ({ x with
        session := { x.session with intake := false, waiting := [] }
        place := if failed then .aborting else .steady }.tell x.session.shut.2)
  | aborts (p : Parcel) (rest : List Parcel) (queue : x.session.queue = p :: rest)
      (place : x.place = .aborting) :
      Effect x ({ x with
        session := { x.session with queue := rest }, place := .aborting }.refuses p .closed)
  | wrote (p : Parcel) (since : Nat) (writer : x.session.writer = .writing p since) :
      Effect x (({ x with session := { x.session with
        sequence := x.session.sequence + 1, writer := .idle } }.tell
          [⟨p.caller, .written (x.session.sequence + 1)⟩]).note (.ended p none))
  | broke (p : Parcel) (since : Nat) (f : StreamFault)
      (writer : x.session.writer = .writing p since) (intake : x.session.intake = true) :
      Effect x ({ x with
        session := { x.session with writer := .idle }
        place := .broken p f }.note (.ended p (some f)))
  | brokeOff (p : Parcel) (since : Nat) (f : StreamFault)
      (writer : x.session.writer = .writing p since) (shut : x.session.intake = false) :
      Effect x (({ x with
        session := { x.session with writer := .idle }
        place := .aborting }.note (.ended p (some f))).refuses p f)
  | released (since : Nat) (writer : x.session.writer = .releasing since) :
      Effect x ({ x with session := x.session.released }.note .released)

theorem effect_beginWrite {x : Strands} {p : Parcel} {rest : List Parcel}
    (queue : x.session.queue = p :: rest)
    (place : (x.place = .steady ∧ x.session.writer = .idle ∧ x.session.intake = false) ∨
      x.place = .looking) (now : Nat) : Effect x (x.beginWrite p rest now) := by
  obtain ⟨moved, ws, waiting, _, e⟩ :=
    Session.refill_eq { x.session with queue := rest, writer := .writing p now }
  rw [beginWrite, e]
  exact .begins p rest moved ws now queue waiting place

theorem effect_move (x : Strands) (now : Nat) : Effect x (x.move now) := by
  unfold move
  cases place : x.place with
  | steady =>
    cases writer : x.session.writer with
    | idle =>
      cases intake : x.session.intake with
      | true =>
        cases closing : x.session.closing with
        | true => exact .parts (.inl ⟨place, writer, intake, closing⟩)
        | false => exact .looks place writer intake
      | false =>
        cases queue : x.session.queue with
        | nil => exact .releases now queue (.inl ⟨place, writer, intake⟩)
        | cons p rest => exact effect_beginWrite queue (.inl ⟨place, writer, intake⟩) now
    | _ => exact .still
  | looking =>
    cases queue : x.session.queue with
    | nil =>
      cases orphaned : x.session.orphaned with
      | true => exact .parts (.inr ⟨place, orphaned, queue⟩)
      | false => exact .looked place
    | cons p rest => exact effect_beginWrite queue (.inr place) now
  | broken p f => exact .givesUp p f place
  | reporting p f => exact .reports p f place
  | parting failed => exact .shuts failed place
  | aborting =>
    cases queue : x.session.queue with
    | nil => exact .releases now queue (.inr place)
    | cons p rest => exact .aborts p rest queue place

theorem step_effect (x : Strands) (e : Step) : Effect x (x.step e) := by
  cases e with
  | check p =>
    simp only [step]
    by_cases out : (x.senders.contains p.caller || x.session.orphaned) = true
    · rw [if_pos out]
      exact .still
    · rw [if_neg out]
      simp only [Bool.or_eq_true, List.contains_iff_mem, not_or, Bool.not_eq_true] at out
      cases live : x.session.isLive with
      | true => exact .admitted p out.1 live out.2
      | false => exact .turnedAway p out.1 live
  | put p patience spent now =>
    simp only [step]
    by_cases member : x.admitted.contains p = true
    · rw [if_pos member]
      rw [List.contains_iff_mem] at member
      rcases x.session.accept_cases p patience spent now with ⟨r, e⟩ | ⟨intake, e⟩ | ⟨intake, e⟩ <;>
        simp only [e]
      · exact .refused p member r
      · simpa [tell] using Effect.queued p member intake
      · simpa [tell] using Effect.waits ⟨p, patience, now⟩ member intake
    · rw [if_neg member]
      exact .still
  | quit caller =>
    simpa [step, tell] using Effect.left caller _ List.filter_sublist [] (List.forall_mem_nil _)
  | lapse caller =>
    simp only [step]
    split
    · exact .left caller x.admitted (.refl _) _ (by simp)
    · exact .still
  | drain =>
    simp only [step]
    cases held : x.session.orphaned with
    | true => exact .still
    | false => exact .drained held
  | mark i =>
    simp only [step]
    cases there : x.closers[i]? with
    | none => exact .still
    | some first => exact .marked i first there
  | touch now => exact .touched now
  | orphan =>
    simp only [step]
    split
    · rename_i free
      simp only [Bool.and_eq_true, List.isEmpty_iff] at free
      exact .orphaned free.1.1 free.1.2 free.2
    · exact .still
  | move now => exact x.effect_move now
  | wrote =>
    simp only [step]
    cases writer : x.session.writer with
    | writing p since => simpa [Session.wrote, writer] using Effect.wrote p since writer
    | _ => exact .still
  | fail f =>
    simp only [step]
    cases writer : x.session.writer with
    | writing p since =>
      simp only [broke]
      by_cases intake : x.session.intake = true
      · rw [if_pos intake]
        exact .broke p since f writer intake
      · rw [if_neg intake]
        exact .brokeOff p since f writer (by simpa using intake)
    | _ => exact .still
  | released =>
    simp only [step]
    cases writer : x.session.writer with
    | releasing since => exact .released since writer
    | _ => exact .still

end Strands

end Courier
