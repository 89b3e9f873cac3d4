import Courier.Proofs.Session.Lifecycle

set_option autoImplicit false

namespace Courier

def Happening.isEnd : Happening → Bool
  | .ended _ _ => true
  | _ => false

namespace Strands

def written (x : Strands) : List Parcel :=
  x.log.filterMap fun e =>
    match e with
    | .ended p none => some p
    | _ => none

def HasFailed (x : Strands) : Prop := ∃ e ∈ x.log, e.isFailure = true

/-- The writer is thrown away, wherever it is. -/
def crashed (x : Strands) : Strands :=
  { x with session := (x.session.act .crash).1, place := .steady }.tell (x.session.act .crash).2

def Stopped (x : Strands) : Prop :=
  x.place.hasFailed = true ∨ x.session.writer.isLeaving = true ∨ x.session.writer = .dead

structure Aside (x y : Strands) : Prop where
  written : y.written = x.written
  sequence : y.session.sequence = x.session.sequence
  failed : y.HasFailed → x.HasFailed ∨ y.Stopped
  told : ∃ notices, y.told = x.told ++ notices ∧ ∀ n ∈ notices, ∃ r, n.outcome = .refused r

/-- What a step does to the parcels that the queue took and that are not written. -/
inductive Passage (x y : Strands) : Prop
  | goes (more : List Parcel) (line : y.session.line = x.session.line ++ more)
      (flight : y.session.inFlight = x.session.inFlight) (stopped : x.Stopped → y.Stopped)
      (aside : Aside x y)
  | begins (p : Parcel) (more : List Parcel) (line : y.session.line = x.session.line ++ more)
      (idle : x.session.inFlight = []) (flight : y.session.inFlight = [p]) (going : ¬ x.Stopped)
      (aside : Aside x y)
  | wrote (p : Parcel) (line : x.session.line = p :: y.session.line)
      (flight : x.session.inFlight = [p]) (free : y.session.inFlight = [])
      (written : y.written = x.written ++ [p])
      (sequence : y.session.sequence = x.session.sequence + 1)
      (failed : y.HasFailed → x.HasFailed)
      (told : y.told = x.told ++ [⟨p.caller, .written (x.session.sequence + 1)⟩])
  | stops (lost : List Parcel) (line : x.session.line = lost ++ y.session.line)
      (free : y.session.inFlight = []) (stopped : y.Stopped) (aside : Aside x y)

theorem aside_of_log {x y : Strands} (log : y.log = x.log)
    (sequence : y.session.sequence = x.session.sequence) (notices : List Notice)
    (told : y.told = x.told ++ notices) (refused : ∀ n ∈ notices, ∃ r, n.outcome = .refused r) :
    Aside x y where
  written := by rw [written, log, written]
  sequence
  failed := by rw [HasFailed, log]; exact .inl
  told := ⟨notices, told, refused⟩

theorem aside_of_note {x y : Strands} (e : Happening) (log : y.log = x.log ++ [e])
    (other : e.isEnd = false) (sequence : y.session.sequence = x.session.sequence)
    (told : y.told = x.told) : Aside x y where
  written := by
    cases e with
    | ended p fault => simp [Happening.isEnd] at other
    | _ => simp [written, log]
  sequence
  failed := by
    rintro ⟨d, member, failure⟩
    rw [log, List.mem_append, List.mem_singleton] at member
    rcases member with old | rfl
    · exact .inl ⟨d, old, failure⟩
    · cases d with
      | ended p fault => simp [Happening.isEnd] at other
      | _ => simp [Happening.isFailure] at failure
  told := ⟨[], by rw [told, List.append_nil], by simp⟩

theorem passage_same {x y : Strands} (line : y.session.line = x.session.line)
    (flight : y.session.inFlight = x.session.inFlight) (stopped : x.Stopped → y.Stopped)
    (aside : Aside x y) : Passage x y :=
  .goes [] (line.trans (List.append_nil _).symm) flight stopped aside

theorem passage_broke {x y : Strands} {p : Parcel} {since : Nat} {f : StreamFault}
    (writer : x.session.writer = .writing p since)
    (session : y.session = { x.session with writer := .idle })
    (log : y.log = x.log ++ [.ended p (some f)]) (stopped : y.place.hasFailed = true)
    (notices : List Notice) (told : y.told = x.told ++ notices)
    (refused : ∀ n ∈ notices, ∃ r, n.outcome = .refused r) : Passage x y := by
  have given : Aside x y :=
    { written := by simp [written, log]
      sequence := by rw [session]
      failed := fun _ => .inr (.inl stopped)
      told := ⟨notices, told, refused⟩ }
  refine .stops [p] ?_ ?_ (.inl stopped) given <;>
    simp [session, Session.line, Session.inFlight, writer]

theorem effect_passage {x y : Strands} (idle : x.place ≠ .steady → x.session.writer = .idle)
    (effect : Effect x y) : Passage x y := by
  have aside (told : y.told = x.told) (log : y.log = x.log)
      (sequence : y.session.sequence = x.session.sequence) : Aside x y :=
    aside_of_log log sequence [] (told.trans (List.append_nil _).symm) (List.forall_mem_nil _)
  cases effect with
  | still => exact passage_same rfl rfl id (aside rfl rfl rfl)
  | turnedAway p new dead =>
    exact passage_same rfl rfl id (aside_of_log rfl rfl _ rfl (by simp))
  | admitted p new live held => exact passage_same rfl rfl id (aside rfl rfl rfl)
  | refused p member r => exact passage_same rfl rfl id (aside_of_log rfl rfl _ rfl (by simp))
  | queued p member intake =>
    exact .goes [p] (List.append_assoc _ _ _).symm rfl id (aside rfl rfl rfl)
  | waits w member intake => exact passage_same rfl rfl id (aside rfl rfl rfl)
  | left caller kept sublist notices refusals =>
    exact passage_same rfl rfl id (aside_of_log rfl rfl notices rfl refusals)
  | drained held => exact passage_same rfl rfl id (aside rfl rfl rfl)
  | marked i first there =>
    exact passage_same rfl rfl id (aside_of_note _ rfl rfl rfl rfl)
  | touched now => exact passage_same rfl rfl id (aside rfl rfl rfl)
  | orphaned admitted closers waiting => exact passage_same rfl rfl id (aside rfl rfl rfl)
  | looks place writer intake =>
    refine passage_same rfl rfl (Or.imp ?_ id) (aside rfl rfl rfl)
    simp [place]
  | looked place =>
    refine passage_same rfl rfl (Or.imp ?_ id) (aside rfl rfl rfl)
    simp [place]
  | parts why =>
    refine passage_same rfl rfl (Or.imp ?_ id) (aside rfl rfl rfl)
    rcases why with ⟨place, _⟩ | ⟨place, _⟩ <;> simp [place]
  | begins p rest moved ws now queue waiting place =>
    have writer : x.session.writer = .idle := idle_of_place idle (by simp) place
    have fine : x.place.hasFailed = false := by
      rcases place with ⟨place, _⟩ | place <;> simp [place]
    refine .begins p (moved.map Waiter.parcel) ?_ ?_ rfl ?_ (aside_of_note _ rfl rfl rfl rfl)
    · simp [Session.line, Session.inFlight, writer, queue]
    · simp [Session.inFlight, writer]
    · rw [Stopped, fine, writer]
      simp
  | releases now queue place =>
    have writer : x.session.writer = .idle := idle_of_place idle (by simp) place
    refine passage_same ?_ ?_ (fun _ => .inr (.inl rfl)) (aside_of_note _ rfl rfl rfl rfl) <;>
      simp [Session.line, Session.inFlight, writer]
  | givesUp p f place =>
    exact passage_same rfl rfl (fun _ => .inl rfl) (aside_of_note _ rfl rfl rfl rfl)
  | reports p f place =>
    exact passage_same rfl rfl (fun _ => .inl rfl) (aside_of_log rfl rfl _ rfl (by simp))
  | shuts failed place =>
    refine passage_same rfl rfl (Or.imp ?_ id) (aside_of_log rfl rfl _ rfl ?_)
    · cases failed <;> simp [place]
    · simp
  | aborts p rest queue place =>
    have writer : x.session.writer = .idle := idle (by simp [place])
    refine .stops [p] ?_ ?_ (.inl rfl) (aside_of_log rfl rfl _ rfl (by simp)) <;>
      simp [Session.line, Session.inFlight, writer, queue]
  | wrote p since writer =>
    refine .wrote p ?_ ?_ rfl ?_ rfl ?_ rfl
    · simp [Session.line, Session.inFlight, writer]
    · simp [Session.inFlight, writer]
    · simp [written]
    · simp [HasFailed, Happening.isFailure]
  | broke p since f writer intake =>
    exact passage_broke writer rfl rfl rfl [] (List.append_nil _).symm (List.forall_mem_nil _)
  | brokeOff p since f writer shut =>
    exact passage_broke writer rfl rfl rfl _ rfl (by simp)
  | released since writer =>
    refine passage_same ?_ ?_ (fun _ => .inr (.inl rfl)) (aside_of_note _ rfl rfl rfl rfl) <;>
      simp [Session.line, Session.inFlight, writer]

theorem crashed_cases (x : Strands) :
    (x.session.writer = .finished ∧ x.crashed = { x with place := .steady }) ∨
    (∃ notices, (∀ n ∈ notices, ∃ r, n.outcome = .refused r) ∧
      x.crashed = { x with
        session := { x.session with intake := false, queue := [], waiting := [], writer := .dead }
        place := .steady }.tell notices) := by
  by_cases gone : x.session.writer = .finished
  · exact .inl ⟨gone, by simp [crashed, Session.act, gone, tell]⟩
  · have dies : x.session.act .crash = x.session.crashed := if_neg gone
    refine .inr ⟨x.session.crashed.2, ?_, by rw [crashed, dies, Session.crashed_eq]⟩
    simp only [Session.crashed_eq, List.mem_append, List.mem_map]
    rintro n ((⟨p, _, rfl⟩ | ⟨w, _, rfl⟩) | ⟨q, _, rfl⟩) <;> exact ⟨_, rfl⟩

theorem crashed_passage (x : Strands) : Passage x x.crashed := by
  obtain ⟨gone, e⟩ | ⟨notices, refused, e⟩ := x.crashed_cases <;> rw [e]
  · refine passage_same rfl rfl (fun _ => .inr (.inl (by rw [gone]; rfl))) ?_
    exact aside_of_log rfl rfl [] (List.append_nil _).symm (List.forall_mem_nil _)
  · exact .stops x.session.line (List.append_nil _).symm rfl (.inr (.inr rfl))
      (aside_of_log rfl rfl notices rfl refused)

theorem written_step (x : Strands) {e : Step} (other : e ≠ .wrote) :
    (x.step e).written = x.written := by
  cases e with
  | wrote => exact absurd rfl other
  | move now =>
    simp only [step, move]
    repeat' split
    all_goals simp [written, beginWrite]
  | _ =>
    simp only [step, broke]
    repeat' split
    all_goals simp [written]

/-- What the queue took is written, given up or in the line, in this order. -/
structure Books (x : Strands) (accepted : List Parcel) : Prop where
  idle : x.place ≠ .steady → x.session.writer = .idle
  balance : ∃ lost, accepted = x.written ++ lost ++ x.session.line ∧ (lost ≠ [] → x.Stopped)
  failed : x.HasFailed → x.Stopped
  sequence : x.session.sequence = x.written.length
  told : ∀ a ∈ x.told, ∀ n, a.outcome = .written n →
    0 < n ∧ (x.written[n - 1]?).map (·.caller) = some a.caller

theorem Books.stopped_flight {x : Strands} {accepted : List Parcel} (h : x.Books accepted)
    (stopped : x.Stopped) : x.session.inFlight = [] := by
  have free : x.session.writer.isWriting = false := by
    rcases stopped with failed | leaving | dead
    · have moved : x.place ≠ .steady := fun steady => by simp [steady] at failed
      rw [h.idle moved]
      rfl
    · cases writer : x.session.writer <;> simp [writer] at leaving ⊢
    · rw [dead]
      rfl
  cases writer : x.session.writer <;> simp [writer, Session.inFlight] at free ⊢

theorem Books.written_eq {x : Strands} {accepted : List Parcel} (h : x.Books accepted) :
    x.written = accepted.take x.written.length := by
  obtain ⟨lost, balance, _⟩ := h.balance
  simp [balance, List.append_assoc]

theorem Books.next {x : Strands} {accepted : List Parcel} (h : x.Books accepted) {p : Parcel}
    (flight : x.session.inFlight = [p]) : accepted[x.written.length]? = some p := by
  obtain ⟨lost, balance, stops⟩ := h.balance
  have none : lost = [] := by
    by_contra some
    simp [h.stopped_flight (stops some)] at flight
  simp [balance, none, Session.line, flight]

/-- Where no write is done the books are kept by keeping the balance. -/
theorem Books.aside {x y : Strands} {accepted entered : List Parcel} (h : x.Books accepted)
    (idle : y.place ≠ .steady → y.session.writer = .idle) (aside : Aside x y)
    (stopped : x.Stopped → y.Stopped)
    (balance : ∃ lost, entered = y.written ++ lost ++ y.session.line ∧ (lost ≠ [] → y.Stopped)) :
    y.Books entered := by
  refine ⟨idle, balance, fun failed => ?_, ?_, fun a member n outcome => ?_⟩
  · exact (aside.failed failed).elim (fun before => stopped (h.failed before)) id
  · rw [aside.sequence, aside.written, h.sequence]
  · obtain ⟨notices, told, refused⟩ := aside.told
    rw [told, List.mem_append] at member
    rcases member with old | new
    · rw [aside.written]
      exact h.told a old n outcome
    · obtain ⟨r, refusal⟩ := refused a new
      simp [refusal] at outcome

theorem Books.wrote {x y : Strands} {accepted : List Parcel} (h : x.Books accepted)
    (idle : y.place ≠ .steady → y.session.writer = .idle) {p : Parcel}
    (line : x.session.line = p :: y.session.line) (flight : x.session.inFlight = [p])
    (written : y.written = x.written ++ [p])
    (sequence : y.session.sequence = x.session.sequence + 1)
    (failed : y.HasFailed → x.HasFailed)
    (told : y.told = x.told ++ [⟨p.caller, .written (x.session.sequence + 1)⟩]) :
    y.Books accepted := by
  have going : ¬ x.Stopped := fun stopped => by simp [h.stopped_flight stopped] at flight
  obtain ⟨lost, balance, stops⟩ := h.balance
  obtain rfl : lost = [] := by
    by_contra some
    exact going (stops some)
  refine ⟨idle, ⟨[], ?_, by simp⟩, fun some => absurd (h.failed (failed some)) going, ?_, ?_⟩
  · simp [balance, line, written]
  · simp [sequence, written, h.sequence]
  · intro a member n outcome
    rw [told, List.mem_append, List.mem_singleton] at member
    rcases member with old | rfl
    · obtain ⟨positive, there⟩ := h.told a old n outcome
      obtain ⟨q, at_n, caller⟩ := Option.map_eq_some_iff.mp there
      have inside := (List.getElem?_eq_some_iff.mp at_n).1
      refine ⟨positive, ?_⟩
      rw [written, List.getElem?_append_left inside]
      exact there
    · obtain rfl : x.session.sequence + 1 = n := by simpa using outcome
      simp [written, h.sequence]

theorem Books.passage {x y : Strands} {accepted : List Parcel} (h : x.Books accepted)
    (idle : y.place ≠ .steady → y.session.writer = .idle) (passage : Passage x y) :
    y.Books (accepted ++ y.session.line.drop x.session.line.length) := by
  obtain ⟨lost, balance, stops⟩ := h.balance
  cases passage with
  | goes more line flight stopped aside =>
    refine h.aside idle aside stopped ⟨lost, ?_, fun some => stopped (stops some)⟩
    simp [balance, line, aside.written]
  | begins p more line free flight going aside =>
    have none : lost = [] := by
      by_contra some
      exact going (stops some)
    refine h.aside idle aside (fun stopped => absurd stopped going) ⟨[], ?_, by simp⟩
    simp [balance, none, line, aside.written]
  | wrote p line flight free written sequence failed told =>
    have entered : y.session.line.drop x.session.line.length = [] := by simp [line]
    rw [entered, List.append_nil]
    exact h.wrote idle line flight written sequence failed told
  | stops given line free stopped aside =>
    refine h.aside idle aside (fun _ => stopped) ⟨lost ++ given, ?_, fun _ => stopped⟩
    simp [balance, line, aside.written]

theorem books_start (c : Config) (now : Nat) : (start c now).Books [] := by
  refine ⟨fun moved => absurd rfl moved, ⟨[], rfl, by simp⟩, ?_, rfl, ?_⟩
  · simp [HasFailed]
  · simp

theorem Passage.stopped {x y : Strands} {accepted : List Parcel} (h : x.Books accepted)
    (passage : Passage x y) (stopped : x.Stopped) : y.Stopped := by
  have free := h.stopped_flight stopped
  cases passage with
  | goes more line flight stays aside => exact stays stopped
  | begins p more line idle flight going aside => exact absurd stopped going
  | wrote p line flight => simp [free] at flight
  | stops lost line none stops aside => exact stops

/-- What the queue took was called to send, each parcel by a caller of its own. -/
structure Known (x : Strands) (accepted : List Parcel) : Prop where
  senders : x.senders.Nodup
  onItsWay : ∀ q, x.OnItsWay q → q ∈ x.offers
  began : ∀ p ∈ x.session.inFlight, .began p ∈ x.log
  accepted : ∀ p ∈ accepted, p ∈ x.offers

theorem senders_nodup_effect {x y : Strands} (effect : Effect x y) (nodup : x.senders.Nodup) :
    y.senders.Nodup := by
  have concat {p : Parcel} (new : p.caller ∉ x.senders) :
      ((x.offers ++ [p]).map (·.caller)).Nodup := by
    rw [List.map_append, List.map_singleton]
    exact List.nodup_append.mpr ⟨nodup, List.nodup_singleton _, fun c old d one same =>
      new (List.mem_singleton.mp one ▸ same ▸ old)⟩
  cases effect with
  | turnedAway p new dead => exact concat new
  | admitted p new live held => exact concat new
  | _ => exact nodup

theorem began_effect {x y : Strands} (effect : Effect x y)
    (began : ∀ p ∈ x.session.inFlight, .began p ∈ x.log) :
    ∀ p ∈ y.session.inFlight, .began p ∈ y.log := by
  cases effect with
  | begins p rest moved ws now queue waiting place => simp [Session.inFlight]
  | wrote | broke | brokeOff | releases | released =>
    simp [Session.inFlight]
  | marked | givesUp =>
    exact fun p member => List.mem_append_left _ (began p member)
  | _ => exact began

theorem Known.line {x : Strands} {accepted : List Parcel} (h : x.Known accepted) :
    ∀ p ∈ x.session.line, p ∈ x.offers := by
  intro p member
  rcases List.mem_append.mp member with flight | queue
  · exact h.onItsWay p (.inr (.inr (.inr (h.began p flight))))
  · exact h.onItsWay p (.inr (.inr (.inl queue)))

theorem Known.entered {x : Strands} {accepted : List Parcel} (h : x.Known accepted) (n : Nat) :
    x.Known (accepted ++ x.session.line.drop n) where
  senders := h.senders
  onItsWay := h.onItsWay
  began := h.began
  accepted := fun p member => by
    rcases List.mem_append.mp member with old | new
    · exact h.accepted p old
    · exact h.line p (List.mem_of_mem_drop new)

theorem Known.effect {x y : Strands} {accepted : List Parcel} (h : x.Known accepted)
    (effect : Effect x y) : y.Known accepted where
  senders := senders_nodup_effect effect h.senders
  onItsWay := fun q way => by
    rcases onItsWay_effect effect way with before | ⟨_, known, _⟩
    · exact offers_effect effect (h.onItsWay q before)
    · exact known
  began := began_effect effect h.began
  accepted := fun p member => offers_effect effect (h.accepted p member)

theorem Known.crashed {x : Strands} {accepted : List Parcel} (h : x.Known accepted) :
    x.crashed.Known accepted := by
  obtain ⟨_, e⟩ | ⟨notices, _, e⟩ := x.crashed_cases <;> rw [e]
  · exact { h with }
  · refine { h with onItsWay := fun q way => h.onItsWay q ?_, began := by simp [Session.inFlight] }
    simp only [OnItsWay, tell, List.map_nil, List.not_mem_nil, false_or] at way
    exact way.imp id fun began => .inr (.inr began)

theorem known_start (c : Config) (now : Nat) : (start c now).Known [] := by
  constructor <;> simp [senders, OnItsWay, Session.inFlight]

end Strands

end Courier
