import Courier.Proofs.Session.Lifecycle
import Mathlib.Data.List.Induction

set_option autoImplicit false

namespace Courier

def Place.unheard : Place → List Caller
  | .broken p _ => [p.caller]
  | .reporting p _ => [p.caller]
  | _ => []

@[simp]
def Writer.isPending : Writer → Bool
  | .writing _ _ => true
  | .releasing _ => true
  | _ => false

namespace Strands

variable {x y : Strands}

/-- A writer that does not get any further. While it waits for a parcel it looks into the queue again
and again. -/
def Rests (x : Strands) : Prop := ∀ now, (x.move now).move now = x

/-- The writer does not move before the stream does. -/
structure Busy (x : Strands) : Prop where
  place : x.place = .steady
  writer : x.session.writer ≠ .idle

structure Waits (x : Strands) : Prop where
  place : x.place = .steady ∨ x.place = .looking
  writer : x.session.writer = .idle
  intake : x.session.intake = true
  unmarked : x.session.closing = false
  held : x.session.orphaned = false
  queue : x.session.queue = []

/-- How far a writer is from being busy, or waiting. -/
def distance (x : Strands) : Nat :=
  match x.place with
  | .steady =>
    if x.session.writer = .idle then
      x.session.queue.length +
        if x.session.intake then (if x.session.closing then 4 else 6) else 1
    else 0
  | .looking => x.session.queue.length + 5
  | .broken _ _ => x.session.queue.length + 7
  | .reporting _ _ => x.session.queue.length + 6
  | .parting failed => x.session.queue.length + if failed then 5 else 3
  | .aborting => x.session.queue.length + 1

theorem Busy.move (busy : x.Busy) (now : Nat) : x.move now = x := by
  unfold Strands.move
  rw [busy.place]
  cases writer : x.session.writer with
  | idle => exact absurd writer busy.writer
  | _ => rfl

theorem Waits.move (waits : x.Waits) (now : Nat) :
    (x.move now).Waits ∧ (x.move now).move now = x := by
  obtain ⟨place, writer, intake, unmarked, held, queue⟩ := waits
  rcases place with place | place
  · have moved : x.move now = { x with place := .looking } := by
      simp [Strands.move, place, writer, intake, unmarked]
    rw [moved]
    exact ⟨⟨.inr rfl, writer, intake, unmarked, held, queue⟩, by
      simp only [Strands.move, queue, held, ← place]; rfl⟩
  · have moved : x.move now = { x with place := .steady } := by
      simp [Strands.move, place, queue, held]
    rw [moved]
    exact ⟨⟨.inl rfl, writer, intake, unmarked, held, queue⟩, by
      simp only [Strands.move, writer, intake, unmarked, ← place]; rfl⟩

theorem busy_beginWrite (x : Strands) (p : Parcel) (rest : List Parcel) (now : Nat) :
    (x.beginWrite p rest now).Busy := by
  obtain ⟨_, _, _, _, e⟩ :=
    Session.refill_eq { x.session with queue := rest, writer := .writing p now }
  exact ⟨rfl, by simp [beginWrite, e]⟩

theorem busy_release (x : Strands) (now : Nat) : (x.release now).Busy := ⟨rfl, by simp⟩

theorem Busy.distance (busy : x.Busy) : x.distance = 0 := by
  simp [Strands.distance, busy.place, busy.writer]

theorem move_closer (coherent : x.Coherent) (now : Nat) :
    x.Busy ∨ x.Waits ∨ (x.move now).distance < x.distance := by
  have begun (y : Strands) (busy : y.Busy) (moved : x.move now = y) (far : 0 < x.distance) :
      x.Busy ∨ x.Waits ∨ (x.move now).distance < x.distance :=
    .inr (.inr (by rwa [moved, busy.distance]))
  cases place : x.place with
  | steady =>
    cases writer : x.session.writer with
    | idle =>
      cases intake : x.session.intake with
      | true =>
        cases closing : x.session.closing with
        | true => simp [move, distance, place, writer, intake, closing]
        | false => simp [move, distance, place, writer, intake, closing]
      | false =>
        cases queue : x.session.queue with
        | nil =>
          exact begun _ (x.busy_release now) (by simp [move, place, writer, intake, queue])
            (by simp [distance, place, writer, intake])
        | cons p rest =>
          exact begun _ (x.busy_beginWrite p rest now) (by simp [move, place, writer, intake, queue])
            (by simp [distance, place, writer, intake])
    | _ => exact .inl ⟨place, by simp [writer]⟩
  | looking =>
    have writer := coherent.idle (by simp [place])
    have intake := coherent.taking (by simp [place])
    cases queue : x.session.queue with
    | cons p rest =>
      exact begun _ (x.busy_beginWrite p rest now) (by simp [move, place, queue])
        (by simp [distance, place])
    | nil =>
      cases held : x.session.orphaned with
      | true => simp [move, place, queue, held, distance]
      | false =>
        cases closing : x.session.closing with
        | true => simp [move, place, queue, held, distance, writer, intake, closing]
        -- the one place to stay at: nothing is queued, nobody closes the session and somebody
        -- holds it
        | false => exact .inr (.inl ⟨.inr place, writer, intake, closing, held, queue⟩)
  | broken p f => simp [move, place, distance]
  | reporting p f => simp [move, place, distance]
  | parting failed =>
    have writer := coherent.idle (by simp [place])
    cases failed <;> simp [move, place, distance, writer]
  | aborting =>
    cases queue : x.session.queue with
    | nil =>
      exact begun _ (x.busy_release now) (by simp [move, place, queue]) (by simp [distance, place])
    | cons p rest => simp [move, place, queue, distance]

/-- A writer that rests waits for a parcel or for the stream, or is at its end. -/
theorem Rests.busy_or_waits (rests : x.Rests) (coherent : x.Coherent) : x.Busy ∨ x.Waits := by
  have back := rests 0
  rcases move_closer coherent 0 with busy | waits | closer
  · exact .inl busy
  · exact .inr waits
  · rcases move_closer (coherent.effect (x.effect_move 0)) 0 with busy | waits | more
    · exact .inl (back ▸ (busy.move 0).symm ▸ busy)
    · exact .inr (back ▸ (waits.move 0).1)
    · rw [back] at more
      omega

/-- A writer that nothing comes in between comes to rest. -/
theorem rests_after_moves (coherent : x.Coherent) (now : Nat) :
    ∃ n, (x.run (List.replicate n (.move now))).Rests := by
  induction size : x.distance using Nat.strongRecOn generalizing x with
  | ind size ih =>
    rcases move_closer coherent now with busy | waits | closer
    · exact ⟨0, fun t => by simp only [run, List.replicate, List.foldl_nil, busy.move]⟩
    · exact ⟨0, fun t => (waits.move t).2⟩
    · obtain ⟨n, rests⟩ := ih _ (size ▸ closer) (coherent.effect (x.effect_move now)) rfl
      exact ⟨n + 1, rests⟩

/-- Those whose parcels are in the session, or on the way to it, or whose failed write is still to be
reported. -/
def pending (x : Strands) : List Caller :=
  x.admitted.map (·.caller) ++ (x.session.callers ++ x.place.unheard)

theorem mem_pending {c : Caller} : c ∈ x.pending ↔
    c ∈ x.admitted.map (·.caller) ∨ c ∈ x.session.callers ∨ c ∈ x.place.unheard := by
  simp only [pending, List.mem_append]

theorem mem_callers {s : Session} {c : Caller} : c ∈ s.callers ↔
    c ∈ s.inFlight.map (·.caller) ∨ c ∈ s.queue.map (·.caller) ∨ c ∈ s.waitingCallers := by
  simp only [Session.callers, Session.line, List.map_append, List.mem_append, or_assoc]

def Keeps (x y : Strands) : Prop :=
  ∀ c ∈ x.pending, c ∈ y.pending ∨ c ∈ y.told.map (·.caller)

theorem keeps_of_parts (admitted : y.admitted = x.admitted)
    (session : ∀ c ∈ x.session.callers, c ∈ y.session.callers ∨ c ∈ y.place.unheard ∨
      c ∈ y.told.map (·.caller))
    (place : ∀ c ∈ x.place.unheard, c ∈ y.place.unheard ∨ c ∈ y.told.map (·.caller)) :
    x.Keeps y := by
  intro c there
  rw [mem_pending] at there ⊢
  rcases there with came | inside | unheard
  · exact .inl (.inl (admitted ▸ came))
  · have := session c inside
    tauto
  · have := place c unheard
    tauto

theorem keeps_beginWrite (writer : x.session.writer = .idle) (place : x.place.unheard = [])
    {p : Parcel} {rest : List Parcel} (queue : x.session.queue = p :: rest) (now : Nat) :
    x.Keeps (x.beginWrite p rest now) := by
  obtain ⟨moved, ws, waiting, _, e⟩ :=
    Session.refill_eq { x.session with queue := rest, writer := .writing p now }
  simp only at waiting
  refine keeps_of_parts rfl (fun c there => .inl ?_) (by simp [place])
  rw [mem_callers, queue, Session.waitingCallers, waiting] at there
  rw [mem_callers, beginWrite, e]
  simp only [Session.inFlight, writer, List.map_nil, List.not_mem_nil, false_or, List.map_cons,
    List.mem_cons, List.map_append, List.mem_append, or_false, note, Session.waitingCallers,
    List.map_map] at there ⊢
  tauto

theorem keeps_release (writer : x.session.writer = .idle) (place : x.place.unheard = []) (now : Nat) :
    x.Keeps (x.release now) := by
  refine keeps_of_parts rfl (fun c there => .inl ?_) (by simp [place])
  rw [mem_callers] at there ⊢
  simpa [Session.inFlight, Session.waitingCallers, writer] using there

theorem keeps_place (place : x.place.unheard = []) (q : Place) : x.Keeps { x with place := q } :=
  keeps_of_parts rfl (fun _ => .inl) (by simp [place])

theorem keeps_move (coherent : x.Coherent) (now : Nat) : x.Keeps (x.move now) := by
  have idle (moved : x.place ≠ .steady) : x.session.writer = .idle := coherent.idle moved
  unfold move
  cases place : x.place with
  | steady =>
    have unheard : x.place.unheard = [] := by rw [place]; rfl
    cases writer : x.session.writer with
    | idle =>
      cases intake : x.session.intake with
      | true => exact keeps_place unheard _
      | false =>
        cases queue : x.session.queue with
        | nil => exact keeps_release writer unheard now
        | cons p rest => exact keeps_beginWrite writer unheard queue now
    | _ => exact fun c => .inl
  | looking =>
    have unheard : x.place.unheard = [] := by rw [place]; rfl
    cases queue : x.session.queue with
    | nil => exact keeps_place unheard _
    | cons p rest => exact keeps_beginWrite (idle (by simp [place])) unheard queue now
  | broken p f =>
    refine keeps_of_parts rfl (fun _ => .inl) fun c there => .inl ?_
    rwa [place] at there
  | reporting p f =>
    refine keeps_of_parts rfl (fun _ => .inl) fun c there => .inr ?_
    rw [place, Place.unheard] at there
    simp [List.mem_singleton.mp there]
  | parting failed =>
    refine keeps_of_parts rfl (fun c there => ?_) (by simp [place, Place.unheard])
    rw [mem_callers] at there
    rw [mem_callers]
    simp only [tell, Session.shut, Session.waitingCallers, List.map_append, List.map_map,
      List.mem_append] at there ⊢
    exact there.elim (fun flight => .inl (.inl flight)) fun rest => rest.elim
      (fun queued => .inl (.inr (.inl queued))) fun waits => .inr (.inr (.inr waits))
  | aborting =>
    have unheard : x.place.unheard = [] := by rw [place]; rfl
    cases queue : x.session.queue with
    | nil => exact keeps_release (idle (by simp [place])) unheard now
    | cons p rest =>
      refine keeps_of_parts rfl (fun c there => ?_) (by simp [unheard])
      rw [mem_callers, queue, List.map_cons, List.mem_cons] at there
      rw [mem_callers]
      simp only [refuses, tell, List.map_append, List.mem_append, List.map_cons, List.map_nil,
        List.mem_singleton]
      tauto

theorem keeps_put (x : Strands) (p : Parcel) (patience : Patience) (spent : Bool) (now : Nat) :
    x.Keeps (x.step (.put p patience spent now)) := by
  intro c there
  simp only [step]
  split
  · have parted : c ∈ x.admitted.map (·.caller) →
        c ∈ (x.admitted.erase p).map (·.caller) ∨ c = p.caller := fun there => by
      obtain ⟨q, inside, rfl⟩ := List.mem_map.mp there
      by_cases same : q = p
      · exact .inr (same ▸ rfl)
      · exact .inl (List.mem_map_of_mem ((List.mem_erase_of_ne same).mpr inside))
    rw [mem_pending, mem_callers] at there
    rcases x.session.accept_cases p patience spent now with ⟨r, e⟩ | ⟨_, e⟩ | ⟨_, e⟩ <;>
      rw [e, mem_pending, mem_callers] <;>
      simp only [tell, Session.inFlight, Session.waitingCallers, Option.toList_some,
        Option.toList_none, List.map_append, List.mem_append, List.map_cons, List.map_nil,
        List.mem_singleton] at there ⊢ <;>
      tauto
  · exact .inl there

theorem pending_leave {gone c : Caller} (there : c ∈ x.pending) (other : c ≠ gone)
    {admitted : List Parcel} (kept : ∀ p ∈ x.admitted, p.caller ≠ gone → p ∈ admitted) :
    c ∈ pending { x with session := x.session.forget gone, admitted } := by
  rw [mem_pending, mem_callers] at there ⊢
  rw [Session.waitingCallers_forget]
  rcases there with came | (flight | queued | waits) | unheard
  · obtain ⟨p, inside, rfl⟩ := List.mem_map.mp came
    exact .inl (List.mem_map_of_mem (kept p inside other))
  · exact .inr (.inl (.inl flight))
  · exact .inr (.inl (.inr (.inl queued)))
  · exact .inr (.inl (.inr (.inr (List.mem_filter.mpr ⟨waits, by simpa using other⟩))))
  · exact .inr (.inr unheard)

theorem keeps_ended {p : Parcel} {since : Nat} (writer : x.session.writer = .writing p since)
    (admitted : y.admitted = x.admitted) (queue : y.session.queue = x.session.queue)
    (waiting : y.session.waiting = x.session.waiting)
    (report : p.caller ∈ y.place.unheard ∨ p.caller ∈ y.told.map (·.caller))
    (place : ∀ c ∈ x.place.unheard, c ∈ y.place.unheard ∨ c ∈ y.told.map (·.caller)) :
    x.Keeps y := by
  refine keeps_of_parts admitted (fun c there => ?_) place
  rw [mem_callers] at there ⊢
  simp only [Session.inFlight, writer, List.map_cons, List.map_nil, List.mem_singleton] at there
  rcases there with rfl | queued | waits
  · exact .inr report
  · exact .inl (.inr (.inl (queue ▸ queued)))
  · exact .inl (.inr (.inr (by rwa [Session.waitingCallers, waiting])))

theorem keeps_wrote (x : Strands) : x.Keeps (x.step .wrote) := by
  simp only [step]
  cases writer : x.session.writer with
  | writing p since =>
    refine keeps_ended writer rfl ?_ ?_ (.inr ?_) fun _ => .inl <;>
      simp [Session.wrote, writer]
  | _ => exact fun _ => .inl

theorem keeps_fail (coherent : x.Coherent) (f : StreamFault) : x.Keeps (x.step (.fail f)) := by
  simp only [step]
  cases writer : x.session.writer with
  | writing p since =>
    have steady : x.place = .steady := steady_of_busy coherent.idle (by simp [writer])
    have unheard : x.place.unheard = [] := by rw [steady]; rfl
    simp only [broke]
    split
    · exact keeps_ended writer rfl rfl rfl (.inl List.mem_cons_self) (by simp [unheard])
    · exact keeps_ended writer rfl rfl rfl (.inr (by simp)) (by simp [unheard])
  | _ => exact fun _ => .inl

/-- Who is pending is so until it is told something, or quits. -/
theorem pending_step (coherent : x.Coherent) {e : Step} {c : Caller} (there : c ∈ x.pending) :
    c ∈ (x.step e).pending ∨ c ∈ (x.step e).told.map (·.caller) ∨ e = .quit c := by
  have keeps (keeps : x.Keeps (x.step e)) : c ∈ (x.step e).pending ∨
      c ∈ (x.step e).told.map (·.caller) ∨ e = .quit c := (keeps c there).imp_right .inl
  cases e with
  | check p =>
    simp only [step]
    split
    · exact .inl there
    · rw [mem_pending] at there
      split
      · refine .inl (mem_pending.mpr (there.imp_left fun came => ?_))
        rw [List.map_append]
        exact List.mem_append_left _ came
      · exact .inl (mem_pending.mpr there)
  | put p patience spent now => exact keeps (x.keeps_put p patience spent now)
  | quit gone =>
    by_cases own : c = gone
    · exact .inr (.inr (own ▸ rfl))
    · exact .inl (pending_leave there own fun p inside other =>
        List.mem_filter.mpr ⟨inside, by simpa using other⟩)
  | lapse gone =>
    simp only [step]
    split
    · by_cases own : c = gone
      · exact .inr (.inl (by simp [own]))
      · exact .inl (pending_leave there own fun _ inside _ => inside)
    · exact .inl there
  | drain =>
    simp only [step]
    split <;> exact .inl there
  | mark i =>
    simp only [step]
    split <;> exact .inl there
  | touch now => exact .inl there
  | orphan =>
    simp only [step]
    split <;> exact .inl there
  | move now => exact keeps (keeps_move coherent now)
  | wrote => exact keeps x.keeps_wrote
  | fail f => exact keeps (keeps_fail coherent f)
  | released =>
    simp only [step]
    split
    · rename_i since writer
      -- a writer that releases the stream has nothing in flight: who is pending queues or waits
      rw [mem_pending, mem_callers] at there
      refine .inl (mem_pending.mpr (there.imp_right (Or.imp_left fun inside => mem_callers.mpr ?_)))
      simpa [Session.inFlight, Session.waitingCallers, writer] using inside
    · exact .inl there

theorem told_step (x : Strands) (e : Step) : x.told ⊆ (x.step e).told := by
  have idle := x.step_effect e
  generalize x.step e = y at idle
  cases idle <;> simp

theorem sender_step (x : Strands) (e : Step) {c : Caller} (came : c ∈ (x.step e).senders) :
    c ∈ x.senders ∨ c ∈ (x.step e).pending ∨ c ∈ (x.step e).told.map (·.caller) := by
  have effect := x.step_effect e
  generalize x.step e = y at came effect
  cases effect with
  | turnedAway p new dead =>
    simp only [senders, refuses, tell, List.map_append, List.mem_append, List.map_cons, List.map_nil,
      List.mem_singleton] at came ⊢
    exact came.imp id fun own => .inr (.inr own)
  | admitted p new live held =>
    simp only [senders, List.map_append, List.mem_append, List.map_cons, List.map_nil,
      List.mem_singleton] at came
    refine came.imp id fun own => .inl (mem_pending.mpr (.inl ?_))
    simp [own]
  | _ => exact .inl came

/-- Whoever has called to send is pending, or was told what became of its parcel, or has quit. -/
theorem sender_run (c : Config) (now : Nat) (steps : List Step) :
    let x := (start c now).run steps
    ∀ caller ∈ x.senders, caller ∈ x.pending ∨ caller ∈ x.told.map (·.caller) ∨
      .quit caller ∈ steps := by
  induction steps using List.reverseRecOn with
  | nil => simp [run, senders]
  | append_singleton steps e ih =>
    intro x caller came
    have step : x = ((start c now).run steps).step e := run_append _ steps [e]
    have coherent := ((sound_start c now).run steps).coherent
    rw [step] at came ⊢
    rcases sender_step _ e came with old | pending | told
    · rcases ih caller old with pending | told | quit
      · rcases pending_step coherent (e := e) pending with pending | told | quits
        · exact .inl pending
        · exact .inr (.inl told)
        · exact .inr (.inr (by simp [quits]))
      · exact .inr (.inl (List.map_subset _ (told_step _ e) told))
      · exact .inr (.inr (List.mem_append_left _ quit))
    · exact .inl pending
    · exact .inr (.inl told)

def Emptied (x : Strands) : Prop :=
  x.session.writer.isLeaving = true → x.session.intake = false ∧ x.session.queue = []

theorem Emptied.effect (h : x.Emptied) (coherent : x.Coherent) (effect : Effect x y) : y.Emptied := by
  cases effect with
  | queued p member intake => exact fun leaving => absurd (h leaving).1 (by simp [intake])
  | shuts failed place => exact fun leaving => ⟨rfl, (h leaving).2⟩
  | begins p rest moved ws now queue waiting place => simp [Emptied]
  | releases now queue place =>
    refine fun _ => ⟨?_, queue⟩
    rcases place with ⟨_, _, shut⟩ | place
    · exact shut
    · exact coherent.aborting place
  | aborts p rest queue place =>
    exact fun leaving => absurd (h leaving).2 (by simp [queue])
  | wrote p since writer => simp [Emptied]
  | broke p since f writer intake => simp [Emptied]
  | brokeOff p since f writer shut => simp [Emptied]
  | released since writer => exact fun _ => h (by simp [writer])
  | _ => exact h

theorem emptied_run (c : Config) (now : Nat) (steps : List Step) : ((start c now).run steps).Emptied := by
  induction steps using List.reverseRecOn with
  | nil => simp [Emptied, run]
  | append_singleton steps e ih =>
    rw [run_append]
    exact ih.effect ((sound_start c now).run steps).coherent (step_effect _ e)

theorem count_releasing {log : List Happening} (orderly : Orderly log) (begun : .releasing ∈ log) :
    log.count .releasing = 1 := by
  obtain ⟨before, after, rfl⟩ := List.append_of_mem begun
  have first : .releasing ∉ before := (orderly before .releasing after rfl).2
  have last : .releasing ∉ after := fun member => by
    obtain ⟨between, rest, rfl⟩ := List.append_of_mem member
    have follows := orderly (before ++ .releasing :: between) .releasing rest (by simp)
    exact follows.2 (by simp)
  simp [List.count_eq_zero.mpr first, List.count_eq_zero.mpr last]

/-- Nobody is between two steps, and the writer does not get any further. -/
structure Settled (x : Strands) : Prop where
  admitted : x.admitted = []
  closers : x.closers = []
  rests : x.Rests

/-- The end of the session has begun. -/
inductive Ending (x : Strands) : Prop
  | closed (closing : x.session.closing = true)
  | failed (p : Parcel) (f : StreamFault) (ended : .ended p (some f) ∈ x.log)
  | dropped (orphaned : x.session.orphaned = true)

/-- Nothing is left of what was queued or waited, and all who have called to send have been told what
became of their parcels, or have quit. The release of the stream began once, and is over. -/
structure TornDown (x : Strands) (steps : List Step) : Prop where
  queue : x.session.queue = []
  waiting : x.session.waiting = []
  senders : ∀ caller ∈ x.senders, caller ∈ x.told.map (·.caller) ∨ .quit caller ∈ steps
  releasing : x.log.count .releasing = 1
  released : .released ∈ x.log
  removed : x.session.life = .removed

theorem Ending.busy (ending : x.Ending) (sound : x.Sound) (rests : x.Rests) : x.Busy := by
  refine (rests.busy_or_waits sound.coherent).resolve_right fun waits => ?_
  cases ending with
  | closed closing => simp [waits.unmarked] at closing
  | dropped orphaned => simp [waits.held] at orphaned
  | failed p f ended =>
    rcases sound.logged.failed ⟨_, ended, rfl⟩ with failed | leaving
    · rcases waits.place with place | place <;> simp [place] at failed
    · simp [waits.writer] at leaving

theorem tornDown_run (c : Config) (now : Nat) (steps : List Step) :
    let x := (start c now).run steps
    x.Settled → x.Ending → x.session.writer.isPending = false → x.TornDown steps := by
  intro x settled ending through
  have sound : x.Sound := (sound_start c now).run steps
  have busy := ending.busy sound settled.rests
  have finished : x.session.writer = .finished := by
    have alive := sound.coherent.alive
    have busy := busy.writer
    cases writer : x.session.writer <;> simp_all
  have leaving : x.session.writer.isLeaving = true := by simp [finished]
  obtain ⟨shut, queue⟩ := emptied_run c now steps leaving
  have waiting := sound.coherent.nobody shut
  have nobody (caller : Caller) : caller ∉ x.pending := by
    simp [pending, settled.admitted, Session.callers, Session.line, Session.inFlight, finished,
      Session.waitingCallers, waiting, show x.session.queue = [] from queue, busy.place, Place.unheard]
  refine ⟨queue, waiting, fun caller came => ?_, ?_, ?_, ?_⟩
  · exact (sender_run c now steps caller came).resolve_left (nobody caller)
  · exact count_releasing sound.logged.orderly (sound.logged.releasing.mpr leaving)
  · exact sound.logged.released.mpr finished
  · exact sound.logged.removed.mpr finished

end Strands

end Courier
