import Courier.Proofs.Hub.Recast
import Courier.Proofs.Lane
import Courier.Proofs.Session.Closing
import Mathlib.Tactic.Simps.Basic

set_option autoImplicit false

namespace Courier

variable (ρ : Caller → Caller)

@[simps]
def Parcel.rename (p : Parcel) : Parcel := { p with caller := ρ p.caller }

@[simps]
def Waiter.rename (v : Waiter) : Waiter := { v with parcel := v.parcel.rename ρ }

@[simps]
def Notice.rename (n : Notice) : Notice := { n with caller := ρ n.caller }

@[simp]
def Writer.rename : Writer → Writer
  | .writing p since => .writing (p.rename ρ) since
  | writer => writer

@[simps]
def Session.rename (s : Session) : Session :=
  { s with
    queue := s.queue.map (·.rename ρ)
    waiting := s.waiting.map (·.rename ρ)
    writer := s.writer.rename ρ }

@[simps]
def Lane.rename (l : Lane) : Lane := { l with session := l.session.rename ρ }

namespace Session

variable {ρ} {s : Session}

@[simp]
theorem hasRoom_rename (s : Session) : (s.rename ρ).hasRoom = s.hasRoom := by
  simp [hasRoom]

theorem offer_rename (s : Session) (p : Parcel) (patience : Patience) (spent : Bool) (now : Nat) :
    (s.rename ρ).offer (p.rename ρ) patience spent now =
      ((s.offer p patience spent now).1.rename ρ, (s.offer p patience spent now).2) := by
  have live : (s.rename ρ).isLive = s.isLive := rfl
  have mode : (s.rename ρ).backpressure = s.backpressure := rfl
  have taking : (s.rename ρ).intake = s.intake := rfl
  simp only [offer, live, mode, taking, hasRoom_rename]
  split
  · rfl
  · split
    · simp [rename]
    · cases s.backpressure with
      | failFast => rfl
      | block => cases spent <;> simp [rename, Waiter.rename]

/-- Only one name of those who wait may become that of the caller that goes. -/
theorem forget_rename {c : Caller}
    (apart : ∀ v ∈ s.waiting, ρ v.parcel.caller = ρ c → v.parcel.caller = c) :
    (s.rename ρ).forget (ρ c) = (s.forget c).rename ρ := by
  simp only [forget, rename, List.filter_map, Session.mk.injEq, true_and, and_true]
  congr 1
  refine List.filter_congr fun v there => ?_
  rw [Function.comp_apply, Bool.eq_iff_iff, bne_iff_ne, bne_iff_ne]
  exact not_congr ⟨apart v there, congrArg ρ⟩

theorem refill_rename (s : Session) : (s.rename ρ).refill = s.refill.rename ρ := by
  unfold refill
  rw [hasRoom_rename]
  cases waiting : s.waiting with
  | nil => simp [waiting]
  | cons v vs => cases s.hasRoom <;> simp [rename, waiting, Waiter.rename]

theorem shut_rename (s : Session) :
    (s.rename ρ).shut = (s.shut.1.rename ρ, s.shut.2.map (·.rename ρ)) := by
  simp [rename, Notice.rename, Waiter.rename, Parcel.rename, Function.comp_def]

theorem turn?_rename (s : Session) (now : Nat) : (s.rename ρ).turn? now =
    (s.turn? now).map fun r => (r.1.rename ρ, r.2.map (·.rename ρ)) := by
  unfold turn?
  cases writer : s.writer with
  | idle =>
    have idle : (s.rename ρ).writer = .idle := by simp [writer]
    have empty : (s.rename ρ).queue.isEmpty = s.queue.isEmpty := by simp
    simp only [idle, empty]
    change (if (s.intake && (s.closing || s.queue.isEmpty && s.orphaned)) = true then _ else _) = _
    split
    · rw [shut_rename]
      rfl
    · cases queue : s.queue with
      | nil =>
        simp only [rename, queue, List.map_nil]
        cases s.intake <;> simp
      | cons p rest =>
        have refilled := refill_rename (ρ := ρ) { s with queue := rest, writer := .writing p now }
        simp only [Option.map_some, ← refilled]
        simp [rename, queue, Writer.rename]
  | _ => simp [writer]

theorem wrote_rename (s : Session) :
    (s.rename ρ).wrote = (s.wrote.1.rename ρ, s.wrote.2.map (·.rename ρ)) := by
  unfold wrote
  cases writer : s.writer <;> simp [rename, writer, Writer.rename, Notice.rename, Parcel.rename]

theorem failed_rename (s : Session) (f : StreamFault) (now : Nat) : (s.rename ρ).failed f now =
    ((s.failed f now).1.rename ρ, (s.failed f now).2.map (·.rename ρ)) := by
  unfold failed
  cases writer : s.writer with
  | writing p since =>
    have writing : (s.rename ρ).writer = .writing (p.rename ρ) since := by
      simp [writer]
    simp only [writing, shut_rename]
    simp [rename, Writer.rename, Notice.rename, Parcel.rename]
  | _ => simp [writer]

theorem crashed_rename (s : Session) :
    (s.rename ρ).crashed = (s.crashed.1.rename ρ, s.crashed.2.map (·.rename ρ)) := by
  have flight : (s.rename ρ).inFlight = s.inFlight.map (·.rename ρ) := by
    unfold inFlight
    cases writer : s.writer <;> simp [writer]
  rw [crashed_eq, crashed_eq, flight]
  simp [rename, Writer.rename, Notice.rename, Parcel.rename, Waiter.rename, Function.comp_def]

theorem rename_of_fixed (fixed : ∀ c ∈ s.callers, ρ c = c) : s.rename ρ = s := by
  simp only [callers, List.mem_append, List.mem_map, line] at fixed
  have queue : s.queue.map (·.rename ρ) = s.queue := by
    conv_rhs => rw [← List.map_id s.queue]
    exact List.map_congr_left fun p there => by
      rw [Parcel.rename, fixed _ (.inl ⟨p, .inr there, rfl⟩)]
      rfl
  have waiting : s.waiting.map (·.rename ρ) = s.waiting := by
    conv_rhs => rw [← List.map_id s.waiting]
    exact List.map_congr_left fun v there => by
      rw [Waiter.rename, Parcel.rename, fixed _ (.inr (List.mem_map.mpr ⟨v, there, rfl⟩))]
      rfl
  have writer : s.writer.rename ρ = s.writer := by
    cases writer : s.writer with
    | writing p since =>
      have kept := fixed p.caller (.inl ⟨p, .inl (by simp [inFlight, writer]), rfl⟩)
      simp [Writer.rename, Parcel.rename, kept]
    | _ => rfl
  simp only [rename, queue, waiting, writer]

end Session

namespace Lane

variable {ρ} {l : Lane}

theorem disguise_rename (ρ : Caller → Caller) : Disguise (rename ρ) where
  id _ := rfl
  client _ := rfl
  live _ := rfl
  sequence _ := rfl
  activity _ := rfl
  close _ := rfl
  touch _ _ := rfl

theorem stream_rename (l : Lane) : (l.rename ρ).stream = l.stream := rfl

theorem writer_rename (l : Lane) : (l.rename ρ).session.writer = l.session.writer.rename ρ := rfl

theorem engage_rename (l : Lane) (now : Nat) :
    (l.rename ρ).engage now = (l.engage now).rename ρ := by
  unfold engage
  cases writer : l.session.writer <;>
    simp [rename, Session.rename, writer, Writer.rename, Parcel.rename]

theorem conclude_rename (l : Lane) (e : WriteEnd) (stream : Stream) (now : Nat) :
    (l.rename ρ).conclude e stream now =
      ((l.conclude e stream now).1.rename ρ, (l.conclude e stream now).2.map (·.rename ρ)) := by
  cases e with
  | done => simp [conclude, rename, Session.wrote_rename]
  | failed f =>
    have engaged := engage_rename (ρ := ρ)
      { l with session := (l.session.failed f now).1, stream := stream.abandon } now
    simp only [conclude, rename, Session.failed_rename]
    exact Prod.ext engaged rfl
  | crashed => simp only [conclude, rename, Session.crashed_rename]

theorem act?_rename (l : Lane) (now : Nat) : (l.rename ρ).act? now =
    (l.act? now).map fun r => (r.1.rename ρ, r.2.map (·.rename ρ)) := by
  unfold act?
  rw [writer_rename]
  cases writer : l.session.writer with
  | idle =>
    have turned : (l.rename ρ).session.turn? now = _ := l.session.turn?_rename now
    simp only [Writer.rename, turned, Option.map_map]
    congr 1
    funext r
    exact Prod.ext (engage_rename { l with session := r.1 } now) rfl
  | writing p since =>
    simp only [Writer.rename, conclude_rename, stream_rename]
    cases l.stream.pass? now with
    | some stream => rfl
    | none => cases l.stream.ending? <;> rfl
  | releasing since =>
    simp only [Writer.rename]
    change (if l.stream.isReleased = true then _ else _) = _
    split <;> rfl
  | _ => simp

theorem ring_rename (l : Lane) (now : Nat) : (l.rename ρ).ring now =
    ((l.ring now).1.rename ρ, (l.ring now).2.map (·.rename ρ)) := by
  unfold ring
  rw [writer_rename]
  cases writer : l.session.writer with
  | writing p since =>
    simp only [Writer.rename, conclude_rename]
    change (if l.stream.due?.any (· ≤ now) = true then _ else _) = _
    split <;> rfl
  | releasing since => rfl
  | _ => simp

theorem lapse_rename {c : Caller}
    (apart : ∀ v ∈ l.session.waiting, ρ v.parcel.caller = ρ c → v.parcel.caller = c) :
    (l.rename ρ).lapse (ρ c) = ((l.lapse c).1.rename ρ, (l.lapse c).2.map (·.rename ρ)) := by
  have forgot := Session.forget_rename apart
  simp only [lapse, rename, forgot]
  rfl

theorem alarm?_rename (l : Lane) : (l.rename ρ).alarm? = l.alarm? := by
  unfold alarm?
  rw [writer_rename]
  cases l.session.writer <;> rfl

theorem waiterAlarms_rename (l : Lane) :
    (l.rename ρ).waiterAlarms = l.waiterAlarms.map fun a => (a.1, ρ a.2) := by
  simp only [waiterAlarms, rename, Session.rename, List.filterMap_map, List.map_filterMap]
  refine List.filterMap_congr fun v _ => ?_
  cases due : v.patience.deadline <;> simp [due]

theorem effort_rename (l : Lane) : (l.rename ρ).effort = l.effort := by
  unfold effort
  rw [writer_rename]
  cases l.session.writer <;> simp

theorem rename_of_new {l : Lane} (new : l.session.IsNew) : l.rename ρ = l := by
  have same : l.session.rename ρ = l.session := by
    obtain ⟨c, since, is | is⟩ := new <;>
      simp [is, Session.rename, Session.crashed, Writer.rename]
  simp only [rename, same]

end Lane

namespace Hub

def rename (ρ : Key → Caller → Caller) (h : Hub) : Hub := h.recast fun key => Lane.rename (ρ key)

variable {ρ : Key → Caller → Caller}

theorem disguise_rename (ρ : Key → Caller → Caller) (key : Key) :
    Lane.Disguise (Lane.rename (ρ key)) :=
  Lane.disguise_rename (ρ key)

theorem rename_of_fixed {h : Hub}
    (fixed : ∀ key l, h.lane? key = some l → ∀ c ∈ l.session.callers, ρ key c = c) :
    h.rename ρ = h := by
  have lanes : (h.lanes.mapIdx fun key => Lane.rename (ρ key)) = h.lanes := by
    apply List.ext_getElem?
    intro key
    rw [List.getElem?_mapIdx]
    cases there : h.lanes[key]? with
    | none => rfl
    | some l =>
      simp only [Option.map_some, Lane.rename, Session.rename_of_fixed (fixed key l there)]
  simp only [rename, recast, lanes]

theorem rename_offer (h : Hub) (key : Key) (p : Parcel) (patience : Patience) (spent : Bool)
    (now : Nat) : (h.rename ρ).offer key (p.rename (ρ key)) patience spent now =
      ((h.offer key p patience spent now).1.rename ρ, (h.offer key p patience spent now).2) := by
  have lane : (h.rename ρ).lane? key = (h.lane? key).map (Lane.rename (ρ key)) :=
    h.lane?_recast _ key
  unfold offer
  rw [lane]
  cases h.lane? key with
  | none => rfl
  | some l =>
    have offered := l.session.offer_rename (ρ := ρ key) p patience spent now
    have set := recast_setLane (φ := fun key => Lane.rename (ρ key)) h key
      { l with session := (l.session.offer p patience spent now).1 }
    simp only [Option.map_some, Lane.rename, offered]
    exact Prod.ext set.symm rfl

end Hub

end Courier
