import Courier.Proofs.Session.Strands

set_option autoImplicit false

namespace Courier

@[simp]
def Life.rank : Life → Nat
  | .active => 0
  | .draining => 1
  | .removed => 2

@[simp]
def Writer.isWriting : Writer → Bool
  | .writing _ _ => true
  | _ => false

@[simp]
def Writer.isLeaving : Writer → Bool
  | .releasing _ => true
  | .finished => true
  | _ => false

/-- The writer is still to shut the queue. -/
@[simp]
def Place.isTaking : Place → Bool
  | .looking => true
  | .broken _ _ => true
  | .reporting _ _ => true
  | .parting _ => true
  | _ => false

/-- A write has failed and the writer is still to release the stream. -/
@[simp]
def Place.hasFailed : Place → Bool
  | .broken _ _ => true
  | .reporting _ _ => true
  | .parting failed => failed
  | .aborting => true
  | _ => false

@[simp]
def Place.hasLeft : Place → Bool
  | .reporting _ _ => true
  | .parting _ => true
  | .aborting => true
  | _ => false

def underWay (log : List Happening) : Bool :=
  log.foldl (fun writing e =>
    match e with
    | .began _ => true
    | .ended _ _ => false
    | _ => writing) false

@[simp]
theorem underWay_concat (log : List Happening) (e : Happening) : underWay (log ++ [e]) =
    match e with
    | .began _ => true
    | .ended _ _ => false
    | _ => underWay log := by
  simp only [underWay, List.foldl_concat]

def Happening.isFailure : Happening → Bool
  | .ended _ (some _) => true
  | _ => false

/-- What must have happened before something happens to the stream, and what must not. -/
def Happening.Follows (before : List Happening) : Happening → Prop
  | .began _ => underWay before = false ∧ (∀ d ∈ before, d.isFailure = false) ∧ .releasing ∉ before
  | .ended _ _ => underWay before = true
  | .releasing => underWay before = false ∧ .releasing ∉ before
  | .released => .releasing ∈ before ∧ .released ∉ before
  | _ => True

def Orderly (log : List Happening) : Prop :=
  ∀ before e after, log = before ++ e :: after → e.Follows before

theorem orderly_nil : Orderly [] := by
  intro before e after same
  simp at same

theorem Orderly.concat {log : List Happening} (h : Orderly log) {e : Happening}
    (follows : e.Follows log) : Orderly (log ++ [e]) := by
  intro before d after same
  rcases List.eq_nil_or_concat after with rfl | ⟨init, last, rfl⟩
  · obtain ⟨rfl, last⟩ := List.append_inj' same rfl
    obtain rfl := List.singleton_inj.mp last
    exact follows
  · rw [List.concat_eq_append, ← List.cons_append, ← List.append_assoc] at same
    exact h before d init (List.append_inj' same rfl).1

namespace Session

@[simp]
theorem drained_isLive (s : Session) : s.drained.isLive = false := s.isLive_close

end Session

namespace Strands

/-- What the pieces of a session say of each other, and of where its writer is. -/
structure Coherent (x : Strands) : Prop where
  idle : x.place ≠ .steady → x.session.writer = .idle
  alive : x.session.writer ≠ .dead
  closing : x.session.closing = true ∨ x.closers ≠ [] → x.session.isLive = false
  unheld : x.session.orphaned = true → x.admitted = [] ∧ x.closers = [] ∧ x.session.waiting = []
  taking : x.place.isTaking = true → x.session.intake = true
  aborting : x.place = .aborting → x.session.intake = false
  nobody : x.session.intake = false → x.session.waiting = []
  left : x.place.hasLeft = true ∨ x.session.intake = false → x.session.isLive = false ∨
    (x.session.orphaned = true ∧ x.session.queue = [] ∧ x.session.writer.isWriting = false)

section

variable {x : Strands} (idle : x.place ≠ .steady → x.session.writer = .idle)
include idle

theorem steady_of_busy (busy : x.session.writer ≠ .idle) : x.place = .steady :=
  not_not.mp fun moved => busy (idle moved)

theorem idle_of_place {q : Place} (moved : q ≠ .steady)
    (place : (x.place = .steady ∧ x.session.writer = .idle ∧ x.session.intake = false) ∨
      x.place = q) : x.session.writer = .idle := by
  rcases place with ⟨_, writer, _⟩ | rfl
  · exact writer
  · exact idle moved

end

theorem idle_effect {x y : Strands} (idle : x.place ≠ .steady → x.session.writer = .idle)
    (effect : Effect x y) : y.place ≠ .steady → y.session.writer = .idle := by
  cases effect with
  | looks place writer intake => exact fun _ => writer
  | parts why =>
    rcases why with ⟨_, writer, _⟩ | ⟨place, _⟩
    · exact fun _ => writer
    · exact fun _ => idle (by simp [place])
  | looked | begins | releases => exact fun moved => absurd rfl moved
  | givesUp p f place => exact fun _ => idle (by simp [place])
  | reports p f place => exact fun _ => idle (by simp [place])
  | shuts failed place => exact fun _ => idle (by simp [place])
  | aborts p rest queue place => exact fun _ => idle (by simp [place])
  | wrote p since writer => exact fun _ => rfl
  | broke p since f writer intake => exact fun _ => rfl
  | brokeOff p since f writer shut => exact fun _ => rfl
  | released since writer => exact fun moved => by simp [idle moved] at writer
  | _ => exact idle

theorem Coherent.effect {x y : Strands} (h : x.Coherent) (effect : Effect x y) : y.Coherent := by
  have idle := idle_effect h.idle effect
  cases effect with
  | still => exact h
  | turnedAway p new dead => exact { h with }
  | admitted p new live held => exact { h with unheld := by simp [held] }
  | refused p member r =>
    exact { h with unheld := fun orphaned => by simp [(h.unheld orphaned).1] at member }
  | queued p member intake =>
    exact { h with
      unheld := fun orphaned => by simp [(h.unheld orphaned).1] at member
      left := fun gone => by
        rcases h.left gone with dead | ⟨orphaned, _⟩
        · exact .inl dead
        · simp [(h.unheld orphaned).1] at member }
  | waits w member intake =>
    exact { h with
      unheld := fun orphaned => by simp [(h.unheld orphaned).1] at member
      nobody := by simp [intake] }
  | left caller kept sublist notices refusals =>
    exact { h with
      unheld := fun orphaned => by
        obtain ⟨admitted, closers, waiting⟩ := h.unheld orphaned
        exact ⟨List.sublist_nil.mp (admitted ▸ sublist), closers,
          by simp [waiting, Session.forget]⟩
      nobody := fun shut => by simp [h.nobody shut, Session.forget] }
  | drained held =>
    exact { h with
      closing := fun _ => x.session.drained_isLive
      unheld := by simp [held]
      left := fun _ => .inl x.session.drained_isLive }
  | marked i first there =>
    have some : x.closers ≠ [] := fun none => by simp [none] at there
    exact { h with
      closing := fun _ => h.closing (.inr some)
      unheld := fun orphaned => absurd (h.unheld orphaned).2.1 some }
  | touched now => exact { h with }
  | orphaned admitted closers waiting =>
    exact { h with
      unheld := fun _ => ⟨admitted, closers, waiting⟩
      left := fun gone => (h.left gone).imp id (And.imp_left fun _ => rfl) }
  | looks place writer intake =>
    exact { h with
      idle
      taking := fun _ => intake
      aborting := by simp
      left := by simp [intake] }
  | looked place =>
    have intake : x.session.intake = true := h.taking (by simp [place])
    exact { h with
      idle
      taking := by simp
      aborting := by simp
      left := by simp [intake] }
  | parts why =>
    have free : x.session.writer = .idle := idle (by simp)
    have intake : x.session.intake = true := by
      rcases why with ⟨_, _, intake, _⟩ | ⟨place, _⟩
      · exact intake
      · exact h.taking (by simp [place])
    refine { h with
      idle
      taking := fun _ => intake
      aborting := by simp
      left := fun _ => ?_ }
    rcases why with ⟨_, _, _, closing⟩ | ⟨_, orphaned, queue⟩
    · exact .inl (h.closing (.inl closing))
    · exact .inr ⟨orphaned, queue, by simp [free]⟩
  | begins p rest moved ws now queue waiting place =>
    refine { h with
      idle
      alive := by simp
      taking := by simp
      aborting := by simp
      unheld := ?_
      nobody := ?_
      left := ?_ }
    · intro orphaned
      obtain ⟨admitted, closers, none⟩ := h.unheld orphaned
      exact ⟨admitted, closers, by simp_all⟩
    · intro shut
      have none := h.nobody shut
      simp_all
    · intro gone
      rcases place with ⟨_, _, shut⟩ | place
      · rcases h.left (.inr shut) with dead | ⟨_, empty, _⟩
        · exact .inl dead
        · simp [queue] at empty
      · have intake := h.taking (by simp [place])
        simp [intake] at gone
  | releases now queue place =>
    have shut : x.session.intake = false := by
      rcases place with ⟨_, _, shut⟩ | place
      · exact shut
      · exact h.aborting place
    exact { h with
      idle
      alive := by simp
      taking := by simp
      aborting := by simp
      left := fun _ => (h.left (.inr shut)).imp id (And.imp_right (And.imp_right fun _ => rfl)) }
  | givesUp p f place =>
    exact { h with
      idle
      closing := fun _ => x.session.drained_isLive
      taking := fun _ => h.taking (by simp [place])
      aborting := by simp
      left := fun _ => .inl x.session.drained_isLive }
  | reports p f place =>
    exact { h with
      idle
      taking := fun _ => h.taking (by simp [place])
      aborting := by simp
      left := fun _ => h.left (.inl (by simp [place])) }
  | shuts failed place =>
    exact { h with
      idle
      unheld := fun orphaned => ⟨(h.unheld orphaned).1, (h.unheld orphaned).2.1, rfl⟩
      taking := by cases failed <;> simp
      aborting := fun _ => rfl
      nobody := fun _ => rfl
      left := fun _ => h.left (.inl (by simp [place])) }
  | aborts p rest queue place =>
    have gone := h.left (.inl (by simp [place]))
    exact { h with
      idle
      taking := by simp
      aborting := fun _ => h.aborting place
      left := fun _ => gone.imp id fun none => by simp [queue] at none }
  | wrote p since writer =>
    have steady : x.place = .steady := steady_of_busy h.idle (by simp [writer])
    exact { h with
      idle
      alive := by simp
      left := fun gone => (h.left gone).imp id (And.imp_right (And.imp_right fun _ => rfl)) }
  | broke p since f writer intake =>
    exact { h with
      idle
      alive := by simp
      taking := fun _ => intake
      aborting := by simp
      left := by simp [intake] }
  | brokeOff p since f writer shut =>
    -- no write goes on where the queue was shut for want of holders, so the life has ended
    have dead : x.session.isLive = false := by
      rcases h.left (.inr shut) with dead | ⟨_, _, still⟩
      · exact dead
      · simp [writer] at still
    exact { h with
      idle
      alive := by simp
      taking := by simp
      aborting := fun _ => shut
      left := fun _ => .inl dead }
  | released since writer =>
    exact { h with
      idle
      alive := by simp
      closing := fun _ => rfl
      left := fun _ => .inl rfl }

structure Logged (x : Strands) : Prop where
  orderly : Orderly x.log
  writing : underWay x.log = x.session.writer.isWriting
  failed : (∃ e ∈ x.log, e.isFailure = true) →
    x.place.hasFailed = true ∨ x.session.writer.isLeaving = true
  releasing : .releasing ∈ x.log ↔ x.session.writer.isLeaving = true
  released : .released ∈ x.log ↔ x.session.writer = .finished
  removed : x.session.life = .removed ↔ x.session.writer = .finished

theorem Logged.aside {x : Strands} (h : x.Logged) {e : Happening}
    (aside : (∃ first, e = .closed first) ∨ ∃ first, e = .gaveUp first) : (x.note e).Logged := by
  rcases aside with ⟨first, rfl⟩ | ⟨first, rfl⟩ <;>
    exact { h with
      orderly := h.orderly.concat trivial
      writing := by simp [h.writing]
      failed := by simpa [Happening.isFailure] using h.failed
      releasing := by simpa using h.releasing
      released := by simpa using h.released }

theorem Logged.drained {x : Strands} (h : x.Logged) : x.session.drained.life = .removed ↔
    x.session.writer = .finished := by
  rw [← h.removed]
  simp only [Session.drained]
  cases x.session.life <;> simp [Life.drain]

/-- As long as a writer is neither writing nor leaving, and no write has failed, it may go on. -/
theorem Logged.idle {x : Strands} (h : x.Logged) (writer : x.session.writer = .idle) :
    underWay x.log = false ∧ .releasing ∉ x.log ∧ .released ∉ x.log := by
  refine ⟨by rw [h.writing, writer]; rfl, ?_, ?_⟩
  · simp [h.releasing, writer]
  · simp [h.released, writer]

theorem Logged.unfailed {x : Strands} (h : x.Logged) (writer : x.session.writer = .idle)
    (place : x.place.hasFailed = false) : ∀ d ∈ x.log, d.isFailure = false := by
  intro d member
  by_contra failure
  rcases h.failed ⟨d, member, by simpa using failure⟩ with failed | leaving
  · exact Bool.noConfusion (place.symm.trans failed)
  · simp [writer] at leaving

theorem Logged.ends {x y : Strands} (h : x.Logged) {p : Parcel} {since : Nat}
    (writer : x.session.writer = .writing p since) {failure : Option StreamFault}
    (log : y.log = x.log ++ [.ended p failure]) (idle : y.session.writer = .idle)
    (life : y.session.life = x.session.life)
    (stops : (∃ e ∈ y.log, e.isFailure = true) → y.place.hasFailed = true) : y.Logged where
  orderly := by
    rw [log]
    exact h.orderly.concat (by simp [Happening.Follows, h.writing, writer])
  writing := by simp [log, idle]
  failed := fun failed => .inl (stops failed)
  releasing := by simp [log, idle, h.releasing, writer]
  released := by simp [log, idle, h.released, writer]
  removed := by simp [life, idle, h.removed, writer]

theorem Logged.effect {x y : Strands} (h : x.Logged) (coherent : x.Coherent) (effect : Effect x y) :
    y.Logged := by
  have idle := coherent.idle
  cases effect with
  | still => exact h
  | turnedAway p new dead => exact { h with }
  | admitted p new live held => exact { h with }
  | refused p member r => exact { h with }
  | queued p member intake => exact { h with }
  | waits w member intake => exact { h with }
  | left caller kept sublist notices refusals => exact { h with }
  | drained held => exact { h with removed := h.drained }
  | marked i first there =>
    have marked : Logged { x with session := x.session.marked, closers := x.closers.eraseIdx i } :=
      { h with }
    exact marked.aside (.inl ⟨first, rfl⟩)
  | touched now => exact { h with }
  | orphaned admitted closers waiting => exact { h with }
  | looks place writer intake =>
    exact { h with
      failed := fun failed => (h.failed failed).imp (by simp [place]) id }
  | looked place =>
    exact { h with
      failed := fun failed => (h.failed failed).imp (by simp [place]) id }
  | parts why =>
    have place : x.place.hasFailed = false := by
      rcases why with ⟨place, _⟩ | ⟨place, _⟩ <;> simp [place]
    exact { h with failed := fun failed => (h.failed failed).imp (absurd · (by rw [place]; decide)) id }
  | begins p rest moved ws now queue waiting place =>
    have writer : x.session.writer = .idle := idle_of_place idle (by simp) place
    -- after a failed write the writer aborts or leaves, and here it does neither
    have fine : x.place.hasFailed = false := by
      rcases place with ⟨place, _⟩ | place <;> simp [place]
    have unfailed := h.unfailed writer fine
    obtain ⟨still, _, _⟩ := h.idle writer
    exact { h with
      orderly := h.orderly.concat ⟨still, unfailed, by simp [h.releasing, writer]⟩
      writing := by simp
      failed := by
        rintro ⟨e, member, failure⟩
        simp only [note, List.mem_append, List.mem_singleton] at member
        rcases member with old | rfl
        · simp [unfailed e old] at failure
        · simp [Happening.isFailure] at failure
      releasing := by simp [h.releasing, writer]
      released := by simp [h.released, writer]
      removed := by simp [h.removed, writer] }
  | releases now queue place =>
    have writer : x.session.writer = .idle := idle_of_place idle (by simp) place
    obtain ⟨still, unreleased, _⟩ := h.idle writer
    exact { h with
      orderly := h.orderly.concat ⟨still, unreleased⟩
      writing := by simp [still]
      failed := fun _ => .inr rfl
      releasing := by simp
      released := by simp [h.released, writer]
      removed := by simp [h.removed, writer] }
  | givesUp p f place =>
    have drained : Logged { x with session := x.session.drained, place := .reporting p f } :=
      { h with failed := fun _ => .inl rfl, removed := h.drained }
    exact drained.aside (.inr ⟨_, rfl⟩)
  | reports p f place => exact { h with failed := fun _ => .inl rfl }
  | shuts failed place =>
    exact { h with
      failed := fun some => (h.failed some).imp
        (fun before => by simp_all) id }
  | aborts p rest queue place => exact { h with failed := fun _ => .inl rfl }
  | wrote p since writer =>
    have steady : x.place = .steady := steady_of_busy idle (by simp [writer])
    refine h.ends writer rfl rfl rfl ?_
    rintro ⟨e, member, failure⟩
    simp only [tell, note, List.mem_append, List.mem_singleton] at member
    rcases member with old | rfl
    · have failed := h.failed ⟨e, old, failure⟩
      simp [steady, writer] at failed
    · simp [Happening.isFailure] at failure
  | broke p since f writer intake => exact h.ends writer rfl rfl rfl fun _ => rfl
  | brokeOff p since f writer shut => exact h.ends writer rfl rfl rfl fun _ => rfl
  | released since writer =>
    exact { h with
      orderly := h.orderly.concat (by
        simp [Happening.Follows, h.releasing, h.released, writer])
      writing := by simp [h.writing, writer]
      failed := fun _ => .inr rfl
      releasing := by simp [h.releasing, writer]
      released := by simp
      removed := by simp }

/-- How many have begun the end of a session, and whether it is still to be begun. -/
def firsts (x : Strands) : Nat :=
  x.closers.count true + x.log.count (.closed true) + x.log.count (.gaveUp true) +
    x.session.isLive.toNat

theorem count_eraseIdx {i : Nat} {closers : List Bool} {first : Bool}
    (there : closers[i]? = some first) :
    (closers.eraseIdx i).count true + first.toNat = closers.count true := by
  induction closers generalizing i with
  | nil => simp at there
  | cons b bs ih =>
    cases i with
    | zero =>
      obtain rfl : b = first := by simpa using there
      cases b <;> simp
    | succ i =>
      have moved := ih (i := i) (by simpa using there)
      simp only [List.eraseIdx_cons_succ, List.count_cons, ← moved]
      omega

theorem firsts_effect {x y : Strands} (effect : Effect x y) : y.firsts ≤ x.firsts := by
  cases effect with
  | drained held =>
    cases live : x.session.isLive <;>
      simp [firsts, live]
    omega
  | marked i first there =>
    have moved := count_eraseIdx there
    have live : x.session.marked.isLive = x.session.isLive := rfl
    simp only [firsts, note, List.count_append, live]
    cases first <;> simp at moved ⊢ <;> omega
  | givesUp p f place =>
    cases live : x.session.isLive <;>
      simp [firsts, live]
    omega
  | released since writer =>
    have dead : (Life.removed == Life.active) = false := rfl
    simp [firsts, Session.isLive, dead]
  | _ => simp [firsts, Session.isLive, Session.forget]

theorem rank_effect {x y : Strands} (effect : Effect x y) :
    x.session.life.rank ≤ y.session.life.rank := by
  have drained : x.session.life.rank ≤ x.session.drained.life.rank := by
    simp only [Session.drained]
    cases x.session.life <;> simp [Life.drain]
  cases effect with
  | drained held => exact drained
  | givesUp p f place => exact drained
  | released since writer =>
    simp only [note, Session.released]
    cases x.session.life <;> simp
  | _ => exact Nat.le_refl _

theorem sequence_effect {x y : Strands} (coherent : x.Coherent) (effect : Effect x y) :
    x.session.sequence ≤ y.session.sequence ∧ (x.session.writer.isLeaving = true →
      y.session.writer.isLeaving = true ∧ y.session.sequence = x.session.sequence) := by
  cases effect with
  | wrote p since writer => exact ⟨Nat.le_succ _, by simp [writer]⟩
  | broke p since f writer intake => exact ⟨Nat.le_refl _, by simp [writer]⟩
  | brokeOff p since f writer shut => exact ⟨Nat.le_refl _, by simp [writer]⟩
  | begins p rest moved ws now queue waiting place =>
    have writer : x.session.writer = .idle := idle_of_place coherent.idle (by simp) place
    exact ⟨Nat.le_refl _, by simp [writer]⟩
  | releases now queue place => exact ⟨Nat.le_refl _, fun _ => ⟨rfl, rfl⟩⟩
  | released since writer => exact ⟨Nat.le_refl _, fun _ => ⟨rfl, rfl⟩⟩
  | _ => exact ⟨Nat.le_refl _, fun leaving => ⟨leaving, rfl⟩⟩

/-- A parcel is on its way to the stream, or came to it. -/
def OnItsWay (x : Strands) (q : Parcel) : Prop :=
  q ∈ x.admitted ∨ q ∈ x.session.waiting.map (·.parcel) ∨ q ∈ x.session.queue ∨ .began q ∈ x.log

theorem offers_effect {x y : Strands} (effect : Effect x y) : x.offers ⊆ y.offers := by
  cases effect with
  | turnedAway p new dead => exact List.subset_append_left _ _
  | admitted p new live held => exact List.subset_append_left _ _
  | _ => exact fun _ member => member

theorem senders_effect {x y : Strands} (effect : Effect x y) : x.senders ⊆ y.senders :=
  List.map_subset _ (offers_effect effect)

/-- A parcel gets on its way only when its sender comes and sees the session live. -/
theorem onItsWay_effect {x y : Strands} (effect : Effect x y) {q : Parcel} (way : y.OnItsWay q) :
    x.OnItsWay q ∨ (q.caller ∉ x.senders ∧ q ∈ y.offers ∧ x.session.isLive = true) := by
  unfold OnItsWay at way ⊢
  cases effect with
  | admitted p new live held =>
    simp only [List.mem_append, List.mem_singleton] at way
    rcases way with (old | rfl) | rest
    · exact .inl (.inl old)
    · exact .inr ⟨new, by simp, live⟩
    · exact .inl (.inr rest)
  | refused p there r => exact .inl (way.imp List.mem_of_mem_erase id)
  | queued p there intake =>
    simp only [List.mem_append, List.mem_singleton] at way
    rcases way with old | waits | (queue | rfl) | came
    · exact .inl (.inl (List.mem_of_mem_erase old))
    · exact .inl (.inr (.inl waits))
    · exact .inl (.inr (.inr (.inl queue)))
    · exact .inl (.inl there)
    · exact .inl (.inr (.inr (.inr came)))
  | waits w there intake =>
    simp only [List.map_append, List.map_singleton, List.mem_append, List.mem_singleton] at way
    rcases way with old | (waits | rfl) | rest
    · exact .inl (.inl (List.mem_of_mem_erase old))
    · exact .inl (.inr (.inl waits))
    · exact .inl (.inl there)
    · exact .inl (.inr (.inr rest))
  | left caller kept sublist notices refusals =>
    have fewer : (x.session.forget caller).waiting.Sublist x.session.waiting := List.filter_sublist
    exact .inl (way.imp (fun member => sublist.subset member)
      (Or.imp (fun member => (fewer.map (·.parcel)).subset member) id))
  | begins p rest moved ws now queue waiting place =>
    simp only [note, List.mem_append, List.mem_singleton, Happening.began.injEq] at way
    simp only [queue, waiting, List.map_append, List.mem_append, List.mem_cons]
    tauto
  | shuts failed place =>
    simp only [tell, List.map_nil, List.not_mem_nil, false_or] at way
    exact .inl (way.imp id .inr)
  | aborts p rest queue place =>
    simp only [refuses, tell] at way
    rw [queue]
    exact .inl (way.imp id (Or.imp id (Or.imp (List.mem_cons_of_mem p) id)))
  | _ =>
    exact .inl (by simpa using way)

structure Sound (x : Strands) : Prop where
  coherent : x.Coherent
  logged : x.Logged
  firsts : x.firsts ≤ 1
  known : ∀ q, x.OnItsWay q → q ∈ x.offers

theorem sound_start (c : Config) (now : Nat) : (start c now).Sound where
  coherent := by constructor <;> simp
  logged := by
    constructor <;> simp [orderly_nil, underWay]
  firsts := Nat.le_refl 1
  known := by simp [OnItsWay]

theorem Sound.step {x : Strands} (h : x.Sound) (e : Step) : (x.step e).Sound where
  coherent := h.coherent.effect (x.step_effect e)
  logged := h.logged.effect h.coherent (x.step_effect e)
  firsts := Nat.le_trans (firsts_effect (x.step_effect e)) h.firsts
  known := fun q way => by
    rcases onItsWay_effect (x.step_effect e) way with before | ⟨_, known, _⟩
    · exact offers_effect (x.step_effect e) (h.known q before)
    · exact known

theorem Sound.run {x : Strands} (h : x.Sound) (steps : List Step) : (x.run steps).Sound := by
  induction steps generalizing x with
  | nil => exact h
  | cons e steps ih => exact ih (h.step e)

theorem rank_run (x : Strands) (steps : List Step) :
    x.session.life.rank ≤ (x.run steps).session.life.rank := by
  induction steps generalizing x with
  | nil => exact Nat.le_refl _
  | cons e steps ih => exact Nat.le_trans (rank_effect (x.step_effect e)) (ih (x.step e))

theorem Sound.sequence_run {x : Strands} (h : x.Sound) (steps : List Step) :
    x.session.sequence ≤ (x.run steps).session.sequence ∧
    (x.session.writer.isLeaving = true → (x.run steps).session.sequence = x.session.sequence) := by
  induction steps generalizing x with
  | nil => exact ⟨Nat.le_refl _, fun _ => rfl⟩
  | cons e steps ih =>
    obtain ⟨grows, stays⟩ := sequence_effect h.coherent (x.step_effect e)
    obtain ⟨grows', stays'⟩ := ih (h.step e)
    refine ⟨Nat.le_trans grows grows', fun leaving => ?_⟩
    obtain ⟨leaving', same⟩ := stays leaving
    exact (stays' leaving').trans same

/-- Who has called and has no parcel on its way never gets one to the stream. -/
theorem absent_run {x : Strands} {caller : Caller} (called : caller ∈ x.senders)
    (absent : ∀ q, x.OnItsWay q → q.caller ≠ caller) (steps : List Step) :
    ∀ q, (x.run steps).OnItsWay q → q.caller ≠ caller := by
  induction steps generalizing x with
  | nil => exact absent
  | cons e steps ih =>
    refine ih (senders_effect (x.step_effect e) called) fun q way => ?_
    rcases onItsWay_effect (x.step_effect e) way with before | ⟨new, _⟩
    · exact absent q before
    · exact fun same => new (same ▸ called)

theorem isLive_iff (s : Session) : s.isLive = true ↔ s.life.rank = 0 := by
  unfold Session.isLive
  cases s.life <;> simp

theorem dead_run {x : Strands} (dead : x.session.isLive = false) (steps : List Step) :
    (x.run steps).session.isLive = false := by
  have forward := x.rank_run steps
  rw [← Bool.not_eq_true, isLive_iff] at dead ⊢
  omega

theorem step_check_dead {x : Strands} {p : Parcel} (dead : x.session.isLive = false)
    (new : p.caller ∉ x.senders) (held : x.session.orphaned = false) :
    x.step (.check p) = { x with offers := x.offers ++ [p] }.tell [⟨p.caller, .closed⟩] := by
  simp [step, new, held, dead]

/-- Whatever comes in between the steps of callers and writer:
the life of a session goes forward only;
while somebody who holds it sees it live its queue is open, it is not closing and nobody who comes
to the queue is told that it is closed;
once it is not live each new send is refused and its parcel never comes to the stream;
what happens to the stream is orderly;
the life is over exactly when the stream has been released;
the number of written parcels never falls, and stays once the stream is being released;
and at most one close begins the end, and none if the writer did after a failed write. -/
theorem lifecycle_safe (c : Config) (now : Nat) (steps : List Step) :
    let x := (start c now).run steps
    (∀ more, x.session.life.rank ≤ (x.run more).session.life.rank) ∧
    (x.session.isLive = true → x.session.orphaned = false →
      x.session.intake = true ∧ x.session.closing = false ∧
      ∀ p patience spent now, (x.session.accept p patience spent now).2 ≠ some (.failed .closed)) ∧
    (x.session.isLive = false → ∀ more p, let y := x.run more
      p.caller ∉ y.senders → y.session.orphaned = false →
      (y.step (.check p)).told = y.told ++ [⟨p.caller, .closed⟩] ∧
      (y.step (.check p)).session = y.session ∧
      ∀ later q, .began q ∈ ((y.step (.check p)).run later).log → q.caller ≠ p.caller) ∧
    Orderly x.log ∧
    (x.session.life = .removed ↔ .released ∈ x.log) ∧
    (∀ more, x.session.sequence ≤ (x.run more).session.sequence ∧
      (.releasing ∈ x.log → (x.run more).session.sequence = x.session.sequence)) ∧
    x.log.count (.closed true) ≤ 1 ∧ (.closed true ∈ x.log → .gaveUp true ∉ x.log) := by
  intro x
  have h : x.Sound := (sound_start c now).run steps
  refine ⟨x.rank_run, ?_, ?_, h.logged.orderly, ?_, ?_, ?_, ?_⟩
  · intro live held
    have intake : x.session.intake = true := by
      by_contra shut
      rcases h.coherent.left (.inr (by simpa using shut)) with dead | ⟨orphaned, _⟩
      · simp [live] at dead
      · simp [held] at orphaned
    refine ⟨intake, ?_, Session.accept_open intake⟩
    by_contra closing
    simp [h.coherent.closing (.inl (by simpa using closing))] at live
  · intro dead more p y new held
    have checked : y.step (.check p) = _ := step_check_dead (dead_run dead more) new held
    refine ⟨by rw [checked]; rfl, by rw [checked]; rfl, fun later q began => ?_⟩
    have absent : ∀ q, (y.step (.check p)).OnItsWay q → q.caller ≠ p.caller := by
      rw [checked]
      exact fun q way same => new (same ▸ List.mem_map_of_mem ((h.run more).known q way))
    refine absent_run ?_ absent later q (.inr (.inr (.inr began)))
    rw [checked]
    exact List.mem_map_of_mem (List.mem_append_right _ (List.mem_singleton_self p))
  · rw [h.logged.removed, h.logged.released]
  · intro more
    obtain ⟨grows, stays⟩ := h.sequence_run more
    exact ⟨grows, fun releasing => stays (h.logged.releasing.mp releasing)⟩
  · have once := h.firsts
    unfold firsts at once
    omega
  · intro closed gaveUp
    have once := h.firsts
    have one := List.count_pos_iff.mpr closed
    have two := List.count_pos_iff.mpr gaveUp
    unfold firsts at once
    omega

end Strands

end Courier
