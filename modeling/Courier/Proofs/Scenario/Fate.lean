import Courier.Proofs.Scenario.Departure
import Courier.Proofs.Scenario.Isolation

set_option autoImplicit false

namespace Courier.Scenario

def Labels.others (n : Nat) : Labels where
  call m _ := m ≠ n
  gathering _ _ := True
  watch _ := True

namespace World

variable {n : Nat} {tag : String} {home : Key} {x : Waiter} {left : Bool} {w w' : World} {s : Step}

theorem Owned.perform (owned : w.Owned n tag) (settled : w.next? = none) (apart : s.connects = false)
    (named : tag ∉ s.tags) : (w.perform s).1.Owned n tag where
  sane := (perform_sane owned.sane settled apart).1
  bears := owned.bears.perform owned.sane settled apart fun t there => by
    have other : t ≠ tag := fun same => named (same ▸ there)
    refine ⟨other, fun m after _ => ?_⟩
    have later : m ≠ n := Nat.ne_of_gt (Nat.lt_of_lt_of_le owned.began after)
    exact ⟨iff_of_false other later, later, other⟩
  began := by
    rw [sends_perform owned.sane settled apart]
    exact Nat.lt_of_lt_of_le owned.began (Nat.le_add_right ..)

theorem Owned.welcomes (owned : w.Owned n tag) {r : Session.Rule}
    (permits : ∀ m, m ≠ n → r.permits (.sender m)) (count : Nat) : w.Welcomes r.permits count :=
  fun m after _ => permits m (Nat.ne_of_gt (Nat.lt_of_lt_of_le owned.began after))

theorem Departed.perform (departed : w.Departed n) (owned : w.Owned n tag) (settled : w.next? = none)
    (apart : s.connects = false) : (w.perform s).1.Departed n where
  nowhere := departed.nowhere.perform (owned.welcomes (fun m other => by
    simpa [Session.Rule.places] using other) _)
  silent := by
    have bears : w.Bears (.others n) := ⟨departed.silent, fun _ _ => trivial, fun _ _ => trivial⟩
    refine (bears.perform owned.sane settled apart fun t _ => ⟨trivial, fun m after _ => ?_⟩).calls
    exact ⟨Nat.ne_of_gt (Nat.lt_of_lt_of_le owned.began after), trivial⟩

theorem giveUp_own {q : Key → Bool} (w : World) {c : Call} (own : c.sender = n) :
    (w.giveUp c).without n tag q = w.without n tag q := by
  have forgot : (w.hub.updateSession c.key (·.forget (.sender c.sender))).without (.sender n) q =
      (w.hub.without (.sender n) q).updateSession c.key id :=
    Hub.without_updateSession fun s => by
      rw [own]
      exact s.forget_gone (o := .sender n)
  have same (h : Hub) : h.updateSession c.key id = h := by
    change { h with lanes := h.lanes.modify c.key id } = h
    rw [List.modify_id]
  simp only [giveUp, without, forgot, same]

theorem abort_own_without {q : Key → Bool} (bears : w.Bears (.owned n tag)) :
    (w.abort tag).without n tag q = w.without n tag q := by
  have gaveUp : ((w.calls.filter (·.tag == tag)).foldl giveUp w).without n tag q = w.without n tag q ∧
      Narrows w ((w.calls.filter (·.tag == tag)).foldl giveUp w) := by
    refine List.foldlRecOn
      (motive := fun v : World => v.without n tag q = w.without n tag q ∧ Narrows w v)
      (w.calls.filter (·.tag == tag)) giveUp ⟨rfl, .refl w⟩ fun v before c member => ?_
    obtain ⟨there, own⟩ := List.mem_filter.mp member
    exact ⟨(v.giveUp_own ((bears.calls c there).mp (by simpa using own))).trans before.1,
      before.2.trans (v.narrows_hub (v.hub.updateSession c.key (·.forget (.sender c.sender)))
        (fun _ there => there) (by simp))⟩
  obtain ⟨done, narrows⟩ := gaveUp
  have bears := bears.narrows narrows
  unfold abort
  rw [← done]
  generalize (w.calls.filter (·.tag == tag)).foldl giveUp w = v at bears
  have watches : v.watches.filter (·.tag != tag) = v.watches :=
    List.filter_eq_self.mpr fun u there => bne_iff_ne.mpr (bears.watches u there)
  have gatherings : v.gatherings.filter (·.tag != tag) = v.gatherings :=
    List.filter_eq_self.mpr fun g there => bne_iff_ne.mpr (bears.gatherings g there).2
  have calls : (v.calls.filter (·.tag != tag)).filter (·.sender != n) = v.calls.filter (·.sender != n) := by
    rw [List.filter_filter]
    refine List.filter_congr fun c there => ?_
    have label := bears.calls c there
    by_cases own : c.sender = n
    · simp [own]
    · simp [own, label.not.mpr own]
  simp only [without, watches, gatherings, calls]

theorem abort_nothing {q : Key → Bool} (bears : w.Bears (.owned n tag)) :
    (w.without n tag q).abort tag = w.without n tag q := by
  have others : ∀ c ∈ (w.without n tag q).calls, c.tag ≠ tag := by
    intro c there own
    obtain ⟨d, member, rfl⟩ := List.mem_map.mp there
    obtain ⟨there, other⟩ := List.mem_filter.mp member
    simp only [bne_iff_ne, ne_eq] at other
    exact other ((bears.calls d there).mp own)
  have none : (w.without n tag q).calls.filter (·.tag == tag) = [] :=
    List.filter_eq_nil_iff.mpr fun c there => by simpa using others c there
  have calls : (w.without n tag q).calls.filter (·.tag != tag) = (w.without n tag q).calls :=
    List.filter_eq_self.mpr fun c there => by simpa using others c there
  have watches : (w.without n tag q).watches.filter (·.tag != tag) = (w.without n tag q).watches :=
    List.filter_eq_self.mpr fun u there => bne_iff_ne.mpr (bears.watches u there)
  have gatherings : (w.without n tag q).gatherings.filter (·.tag != tag) =
      (w.without n tag q).gatherings := by
    refine List.filter_eq_self.mpr fun g there => ?_
    obtain ⟨g₀, there₀, rfl⟩ := List.mem_map.mp there
    exact bne_iff_ne.mpr (bears.gatherings g₀ there₀).2
  unfold abort
  rw [none]
  simp only [List.foldl_nil, calls, watches, gatherings]

theorem Owned.begin (owned : w.Owned n tag) {s : Send} (named : s.tag ≠ tag) :
    (w.begin s).Owned n tag where
  sane := (steady_begin owned.sane.alone s).sane owned.sane
  bears := by
    have later : w.sends ≠ n := Nat.ne_of_gt owned.began
    exact owned.bears.begins (begins_begin w s) (iff_of_false named later) ⟨later, named⟩
  began := by
    rw [sends_begin]
    exact Nat.lt_succ_of_lt owned.began

theorem calls_of_begin (w : World) (s : Send) {c : Call} (there : c ∈ (w.begin s).calls) :
    c ∈ w.calls ∨ c.sender = w.sends := by
  refine w.begin_induct s (P := fun v => ∀ c ∈ v.calls, c ∈ w.calls ∨ c.sender = w.sends)
    (fun _ _ c there => .inl there) (fun _ before => before) (fun _ _ _ before => before) ?_
    (fun _ _ _ before => before) (fun v before => by rwa [calls_gather]) c there
  intro v d payload patience sender _ _ before c there
  rcases List.mem_append.mp ((v.narrows_offer d payload patience).calls c there) with old | new
  · exact before c old
  · exact .inr (List.mem_singleton.mp new ▸ sender)

theorem Waits.begin (waits : w.Waits n tag home x) {s : Send} (named : s.tag ≠ tag) :
    (w.begin s).Waits n tag home x := by
  have later : w.sends ≠ n := Nat.ne_of_gt waits.began
  obtain ⟨c, there, own⟩ := waits.called
  exact {
    waits.toOwned.begin named with
    stands := {
      caller := waits.stands.caller
      awaits := waits.stands.awaits.begin s
      once := waits.stands.once.begin (by simpa [Session.Rule.places] using later)
      keyed := fun d member mine => (w.calls_of_begin s member).elim
        (fun old => waits.stands.keyed d old mine) fun new => absurd (new.symm.trans mine) later }
    called := ⟨c, w.calls_begin there s, own⟩
    spared := waits.spared.begin waits.bears later named }

theorem Waits.sends (waits : w.Waits n tag home x) {sends : List Send}
    (named : tag ∉ sends.map (·.tag)) : (sends.foldl World.begin w).Waits n tag home x := by
  induction sends generalizing w with
  | nil => exact waits
  | cons s sends ih =>
    simp only [List.map_cons, List.mem_cons, not_or] at named
    exact ih (waits.begin (Ne.symm named.1)) named.2

theorem Spared.perform (spared : w.Spared tag) (owned : w.Owned n tag) {s : Step}
    (timeless : s.elapses = false) (apart : s.connects = false) (named : tag ∉ s.tags)
    (others : ∀ token, s = .cancel token →
      w.Waiters fun u => u.patience.token = some token → u.parcel.caller ≠ .sender n) :
    (w.perform s).1.Spared tag := by
  cases plain : s.isPlain with
  | true =>
    have same := (idles_perform owned.sane.alone plain).finished
    exact fun f there => spared f (same ▸ there)
  | false =>
    cases s with
    | watch name t =>
      simp only [World.perform]
      split <;> exact spared
    | send sends =>
      have each (sends : List Send) : ∀ v : World, v.Owned n tag → v.Spared tag →
          tag ∉ sends.map (·.tag) → (sends.foldl World.begin v).Spared tag := by
        induction sends with
        | nil => exact fun _ _ spared _ => spared
        | cons s sends ih =>
          intro v owned spared named
          simp only [List.map_cons, List.mem_cons, not_or] at named
          have apart := Ne.symm named.1
          exact ih _ (owned.begin apart)
            (spared.begin owned.bears (Nat.ne_of_gt owned.began) apart) named.2
      exact each sends w owned spared named
    | abort t =>
      have kept : ((w.calls.filter (·.tag == t)).foldl giveUp w).finished = w.finished :=
        List.foldlRecOn (motive := fun v : World => v.finished = w.finished) _ giveUp rfl
          fun _ before _ _ => before
      exact fun f there => spared f (kept ▸ there)
    | cancel token => exact (cancel_others owned.sane spared owned.bears (others token rfl)).1
    | advance ms => simp at timeless
    | jump ms => simp at timeless
    | connect name peer maxRequest => simp at apart
    | _ => simp at plain

/-- Who waits goes on to wait in a step that takes no time, unless it is dropped or its token is
cancelled. -/
theorem Waits.perform (waits : w.Waits n tag home x) (settled : w.next? = none)
    (timeless : s.elapses = false) (apart : s.connects = false) (named : tag ∉ s.tags)
    (kept : s ≠ .abort tag)
    (others : ∀ token, s = .cancel token →
      w.Waiters fun u => u.patience.token = some token → u.parcel.caller ≠ .sender n) :
    (w.perform s).1.Waits n tag home x := by
  have once : (w.perform s).1.Obeys (.places n fun key => if key = home then 1 else 0) :=
    waits.stands.once.perform (waits.toOwned.welcomes (fun m other => by
      simpa [Session.Rule.places] using other) _)
  have spared := waits.spared.perform waits.toOwned timeless apart named others
  obtain ⟨c, there, own⟩ := waits.called
  suffices goes : (w.perform s).1.Awaits home x ∧ (∃ c ∈ (w.perform s).1.calls, c.sender = n) ∧
      ∀ d ∈ (w.perform s).1.calls, d.sender = n → d.key = home from
    { waits.toOwned.perform settled apart named with
      stands := ⟨waits.stands.caller, goes.1, once, goes.2.2⟩
      called := goes.2.1
      spared }
  cases plain : s.isPlain with
  | true =>
    have idles := idles_perform waits.sane.alone plain
    rw [idles.calls]
    exact ⟨waits.stands.awaits.idles idles, waits.called, waits.stands.keyed⟩
  | false =>
    cases s with
    | watch name t =>
      simp only [World.perform]
      split <;> exact ⟨waits.stands.awaits, waits.called, waits.stands.keyed⟩
    | send sends =>
      have begun := waits.sends named
      exact ⟨begun.stands.awaits, begun.called, begun.stands.keyed⟩
    | abort t =>
      have other : t ≠ tag := fun same => kept (by rw [same])
      have gaveUp : ((w.calls.filter (·.tag == t)).foldl giveUp w).Stands n home x ∧
          ((w.calls.filter (·.tag == t)).foldl giveUp w).calls = w.calls := by
        refine List.foldlRecOn (motive := fun v : World => v.Stands n home x ∧ v.calls = w.calls)
          (w.calls.filter (·.tag == t)) giveUp ⟨waits.stands, rfl⟩ fun v before d member => ?_
        obtain ⟨at_d, label⟩ := List.mem_filter.mp member
        refine ⟨before.1.giveUp_other fun mine => ?_, before.2⟩
        exact absurd ((beq_iff_eq.mp label).symm.trans ((waits.bears.calls d at_d).mpr mine)) other
      refine ⟨gaveUp.1.awaits, ⟨c, List.mem_filter.mpr ⟨?_, ?_⟩, own⟩, fun d member => ?_⟩
      · rw [gaveUp.2]
        exact there
      · rw [(waits.bears.calls c there).mpr own]
        exact bne_iff_ne.mpr (Ne.symm other)
      · exact gaveUp.1.keyed d (List.mem_of_mem_filter member)
    | cancel token =>
      obtain ⟨_, awaits, calls⟩ :=
        cancel_others waits.sane waits.spared waits.bears (others token rfl)
      exact ⟨awaits home x waits.stands.caller waits.stands.awaits, ⟨c, calls c there own, own⟩,
        fun d member mine =>
          waits.stands.keyed d ((narrows_cancel waits.sane.alone token).calls d member) mine⟩
    | advance ms => simp at timeless
    | jump ms => simp at timeless
    | connect name peer maxRequest => simp at apart
    | _ => simp at plain

theorem early?_of_settled (settled : w.next? = none) : w.early? = none := by
  rw [next?_eq, Option.orElse_eq_none] at settled
  exact settled.1

theorem Absent.perform (absent : Absent n tag w w') (settled : w.next? = none)
    (apart : s.connects = false) (named : tag ∉ s.tags) :
    Absent n tag (w.perform s).1 (w'.perform s).1 := by
  have settled' : w'.next? = none := by rw [absent.next, settled]; rfl
  have sane' : w'.Sane := by rw [absent.same]; exact { absent.sane with }
  have now : w'.now = w.now := by rw [absent.same]; rfl
  have goes (same : (w'.perform s).1 = (w.perform s).1.without n tag fun _ => false) :
      Absent n tag (w.perform s).1 (w'.perform s).1 :=
    ⟨absent.toOwned.perform settled apart named,
      absent.departed.perform absent.toOwned settled apart, same⟩
  by_cases dropped : s = .abort tag
  · subst dropped
    refine goes ?_
    simp only [World.perform]
    rw [absent.same, abort_nothing absent.bears, abort_own_without absent.bears]
  cases timeless : s.elapses with
  | false =>
    refine goes ?_
    rw [absent.same]
    exact (perform_without absent.sane.alone absent.bears absent.began rfl timeless apart named
      dropped).symm
  | true =>
    cases s with
    | advance ms =>
      have passes' := passes_advance sane' settled' ms
      rw [now] at passes'
      exact absent.passes settled (passes_advance absent.sane settled ms) passes'
    | jump ms =>
      have settles' := settles_settle (sane_now sane' (w'.now + ms))
      rw [now] at settles'
      have jumped := (absent.time (w.now + ms)).settles (settles_settle (sane_now absent.sane _)) settles'
      simp only [World.perform, jump]
      rwa [now]
    | _ => simp at timeless

theorem Arrived.perform (arrived : w.Arrived n tag) (settled : w.next? = none)
    (apart : s.connects = false) (named : tag ∉ s.tags) : (w.perform s).1.Arrived n tag := by
  cases timeless : s.elapses with
  | false =>
    exact ⟨arrived.toOwned.perform settled apart named,
      arrived.spared.perform arrived.toOwned timeless apart named fun _ _ key l there u waits _ =>
        arrived.nowhere key l there u waits,
      arrived.nowhere.perform (arrived.toOwned.welcomes (fun m other v own => by
        simpa [own] using other) _)⟩
  | true =>
    cases s with
    | advance ms =>
      exact arrived.passes settled (Nat.le_add_right ..) (passes_advance arrived.sane settled ms)
    | jump ms =>
      have later : Arrived n tag { w with now := w.now + ms } :=
        ⟨arrived.toOwned.time _, arrived.spared, arrived.nowhere.later (Nat.le_add_right ..)⟩
      exact later.settles (settles_settle later.sane)
    | _ => simp at timeless

theorem stuck_lapse {t : Nat} (alone : w.visitors = []) {key : Key} {l : Lane}
    (there : w.hub.lane? key = some l) (stuck : ∃ m, w.hub.lane? home = some m ∧ IsStuck t m)
    (c : Caller) : ∃ m, (w.update key (l.lapse c)).hub.lane? home = some m ∧ IsStuck t m := by
  obtain ⟨m, at_home, stuck⟩ := stuck
  by_cases apart : key ≠ home
  · exact ⟨m, lane?_update alone apart _ ▸ at_home, stuck⟩
  · obtain rfl := not_not.mp apart
    obtain rfl : l = m := Option.some.inj (there.symm.trans at_home)
    have hub := hub_deliver_lapsed (w := { w with hub := w.hub.setLane key (l.lapse c).1 }) alone key c
    refine ⟨(l.lapse c).1, ?_, stuck.lapse c⟩
    calc (w.update key (l.lapse c)).hub.lane? key
      _ = (w.hub.setLane key (l.lapse c).1).lane? key := congrArg (·.lane? key) hub
      _ = some (l.lapse c).1 := Hub.lane?_setLane_self there _

theorem stuck_cancel {t : Nat} (alone : w.visitors = [])
    (stuck : ∃ m, w.hub.lane? home = some m ∧ IsStuck t m) (token : String) :
    ∃ m, (w.cancel token).hub.lane? home = some m ∧ IsStuck t m := by
  refine (cancel_induct (w := w) (q := fun _ => True)
    (P := fun v => v.visitors = [] ∧ ∃ m, v.hub.lane? home = some m ∧ IsStuck t m)
    ⟨alone, stuck⟩ (fun _ _ _ _ _ _ _ _ => trivial) ?_).2
  intro v key l u before there _
  exact ⟨(narrows_update before.1 key _).visitors.trans before.1,
    stuck_lapse before.1 there before.2 u.parcel.caller⟩

theorem stuck_abort {t : Nat} (stuck : ∃ m, w.hub.lane? home = some m ∧ IsStuck t m) (tag : String) :
    ∃ m, (w.abort tag).hub.lane? home = some m ∧ IsStuck t m := by
  refine List.foldlRecOn (motive := fun v : World => ∃ m, v.hub.lane? home = some m ∧ IsStuck t m)
    (w.calls.filter (·.tag == tag)) giveUp stuck fun v before c _ => ?_
  obtain ⟨m, there, stuck⟩ := before
  refine ⟨_, (Hub.lane?_modify v.hub c.key _ home).trans (by rw [there]; rfl), ?_⟩
  split
  · exact stuck.lapse (.sender c.sender)
  · exact stuck

theorem Lingers.stuck (lingers : Lingers n tag home x left w w') (settled : w.next? = none) :
    ∃ m, w.hub.lane? home = some m ∧ IsStuck w.now m := by
  obtain ⟨l, there, _⟩ := lingers.stands.awaits
  exact ⟨l, there, still_of_early? (early?_of_settled settled) there, lingers.queued there⟩

theorem Lingers.abort (lingers : Lingers n tag home x left w w') (settled : w.next? = none) :
    Leaves n tag home (w.perform (.abort tag)).1 (w'.perform (.abort tag)).1 := by
  have owned : (w.abort tag).Owned n tag := lingers.toOwned.perform settled rfl (s := .abort tag) (by
    simp)
  have still := (steady_abort lingers.sane.alone tag).now
  have nothing : w'.abort tag = w' := by rw [lingers.same, abort_nothing lingers.bears]
  simp only [World.perform, nothing]
  refine leaves_of owned (lingers.stands.abort_own lingers.bears lingers.called) ?_ lingers.forlorn
    (still ▸ stuck_abort (lingers.stuck settled) tag)
  rw [lingers.same, abort_own_without lingers.bears]

/-- A sender that waits goes on to wait in a step, or leaves, or arrives. -/
theorem Lingers.perform (lingers : Lingers n tag home x left w w') (settled : w.next? = none)
    (settled' : w'.next? = none) (apart : s.connects = false) (named : tag ∉ s.tags) :
    Fate n tag home x (w.perform s).1 (w'.perform s).1 ∨
      Leaves n tag home (w.perform s).1 (w'.perform s).1 := by
  have sane' : w'.Sane := by rw [lingers.same]; exact { lingers.sane with }
  have now : w'.now = w.now := by rw [lingers.same]; rfl
  have owned := lingers.toOwned.perform settled apart named
  have forlorn (seen : left = true) : (w'.perform s).1.Forlorn home :=
    (lingers.forlorn seen).perform sane' settled' apart
  by_cases dropped : s = .abort tag
  · exact .inr (dropped ▸ lingers.abort settled)
  cases timeless : s.elapses with
  | true =>
    cases s with
    | advance ms =>
      have passes' := passes_advance sane' settled' ms
      rw [now] at passes'
      exact .inl (lingers.passes settled settled' (Nat.le_add_right ..)
        (passes_advance lingers.sane settled ms) passes')
    | jump ms =>
      have settles' := settles_settle (sane_now sane' (w'.now + ms))
      rw [now] at settles'
      have jumped := (lingers.time (Nat.le_add_right w.now ms)).settles
        (settles_settle (sane_now lingers.sane _)) settles'
      simp only [World.perform, jump]
      rw [now]
      exact .inl jumped
    | _ => simp at timeless
  | false =>
    have same : (w'.perform s).1 = (w.perform s).1.without n tag fun key => left && key == home := by
      have new : (left && w.hub.lanes.length == home) = false := by
        obtain ⟨l, there, _⟩ := lingers.stands.awaits
        have inside := (List.getElem?_eq_some_iff.mp there).1
        simp [Nat.ne_of_gt inside]
      rw [lingers.same]
      exact (perform_without lingers.sane.alone lingers.bears lingers.began new timeless apart named
        dropped).symm
    -- a cancelled token lets those lapse who wait with it, the sender perhaps among them
    by_cases others : ∀ token, s = .cancel token →
        w.Waiters fun u => u.patience.token = some token → u.parcel.caller ≠ .sender n
    · have waits := lingers.toWaits.perform settled timeless apart named dropped others
      exact .inl (.inl ⟨left, { waits with
        admitted := lingers.admitted.perform fun _ _ _ => trivial
        same, forlorn }⟩)
    · push Not at others
      obtain ⟨token, rfl, others⟩ := others
      simp only [Waiters, not_forall, not_not] at others
      obtain ⟨key, m, at_key, u, waits, own, mine⟩ := others
      obtain rfl : key = home := lingers.stands.key at_key (List.mem_map.mpr ⟨u, waits, mine⟩)
      have stands : w.Stands n key u := { lingers.stands with
        caller := mine, awaits := ⟨m, at_key, waits⟩ }
      have still := (steady_cancel lingers.sane.alone token).now
      exact .inr (leaves_of owned (stands.cancel_own lingers.sane.alone own) same forlorn
        (still ▸ stuck_cancel lingers.sane.alone (lingers.stuck settled) token))

theorem Absent.begin (absent : Absent n tag w w') {s : Send} (named : s.tag ≠ tag) :
    Absent n tag (w.begin s) (w'.begin s) where
  toOwned := absent.toOwned.begin named
  departed := by
    have later : w.sends ≠ n := Nat.ne_of_gt absent.began
    refine ⟨absent.departed.nowhere.begin (by simpa [Session.Rule.places] using later),
      fun c there own => ?_⟩
    rcases w.calls_of_begin s there with old | new
    · exact absent.departed.silent c old own
    · exact later (new.symm.trans own)
  same := by
    rw [absent.same]
    exact (begin_without absent.bears absent.began named).symm

theorem Arrived.begin (arrived : w.Arrived n tag) {s : Send} (named : s.tag ≠ tag) :
    (w.begin s).Arrived n tag where
  toOwned := arrived.toOwned.begin named
  spared := arrived.spared.begin arrived.bears (Nat.ne_of_gt arrived.began) named
  nowhere := by
    have later : w.sends ≠ n := Nat.ne_of_gt arrived.began
    refine (comes_begin (fun v own => ?_) s).obeys arrived.nowhere
    simpa [own] using later

theorem Lingers.begin (lingers : Lingers n tag home x left w w') {s : Send} (named : s.tag ≠ tag) :
    Lingers n tag home x left (w.begin s) (w'.begin s) where
  toWaits := lingers.toWaits.begin named
  admitted := (comes_begin trivial s).obeys lingers.admitted
  same := by
    rw [lingers.same]
    exact (begin_without lingers.bears lingers.began named).symm
  forlorn seen := (begins_begin w' s).forlorn (lingers.forlorn seen)

theorem Fate.begin (fate : Fate n tag home x w w') {s : Send} (named : s.tag ≠ tag) :
    Fate n tag home x (w.begin s) (w'.begin s) := by
  rcases fate with ⟨left, lingers⟩ | absent | arrived
  · exact .inl ⟨left, lingers.begin named⟩
  · exact .inr (.inl (absent.begin named))
  · exact .inr (.inr (arrived.begin named))

theorem Fate.sends (fate : Fate n tag home x w w') {sends : List Send}
    (named : tag ∉ sends.map (·.tag)) :
    Fate n tag home x (sends.foldl World.begin w) (sends.foldl World.begin w') := by
  induction sends generalizing w w' with
  | nil => exact fate
  | cons s sends ih =>
    simp only [List.map_cons, List.mem_cons, not_or] at named
    exact ih (fate.begin (Ne.symm named.1)) named.2

theorem Fate.settles {v v' : World} (fate : Fate n tag home x w w') (settles : Settles w v)
    (settles' : Settles w' v') : Fate n tag home x v v' := by
  rcases fate with ⟨left, lingers⟩ | absent | arrived
  · exact lingers.settles settles settles'
  · exact .inr (.inl (absent.settles settles settles'))
  · exact .inr (.inr (arrived.settles settles))

/-- A world between two steps of a scenario. -/
structure Rests (w : World) : Prop where
  sane : w.Sane
  settled : w.next? = none

def clear (w : World) : World := { w with finished := [] }

theorem Rests.clear (rests : w.Rests) : w.clear.Rests :=
  ⟨{ rests.sane with }, (next?_finished rests.sane.alone []).trans rests.settled⟩

theorem Rests.settles (rests : w.Rests) (apart : s.connects = false) :
    Settles (w.clear.perform s).1 (w.run s).1 := by
  have done := (perform_sane rests.clear.sane rests.clear.settled apart).1
  have settles := settles_settle done
  rw [run_fst w s (settles.settled done).2.2.alone]
  exact settles

theorem Rests.run (rests : w.Rests) (apart : s.connects = false) : (w.run s).1.Rests := by
  have done := (perform_sane rests.clear.sane rests.clear.settled apart).1
  have after := (rests.settles apart).settled done
  exact ⟨after.2.2, after.1⟩

theorem Absent.clear (absent : Absent n tag w w') : Absent n tag w.clear w'.clear where
  sane := { absent.sane with }
  bears := { absent.bears with }
  began := absent.began
  departed := { absent.departed with }
  same := by rw [absent.same]; rfl

theorem Arrived.clear (arrived : w.Arrived n tag) : w.clear.Arrived n tag where
  sane := { arrived.sane with }
  bears := { arrived.bears with }
  began := arrived.began
  spared := fun _ there => absurd there List.not_mem_nil
  nowhere := arrived.nowhere

theorem Lingers.clear (lingers : Lingers n tag home x left w w') :
    Lingers n tag home x left w.clear w'.clear where
  sane := { lingers.sane with }
  bears := { lingers.bears with }
  began := lingers.began
  stands := { lingers.stands with }
  called := lingers.called
  spared := fun _ there => absurd there List.not_mem_nil
  admitted := lingers.admitted
  same := by rw [lingers.same]; rfl
  forlorn seen := { lingers.forlorn seen with }

theorem Absent.rests (absent : Absent n tag w w') (rests : w.Rests) : w'.Rests where
  sane := by rw [absent.same]; exact { rests.sane with }
  settled := by rw [absent.next, rests.settled]; rfl

theorem Absent.run (absent : Absent n tag w w') (rests : w.Rests) (apart : s.connects = false)
    (named : tag ∉ s.tags) : Absent n tag (w.run s).1 (w'.run s).1 :=
  (absent.clear.perform rests.clear.settled apart named).settles (rests.settles apart)
    ((absent.rests rests).settles apart)

theorem Arrived.run (arrived : w.Arrived n tag) (rests : w.Rests) (apart : s.connects = false)
    (named : tag ∉ s.tags) : (w.run s).1.Arrived n tag :=
  (arrived.clear.perform rests.clear.settled apart named).settles (rests.settles apart)

theorem Lingers.run (lingers : Lingers n tag home x left w w') (rests : w.Rests) (rests' : w'.Rests)
    (apart : s.connects = false) (named : tag ∉ s.tags) :
    Fate n tag home x (w.run s).1 (w'.run s).1 := by
  have settles := rests.settles apart
  have settles' := rests'.settles apart
  rcases lingers.clear.perform rests.clear.settled rests'.clear.settled apart named with fate | leaves
  · exact fate.settles settles settles'
  · exact .inr (.inl (leaves.settles settles settles'))

theorem Lingers.run_abort (lingers : Lingers n tag home x left w w') (rests : w.Rests)
    (rests' : w'.Rests) : Absent n tag (w.run (.abort tag)).1 (w'.run (.abort tag)).1 :=
  (lingers.clear.abort rests.clear.settled).settles (rests.settles rfl) (rests'.settles rfl)

theorem Fate.run (fate : Fate n tag home x w w') (rests : w.Rests) (rests' : w'.Rests)
    (apart : s.connects = false) (named : tag ∉ s.tags) :
    Fate n tag home x (w.run s).1 (w'.run s).1 := by
  rcases fate with ⟨left, lingers⟩ | absent | arrived
  · exact lingers.run rests rests' apart named
  · exact .inr (.inl (absent.run rests apart named))
  · exact .inr (.inr (arrived.run rests apart named))

end World

end Courier.Scenario
