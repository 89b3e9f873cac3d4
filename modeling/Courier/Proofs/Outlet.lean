import Courier.Proofs.Framing

set_option autoImplicit false

namespace Courier

/-- What a stream takes of bytes if it takes so many in all. -/
def cutAt (limit : Option Nat) (bytes : List UInt8) : List UInt8 :=
  match limit with
  | some l => bytes.take l
  | none => bytes

def Within (limit : Option Nat) (n : Nat) : Prop := ∀ l ∈ limit, n ≤ l

theorem within_none (n : Nat) : Within none n := fun _ some => by cases some

@[simp]
theorem within_some {l n : Nat} : Within (some l) n ↔ n ≤ l := by
  simp only [Within, Option.mem_some_iff, forall_eq']

theorem Within.mono {limit : Option Nat} {m n : Nat} (within : Within limit n) (le : m ≤ n) :
    Within limit m := fun l is => le.trans (within l is)

theorem within_cutAt (limit : Option Nat) (bytes : List UInt8) :
    Within limit (cutAt limit bytes).length := by
  cases limit with
  | none => exact within_none _
  | some l => exact within_some.mpr (List.length_take_le l bytes)

theorem cutAt_within {limit : Option Nat} {bytes : List UInt8} (within : Within limit bytes.length) :
    cutAt limit bytes = bytes := by
  cases limit with
  | none => rfl
  | some l => exact List.take_of_length_le (within_some.mp within)

theorem cutAt_beyond {limit : Option Nat} {bytes : List UInt8} (beyond : ¬ Within limit bytes.length)
    (more : List UInt8) : cutAt limit (bytes ++ more) = cutAt limit bytes := by
  cases limit with
  | none => exact absurd (within_none _) beyond
  | some l =>
    rw [within_some] at beyond
    exact List.take_append_of_le_length (by omega)

theorem cutAt_append (limit : Option Nat) (bytes more : List UInt8) :
    cutAt limit (cutAt limit bytes ++ more) = cutAt limit (bytes ++ more) := by
  cases limit with
  | none => rfl
  | some l =>
    simp only [cutAt, List.take_append, List.take_take, Nat.min_self, List.length_take]
    congr 2
    omega

theorem within_cutAt_add {limit : Option Nat} {bytes : List UInt8} {n : Nat} (more : 0 < n) :
    Within limit ((cutAt limit bytes).length + n) ↔ Within limit (bytes.length + n) := by
  cases limit with
  | none => exact ⟨fun _ => within_none _, fun _ => within_none _⟩
  | some l =>
    simp only [within_some, cutAt, List.length_take]
    omega

/-- The payloads that may be sent. -/
def sendable (limit : Nat) (payloads : List ByteArray) : List ByteArray :=
  payloads.filter (·.size ≤ limit)

theorem sendable_cons_of_le {limit : Nat} {payload : ByteArray} (fits : payload.size ≤ limit)
    (payloads : List ByteArray) :
    sendable limit (payload :: payloads) = payload :: sendable limit payloads :=
  List.filter_cons_of_pos (by simpa using fits)

theorem sendable_cons_of_lt {limit : Nat} {payload : ByteArray} (long : limit < payload.size)
    (payloads : List ByteArray) :
    sendable limit (payload :: payloads) = sendable limit payloads :=
  List.filter_cons_of_neg (by simpa using long)

theorem oversized?_of_le {limit : Nat} {payload : ByteArray} (fits : payload.size ≤ limit)
    (small : payload.size < UInt32.size) : oversized? limit payload = none := by
  rw [oversized?, if_neg (by omega), if_neg (by omega)]

namespace Outlet

/-- The answers to payloads that are sent one after the other, and the outlet after them. -/
def sendAll (o : Outlet) (limit : Nat) :
    List ByteArray → List (Except StreamFault Unit) × Outlet
  | [] => ([], o)
  | payload :: payloads =>
    let (answer, o) := o.send limit payload
    let (answers, o) := o.sendAll limit payloads
    (answer :: answers, o)

structure Sound (o : Outlet) : Prop where
  portions : ∀ taken n, 0 < n → 0 < o.takes taken n
  flushes : o.flushFailure = none

def Holds (o : Outlet) (bytes : List UInt8) : Prop := o.accepted.data.toList = cutAt o.limit bytes

theorem Holds.within {o : Outlet} {bytes : List UInt8} (holds : o.Holds bytes) :
    Within o.limit o.accepted.size := by
  rw [← length_toList, holds]
  exact within_cutAt o.limit bytes

theorem ship_keeps (o : Outlet) (s : Shipment) :
    ∃ bytes, (o.ship s).2 = { o with accepted := bytes } := by
  fun_induction Outlet.ship o s with
  | case1 o s left n some =>
    rename_i ih
    exact ih
  | case2 o s left n => exact ⟨o.accepted, rfl⟩
  | case3 o s none => exact ⟨o.accepted, rfl⟩

theorem shipEach_keeps (o : Outlet) (parts : List ByteArray) :
    ∃ bytes, (o.shipEach parts).2 = { o with accepted := bytes } := by
  induction parts generalizing o with
  | nil => exact ⟨o.accepted, rfl⟩
  | cons part parts ih =>
    obtain ⟨bytes, first⟩ := o.ship_keeps ⟨part, 0⟩
    unfold shipEach
    cases ship : o.ship ⟨part, 0⟩ with
    | mk answer o' =>
      rw [ship] at first
      cases answer with
      | error f => exact ⟨bytes, first⟩
      | ok _ =>
        obtain ⟨bytes', rest⟩ := ih o'
        refine ⟨bytes', rest.trans ?_⟩
        rw [show o' = { o with accepted := bytes } from first]

theorem reached {o : Outlet} (sound : o.Sound) {n : Nat} (left : 0 < n) (none : o.room n = 0) :
    ∃ l, o.limit = some l ∧ l ≤ o.accepted.size := by
  have portion := sound.portions o.accepted.size n left
  cases limit : o.limit with
  | none =>
    simp only [room, limit] at none
    omega
  | some l =>
    simp only [room, limit] at none
    exact ⟨l, rfl, by omega⟩

theorem within_room {o : Outlet} (n : Nat) (within : Within o.limit o.accepted.size) :
    Within o.limit (o.accepted.size + o.room n) := by
  cases limit : o.limit with
  | none => exact within_none _
  | some l =>
    rw [limit, within_some] at within
    simp only [within_some, room, limit]
    omega

/-- Of a shipment all bytes are taken that are within the limit, in portions or at once. -/
theorem ship_taken {o : Outlet} (sound : o.Sound) (s : Shipment)
    (within : Within o.limit o.accepted.size) :
    (o.ship s).2.accepted.data.toList = cutAt o.limit (o.accepted.data.toList ++ s.unsent) ∧
      ((o.ship s).1 = .ok () ↔ Within o.limit (o.accepted.size + s.left)) := by
  fun_induction Outlet.ship o s with
  | case1 o s left n some =>
    rename_i ih
    have most : n ≤ s.unsent.length := by
      rw [s.length_unsent]
      exact o.room_le s.left
    have size : (o.accepted ++ s.portion n).size = o.accepted.size + n := by
      rw [ByteArray.size_append, ← length_toList (s.portion n), s.toList_portion,
        List.length_take_of_le most]
    obtain ⟨holds, good⟩ := ih ⟨sound.portions, sound.flushes⟩ (size ▸ within_room s.left within)
    constructor
    · rw [holds]
      simp only [ByteArray.data_append, Array.toList_append, s.toList_portion, s.unsent_advance,
        List.append_assoc, List.take_append_drop]
    · rw [good, size, s.left_advance]
      rw [s.length_unsent] at most
      rw [show o.accepted.size + n + (s.left - n) = o.accepted.size + s.left by omega]
  | case2 o s left n none =>
    obtain ⟨l, limit, all⟩ := reached sound left (Nat.eq_zero_of_not_pos none)
    rw [limit, within_some] at within
    constructor
    · rw [limit, cutAt, List.take_append_of_le_length (by rw [length_toList]; exact all),
        List.take_of_length_le (by rw [length_toList]; exact within)]
    · simp only [reduceCtorEq, limit, within_some, false_iff]
      omega
  | case3 o s none =>
    have nothing : s.unsent = [] :=
      List.eq_nil_of_length_eq_zero (s.length_unsent.trans (by omega))
    have left : s.left = 0 := by omega
    rw [nothing, List.append_nil, left, Nat.add_zero]
    rw [← length_toList] at within
    exact ⟨(cutAt_within within).symm, fun _ => length_toList o.accepted ▸ within, fun _ => rfl⟩

theorem shipEach_taken {o : Outlet} (sound : o.Sound) (parts : List ByteArray)
    (within : Within o.limit o.accepted.size) :
    (o.shipEach parts).2.accepted.data.toList =
        cutAt o.limit (o.accepted.data.toList ++ parts.flatMap (·.data.toList)) ∧
      ((o.shipEach parts).1 = .ok () ↔
        Within o.limit (o.accepted.size + (parts.flatMap (·.data.toList)).length)) := by
  induction parts generalizing o with
  | nil =>
    rw [List.flatMap_nil, List.append_nil, List.length_nil, Nat.add_zero]
    rw [← length_toList] at within
    exact ⟨(cutAt_within within).symm, fun _ => length_toList o.accepted ▸ within, fun _ => rfl⟩
  | cons part parts ih =>
    obtain ⟨bytes, keeps⟩ := o.ship_keeps ⟨part, 0⟩
    obtain ⟨holds, good⟩ := ship_taken sound ⟨part, 0⟩ within
    have left : (⟨part, 0⟩ : Shipment).left = part.data.toList.length := by
      rw [← Shipment.length_unsent, Shipment.unsent_whole]
    rw [left, ← length_toList o.accepted, ← List.length_append] at good
    rw [Shipment.unsent_whole] at holds
    rw [List.flatMap_cons, ← length_toList o.accepted, ← List.length_append, ← List.append_assoc]
    unfold shipEach
    cases ship : o.ship ⟨part, 0⟩ with
    | mk answer o' =>
      rw [ship] at keeps holds good
      cases answer with
      | error f =>
        have beyond : ¬ Within o.limit (o.accepted.data.toList ++ part.data.toList).length :=
          fun fits => by cases good.mpr fits
        refine ⟨holds.trans (cutAt_beyond beyond _).symm, iff_of_false (by simp) fun fits => ?_⟩
        exact beyond (fits.mono (by simp only [List.length_append]; omega))
      | ok _ =>
        have all := good.mp rfl
        rw [cutAt_within all] at holds
        simp only at keeps holds
        obtain ⟨holds', good'⟩ := ih (o := o') (by subst keeps; exact ⟨sound.portions, sound.flushes⟩)
          (by subst keeps; rw [← length_toList, holds]; exact all)
        rw [holds, show o'.limit = o.limit by rw [keeps]] at holds'
        rw [← length_toList, holds, ← List.length_append,
          show o'.limit = o.limit by rw [keeps]] at good'
        exact ⟨holds', good'⟩

/-- A payload that may be sent is framed, up to the limit, and the send is good if the frame is whole. -/
theorem send_taken {o : Outlet} (sound : o.Sound) {held : List UInt8} (holds : o.Holds held)
    {limit : Nat} {payload : ByteArray} (fits : oversized? limit payload = none) :
    (o.send limit payload).2.Holds (held ++ encoding payload) ∧
      ((o.send limit payload).1 = .ok () ↔
        Within o.limit (held.length + (encoding payload).length)) := by
  obtain ⟨bytes, keeps⟩ := o.shipEach_keeps (frameParts payload)
  obtain ⟨taken, good⟩ := shipEach_taken sound (frameParts payload) holds.within
  have header : 0 < (encoding payload).length := by
    rw [length_encoding]
    omega
  rw [flatMap_frameParts, holds, cutAt_append] at taken
  rw [flatMap_frameParts, ← length_toList, holds, within_cutAt_add header] at good
  simp only [send, fits, Holds]
  cases ship : o.shipEach (frameParts payload) with
  | mk answer o' =>
    rw [ship] at keeps taken good
    simp only at keeps taken
    cases answer with
    | error f => exact ⟨by rw [taken, keeps], good⟩
    | ok _ =>
      have flushed : o'.flushFailure = none := by rw [keeps]; exact sound.flushes
      simp only [flush, flushed]
      exact ⟨by rw [taken, keeps], ⟨fun _ => good.mp rfl, fun _ => trivial⟩⟩

theorem send_refused (o : Outlet) {limit : Nat} {payload : ByteArray} (long : limit < payload.size) :
    o.send limit payload = (.error (.io ("frame of " ++ toString payload.size ++
      " bytes exceeds limit of " ++ toString limit)), o) := by
  simp only [send, oversized?, if_pos long]

theorem send_keeps (o : Outlet) (limit : Nat) (payload : ByteArray) : ∃ bytes calls,
    (o.send limit payload).2 = { o with accepted := bytes, calls := calls } := by
  unfold send
  cases oversized? limit payload with
  | some f => exact ⟨o.accepted, o.calls, rfl⟩
  | none =>
    obtain ⟨bytes, keeps⟩ := o.shipEach_keeps (frameParts payload)
    cases ship : o.shipEach (frameParts payload) with
    | mk answer o' =>
      rw [ship] at keeps
      simp only at keeps
      subst keeps
      cases answer with
      | error f => exact ⟨bytes, o.calls, rfl⟩
      | ok _ => exact ⟨bytes, o.calls ++ [.flush], rfl⟩

theorem sendAll_append (o : Outlet) (limit : Nat) (before after : List ByteArray) :
    o.sendAll limit (before ++ after) =
      ((o.sendAll limit before).1 ++ ((o.sendAll limit before).2.sendAll limit after).1,
        ((o.sendAll limit before).2.sendAll limit after).2) := by
  induction before generalizing o with
  | nil => rfl
  | cons payload before ih => simp only [List.cons_append, sendAll, ih]

theorem sendAll_refused (o : Outlet) (limit : Nat) (before after : List ByteArray)
    {payload : ByteArray} (long : limit < payload.size) :
    o.sendAll limit (before ++ payload :: after) =
      ((o.sendAll limit before).1 ++ .error (.io ("frame of " ++ toString payload.size ++
          " bytes exceeds limit of " ++ toString limit)) ::
            ((o.sendAll limit before).2.sendAll limit after).1,
        ((o.sendAll limit before).2.sendAll limit after).2) := by
  rw [sendAll_append]
  simp only [sendAll, send_refused _ long]

theorem length_sendAll (o : Outlet) (limit : Nat) (payloads : List ByteArray) :
    (o.sendAll limit payloads).1.length = payloads.length := by
  induction payloads generalizing o with
  | nil => rfl
  | cons payload payloads ih => simp only [sendAll, List.length_cons, ih]

theorem sendAll_taken {o : Outlet} (sound : o.Sound) {held : List UInt8} (holds : o.Holds held)
    (limit : Nat) (payloads : List ByteArray) (small : ∀ p ∈ payloads, p.size < UInt32.size) :
    (o.sendAll limit payloads).2.accepted.data.toList =
        cutAt o.limit (held ++ encodings (sendable limit payloads)) ∧
      ∀ i payload, payloads[i]? = some payload →
        ((o.sendAll limit payloads).1[i]? = some (.ok ()) ↔ payload.size ≤ limit ∧
          Within o.limit (held.length +
            (encodings (sendable limit (payloads.take (i + 1)))).length)) := by
  -- each payload is offered to what the ones before have left of the outlet
  induction payloads generalizing o held with
  | nil =>
    refine ⟨?_, fun i payload is => by simp at is⟩
    rw [sendable, List.filter_nil, encodings, List.flatMap_nil, List.append_nil]
    exact holds
  | cons payload payloads ih =>
    have small' : ∀ p ∈ payloads, p.size < UInt32.size :=
      fun p mem => small p (List.mem_cons_of_mem _ mem)
    by_cases fits : payload.size ≤ limit
    · obtain ⟨holds', good⟩ := send_taken sound holds (oversized?_of_le fits (small payload (by simp)))
      obtain ⟨bytes, calls, keeps⟩ := o.send_keeps limit payload
      have lim : (o.send limit payload).2.limit = o.limit := by rw [keeps]
      obtain ⟨taken, goods⟩ := ih (by rw [keeps]; exact ⟨sound.portions, sound.flushes⟩) holds' small'
      rw [lim] at taken goods
      simp only [sendAll]
      refine ⟨?_, fun i p is => ?_⟩
      · rw [taken, sendable_cons_of_le fits]
        simp only [encodings, List.flatMap_cons, List.append_assoc]
      · rw [List.take_succ_cons, sendable_cons_of_le fits]
        cases i with
        | zero =>
          cases is
          simp [good, fits, sendable, encodings]
        | succ i =>
          rw [List.getElem?_cons_succ] at is ⊢
          rw [goods i p is]
          simp only [encodings, List.flatMap_cons, List.length_append, Nat.add_assoc]
    · have long : limit < payload.size := by omega
      obtain ⟨taken, goods⟩ := ih sound holds small'
      simp only [sendAll, send_refused o long, sendable_cons_of_lt long]
      refine ⟨taken, fun i p is => ?_⟩
      cases i with
      | zero =>
        cases is
        simp [fits]
      | succ i =>
        rw [List.getElem?_cons_succ] at is ⊢
        rw [goods i p is, List.take_succ_cons, sendable_cons_of_lt long]

end Outlet

/-- Payloads that are sent one after the other to a stream that takes bytes in portions of any size,
up to a total. The stream has the beginning, as much as it takes in all, of the frames of those that
are not too long. A send is good exactly if its payload is not too long and its frame ends within
the total. One that is too long is refused and changes nothing, so the later ones are sent as if it
was not there. From a stream without limit exactly the payloads that were sent are read back. -/
theorem frames_up_to_limit (o : Outlet) (limit : Nat) (payloads : List ByteArray)
    (small : ∀ p ∈ payloads, p.size < UInt32.size)
    (portions : ∀ taken n, 0 < n → 0 < o.takes taken n) (flushes : o.flushFailure = none)
    (fresh : o.accepted = ByteArray.empty) :
    (o.sendAll limit payloads).2.accepted.data.toList =
        cutAt o.limit (encodings (sendable limit payloads)) ∧
      (o.sendAll limit payloads).1.length = payloads.length ∧
      (∀ i payload, payloads[i]? = some payload →
        ((o.sendAll limit payloads).1[i]? = some (.ok ()) ↔ payload.size ≤ limit ∧
          Within o.limit (encodings (sendable limit (payloads.take (i + 1)))).length)) ∧
      (∀ before payload after, payloads = before ++ payload :: after → limit < payload.size →
        o.sendAll limit payloads =
          ((o.sendAll limit before).1 ++ .error (.io ("frame of " ++ toString payload.size ++
              " bytes exceeds limit of " ++ toString limit)) ::
                ((o.sendAll limit before).2.sendAll limit after).1,
            ((o.sendAll limit before).2.sendAll limit after).2)) ∧
      (o.limit = none → unframeFrom (o.sendAll limit payloads).2.accepted 0 =
        (sendable limit payloads, (o.sendAll limit payloads).2.accepted.size)) := by
  have sound : o.Sound := ⟨portions, flushes⟩
  have holds : o.Holds [] := by
    rw [Outlet.Holds, fresh]
    exact (cutAt_within fun _ _ => Nat.zero_le _).symm
  obtain ⟨taken, good⟩ := Outlet.sendAll_taken sound holds limit payloads small
  rw [List.nil_append] at taken
  refine ⟨taken, o.length_sendAll limit payloads, fun i p is => ?_, ?_, fun unlimited => ?_⟩
  · rw [good i p is, List.length_nil, Nat.zero_add]
  · rintro before payload after rfl long
    exact o.sendAll_refused limit before after long
  · rw [unlimited] at taken
    have all : encodings (sendable limit payloads) =
        (o.sendAll limit payloads).2.accepted.data.toList := taken.symm
    have small' : ∀ p ∈ sendable limit payloads, p.size < UInt32.size :=
      fun p mem => small p (List.mem_filter.mp mem).1
    have read := @unframeFrom_encodings _ ByteArray.empty _ [] [] small'
      (by rw [← all, List.nil_append, List.append_nil]) (by decide) List.nil_prefix
      (by rw [length_encoding]; exact Nat.succ_pos _)
    rw [List.length_nil, Nat.zero_add] at read
    rw [← length_toList, ← all, read]

/-- It takes one to three bytes at once, and thirteen in all. -/
def narrowOutlet : Outlet :=
  ⟨some 13, fun taken _ => taken % 3 + 1, none, none, ByteArray.empty, []⟩

def mixedPayloads : List ByteArray := [⟨#[97, 98]⟩, ⟨#[1, 2, 3, 4, 5]⟩, ⟨#[]⟩, ⟨#[99]⟩]

theorem frames_up_to_limit_narrow :
    (narrowOutlet.sendAll 4 mixedPayloads).2.accepted.data.toList =
        [0, 0, 0, 2, 97, 98, 0, 0, 0, 0, 0, 0, 0] ∧
      (narrowOutlet.sendAll 4 mixedPayloads).1[2]? = some (.ok ()) ∧
      (narrowOutlet.sendAll 4 mixedPayloads).1[3]? ≠ some (.ok ()) ∧
      (unframeFrom ({ narrowOutlet with limit := none }.sendAll 4 mixedPayloads).2.accepted 0).1 =
        [⟨#[97, 98]⟩, ⟨#[]⟩, ⟨#[99]⟩] := by
  have small : ∀ p ∈ mixedPayloads, p.size < UInt32.size := by decide
  have portions : ∀ taken n : Nat, 0 < n → 0 < taken % 3 + 1 := fun _ _ _ => Nat.succ_pos _
  obtain ⟨taken, -, good, -, -⟩ :=
    frames_up_to_limit narrowOutlet 4 mixedPayloads small portions rfl rfl
  obtain ⟨-, -, -, -, read⟩ :=
    frames_up_to_limit { narrowOutlet with limit := none } 4 mixedPayloads small portions rfl rfl
  refine ⟨taken.trans (by decide), (good 2 ⟨#[]⟩ rfl).mpr ?_, fun ok => ?_, ?_⟩
  · exact ⟨by decide, within_some.mpr (by decide)⟩
  · exact absurd (within_some.mp ((good 3 ⟨#[99]⟩ rfl).mp ok).2) (by decide)
  · rw [read rfl]
    decide

end Courier
