import Courier.Framing
import Mathlib.Data.List.Infix

set_option autoImplicit false

namespace Courier

/-- The bytes of a payload's frame. -/
def encoding (payload : ByteArray) : List UInt8 := (frameBytes payload).data.toList

def encodings (payloads : List ByteArray) : List UInt8 := payloads.flatMap encoding

theorem encoding_eq (payload : ByteArray) :
    encoding payload = lengthBytes payload.size ++ payload.data.toList := by
  simp [encoding, frameBytes]

theorem length_encoding (payload : ByteArray) : (encoding payload).length = 4 + payload.size := by
  simp [encoding_eq, lengthBytes]
  omega

theorem getElem?_toList (bytes : ByteArray) (i : Nat) : bytes[i]? = bytes.data.toList[i]? := by
  by_cases inside : i < bytes.size
  · rw [getElem?_pos bytes i inside, ByteArray.getElem_eq_getElem_data]
    simp [inside]
  · rw [getElem?_neg bytes i inside, eq_comm, List.getElem?_eq_none_iff]
    simpa using inside

theorem length_toList (bytes : ByteArray) : bytes.data.toList.length = bytes.size := by simp

theorem toList_extract (bytes : ByteArray) (start n : Nat) :
    (bytes.extract start (start + n)).data.toList = (bytes.data.toList.drop start).take n := by
  rw [ByteArray.data_extract, Array.toList_extract, List.extract_eq_take_drop,
    Nat.add_sub_cancel_left]

theorem fold_lengthBytes {n : Nat} (small : n < UInt32.size) :
    (lengthBytes n).foldl (fun n b => n * 256 + b.toNat) 0 = n := by
  have : UInt32.size = 4294967296 := rfl
  simp [lengthBytes, Nat.shiftRight_eq_div_pow]
  omega

theorem lengthAt_eq {bytes : ByteArray} {before rest : List UInt8} {n : Nat} (small : n < UInt32.size)
    (layout : bytes.data.toList = before ++ (lengthBytes n ++ rest)) :
    lengthAt bytes before.length = n := by
  have at_ (i : Nat) : bytes[before.length + i]? = (lengthBytes n ++ rest)[i]? := by
    rw [getElem?_toList, layout, List.getElem?_append_right (by omega), Nat.add_sub_cancel_left]
  refine Eq.trans ?_ (fold_lengthBytes small)
  simp [lengthAt, at_, List.range_succ, lengthBytes]

theorem unframeFrom_frame {bytes payload : ByteArray} {before rest : List UInt8}
    (small : payload.size < UInt32.size)
    (layout : bytes.data.toList = before ++ (encoding payload ++ rest)) :
    unframeFrom bytes before.length =
      (payload :: (unframeFrom bytes (before.length + (encoding payload).length)).1,
        (unframeFrom bytes (before.length + (encoding payload).length)).2) := by
  have size : lengthAt bytes before.length = payload.size := by
    apply lengthAt_eq small
    rw [layout, encoding_eq, List.append_assoc]
  have stop : before.length + 4 + payload.size = before.length + (encoding payload).length := by
    rw [length_encoding]
    omega
  have fits : before.length + (encoding payload).length ≤ bytes.size := by
    rw [← length_toList, layout]
    simp only [List.length_append]
    omega
  have middle : bytes.extract (before.length + 4) (before.length + 4 + payload.size) = payload := by
    apply ByteArray.ext
    apply Array.toList_inj.mp
    have head : (before ++ lengthBytes payload.size).length = before.length + 4 := by
      simp [lengthBytes]
    have shape : bytes.data.toList =
        (before ++ lengthBytes payload.size) ++ (payload.data.toList ++ rest) := by
      simp only [layout, encoding_eq, List.append_assoc]
    calc (bytes.extract (before.length + 4) (before.length + 4 + payload.size)).data.toList
      _ = (bytes.data.toList.drop (before.length + 4)).take payload.size := toList_extract ..
      _ = (payload.data.toList ++ rest).take payload.size := by rw [shape, List.drop_left' head]
      _ = payload.data.toList := List.take_left' (length_toList payload)
  rw [unframeFrom]
  simp only [size, stop, fits, if_true]
  rw [← stop, middle]

theorem unframeFrom_cut {bytes payload : ByteArray} {before cut : List UInt8}
    (small : payload.size < UInt32.size) (layout : bytes.data.toList = before ++ cut)
    (begins : cut <+: encoding payload) (short : cut.length < (encoding payload).length) :
    unframeFrom bytes before.length = ([], before.length) := by
  have size : bytes.size = before.length + cut.length := by
    rw [← length_toList, layout, List.length_append]
  have beyond : bytes.size < before.length + 4 + lengthAt bytes before.length := by
    by_cases header : cut.length < 4
    · omega
    · -- the length is there, and says that more bytes belong to the frame
      have all : (lengthBytes payload.size).length ≤ cut.length := by
        simp only [lengthBytes, List.length_cons, List.length_nil]
        omega
      obtain ⟨rest, split⟩ := List.prefix_of_prefix_length_le
        ⟨payload.data.toList, (encoding_eq payload).symm⟩ begins all
      rw [lengthAt_eq small (layout.trans (by rw [split])), size]
      rw [length_encoding] at short
      omega
  rw [unframeFrom]
  simp only [Nat.not_le.mpr beyond, if_false]

/-- From whole frames and the beginning of one more the payloads of the whole ones are read. -/
theorem unframeFrom_encodings {bytes last : ByteArray} {payloads : List ByteArray}
    {before cut : List UInt8} (small : ∀ payload ∈ payloads, payload.size < UInt32.size)
    (layout : bytes.data.toList = before ++ (encodings payloads ++ cut))
    (last_small : last.size < UInt32.size) (begins : cut <+: encoding last)
    (short : cut.length < (encoding last).length) :
    unframeFrom bytes before.length =
      (payloads, before.length + (encodings payloads).length) := by
  induction payloads generalizing before with
  | nil => exact unframeFrom_cut last_small layout begins short
  | cons payload payloads ih =>
    simp only [encodings, List.flatMap_cons, List.append_assoc] at layout
    rw [unframeFrom_frame (small payload (by simp)) layout]
    have rest := ih (fun p member => small p (List.mem_cons_of_mem _ member))
      (layout.trans (List.append_assoc before _ _).symm)
    rw [List.length_append] at rest
    rw [rest]
    simp [encodings, Nat.add_assoc]

example :
    (unframeFrom (frameBytes "ab".toUTF8 ++ frameBytes "".toUTF8 ++ ⟨#[0, 0, 0, 2, 97]⟩) 0).2 = 10 := by
  decide +kernel

def Shipment.sent (s : Shipment) : List UInt8 := s.bytes.data.toList.take s.taken

theorem Shipment.sent_advance (s : Shipment) (n : Nat) :
    (s.advance n).sent = s.sent ++ (s.portion n).data.toList := by
  have most : s.taken + min n s.left = min (s.taken + n) (max s.taken s.bytes.size) := by
    unfold left
    omega
  simp only [sent, advance, portion, toList_extract, most]
  rw [← List.take_add, List.take_eq_take_iff, length_toList]
  omega

theorem Shipment.sent_isDone {s : Shipment} (done : s.isDone = true) :
    s.sent = s.bytes.data.toList := by
  rw [sent, List.take_of_length_le]
  simp only [isDone, left, beq_iff_eq] at done
  rw [length_toList]
  omega

def Shipment.unsent (s : Shipment) : List UInt8 := s.bytes.data.toList.drop s.taken

theorem Shipment.length_unsent (s : Shipment) : s.unsent.length = s.left := by
  rw [unsent, List.length_drop, length_toList, left]

theorem Shipment.unsent_whole (bytes : ByteArray) :
    (⟨bytes, 0⟩ : Shipment).unsent = bytes.data.toList := rfl

theorem Shipment.toList_portion (s : Shipment) (n : Nat) :
    (s.portion n).data.toList = s.unsent.take n := toList_extract s.bytes s.taken n

theorem Shipment.unsent_advance (s : Shipment) (n : Nat) :
    (s.advance n).unsent = s.unsent.drop n := by
  simp only [unsent, advance, List.drop_drop, left]
  by_cases within : n ≤ s.bytes.size - s.taken
  · rw [Nat.min_eq_left within]
  · rw [List.drop_of_length_le, List.drop_of_length_le] <;> rw [length_toList] <;> omega

theorem Outlet.room_le (o : Outlet) (n : Nat) : o.room n ≤ n := by
  simp only [room]
  split <;> omega

theorem flatMap_frameParts (payload : ByteArray) :
    (frameParts payload).flatMap (·.data.toList) = encoding payload := by
  simp [frameParts, encoding_eq]

theorem small_of_oversized? {limit : Nat} {payload : ByteArray}
    (fits : oversized? limit payload = none) : payload.size < UInt32.size := by
  unfold oversized? at fits
  split at fits
  · simp at fits
  · split at fits
    · simp at fits
    · omega

end Courier
