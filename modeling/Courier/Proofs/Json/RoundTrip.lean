import Mathlib.Algebra.Group.Nat.Defs
import Mathlib.Data.Nat.Basic
import Courier.Client
import Courier.Config
import Courier.Message
import Courier.Proofs.Json.Written

set_option autoImplicit false

namespace Courier

open Json

theorem Json.Doc.natural_of_lt {bits n : Nat} (fits : n < 2 ^ bits) (expected : String) :
    Doc.natural bits expected (.number (.natural n)) = .ok n :=
  if_pos fits

theorem Purpose.named (p : Purpose) :
    Doc.variant Purpose.names (.literal (.text p.name)) = .ok p := by
  cases p with
  | publish => rfl
  | subscribe => rfl

theorem Backpressure.named (b : Backpressure) :
    Doc.variant Backpressure.names (.literal (.text b.name)) = .ok b := by
  cases b with
  | block => rfl
  | failFast => rfl

theorem Header.read_doc (h : Header) : Header.record.read h.value.doc = .ok h := by
  rcases h with ⟨env, idc, ip, pid, sys, username, language, protocolType, protocolVersion,
    protocolDesc, _ | correlationId, _ | topic⟩
  all_goals rfl

theorem Status.read_doc (s : Status) : Status.record.read s.value.doc = .ok s := rfl

theorem Client.read_doc {c : Client} (fits : c.pid < 2 ^ 32) :
    Client.record.read c.value.doc = .ok c := by
  have pid := Doc.natural_of_lt fits "u32"
  simp [Client.value, Client.record, Value.doc, Value.docs, Record.read, Record.readMembers,
    Record.readMember, Record.field?, Record.missing?, Ending.fault?, Doc.text, Except.map,
    c.purpose.named, pid]

structure Config.Fits (c : Config) : Prop where
  queueCapacity : c.queueCapacity < 2 ^ 64
  writeTimeout : c.writeTimeout < 2 ^ 64
  idleTimeout : c.idleTimeout < 2 ^ 64
  sweepInterval : c.sweepInterval < 2 ^ 64
  journalCapacity : c.journalCapacity < 2 ^ 64

theorem Config.read_doc {c : Config} (fits : c.Fits) : Config.record.read c.value.doc = .ok c := by
  simp [Config.value, Config.record, Value.doc, Value.docs, Record.read, Record.readMembers,
    Record.readMember, Record.field?, Record.missing?, Ending.fault?, Except.map,
    c.backpressure.named, Doc.natural_of_lt fits.queueCapacity, Doc.natural_of_lt fits.writeTimeout,
    Doc.natural_of_lt fits.idleTimeout, Doc.natural_of_lt fits.sweepInterval,
    Doc.natural_of_lt fits.journalCapacity]

theorem Header.fits_value (h : Header) : h.value.Fits := by
  rcases h with ⟨env, idc, ip, pid, sys, username, language, protocolType, protocolVersion,
    protocolDesc, _ | correlationId, _ | topic⟩
  all_goals simp [Header.value, optionalMember, Value.Fits, Value.AllFit]

theorem Status.fits_value (s : Status) : s.value.Fits := by
  simp [Status.value, Value.Fits, Value.AllFit]

theorem Header.decode_render (h : Header) : Header.decode h.value.render = .ok h := by
  rw [Header.decode, Value.decode_render h.fits_value, h.read_doc]

theorem Status.decode_render (s : Status) : Status.decode s.value.render = .ok s := by
  rw [Status.decode, Value.decode_render s.fits_value, s.read_doc]

theorem Client.decode_render {c : Client} (fits : c.pid < 2 ^ 32) :
    Client.decode c.value.render = .ok c := by
  have below : c.pid < UInt64.size := Nat.lt_trans fits (by decide)
  have whole : c.value.Fits := by simp [Client.value, Value.Fits, Value.AllFit, below]
  rw [Client.decode, Value.decode_render whole, Client.read_doc fits]

theorem Config.decode_render {c : Config} (fits : c.Fits) :
    Config.decode c.value.render = .ok c := by
  have whole : c.value.Fits :=
    ⟨fits.queueCapacity, trivial, fits.writeTimeout, fits.idleTimeout, fits.sweepInterval,
      fits.journalCapacity, trivial⟩
  rw [Config.decode, Value.decode_render whole, Config.read_doc fits]

theorem SessionId.decode_render (id : SessionId) : SessionId.decode id.value.render = .ok id := by
  rw [SessionId.decode, Value.decode_render (by trivial : id.value.Fits)]
  rfl

theorem Message.read_encode (m : Message) :
    Doc.read m.encode.toList =
      (.object [(.text "header", m.header.value.doc), (.text "status", m.status.value.doc)] .closed,
        some []) :=
  Value.read_render ⟨m.header.fits_value, m.status.fits_value, trivial⟩

theorem Message.encode_injective {m other : Message} (same : m.encode = other.encode) :
    m = other := by
  have docs := m.read_encode
  rw [same, other.read_encode] at docs
  simp only [Prod.mk.injEq, Doc.object.injEq, List.cons.injEq, true_and, and_true] at docs
  have header := m.header.read_doc
  have status := m.status.read_doc
  rw [← docs.1, other.header.read_doc] at header
  rw [← docs.2, other.status.read_doc] at status
  cases m
  cases other
  cases header
  cases status
  rfl

theorem Json.visible_of_all {cs : List Char} (all : cs.all (0x20 ≤ ·.toNat) = true) :
    ∀ c ∈ cs, 0x20 ≤ c.toNat := by
  simpa using all

theorem Json.escape_visible (c : Char) : ∀ d ∈ escape c, 0x20 ≤ d.toNat := by
  apply visible_of_all
  unfold escape
  split
  case h_8 =>
    split
    case isTrue control =>
      have each : ∀ n < 0x20, (unicodeEscape (Char.ofNat n)).all (0x20 ≤ ·.toNat) = true := by decide
      rw [← each c.toNat control, Char.ofNat_toNat]
    case isFalse visible =>
      rw [List.all_cons, List.all_nil, Bool.and_true, decide_eq_true_eq]
      exact Nat.not_lt.mp visible
  all_goals decide

theorem Json.textChars_visible (s : String) : ∀ c ∈ textChars s, 0x20 ≤ c.toNat := by
  intro c there
  simp only [textChars, List.mem_cons, List.mem_append, List.mem_flatMap, List.not_mem_nil,
    or_false] at there
  rcases there with rfl | ⟨d, -, there⟩ | rfl
  · decide
  · exact escape_visible d c there
  · decide

mutual

theorem Json.Value.chars_visible : (v : Value) → ∀ c ∈ v.chars, 0x20 ≤ c.toNat
  | .null => visible_of_all (by decide)
  | .natural n => fun c there => by
    have digit := isDigit_of_mem_toDigits there
    simp only [isDigit, Bool.and_eq_true, decide_eq_true_eq] at digit
    exact Nat.le_trans (by decide) digit.1
  | .text s => textChars_visible s
  | .object [] => visible_of_all (by decide)
  | .object ((key, v) :: ms) => by
    intro c there
    simp only [Value.chars, List.mem_cons, List.mem_append, List.not_mem_nil, or_false] at there
    rcases there with rfl | there | rfl | there | there | rfl
    · decide
    · exact textChars_visible key c there
    · decide
    · exact v.chars_visible c there
    · exact Value.moreChars_visible ms c there
    · decide

theorem Json.Value.moreChars_visible : (ms : List (String × Value)) →
    ∀ c ∈ Value.moreChars ms, 0x20 ≤ c.toNat
  | [] => by simp [Value.moreChars]
  | (key, v) :: ms => by
    intro c there
    simp only [Value.moreChars, List.mem_cons, List.mem_append] at there
    rcases there with rfl | there | rfl | there | there
    · decide
    · exact textChars_visible key c there
    · decide
    · exact v.chars_visible c there
    · exact Value.moreChars_visible ms c there

end

theorem bytes_visible {c : Char} (visible : 0x20 ≤ c.toNat) :
    ∀ b ∈ String.utf8EncodeChar c, 0x20 ≤ b := by
  have byte {n : Nat} (low : 0x20 ≤ n) (high : n < 256) : 0x20 ≤ UInt8.ofNat n := by
    rw [UInt8.le_iff_toNat_le, UInt8.toNat_ofNat_of_lt' high]
    exact low
  have ascii : 0x20 ≤ c.val.toNat := visible
  intro b there
  unfold String.utf8EncodeChar at there
  simp only at there
  split at there
  · obtain rfl := List.mem_singleton.mp there
    exact byte ascii (by omega)
  · split_ifs at there <;>
      · simp only [List.mem_cons, List.not_mem_nil, or_false] at there
        rcases there with rfl | rfl | rfl | rfl <;> exact byte (by omega) (by omega)

theorem Message.encode_visible (m : Message) : ∀ b ∈ m.encode.toUTF8.data, 0x20 ≤ b := by
  have chars := m.value.chars_visible
  rw [← Value.toList_render] at chars
  intro b there
  have bytes : m.encode.toUTF8 = m.encode.toList.utf8Encode := String.utf8Encode_toList.symm
  rw [bytes, List.utf8Encode, List.data_toByteArray, List.mem_toArray] at there
  obtain ⟨c, written, part⟩ := List.mem_flatMap.mp there
  exact bytes_visible (chars c written) b part

theorem Message.fromUTF8_encode (m : Message) :
    String.fromUTF8? m.encode.toUTF8 = some m.encode := by
  have valid : m.encode.toUTF8.IsValidUTF8 := m.encode.isValidUTF8
  rw [String.fromUTF8?, dif_pos valid]
  rfl

/-- Headers, statuses, clients, configurations and ids are read back as they were written, with
numbers up to the largest of their types. Every message has a payload: UTF-8 text without control
characters, an object of exactly the header and the status, which are read back from its members. No
other message has the same payload. -/
theorem written_read_back (h : Header) (s : Status) (c : Client) (config : Config) (id : SessionId)
    (m : Message) (pid : c.pid < 2 ^ 32) (numbers : config.Fits) :
    Header.decode h.value.render = .ok h ∧
    Status.decode s.value.render = .ok s ∧
    Client.decode c.value.render = .ok c ∧
    Config.decode config.value.render = .ok config ∧
    SessionId.decode id.value.render = .ok id ∧
    String.fromUTF8? m.encode.toUTF8 = some m.encode ∧
    (∀ b ∈ m.encode.toUTF8.data, 0x20 ≤ b) ∧
    (∃ header status,
      Doc.read m.encode.toList =
        (.object [(.text "header", header), (.text "status", status)] .closed, some []) ∧
      Header.record.read header = .ok m.header ∧
      Status.record.read status = .ok m.status) ∧
    Function.Injective fun m : Message => m.encode.toUTF8 :=
  ⟨h.decode_render, s.decode_render, Client.decode_render pid, Config.decode_render numbers,
    id.decode_render, m.fromUTF8_encode, m.encode_visible,
    ⟨_, _, m.read_encode, m.header.read_doc, m.status.read_doc⟩,
    fun _ _ same => Message.encode_injective (String.toByteArray_inj.mp same)⟩

/-- The largest numbers there are, among quotes, backslashes and control characters. -/
theorem largest_read_back :
    Client.decode (Client.value ⟨"\"\\", "\x00", .publish, "ü€", 4294967295⟩).render =
      .ok ⟨"\"\\", "\x00", .publish, "ü€", 4294967295⟩ ∧
    Config.decode (Config.value ⟨18446744073709551615, .failFast, 18446744073709551615,
      18446744073709551615, 18446744073709551615, 18446744073709551615⟩).render =
      .ok ⟨18446744073709551615, .failFast, 18446744073709551615, 18446744073709551615,
        18446744073709551615, 18446744073709551615⟩ := by
  have largest : 18446744073709551615 < 2 ^ 64 := by decide
  have back := written_read_back Header.default Status.success
    ⟨"\"\\", "\x00", .publish, "ü€", 4294967295⟩
    ⟨18446744073709551615, .failFast, 18446744073709551615, 18446744073709551615,
      18446744073709551615, 18446744073709551615⟩
    ⟨""⟩ ⟨Header.default, Status.success⟩ (by decide) ⟨largest, largest, largest, largest, largest⟩
  exact ⟨back.2.2.1, back.2.2.2.1⟩

end Courier
