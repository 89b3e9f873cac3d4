import Mathlib.Algebra.Group.Nat.Defs
import Mathlib.Logic.Function.Basic
import Courier.Proofs.Net.Address
import Courier.Server.Settings

set_option autoImplicit false

namespace Courier

theorem Yaml.digitIn?_ten (c : Char) :
    digitIn? 10 c = if c.isDigit then some (c.toNat - '0'.toNat) else none := by
  have decimal : c.isDigit = true ↔ '0' ≤ c ∧ c ≤ '9' := Char.isDigit_iff_toNat
  have zero : '0'.toNat = 48 := rfl
  by_cases digit : c.isDigit = true
  · have bounds : 48 ≤ c.toNat ∧ c.toNat ≤ 57 := Char.isDigit_iff_toNat.mp digit
    rw [digitIn?, if_pos (decimal.mp digit), if_pos digit]
    exact if_pos (by omega)
  · -- letters are worth ten and more
    rw [digitIn?, if_neg (mt decimal.mpr digit), if_neg digit]
    refine if_neg ?_
    split_ifs <;> omega

theorem Yaml.mapM_digitIn?_ten (cs : List Char) (ds : List Nat) :
    cs.mapM (digitIn? 10) = some ds ↔
      (∀ c ∈ cs, c.isDigit = true) ∧ cs.map (fun c => c.toNat - '0'.toNat) = ds := by
  induction cs generalizing ds with
  | nil => simp
  | cons c cs ih =>
    rw [List.mapM_cons, digitIn?_ten]
    by_cases digit : c.isDigit = true
    · simp [digit, Option.bind_eq_some_iff, ih]
    · simp [digit]

theorem Yaml.naturalIn?_ten_eq_some_iff (cs : List Char) (n : Nat) :
    naturalIn? 10 cs = some n ↔
      cs ≠ [] ∧ (∀ c ∈ cs, c.isDigit = true) ∧ Nat.ofDigitChars 10 cs 0 = n := by
  simp only [naturalIn?, List.isEmpty_iff, Option.ite_none_left_eq_some, Option.map_eq_some_iff,
    mapM_digitIn?_ten, Nat.ofDigitChars_eq_foldl, Nat.mul_comm 10]
  constructor
  · rintro ⟨nonempty, _, ⟨digits, rfl⟩, value⟩
    exact ⟨nonempty, digits, List.foldl_map.symm.trans value⟩
  · rintro ⟨nonempty, digits, value⟩
    exact ⟨nonempty, _, ⟨digits, rfl⟩, List.foldl_map.trans value⟩

theorem Config.validate_ok_iff (c : Config) : c.validate = .ok () ↔
    0 < c.queueCapacity ∧ 0 < c.writeTimeout ∧ (0 < c.idleTimeout → 0 < c.sweepInterval) ∧
      0 < c.journalCapacity := by
  unfold Config.validate
  split_ifs with noQueue noTimeout noInterval noJournal <;> simp <;> omega

namespace Server

open Net (Address AddressText)

/-- A number below `2 ^ bits`: decimal digits, perhaps after a plus sign. -/
def NumberText (bits : Nat) (s : String) (n : Nat) : Prop :=
  ∃ digits : List Char, (s.toList = digits ∨ s.toList = '+' :: digits) ∧ digits ≠ [] ∧
    (∀ c ∈ digits, c.isDigit = true) ∧ Nat.ofDigitChars 10 digits 0 = n ∧ n < 2 ^ bits

theorem unsigned?_eq_some_iff (bits : Nat) (s : String) (n : Nat) :
    unsigned? bits s = some n ↔ NumberText bits s n := by
  have within (cs : List Char) : (Yaml.naturalIn? 10 cs).filter (· < Nat.pow 2 bits) = some n ↔
      cs ≠ [] ∧ (∀ c ∈ cs, c.isDigit = true) ∧ Nat.ofDigitChars 10 cs 0 = n ∧ n < 2 ^ bits := by
    rw [Option.filter_eq_some_iff, Yaml.naturalIn?_ten_eq_some_iff, decide_eq_true_eq, and_assoc,
      and_assoc]
    rfl
  rw [unsigned?, NumberText]
  split
  next rest signed =>
    rw [signed, within]
    constructor
    · exact fun number => ⟨rest, .inr rfl, number⟩
    · rintro ⟨digits, rfl | same, number⟩
      · exact absurd (number.2.1 '+' List.mem_cons_self) (by decide)
      · cases same
        exact number
  next noSign =>
    rw [within]
    constructor
    · exact fun number => ⟨s.toList, .inl rfl, number⟩
    · rintro ⟨digits, rfl | signed, number⟩
      · exact number
      · exact absurd signed (noSign digits)

theorem ofName?_eq_some_iff (s : String) (b : Backpressure) :
    Backpressure.ofName? s = some b ↔ s = b.name := by
  constructor
  · intro found
    obtain ⟨before, after, names, -⟩ := List.lookup_eq_some_iff.mp found
    have there : (s, b) ∈ Backpressure.names := names ▸ List.mem_append_right _ List.mem_cons_self
    simp only [Backpressure.names, List.mem_cons, Prod.mk.injEq, List.not_mem_nil,
      or_false] at there
    obtain ⟨rfl, rfl⟩ | ⟨rfl, rfl⟩ := there <;> rfl
  · rintro rfl
    cases b <;> rfl

inductive Override
  | address
  | listenPort
  | maxRequest
  | queueCapacity
  | writeTimeout
  | idleTimeout
  | backpressure
  deriving DecidableEq

namespace Override

def key : Override → String
  | .address => "EMITTER_BIND_ADDRESS"
  | .listenPort => "EMITTER_BIND_PORT"
  | .maxRequest => "EMITTER_MAX_REQUEST_LEN"
  | .queueCapacity => "EMITTER_QUEUE_CAPACITY"
  | .writeTimeout => "EMITTER_WRITE_TIMEOUT_MS"
  | .idleTimeout => "EMITTER_IDLE_TIMEOUT_SECS"
  | .backpressure => "EMITTER_BACKPRESSURE"

def Value : Override → Type
  | .address => Address
  | .backpressure => Backpressure
  | _ => Nat

def Text : (o : Override) → String → o.Value → Prop
  | .address, s, a => AddressText s.toList a
  | .listenPort, s, n => NumberText 16 s n
  | .maxRequest, s, n => NumberText 64 s n
  | .queueCapacity, s, n => NumberText 64 s n
  | .writeTimeout, s, n => NumberText 64 s n
  | .idleTimeout, s, n => NumberText 64 s n
  | .backpressure, s, b => s = b.name

def parse : (o : Override) → String → Option o.Value
  | .address => Address.ofText?
  | .listenPort => unsigned? 16
  | .maxRequest => unsigned? 64
  | .queueCapacity => unsigned? 64
  | .writeTimeout => unsigned? 64
  | .idleTimeout => unsigned? 64
  | .backpressure => Backpressure.ofName?

def get : (o : Override) → Settings → o.Value
  | .address, s => s.address
  | .listenPort, s => s.listenPort
  | .maxRequest, s => s.maxRequest
  | .queueCapacity, s => s.sessions.queueCapacity
  | .writeTimeout, s => s.sessions.writeTimeout
  | .idleTimeout, s => s.sessions.idleTimeout
  | .backpressure, s => s.sessions.backpressure

/-- The variable is set to a text of a value. -/
def Sets (o : Override) (env : Environment) (v : o.Value) : Prop :=
  ∃ s, env o.key = some s ∧ o.Text s v

theorem key_injective : Function.Injective key := by
  intro o o' same
  cases o <;> cases o' <;> first | rfl | exact absurd same (by decide)

theorem parse_eq_some_iff (o : Override) (s : String) (v : o.Value) :
    o.parse s = some v ↔ o.Text s v := by
  cases o with
  | address => exact Address.ofText?_eq_some_iff s v
  | backpressure => exact ofName?_eq_some_iff s v
  | listenPort => exact unsigned?_eq_some_iff 16 s v
  | maxRequest | queueCapacity | writeTimeout | idleTimeout => exact unsigned?_eq_some_iff 64 s v

theorem sets_iff (o : Override) (env : Environment) (v : o.Value) :
    o.Sets env v ↔ (env o.key).bind o.parse = some v := by
  simp only [Sets, Option.bind_eq_some_iff, parse_eq_some_iff]

theorem get_override (o : Override) (base : Settings) (env : Environment) :
    o.get (base.override env) = ((env o.key).bind o.parse).getD (o.get base) := by
  cases o <;> rfl

end Override

/-- Each field with a variable has the value that the variable is set to, and else the one below;
all other fields have the one below. -/
structure Layered (base : Settings) (env : Environment) (merged : Settings) : Prop where
  overridden : ∀ (o : Override) (v : o.Value), o.Sets env v → o.get merged = v
  kept : ∀ o : Override, (¬∃ v, o.Sets env v) → o.get merged = o.get base
  sweepInterval : merged.sessions.sweepInterval = base.sessions.sweepInterval
  journalCapacity : merged.sessions.journalCapacity = base.sessions.journalCapacity

theorem layered_override (base : Settings) (env : Environment) :
    Layered base env (base.override env) where
  overridden o v set := by rw [o.get_override, (o.sets_iff env v).mp set, Option.getD_some]
  kept o unset := by
    rw [o.get_override]
    cases value : (env o.key).bind o.parse with
    | none => rfl
    | some v => exact absurd ⟨v, (o.sets_iff env v).mpr value⟩ unset
  sweepInterval := rfl
  journalCapacity := rfl

theorem Settings.eq_of_get {s s' : Settings} (same : ∀ o : Override, o.get s = o.get s')
    (sweep : s.sessions.sweepInterval = s'.sessions.sweepInterval)
    (journal : s.sessions.journalCapacity = s'.sessions.journalCapacity) : s = s' := by
  obtain ⟨address, port, request, queue, mode, write, idle, interval, capacity⟩ := s
  obtain ⟨address', port', request', queue', mode', write', idle', interval', capacity'⟩ := s'
  obtain rfl : address = address' := same .address
  obtain rfl : port = port' := same .listenPort
  obtain rfl : request = request' := same .maxRequest
  obtain rfl : queue = queue' := same .queueCapacity
  obtain rfl : write = write' := same .writeTimeout
  obtain rfl : idle = idle' := same .idleTimeout
  obtain rfl : mode = mode' := same .backpressure
  obtain rfl : interval = interval' := sweep
  obtain rfl : capacity = capacity' := journal
  rfl

theorem Layered.of_sets {base merged : Settings} {env env' : Environment}
    (layered : Layered base env merged)
    (same : ∀ (o : Override) (v : o.Value), o.Sets env' v ↔ o.Sets env v) :
    Layered base env' merged where
  overridden o v set := layered.overridden o v ((same o v).mp set)
  kept o unset := layered.kept o fun ⟨v, set⟩ => unset ⟨v, (same o v).mpr set⟩
  sweepInterval := layered.sweepInterval
  journalCapacity := layered.journalCapacity

theorem layered_iff (base : Settings) (env : Environment) (s : Settings) :
    Layered base env s ↔ s = base.override env := by
  constructor
  · intro layered
    have other := layered_override base env
    refine Settings.eq_of_get (fun o => ?_) (layered.sweepInterval.trans other.sweepInterval.symm)
      (layered.journalCapacity.trans other.journalCapacity.symm)
    by_cases set : ∃ v, o.Sets env v
    · obtain ⟨v, set⟩ := set
      rw [layered.overridden o v set, other.overridden o v set]
    · rw [layered.kept o set, other.kept o set]
  · rintro rfl
    exact layered_override base env

theorem override_unparsable (base : Settings) (env : Environment) {o : Override} {s : String}
    (unparsable : ¬∃ v, o.Text s v) :
    base.override (Function.update env o.key (some s)) =
      base.override (Function.update env o.key none) := by
  refine (layered_iff base _ _).mp ((layered_override base _).of_sets fun o' v => ?_)
  by_cases same : o' = o
  · subst same
    refine iff_of_false ?_ ?_
    · rintro ⟨s', set, -⟩
      rw [Function.update_self] at set
      cases set
    · rintro ⟨s', set, text⟩
      rw [Function.update_self] at set
      cases set
      exact unparsable ⟨v, text⟩
  · have apart : o'.key ≠ o.key := fun key => same (Override.key_injective key)
    simp only [Override.Sets, Function.update_of_ne apart]

theorem Settings.validate_ok_iff (s : Settings) :
    s.validate = .ok () ↔ 1 ≤ s.maxRequest ∧ s.sessions.validate = .ok () := by
  unfold validate
  split_ifs with zero
  · simp [zero]
  · have some : 1 ≤ s.maxRequest := Nat.pos_of_ne_zero zero
    rw [and_iff_right some]
    cases s.sessions.validate <;> simp

/-- What lies below the variables: the settings of the file, or the default ones. -/
def Settings.below (file : Option File) : Except SettingsError Settings :=
  file.elim (.ok .default) File.settings

theorem Settings.load_eq (file : Option File) (env : Environment) :
    load file env = (below file).bind fun base =>
      (base.override env).validate.map fun _ => base.override env := by
  have merged (base : Settings) :
      (do (base.override env).validate; return base.override env : Except SettingsError Settings) =
        (base.override env).validate.map fun _ => base.override env := by
    cases (base.override env).validate <;> rfl
  cases file with
  | none => exact merged .default
  | some f =>
    change (f.settings.bind fun base => _) = f.settings.bind _
    cases f.settings with
    | error e => rfl
    | ok base => exact merged base

theorem Settings.load_ok_iff {file : Option File} {base : Settings} (parsed : below file = .ok base)
    (env : Environment) (s : Settings) :
    load file env = .ok s ↔
      s = base.override env ∧ 1 ≤ s.maxRequest ∧ s.sessions.validate = .ok () := by
  rw [load_eq, parsed, ← validate_ok_iff]
  change (base.override env).validate.map _ = _ ↔ _
  constructor
  · intro loaded
    cases valid : (base.override env).validate with
    | error e =>
      rw [valid] at loaded
      cases loaded
    | ok =>
      rw [valid] at loaded
      cases loaded
      exact ⟨rfl, valid⟩
  · rintro ⟨rfl, valid⟩
    rw [valid]
    rfl

theorem Settings.valid_of_load {file : Option File} {env : Environment} {s : Settings}
    (loaded : load file env = .ok s) : s.sessions.validate = .ok () := by
  cases parsed : below file with
  | error e =>
    rw [load_eq, parsed] at loaded
    cases loaded
  | ok base => exact ((load_ok_iff parsed env s).mp loaded).2.2

/-- Variables make settings valid that are not, up to a journal without room, which has none. -/
theorem Settings.loads_iff {file : Option File} {base : Settings} (parsed : below file = .ok base) :
    (∃ env s, load file env = .ok s) ↔ 0 < base.sessions.journalCapacity := by
  constructor
  · rintro ⟨env, s, loaded⟩
    obtain ⟨rfl, -, valid⟩ := (load_ok_iff parsed env s).mp loaded
    exact ((Config.validate_ok_iff _).mp valid).2.2.2
  · intro journal
    let env : Environment := fun name =>
      [(Override.maxRequest.key, "1"), (Override.queueCapacity.key, "1"),
        (Override.writeTimeout.key, "1"), (Override.idleTimeout.key, "0")].lookup name
    have valid : (base.override env).sessions.validate = .ok () :=
      (Config.validate_ok_iff _).mpr
        ⟨Nat.one_pos, Nat.one_pos, fun idle => absurd idle (Nat.lt_irrefl 0), journal⟩
    exact ⟨env, _, (load_ok_iff parsed env _).mpr ⟨rfl, Nat.le_refl 1, valid⟩⟩

/-- What is loaded is the file below the variables, if that is valid. For each field only its own
variable matters, and that only if it is set to a text of the field. So variables may repair what is
wrong in the file, all but a journal without room, and spoil what is right. -/
theorem merged_if_valid {file : Option File} {base : Settings}
    (parsed : Settings.below file = .ok base) (env : Environment) :
    ∃ merged, (∀ s, Layered base env s ↔ s = merged) ∧
      (∀ s, Settings.load file env = .ok s ↔
        s = merged ∧ 1 ≤ s.maxRequest ∧ s.sessions.validate = .ok ()) ∧
      (∀ env' merged' (o : Override), Layered base env' merged' → env' o.key = env o.key →
        o.get merged' = o.get merged) ∧
      (∀ (o : Override) (s : String), (¬∃ v, o.Text s v) →
        Settings.load file (Function.update env o.key (some s)) =
          Settings.load file (Function.update env o.key none)) ∧
      ((∃ env' s, Settings.load file env' = .ok s) ↔ 0 < base.sessions.journalCapacity) ∧
      Settings.load file (Function.update env Override.maxRequest.key (some "0")) =
        .error .noRequest := by
  refine ⟨base.override env, layered_iff base env, Settings.load_ok_iff parsed env, ?own,
    ?unparsable, Settings.loads_iff parsed, ?spoiled⟩
  case own =>
    intro env' merged' o layered same
    rw [(layered_iff base env' merged').mp layered, o.get_override, o.get_override, same]
  case unparsable =>
    intro o s unparsable
    rw [Settings.load_eq, Settings.load_eq]
    simp only [override_unparsable _ env unparsable]
  case spoiled =>
    have zero : Override.maxRequest.get
        (base.override (Function.update env Override.maxRequest.key (some "0"))) = (0 : Nat) := by
      rw [Override.get_override, Function.update_self]
      rfl
    have invalid : Settings.validate
        (base.override (Function.update env Override.maxRequest.key (some "0"))) =
          .error .noRequest := if_pos zero
    rw [Settings.load_eq, parsed]
    simp only [Except.bind, invalid, Except.map]

deriving instance DecidableEq for Settings

def zeroLimit : File := ⟨"server.yaml", "max_request_len: 0\n".toUTF8⟩

def onlyLimit (s : String) : Environment :=
  Function.update (fun _ => none) Override.maxRequest.key (some s)

theorem zeroLimit_repaired :
    Settings.load (some zeroLimit) (onlyLimit "+01") =
      .ok { Settings.default with maxRequest := 1 } ∧
    (∀ s, Settings.load (some zeroLimit) (onlyLimit "0x1") ≠ .ok s) ∧
    Settings.load none (onlyLimit "0") = .error .noRequest := by
  have text : Settings.ofFile? "max_request_len: 0\n" =
      some { Settings.default with maxRequest := 0 } := by decide +kernel
  have bytes : String.fromUTF8? zeroLimit.bytes = some "max_request_len: 0\n" := by rfl
  have parsed : Settings.below (some zeroLimit) =
      .ok { Settings.default with maxRequest := 0 } := by
    change File.settings zeroLimit = _
    simp only [File.settings, bytes, text]
  refine ⟨?repaired, ?other, ?spoiled⟩
  case repaired =>
    obtain ⟨merged, layers, loaded, -⟩ := merged_if_valid parsed (onlyLimit "+01")
    have one : { Settings.default with maxRequest := 1 } = merged :=
      (layers _).mp (layered_override _ _)
    exact (loaded _).mpr ⟨one, Nat.le_refl 1, rfl⟩
  case other =>
    intro s done
    obtain ⟨merged, layers, loaded, -⟩ := merged_if_valid parsed (onlyLimit "0x1")
    have zero : { Settings.default with maxRequest := 0 } = merged :=
      (layers _).mp (layered_override _ _)
    obtain ⟨rfl, some, -⟩ := (loaded s).mp done
    rw [← zero] at some
    exact absurd some (by decide)
  case spoiled =>
    have nothing : Settings.below none = .ok .default := rfl
    obtain ⟨merged, -, -, -, -, -, spoiled⟩ := merged_if_valid nothing fun _ => none
    exact spoiled

end Server

end Courier
