import Mathlib.Data.List.Find
import Mathlib.Data.List.Forall2
import Mathlib.Logic.Function.Basic
import Courier.Client
import Courier.Config
import Courier.Message
import Courier.Proofs.Json.Reading

set_option autoImplicit false

namespace Courier

namespace Json

inductive Kind
  | text
  | optionalText
  | natural (bits : Nat)
  | variant (names : List String)

/-- Whether a value is of the right kind. A variant is its name, or an object of the name alone. -/
def Kind.Fits : Kind → Value → Prop
  | .text, .text _ => True
  | .optionalText, .text _ => True
  | .optionalText, .null => True
  | .natural bits, .natural n => n < 2 ^ bits
  | .variant names, .text name => name ∈ names
  | .variant names, .object [(name, .null)] => name ∈ names
  | _, _ => False

abbrev Kinds := List (String × Kind)

def Kinds.names (kinds : Kinds) : List String := kinds.map Prod.fst

/-- The values that fields are given; a field without one is absent. -/
abbrev Given := String → Option Value

namespace Given

def text? (g : Given) (name : String) : Option String :=
  match g name with
  | some (.text s) => some s
  | _ => none

def text (g : Given) (name : String) : String := (g.text? name).getD ""

def natural (g : Given) (name : String) (default : Nat) : Nat :=
  match g name with
  | some (.natural n) => n
  | _ => default

def variant {α : Type} (g : Given) (name : String) (known : List (String × α)) (default : α) : α :=
  match g name with
  | some (.text variant) => (known.lookup variant).getD default
  | some (.object [(variant, .null)]) => (known.lookup variant).getD default
  | _ => default

end Given

structure Member where
  key : Padded Token
  name : String
  spelled : Spells key.inner name
  value : Padded Tree

def Member.pair (m : Member) : Padded Token × Padded Tree := (m.key, m.value)

structure ObjectText where
  before : List Space
  members : List Member
  close : List Space
  after : List Space

def ObjectText.text (o : ObjectText) : String :=
  String.ofList (spaces o.before ++
    ((Tree.object (o.members.map Member.pair) o.close).chars ++ spaces o.after))

def ObjectText.names (o : ObjectText) : List String := o.members.map Member.name

structure ArrayText where
  before : List Space
  items : List (Padded Tree)
  close : List Space
  after : List Space

def ArrayText.text (a : ArrayText) : String :=
  String.ofList (spaces a.before ++ ((Tree.array a.items a.close).chars ++ spaces a.after))

def Given.Takes (g : Given) (field : String × Kind) (t : Tree) : Prop :=
  ∃ v, g field.1 = some v ∧ t.Says v ∧ field.2.Fits v

/-- Each field occurs at most once, with a value of its kind. Nothing is said of other members. -/
structure ObjectText.Gives (o : ObjectText) (kinds : Kinds) (g : Given) : Prop where
  once : (o.names.filter (kinds.names.contains ·)).Nodup
  there : ∀ m ∈ o.members, ∀ kind, (m.name, kind) ∈ kinds → g.Takes (m.name, kind) m.value.inner
  absent : ∀ name ∈ kinds.names, name ∉ o.names → g name = none

/-- The items are values of the first fields. -/
structure ArrayText.Gives (a : ArrayText) (kinds : Kinds) (g : Given) : Prop where
  there : List.Forall₂ g.Takes (kinds.take a.items.length) (a.items.map Padded.inner)
  absent : ∀ name ∈ Kinds.names (kinds.drop a.items.length), g name = none

structure Field.Adds {σ : Type} (build : Given → σ) (f : Field σ) (field : String × Kind) :
    Prop where
  name : f.name = field.1
  read : ∀ g v, field.2.Fits v →
    f.read v.doc (build g) = .ok (build (Function.update g field.1 (some v)))

/-- A record is built from what its fields are given: from nothing it is as at the start, and a
field that is read adds its value. -/
structure Record.Builds {σ : Type} (r : Record σ) (kinds : Kinds) (build : Given → σ) : Prop where
  start : build (fun _ => none) = r.start
  fields : List.Forall₂ (Field.Adds build) r.fields kinds
  depends : ∀ g g' : Given, (∀ name ∈ kinds.names, g name = g' name) → build g = build g'

namespace Record

variable {σ : Type} {r : Record σ} {kinds : Kinds} {build : Given → σ}

theorem Builds.names (builds : r.Builds kinds build) : r.fields.map (·.name) = kinds.names := by
  have fields := builds.fields
  clear builds
  generalize r.fields = fs at fields
  induction fields with
  | nil => rfl
  | cons first _ ih => rw [List.map_cons, ih, first.name]; rfl

theorem Builds.field (builds : r.Builds kinds build) {f : Field σ} (there : f ∈ r.fields) :
    ∃ kind, (f.name, kind) ∈ kinds ∧ ∀ g v, kind.Fits v →
      f.read v.doc (build g) = .ok (build (Function.update g f.name (some v))) := by
  have fields := builds.fields
  clear builds
  generalize r.fields = fs at fields there
  induction fields with
  | nil => simp at there
  | @cons _ field _ _ first _ ih =>
    rcases List.mem_cons.mp there with rfl | there
    · obtain ⟨name, kind⟩ := field
      obtain rfl : f.name = name := first.name
      exact ⟨kind, List.mem_cons_self, first.read⟩
    · obtain ⟨kind, known, read⟩ := ih there
      exact ⟨kind, List.mem_cons_of_mem _ known, read⟩

theorem Builds.field?_none (builds : r.Builds kinds build) {name : String}
    (unknown : r.field? name = none) : name ∉ kinds.names := by
  rw [← builds.names]
  intro known
  obtain ⟨f, there, rfl⟩ := List.mem_map.mp known
  have other := List.find?_eq_none.mp unknown f there
  simp at other

/-- After a member that is known its field is given; one that is not known gives nothing that
matters. What was given before is `sofar`. -/
theorem Builds.readMember (builds : r.Builds kinds build) {g : Given} {m : Member}
    {doc : Literal × Doc} (read : ReadMember m.pair doc)
    (there : ∀ kind, (m.name, kind) ∈ kinds → g.Takes (m.name, kind) m.value.inner)
    {seen : List String} (fresh : m.name ∈ kinds.names → m.name ∉ seen) (sofar : Given) :
    ∃ seen', r.readMember seen (build sofar) doc =
        .ok (seen', build fun name => if name = m.name then g name else sofar name) ∧
      ∀ name ∈ kinds.names, name ∈ seen' ↔ name ∈ seen ∨ name = m.name := by
  obtain ⟨l, d⟩ := doc
  obtain rfl : l = .text m.name := read.key.trans (literal_spelled m.spelled)
  rw [Record.readMember]
  cases found : r.field? m.name with
  | none =>
    have unknown := builds.field?_none found
    have other (name : String) (field : name ∈ kinds.names) : name ≠ m.name := by
      rintro rfl
      exact unknown field
    refine ⟨seen, ?_, fun name field => by simp [other name field]⟩
    simp only [read.value.skipped]
    refine congrArg (fun so => Except.ok (seen, so)) (builds.depends _ _ fun name field => ?_)
    rw [if_neg (other name field)]
  | some f =>
    have name : f.name = m.name := by simpa using List.find?_some found
    obtain ⟨kind, known, reads⟩ := builds.field (List.mem_of_find?_eq_some found)
    rw [name] at known reads
    obtain ⟨v, given, said, fits⟩ := there kind known
    obtain rfl : d = v.doc := read.value.said v said
    have new : seen.contains m.name = false := by
      simpa using fresh (List.mem_map.mpr ⟨_, known, rfl⟩)
    refine ⟨m.name :: seen, ?_, fun name _ => by rw [List.mem_cons, or_comm]⟩
    simp only [new, Bool.false_eq_true, if_false, reads sofar v fits, Except.map]
    refine congrArg (fun given => Except.ok (m.name :: seen, build given)) (funext fun name => ?_)
    by_cases same : name = m.name
    · subst same
      simp [given]
    · simp [same]

theorem Builds.readMembers (builds : r.Builds kinds build) {g : Given} {ms : List Member}
    {docs : List (Literal × Doc)} (read : List.Forall₂ ReadMember (ms.map Member.pair) docs)
    (once : ((ms.map Member.name).filter (kinds.names.contains ·)).Nodup)
    (there : ∀ m ∈ ms, ∀ kind, (m.name, kind) ∈ kinds → g.Takes (m.name, kind) m.value.inner)
    (seen : List String) (fresh : ∀ m ∈ ms, m.name ∈ kinds.names → m.name ∉ seen) (sofar : Given) :
    ∃ seen', r.readMembers docs seen (build sofar) = .ok (seen',
        build fun name => if name ∈ ms.map Member.name then g name else sofar name) ∧
      ∀ name ∈ kinds.names, name ∈ seen' ↔ name ∈ seen ∨ name ∈ ms.map Member.name := by
  induction ms generalizing docs seen sofar with
  | nil =>
    cases read
    exact ⟨seen, rfl, by simp⟩
  | cons m ms ih =>
    obtain ⟨doc, docs, first, rest, rfl⟩ := List.forall₂_cons_left_iff.mp read
    obtain ⟨seen₁, member, known₁⟩ :=
      builds.readMember first (there m List.mem_cons_self) (fresh m List.mem_cons_self) sofar
    rw [List.map_cons, List.filter_cons] at once
    have others : ((ms.map Member.name).filter (kinds.names.contains ·)).Nodup := by
      split at once
      · exact (List.nodup_cons.mp once).2
      · exact once
    have fresh₁ (m' : Member) (among : m' ∈ ms) (field : m'.name ∈ kinds.names) :
        m'.name ∉ seen₁ := by
      rw [known₁ m'.name field]
      rintro (before | same)
      · exact fresh m' (List.mem_cons_of_mem _ among) field before
      · -- the field would occur twice
        rw [if_pos (by simpa [← same] using field)] at once
        refine (List.nodup_cons.mp once).1 (List.mem_filter.mpr ⟨?_, by simpa [← same] using field⟩)
        exact same ▸ List.mem_map_of_mem among
    obtain ⟨seen₂, members, known₂⟩ :=
      ih rest others (fun m' among => there m' (List.mem_cons_of_mem _ among)) seen₁ fresh₁
        fun name => if name = m.name then g name else sofar name
    refine ⟨seen₂, ?_, fun name field => ?_⟩
    · rw [Record.readMembers, member]
      refine members.trans (congrArg (fun given => Except.ok (seen₂, build given)) ?_)
      funext name
      by_cases same : name = m.name
      · simp [same]
      · simp [same]
    · rw [known₂ name field, known₁ name field, List.map_cons, List.mem_cons, or_assoc]

def lacking? (r : Record σ) (g : Given) : Option String :=
  if r.required then (r.fields.map (·.name)).find? fun name => (g name).isNone else none

theorem Builds.decode_object (builds : r.Builds kinds build) {o : ObjectText} {g : Given}
    (gives : o.Gives kinds g) : decode r.read o.text =
      match r.lacking? g with
      | some name => .error (.mismatch (.missingField name))
      | none => .ok (build g) := by
  obtain ⟨docs, members, whole⟩ := read_object o.before o.close o.after (o.members.map Member.pair)
  obtain ⟨seen, done, known⟩ := builds.readMembers members gives.once gives.there []
    (fun _ _ _ => List.not_mem_nil) fun _ => none
  have result : build (fun name => if name ∈ o.members.map Member.name then g name else none) =
      build g := by
    refine builds.depends _ _ fun name field => ?_
    split
    · rfl
    · exact (gives.absent name field ‹_›).symm
  have given (name : String) (field : name ∈ kinds.names) :
      (!seen.contains name) = (g name).isNone := by
    by_cases there : name ∈ o.names
    · obtain ⟨m, among, rfl⟩ := List.mem_map.mp there
      obtain ⟨⟨name, kind⟩, known', same⟩ := List.mem_map.mp field
      obtain rfl : name = m.name := same
      obtain ⟨v, given, -⟩ := gives.there m among kind known'
      simpa [given] using (known m.name field).mpr (.inr there)
    · have unseen : name ∉ seen := fun read => there (((known name field).mp read).resolve_left
        List.not_mem_nil)
      simp [gives.absent name field there, unseen]
  have missing : r.missing? seen = r.lacking? g := by
    rw [missing?, lacking?, builds.names]
    split
    · exact List.find?_congr given
    · rfl
  rw [ObjectText.text, decode_of_read r.read whole, Record.read, ← builds.start, done, result]
  simp only [Ending.fault?, missing]
  cases r.lacking? g with
  | none => rfl
  | some name => rfl

/-- Elements are read into the fields in declared order, up to the last one that is there. -/
theorem readElements_given {g : Given} {fs : List (Field σ)} {fields : Kinds}
    (adds : List.Forall₂ (Field.Adds build) fs fields) {ts : List Tree} {docs : List Doc}
    (there : List.Forall₂ g.Takes (fields.take ts.length) ts)
    (read : List.Forall₂ Tree.ReadAs ts docs)
    (whole : r.required = false ∨ ts.length = fields.length) (n : Nat) (sofar : Given) :
    r.readElements n fs docs .closed (build sofar) =
      .ok (build fun name =>
        if name ∈ Kinds.names (fields.take ts.length) then g name else sofar name) := by
  induction adds generalizing ts docs n sofar with
  | nil =>
    rw [List.take_nil] at there
    cases there
    cases read
    rfl
  | @cons f field fs fields first _ ih =>
    cases read with
    | nil =>
      have optional : r.required = false := whole.resolve_right (by simp)
      simp [readElements, Ending.fault?, optional, Kinds.names]
    | @cons t d ts docs is read =>
      rw [List.length_cons, List.take_succ_cons] at there
      cases there with
      | cons takes there =>
        obtain ⟨v, given, said, fits⟩ := takes
        obtain rfl : d = v.doc := is.said v said
        rw [readElements, first.read sofar v fits]
        refine (ih there read (whole.imp_right Nat.succ.inj) _ _).trans ?_
        refine congrArg (fun given => Except.ok (build given)) (funext fun name => ?_)
        rw [List.length_cons, List.take_succ_cons, Kinds.names, Kinds.names, List.map_cons]
        by_cases same : name = field.1
        · subst same
          simp [given]
        · simp [same]

theorem Builds.decode_array (builds : r.Builds kinds build) {a : ArrayText} {g : Given}
    (gives : a.Gives kinds g) (whole : r.required = false ∨ a.items.length = kinds.length) :
    decode r.read a.text = .ok (build g) := by
  obtain ⟨docs, items, read⟩ := read_array a.before a.close a.after a.items
  have length : (a.items.map Padded.inner).length = a.items.length := List.length_map _
  have there := gives.there
  rw [← length] at there whole
  have elements := readElements_given builds.fields there items whole 0 fun _ => none
  rw [ArrayText.text, decode_of_read r.read read, Record.read, ← builds.start, elements]
  refine congrArg Except.ok (builds.depends _ _ fun name field => ?_)
  rw [← List.take_append_drop a.items.length kinds, Kinds.names, List.map_append,
    List.mem_append] at field
  rw [length]
  split
  · rfl
  · exact (gives.absent name (field.resolve_left ‹_›)).symm

theorem length_of_readElements (all : r.required = true) {fs : List (Field σ)} {docs : List Doc}
    {n : Nat} {so result : σ} (read : r.readElements n fs docs .closed so = .ok result) :
    docs.length = fs.length := by
  induction fs generalizing docs n so with
  | nil =>
    cases docs with
    | nil => rfl
    | cons d docs => cases read
  | cons f fs ih =>
    cases docs with
    | nil =>
      rw [readElements] at read
      simp [Ending.fault?, all] at read
    | cons d docs =>
      rw [readElements] at read
      split at read
      · cases read
      · exact congrArg Nat.succ (ih read)

theorem decode_array_length (all : r.required = true) {a : ArrayText}
    (other : a.items.length ≠ r.fields.length) : ∃ e, decode r.read a.text = .error e := by
  obtain ⟨docs, items, read⟩ := read_array a.before a.close a.after a.items
  rw [ArrayText.text, decode_of_read r.read read, Record.read]
  cases result : r.readElements 0 r.fields docs .closed r.start with
  | error e => exact ⟨e, rfl⟩
  | ok so =>
    have length := items.length_eq
    rw [List.length_map, length_of_readElements all result] at length
    exact absurd length other

end Record

section Fields

variable {σ α : Type} {build : Given → σ} {name : String} {kind : Kind}

theorem Field.adds_of_read {read : Doc → Except Error α} {get : Given → α} {set : σ → α → σ}
    (reads : ∀ g v, g name = some v → kind.Fits v → read v.doc = .ok (get g))
    (keeps : ∀ g v, build (Function.update g name (some v)) =
      set (build g) (get (Function.update g name (some v)))) :
    Field.Adds build ⟨name, fun d so => (read d).map (set so)⟩ (name, kind) := by
  refine ⟨rfl, fun g v fits => ?_⟩
  change (read v.doc).map (set (build g)) = _
  rw [reads _ v (Function.update_self name (some v) g) fits, keeps g v]
  rfl

theorem Given.text_read (g : Given) (v : Value) (there : g name = some v)
    (fits : Kind.text.Fits v) : v.doc.text = .ok (g.text name) := by
  cases v with
  | text s => rw [Given.text, Given.text?, there]; rfl
  | null | natural | object => cases fits

theorem Given.text?_read (g : Given) (v : Value) (there : g name = some v)
    (fits : Kind.optionalText.Fits v) : v.doc.optionalText = .ok (g.text? name) := by
  cases v with
  | null | text => rw [Given.text?, there]; rfl
  | natural | object => cases fits

theorem Given.natural_read {bits : Nat} (expected : String) (default : Nat) (g : Given) (v : Value)
    (there : g name = some v) (fits : (Kind.natural bits).Fits v) :
    v.doc.natural bits expected = .ok (g.natural name default) := by
  cases v with
  | natural n =>
    rw [Given.natural, there]
    exact if_pos fits
  | null | text | object => cases fits

theorem variantNamed_mem {known : List (String × α)} {choice : String}
    (among : choice ∈ known.map Prod.fst) (default : α) :
    variantNamed known choice = .ok ((known.lookup choice).getD default) := by
  rw [variantNamed]
  cases found : known.lookup choice with
  | none =>
    obtain ⟨pair, there, rfl⟩ := List.mem_map.mp among
    have other := List.lookup_eq_none_iff.mp found pair there
    simp at other
  | some a => rfl

theorem Given.variant_read {known : List (String × α)} (default : α) (g : Given) (v : Value)
    (there : g name = some v) (fits : (Kind.variant (known.map Prod.fst)).Fits v) :
    v.doc.variant known = .ok (g.variant name known default) := by
  unfold Kind.Fits at fits
  split at fits
  -- two shapes of values are left: the name itself, and an object of the name
  all_goals first | contradiction | cases ‹Kind.variant _ = _›
  · rw [Given.variant, there]
    exact variantNamed_mem fits default
  · simp [Value.doc, Value.docs, Doc.variant, Given.variant, there, variantNamed_mem fits default]

end Fields

end Json

open Json

def Header.kinds : Kinds :=
  [("env", .text), ("idc", .text), ("ip", .text), ("pid", .text), ("sys", .text),
    ("username", .text), ("language", .text), ("protocolType", .text), ("protocolVersion", .text),
    ("protocolDesc", .text), ("correlationId", .optionalText), ("topic", .optionalText)]

def Header.given (g : Given) : Header where
  env := g.text "env"
  idc := g.text "idc"
  ip := g.text "ip"
  pid := g.text "pid"
  sys := g.text "sys"
  username := g.text "username"
  language := g.text "language"
  protocolType := g.text "protocolType"
  protocolVersion := g.text "protocolVersion"
  protocolDesc := g.text "protocolDesc"
  correlationId := g.text? "correlationId"
  topic := g.text? "topic"

theorem Header.builds : Header.record.Builds Header.kinds Header.given where
  start := rfl
  fields := by
    simp only [Header.record, Header.kinds, List.forall₂_cons, List.forall₂_nil_right_iff, and_true]
    refine ⟨?env, ?idc, ?ip, ?pid, ?sys, ?username, ?language, ?protocolType, ?protocolVersion,
      ?protocolDesc, ?correlationId, ?topic⟩
    case correlationId | topic =>
      refine Field.adds_of_read Given.text?_read fun g v => ?_
      simp [Header.given, Given.text, Given.text?]
    all_goals
      refine Field.adds_of_read Given.text_read fun g v => ?_
      simp [Header.given, Given.text, Given.text?]
  depends g g' same := by
    simp only [Kinds.names, Header.kinds, List.map_cons, List.map_nil, List.forall_mem_cons] at same
    simp only [Header.given, Given.text, Given.text?, same]

def Client.kinds : Kinds :=
  [("subsystem", .text), ("group", .text), ("purpose", .variant (Purpose.names.map Prod.fst)),
    ("host", .text), ("pid", .natural 32)]

def Client.given (g : Given) : Client where
  subsystem := g.text "subsystem"
  group := g.text "group"
  purpose := g.variant "purpose" Purpose.names .subscribe
  host := g.text "host"
  pid := g.natural "pid" 0

theorem Client.builds : Client.record.Builds Client.kinds Client.given where
  start := rfl
  fields := by
    simp only [Client.record, Client.kinds, List.forall₂_cons, List.forall₂_nil_right_iff, and_true]
    refine ⟨Field.adds_of_read Given.text_read fun g v => ?subsystem,
      Field.adds_of_read Given.text_read fun g v => ?group,
      Field.adds_of_read (Given.variant_read Purpose.subscribe) fun g v => ?purpose,
      Field.adds_of_read Given.text_read fun g v => ?host,
      Field.adds_of_read (Given.natural_read "u32" 0) fun g v => ?pid⟩
    all_goals simp [Client.given, Given.text, Given.text?, Given.variant, Given.natural]
  depends g g' same := by
    simp only [Kinds.names, Client.kinds, List.map_cons, List.map_nil, List.forall_mem_cons] at same
    simp only [Client.given, Given.text, Given.text?, Given.variant, Given.natural, same]

def Config.kinds : Kinds :=
  [("queue_capacity", .natural 64), ("backpressure", .variant (Backpressure.names.map Prod.fst)),
    ("write_timeout_ms", .natural 64), ("idle_timeout_secs", .natural 64),
    ("sweep_interval_secs", .natural 64), ("event_channel_capacity", .natural 64)]

def Config.given (g : Given) : Config where
  queueCapacity := g.natural "queue_capacity" 64
  backpressure := g.variant "backpressure" Backpressure.names .block
  writeTimeout := g.natural "write_timeout_ms" 5000
  idleTimeout := g.natural "idle_timeout_secs" 120
  sweepInterval := g.natural "sweep_interval_secs" 1
  journalCapacity := g.natural "event_channel_capacity" 100

theorem Config.builds : Config.record.Builds Config.kinds Config.given where
  start := rfl
  fields := by
    simp only [Config.record, Config.kinds, List.forall₂_cons, List.forall₂_nil_right_iff, and_true]
    refine ⟨Field.adds_of_read (Given.natural_read "usize" 64) fun g v => ?queue,
      Field.adds_of_read (Given.variant_read Backpressure.block) fun g v => ?backpressure,
      Field.adds_of_read (Given.natural_read "u64" 5000) fun g v => ?write,
      Field.adds_of_read (Given.natural_read "u64" 120) fun g v => ?idle,
      Field.adds_of_read (Given.natural_read "u64" 1) fun g v => ?sweep,
      Field.adds_of_read (Given.natural_read "usize" 100) fun g v => ?journal⟩
    all_goals simp [Config.given, Given.variant, Given.natural]
  depends g g' same := by
    simp only [Kinds.names, Config.kinds, List.map_cons, List.map_nil, List.forall_mem_cons] at same
    simp only [Config.given, Given.variant, Given.natural, same]

def Status.kinds : Kinds := [("retCode", .text), ("errMsg", .text)]

def Status.texts (g : Given) : Status := ⟨g.text "retCode", g.text "errMsg"⟩

def Status.given (g : Given) : Except Json.Error Status :=
  if (g "retCode").isNone then .error (.mismatch (.missingField "retCode"))
  else if (g "errMsg").isNone then .error (.mismatch (.missingField "errMsg"))
  else .ok (.texts g)

theorem Status.builds : Status.record.Builds Status.kinds Status.texts where
  start := rfl
  fields := by
    simp only [Status.record, Status.kinds, List.forall₂_cons, List.forall₂_nil_right_iff, and_true]
    refine ⟨Field.adds_of_read Given.text_read fun g v => ?code,
      Field.adds_of_read Given.text_read fun g v => ?text⟩
    all_goals simp [Status.texts, Given.text, Given.text?]
  depends g g' same := by
    simp only [Kinds.names, Status.kinds, List.map_cons, List.map_nil, List.forall_mem_cons] at same
    simp only [Status.texts, Given.text, Given.text?, same]

theorem Status.decode_object {o : ObjectText} {g : Given} (gives : o.Gives Status.kinds g) :
    Status.decode o.text = Status.given g := by
  rw [Status.decode, Status.builds.decode_object gives, Status.given]
  cases code : g "retCode" <;> cases text : g "errMsg" <;>
    simp [Record.lacking?, Status.record, code, text]

theorem Status.decode_array {a : ArrayText} {g : Given} (gives : a.Gives Status.kinds g)
    (two : a.items.length = 2) : Status.decode a.text = Status.given g := by
  have there := gives.there
  rw [two] at there
  obtain ⟨_, _, ⟨_, code, -⟩, there, -⟩ := List.forall₂_cons_left_iff.mp there
  obtain ⟨_, _, ⟨_, text, -⟩, -⟩ := List.forall₂_cons_left_iff.mp there
  rw [Status.decode, Status.builds.decode_array gives (.inr two), Status.given, code, text]
  rfl

/-- What the members that a record knows say decides what is read, in whatever order, spelling and
company they stand. Values given as an array are read as if given by name; a status takes exactly
two. -/
theorem recognised_members_decide (o : ObjectText) (a : ArrayText) (g : Given) :
    (o.Gives Header.kinds g → Header.decode o.text = .ok (Header.given g)) ∧
    (o.Gives Client.kinds g → Client.decode o.text = .ok (Client.given g)) ∧
    (o.Gives Config.kinds g → Config.decode o.text = .ok (Config.given g)) ∧
    (o.Gives Status.kinds g → Status.decode o.text = Status.given g) ∧
    (a.Gives Header.kinds g → Header.decode a.text = .ok (Header.given g)) ∧
    (a.Gives Client.kinds g → Client.decode a.text = .ok (Client.given g)) ∧
    (a.Gives Config.kinds g → Config.decode a.text = .ok (Config.given g)) ∧
    (a.Gives Status.kinds g → a.items.length = 2 → Status.decode a.text = Status.given g) ∧
    (a.items.length ≠ 2 → ∃ e, Status.decode a.text = .error e) := by
  refine ⟨Header.builds.decode_object, Client.builds.decode_object, Config.builds.decode_object,
    Status.decode_object, fun gives => Header.builds.decode_array gives (.inl rfl),
    fun gives => Client.builds.decode_array gives (.inl rfl),
    fun gives => Config.builds.decode_array gives (.inl rfl), Status.decode_array,
    Record.decode_array_length (r := Status.record) rfl⟩

def Json.plain (s : String) : Token :=
  s.toList.flatMap fun c =>
    if visible : 0x20 ≤ c.toNat ∧ c ≠ '"' ∧ c ≠ '\\' then
      [.plain c visible.1 visible.2.1 visible.2.2]
    else []

/-- The text `{"x":[1e400,"\ud800"],"purpose":{"pub":null}, "\u0071ueue_capacity":7,"x":[],` with
`"errMsg":""}` after it. -/
def Json.mixed : ObjectText where
  before := []
  members := [
    ⟨⟨[], plain "x", []⟩, "x", by decide, [], .array [
      ⟨[], .number ⟨false, 1, none, some ⟨false, none, ['4', '0', '0'], by simp, by simp⟩⟩, []⟩,
      ⟨[], .text [.unit ⟨13, false⟩ ⟨8, false⟩ ⟨0, false⟩ ⟨0, false⟩], []⟩] [], []⟩,
    ⟨⟨[], plain "purpose", []⟩, "purpose", by decide, [],
      .object [(⟨[], plain "pub", []⟩, ⟨[], .null, []⟩)] [], []⟩,
    ⟨⟨[.blank], .unit ⟨0, false⟩ ⟨0, false⟩ ⟨7, false⟩ ⟨1, false⟩ :: plain "ueue_capacity", []⟩,
      "queue_capacity", by decide, [], .number (.natural 7), []⟩,
    ⟨⟨[], plain "x", []⟩, "x", by decide, [], .array [] [], []⟩,
    ⟨⟨[], plain "errMsg", []⟩, "errMsg", by decide, [], .text [], []⟩]
  close := []
  after := []

def Json.couple : ArrayText where
  before := []
  items := [⟨[], .text (plain "a"), []⟩, ⟨[], .text (plain "b"), []⟩]
  close := []
  after := []

theorem mixed_members_decide :
    Header.decode mixed.text = .ok .default ∧
    Client.decode mixed.text = .ok (.plain "" "" .publish) ∧
    Config.decode mixed.text = .ok { Config.default with queueCapacity := 7 } ∧
    Status.decode mixed.text = .error (.mismatch (.missingField "retCode")) ∧
    Header.decode couple.text = .ok { Header.default with env := "a", idc := "b" } ∧
    Client.decode couple.text = .ok (.plain "a" "b" .subscribe) ∧
    Status.decode couple.text = .ok ⟨"a", "b"⟩ ∧
    Config.decode (ArrayText.mk [] [] [] []).text = .ok .default ∧
    ∃ e, Status.decode (ArrayText.mk [] [] [] []).text = .error e := by
  obtain ⟨header, client, config, status, -, -, -, -, fewer⟩ :=
    recognised_members_decide mixed ⟨[], [], [], []⟩ fun name =>
      [("purpose", Value.object [("pub", .null)]), ("queue_capacity", .natural 7),
        ("errMsg", .text "")].lookup name
  obtain ⟨-, -, -, -, header', client', -, status', -⟩ :=
    recognised_members_decide mixed couple fun name =>
      [("env", Value.text "a"), ("idc", .text "b"), ("subsystem", .text "a"), ("group", .text "b"),
        ("retCode", .text "a"), ("errMsg", .text "b")].lookup name
  obtain ⟨-, -, -, -, -, -, config', -⟩ :=
    recognised_members_decide mixed ⟨[], [], [], []⟩ fun _ => none
  refine ⟨header ⟨by decide, ?_, by decide⟩, client ⟨by decide, ?_, by decide⟩,
    config ⟨by decide, ?_, by decide⟩, status ⟨by decide, ?_, by decide⟩, header' ⟨?_, by decide⟩,
    client' ⟨?_, by decide⟩, status' ⟨?_, by decide⟩ rfl, config' ⟨.nil, fun _ _ => rfl⟩,
    fewer (by decide)⟩
  · simp [mixed, Header.kinds]
  · simp only [mixed, Client.kinds, List.mem_cons, List.not_mem_nil, or_false, Prod.mk.injEq,
      forall_eq_or_imp, forall_eq, String.reduceEq, false_and, or_self, IsEmpty.forall_iff,
      implies_true, true_and, false_or, and_self, and_true]
    exact ⟨_, rfl, .single (by decide), List.mem_cons_self⟩
  · simp only [mixed, Config.kinds, List.mem_cons, List.not_mem_nil, or_false, Prod.mk.injEq,
      forall_eq_or_imp, forall_eq, String.reduceEq, false_and, or_self, IsEmpty.forall_iff,
      implies_true, true_and, and_self, and_true]
    exact ⟨_, rfl, .natural (by decide), (by decide : 7 < 2 ^ 64)⟩
  · simp only [mixed, Status.kinds, List.mem_cons, List.not_mem_nil, or_false, Prod.mk.injEq,
      forall_eq_or_imp, forall_eq, String.reduceEq, false_and, or_self, IsEmpty.forall_iff,
      implies_true, true_and, false_or]
    exact ⟨_, rfl, .text (by decide), trivial⟩
  all_goals
    exact .cons ⟨_, rfl, .text (by decide), trivial⟩
      (.cons ⟨_, rfl, .text (by decide), trivial⟩ .nil)

end Courier
