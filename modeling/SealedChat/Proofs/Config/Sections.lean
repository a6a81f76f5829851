import SealedChat.Config.Decode
import SealedChat.Config.Encode
import SealedChat.Proofs.Toml.Document

/-!
# Settings are read as they were written

Settings are written as a document of four sections, and the document is read back section by
section (`ofToml_toToml`). Everything is kept as it was but the durations: a duration is written as a
number of milliseconds, of which the lowest 64 bits are kept, and what is beyond whole milliseconds
is lost. Numbers from 2⁶³ on cannot be written, and this is asked of what is left of a duration.
-/

namespace SealedChat

open Toml (Item Scalar Section entriesTable)

/-! ## What is kept -/

/-- The number that is written for a duration. -/
def Duration.word (d : Duration) : Nat := d.millis % Nat.pow 2 64

/-- What is left of a duration that has been written and read. -/
def Duration.kept (d : Duration) : Duration := .ofMillis d.word

/-- Durations of so many milliseconds. -/
def Duration.IsWhole (d : Duration) : Prop := d = .ofMillis d.millis

instance (d : Duration) : Decidable d.IsWhole := inferInstanceAs (Decidable (_ = _))

theorem Duration.kept_eq_iff {d : Duration} :
    d.kept = d ↔ d.IsWhole ∧ d.millis < Nat.pow 2 64 := by
  have hlt : d.word < Nat.pow 2 64 := Nat.mod_lt _ (by decide)
  constructor
  · intro h
    have hmillis : d.millis = d.word := by
      have hsame := congrArg millis h
      rw [kept, millis_ofMillis] at hsame
      exact hsame.symm
    exact ⟨by rw [IsWhole, hmillis, ← kept, h], hmillis ▸ hlt⟩
  · rintro ⟨hwhole, hlt⟩
    rw [kept, word, Nat.mod_eq_of_lt hlt]
    exact hwhole.symm

def ServerSettings.kept (s : ServerSettings) : ServerSettings :=
  { s with
    handshakeTimeout := s.handshakeTimeout.kept
    shutdownTimeout := s.shutdownTimeout.kept }

def ClientSettings.kept (c : ClientSettings) : ClientSettings :=
  { c with
    connectionTimeout := c.connectionTimeout.kept
    handshakeTimeout := c.handshakeTimeout.kept
    responseTimeout := c.responseTimeout.kept }

namespace Settings

/-- Settings that have been written and read: durations may have become shorter. -/
def kept (s : Settings) : Settings :=
  { s with
    server := s.server.kept
    client := s.client.kept }

def durations (s : Settings) : List Duration :=
  [s.server.handshakeTimeout, s.server.shutdownTimeout, s.client.connectionTimeout,
    s.client.handshakeTimeout, s.client.responseTimeout]

def counts (s : Settings) : List UInt64 :=
  [s.server.maxConnections, s.server.maxLineLength, s.client.maxLineLength]

theorem kept_eq_iff {s : Settings} : s.kept = s ↔ ∀ d ∈ s.durations, d.kept = d := by
  obtain ⟨server, client, keys, logging⟩ := s
  cases server
  cases client
  simp [kept, ServerSettings.kept, ClientSettings.kept, durations, and_assoc]

end Settings

/-! ## Sections -/

@[simp] theorem Toml.Scalar.fits_string (s : String) : (Scalar.string s).Fits := nofun

@[simp] theorem Toml.Scalar.fits_integer {n : Nat} : (Scalar.integer n).Fits ↔ n < Nat.pow 2 63 := by
  constructor
  · intro h
    exact h n rfl
  · rintro h _ ⟨⟩
    exact h

namespace Encode

theorem integer_eq_some_iff {n : Nat} {v : Scalar} :
    integer n = some v ↔ v = .integer n ∧ v.Fits := by
  rw [integer]
  split
  case isTrue h =>
    constructor
    · rintro ⟨⟩
      exact ⟨rfl, Scalar.fits_integer.2 h⟩
    · rintro ⟨rfl, -⟩
      rfl
  case isFalse h =>
    constructor
    · nofun
    · rintro ⟨rfl, hfits⟩
      exact absurd (Scalar.fits_integer.1 hfits) h

/-- The entries of a server, whether its numbers fit or not. -/
def serverEntries (s : ServerSettings) : Section :=
  [("address", .string s.address), ("max_connections", .integer s.maxConnections.toNat),
    ("handshake_timeout", .integer s.handshakeTimeout.word),
    ("shutdown_timeout", .integer s.shutdownTimeout.word),
    ("max_line_length", .integer s.maxLineLength.toNat)]

/-- The entries of a client, whether its numbers fit or not. -/
def clientEntries (c : ClientSettings) : Section :=
  [("server_address", .string c.serverAddress), ("identity", .string c.identity)] ++
    optional "private_address" c.privateAddress ++
    [("connection_timeout", .integer c.connectionTimeout.word),
      ("handshake_timeout", .integer c.handshakeTimeout.word),
      ("response_timeout", .integer c.responseTimeout.word),
      ("max_line_length", .integer c.maxLineLength.toNat)]

theorem time_eq (d : Duration) : time d = integer d.word := rfl

theorem server_eq_some_iff {s : ServerSettings} {es : Section} :
    server s = some es ↔ es = serverEntries s ∧ ∀ e ∈ es, e.2.Fits := by
  simp only [server, count, time_eq, Option.bind_eq_bind, Option.bind_eq_some_iff,
    integer_eq_some_iff, Option.pure_def, Option.some.injEq]
  constructor
  · rintro ⟨_, ⟨rfl, h₁⟩, _, ⟨rfl, h₂⟩, _, ⟨rfl, h₃⟩, _, ⟨rfl, h₄⟩, rfl⟩
    exact ⟨rfl, by simp only [List.forall_mem_cons]; exact ⟨nofun, h₁, h₂, h₃, h₄, nofun⟩⟩
  · rintro ⟨rfl, hfits⟩
    simp only [serverEntries, List.forall_mem_cons] at hfits
    obtain ⟨-, h₁, h₂, h₃, h₄, -⟩ := hfits
    exact ⟨_, ⟨rfl, h₁⟩, _, ⟨rfl, h₂⟩, _, ⟨rfl, h₃⟩, _, ⟨rfl, h₄⟩, rfl⟩

theorem fits_optional (name : String) (v : Option String) : ∀ e ∈ optional name v, e.2.Fits := by
  cases v <;> simp [optional]

theorem client_eq_some_iff {c : ClientSettings} {es : Section} :
    client c = some es ↔ es = clientEntries c ∧ ∀ e ∈ es, e.2.Fits := by
  simp only [client, count, time_eq, Option.bind_eq_bind, Option.bind_eq_some_iff,
    integer_eq_some_iff, Option.pure_def, Option.some.injEq]
  constructor
  · rintro ⟨_, ⟨rfl, h₁⟩, _, ⟨rfl, h₂⟩, _, ⟨rfl, h₃⟩, _, ⟨rfl, h₄⟩, rfl⟩
    refine ⟨rfl, ?_⟩
    simp only [List.forall_mem_append, List.forall_mem_cons]
    exact ⟨⟨⟨nofun, nofun, nofun⟩, fits_optional _ _⟩, h₁, h₂, h₃, h₄, nofun⟩
  · rintro ⟨rfl, hfits⟩
    simp only [clientEntries, List.forall_mem_append, List.forall_mem_cons] at hfits
    obtain ⟨-, h₁, h₂, h₃, h₄, -⟩ := hfits
    exact ⟨_, ⟨rfl, h₁⟩, _, ⟨rfl, h₂⟩, _, ⟨rfl, h₃⟩, _, ⟨rfl, h₄⟩, rfl⟩

end Encode

namespace Decode

/-! ## Values -/

theorem count_toNat (n : UInt64) : count (Scalar.integer n.toNat).item = .ok n := by
  simp [count, Scalar.item]

theorem time_word (d : Duration) : time (Scalar.integer d.word).item = .ok d.kept := by
  have hlt : d.word < 2 ^ 64 := Nat.mod_lt _ (by decide)
  have hword : (UInt64.ofNat d.word).toNat = d.word := by
    rw [UInt64.toNat_ofNat', Nat.mod_eq_of_lt hlt]
  have hcount : count (Scalar.integer d.word).item = .ok (.ofNat d.word) := rfl
  rw [time, hcount]
  change Except.ok (Duration.ofMillis (UInt64.ofNat d.word).toNat) = _
  rw [hword]
  rfl

theorem level_name (l : LogLevel) : level (Scalar.string l.name).item = .ok l := by
  have htext : text (Scalar.string l.name).item = .ok l.name := rfl
  simp only [level, htext, bind, Except.bind, LogLevel.ofText?_name]
  rfl

/-! ## Entries that may be absent -/

theorem entriesTable_append (es es' : Section) :
    entriesTable (es ++ es') = entriesTable es ++ entriesTable es' := List.map_append

theorem lookup_optional (key name : String) (v : Option String) :
    (entriesTable (Encode.optional name v)).lookup key =
      if key = name then v.map .string else none := by
  cases v with
  | none => simp [Encode.optional, entriesTable]
  | some s =>
    by_cases h : key = name
    · simp [Encode.optional, entriesTable, h, Scalar.item]
    · have hne : (key == name) = false := by simpa using h
      simp [Encode.optional, entriesTable, List.lookup_cons, h, hne]

theorem optional_eq_ok {α : Type} {table : Toml.Table} {name : String} {read : Item → Except Flaw α}
    {write : α → String} (hread : ∀ a, read (.string (write a)) = .ok a) {v : Option α}
    (h : table.lookup name = (v.map write).map .string) : optional table name read = .ok v := by
  rw [optional, h]
  cases v with
  | none => rfl
  | some a =>
    simp only [Option.map_some, hread]
    rfl

theorem checkEntries_append {fields : Fields} {t : Toml.Table} (h : checkEntries fields t = .ok ())
    (t' : Toml.Table) : checkEntries fields (t ++ t') = checkEntries fields t' := by
  rw [checkEntries, List.forM_eq_forM] at h
  rw [checkEntries, List.forM_eq_forM, List.forM_append, h]
  rfl

theorem checkEntries_optional {fields : Fields} {name : String} (h : fields.lookup name = some .text)
    (v : Option String) : checkEntries fields (entriesTable (Encode.optional name v)) = .ok () := by
  cases v with
  | none => rfl
  | some s =>
    simp [checkEntries, Encode.optional, entriesTable, h]
    rfl

/-! ## Sections -/

theorem server_entries (s : ServerSettings) :
    server (.table .header (entriesTable (Encode.serverEntries s))) = .ok s.kept := by
  simp [server, entriesTable, Encode.serverEntries, entriesOf, checkEntries, serverFields, required,
    count_toNat, time_word, List.lookup_cons]
  rfl

theorem client_entries (c : ClientSettings) :
    client (.table .header (entriesTable (Encode.clientEntries c))) = .ok c.kept := by
  obtain ⟨_, _, _ | _, _, _, _, _⟩ := c <;>
  · simp [client, entriesTable, Encode.clientEntries, Encode.optional, entriesOf, checkEntries,
      clientFields, required, optional, count_toNat, time_word, List.lookup_cons]
    rfl

theorem logging_entries (l : LogSettings) :
    logging (.table .header (entriesTable (Encode.logging l))) = .ok l := by
  obtain ⟨_, level, _, _, _ | _, _⟩ := l <;>
  · simp [logging, entriesTable, Encode.logging, Encode.optional, entriesOf, checkEntries,
      logFields, required, optional, level_name, Kind.check, List.lookup_cons]
    rfl

theorem keys_entries (k : KeySettings) :
    keys (.table .header (entriesTable (Encode.keys k))) = .ok k := by
  have hcheck : checkEntries keyFields (entriesTable (Encode.keys k)) = .ok () := by
    simp only [Encode.keys, entriesTable_append, List.append_assoc]
    rw [checkEntries_append (checkEntries_optional rfl _),
      checkEntries_append (checkEntries_optional rfl _),
      checkEntries_append (checkEntries_optional rfl _), checkEntries_optional rfl]
  have hentries : entriesOf keyFields (.table .header (entriesTable (Encode.keys k))) =
      .ok (entriesTable (Encode.keys k)) := by
    simp only [entriesOf, hcheck]
    rfl
  have hlookup (name : String) : (entriesTable (Encode.keys k)).lookup name =
      ((((if name = "private_key" then (k.privateKey.map Path.text).map .string else none).or
        (if name = "server_public_key" then (k.serverPublicKey.map Path.text).map .string
          else none)).or
        (if name = "public_key_dir" then (k.publicKeyDir.map Path.text).map .string else none)).or
        (if name = "hmac_key" then (k.hmacKey.map Path.text).map .string else none)) := by
    simp only [Encode.keys, entriesTable_append, List.lookup_append, lookup_optional]
  have hread {name : String} {v : Option Path} (h : (entriesTable (Encode.keys k)).lookup name =
      (v.map Path.text).map .string) : optional (entriesTable (Encode.keys k)) name path = .ok v :=
    optional_eq_ok (fun _ => rfl) h
  have h₁ : optional _ "private_key" path = .ok k.privateKey := hread (by simp [hlookup])
  have h₂ : optional _ "server_public_key" path = .ok k.serverPublicKey :=
    hread (by simp [hlookup])
  have h₃ : optional _ "public_key_dir" path = .ok k.publicKeyDir := hread (by simp [hlookup])
  have h₄ : optional _ "hmac_key" path = .ok k.hmacKey := hread (by simp [hlookup])
  simp only [keys, hentries, bind, Except.bind, h₁, h₂, h₃, h₄]
  rfl

end Decode

/-! ## Documents -/

namespace Settings

variable {s : Settings}

/-- The sections of a document, whether their numbers fit or not. -/
def sections (s : Settings) : List (String × Section) :=
  [("server", Encode.serverEntries s.server), ("client", Encode.clientEntries s.client),
    ("keys", Encode.keys s.keys), ("logging", Encode.logging s.logging)]

/-- TOML has all the numbers of the sections. -/
def Fits (s : Settings) : Prop := ∀ x ∈ s.sections, ∀ e ∈ x.2, e.2.Fits

/-- Settings that can be written in TOML. -/
def IsExpressible (s : Settings) : Prop :=
  (∀ n ∈ s.counts, n.toNat < Nat.pow 2 63) ∧ ∀ d ∈ s.durations, d.word < Nat.pow 2 63

theorem fits_keys (k : KeySettings) : ∀ e ∈ Encode.keys k, e.2.Fits := by
  simp only [Encode.keys, List.forall_mem_append]
  exact ⟨⟨⟨Encode.fits_optional _ _, Encode.fits_optional _ _⟩, Encode.fits_optional _ _⟩,
    Encode.fits_optional _ _⟩

theorem fits_logging (l : LogSettings) : ∀ e ∈ Encode.logging l, e.2.Fits := by
  simp only [Encode.logging, List.forall_mem_append, List.forall_mem_cons]
  exact ⟨⟨⟨nofun, nofun, nofun, nofun, nofun⟩, Encode.fits_optional _ _⟩, nofun, nofun⟩

theorem fits_iff : s.Fits ↔ s.IsExpressible := by
  have hnil : ∀ e ∈ ([] : Section), e.2.Fits := nofun
  have hsections : ∀ x ∈ ([] : List (String × Section)), ∀ e ∈ x.2, e.2.Fits := nofun
  have haddress := Encode.fits_optional "private_address" s.client.privateAddress
  simp only [Fits, sections, List.forall_mem_cons, Encode.serverEntries, Encode.clientEntries,
    List.forall_mem_append, Scalar.fits_string, Scalar.fits_integer]
  simp only [IsExpressible, counts, durations, List.forall_mem_cons]
  constructor
  · rintro ⟨⟨-, h₁, h₂, h₃, h₄, -⟩, ⟨-, h₅, h₆, h₇, h₈, -⟩, -⟩
    exact ⟨⟨h₁, h₄, h₈, nofun⟩, h₂, h₃, h₅, h₆, h₇, nofun⟩
  · rintro ⟨⟨h₁, h₄, h₈, -⟩, h₂, h₃, h₅, h₆, h₇, -⟩
    exact ⟨⟨trivial, h₁, h₂, h₃, h₄, hnil⟩,
      ⟨⟨⟨trivial, trivial, hnil⟩, haddress⟩, h₅, h₆, h₇, h₈, hnil⟩, fits_keys _, fits_logging _,
      hsections⟩

theorem toSections_eq_some_iff {xs : List (String × Section)} :
    s.toSections = some xs ↔ xs = s.sections ∧ s.Fits := by
  have hfits : s.Fits ↔ (∀ e ∈ Encode.serverEntries s.server, e.2.Fits) ∧
      ∀ e ∈ Encode.clientEntries s.client, e.2.Fits := by
    simp only [Fits, sections, List.forall_mem_cons]
    exact ⟨fun h => ⟨h.1, h.2.1⟩, fun h => ⟨h.1, h.2, fits_keys _, fits_logging _, nofun⟩⟩
  rw [hfits]
  simp only [toSections, Option.bind_eq_bind, Option.bind_eq_some_iff, Encode.server_eq_some_iff,
    Encode.client_eq_some_iff, Option.pure_def, Option.some.injEq]
  constructor
  · rintro ⟨_, ⟨rfl, h⟩, _, ⟨rfl, h'⟩, rfl⟩
    exact ⟨rfl, h, h'⟩
  · rintro ⟨rfl, h, h'⟩
    exact ⟨_, ⟨rfl, h⟩, _, ⟨rfl, h'⟩, rfl⟩

theorem names_optional (name : String) (v : Option String) :
    ((Encode.optional name v).map Prod.fst).Sublist [name] := by
  cases v <;> simp [Encode.optional]

/-- Entries are named after the fields of their section and come in the order of these. -/
theorem names_sections : ∀ x ∈ s.sections, ∃ fields ∈ [Decode.serverFields, Decode.clientFields,
    Decode.keyFields, Decode.logFields], (x.2.map Prod.fst).Sublist (fields.map Prod.fst) := by
  simp only [sections, List.forall_mem_cons]
  refine ⟨⟨Decode.serverFields, by simp, .refl _⟩, ⟨Decode.clientFields, by simp, ?_⟩,
    ⟨Decode.keyFields, by simp, ?_⟩, ⟨Decode.logFields, by simp, ?_⟩, nofun⟩
  · simp only [Encode.clientEntries, List.map_append]
    exact ((List.Sublist.refl _).append (names_optional "private_address" _)).append (.refl _)
  · simp only [Encode.keys, List.map_append]
    exact (((names_optional "private_key" _).append (names_optional "server_public_key" _)).append
      (names_optional "public_key_dir" _)).append (names_optional "hmac_key" _)
  · simp only [Encode.logging, List.map_append]
    exact ((List.Sublist.refl _).append (names_optional "log_file_path" _)).append (.refl _)

theorem isPlainDocument_sections (h : s.Fits) : Toml.IsPlainDocument s.sections := by
  have hfields : ∀ fields ∈ [Decode.serverFields, Decode.clientFields, Decode.keyFields,
      Decode.logFields], (fields.map Prod.fst).Nodup ∧
        ∀ n ∈ fields.map Prod.fst, Toml.IsBare n := by decide
  have hnames : s.sections.map Prod.fst = ["server", "client", "keys", "logging"] := rfl
  have hbare : ∀ n ∈ ["server", "client", "keys", "logging"], Toml.IsBare n := by decide
  constructor
  case names =>
    rw [hnames]
    decide
  case keys =>
    intro x hx
    obtain ⟨fields, hm, hsub⟩ := names_sections x hx
    exact hsub.nodup (hfields fields hm).1
  case sections =>
    intro x hx
    obtain ⟨fields, hm, hsub⟩ := names_sections x hx
    refine ⟨hbare _ (hnames ▸ List.mem_map_of_mem hx), fun e he => ⟨?_, h x hx e he⟩⟩
    exact (hfields fields hm).2 _ (hsub.subset (List.mem_map_of_mem he))

theorem ofTable_sections (s : Settings) : ofTable (Toml.documentTable s.sections) = .ok s.kept := by
  simp only [ofTable, Toml.documentTable, sections, List.map_cons, List.map_nil, List.foldlM_cons,
    List.foldlM_nil, Decode.addSection, Decode.server_entries, Decode.client_entries,
    Decode.keys_entries, Decode.logging_entries]
  rfl

theorem ofToml_toToml {text : String} (h : s.toToml = some text) : ofToml text = .ok s.kept := by
  obtain ⟨xs, hxs, rfl⟩ := Option.map_eq_some_iff.1 h
  obtain ⟨rfl, hfits⟩ := toSections_eq_some_iff.1 hxs
  rw [ofToml, Toml.parse_print (isPlainDocument_sections hfits)]
  exact ofTable_sections s

end Settings

end SealedChat
