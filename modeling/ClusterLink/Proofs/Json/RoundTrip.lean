import ClusterLink.Proofs.Json.Members
import ClusterLink.Request.Json
import ClusterLink.Settings
import Mathlib.Data.List.Nodup

/-!
# Requests and settings as JSON

A request and settings are read back from their own texts, whatever their strings and limits
are. Settings need not be complete, and their text need not be their own: from any object with
some of them in any order, spelled in any way and laid out with any blanks, and with any other
members among them, they are read as they are written, with the defaults for the rest
(`json_roundTrip`).

## The argument

A text writes one tree, and a tree gives its entries by name, so only the values are left. A
limit is written in digits, and the digits of a number are read as the number; a string is
written by pieces, and what matters is their text. The own text of some settings is one of the
texts that write all of them.
-/

namespace ClusterLink

open Json (Tree Piece Numeral Token Mixed record)

/-! ### Requests -/

namespace Request

/-- The entries of the object that a request is. -/
def entries (r : Request) : List (String × Tree) :=
  [("kind", .string (Piece.ofText r.kind.name)), ("path", .string (Piece.ofText r.path)),
    ("bucket", .string (Piece.ofText r.bucket)), ("password", .string (Piece.ofText r.password))]

theorem printable_entries (r : Request) : ∀ m ∈ r.entries, m.2.Printable := by
  simp only [entries, List.forall_mem_cons, List.not_mem_nil, false_imp_iff, implies_true, and_true]
  exact ⟨.string (Json.printable_ofText _), .string (Json.printable_ofText _),
    .string (Json.printable_ofText _), .string (Json.printable_ofText _)⟩

/-- A request is read from its own text. -/
theorem ofJson?_json (r : Request) : ofJson? r.json = some r := by
  obtain ⟨members, hparse, hmixed⟩ := Json.parse?_record r.printable_entries memberNames
  have hparse' : Tree.parse? r.json.toList = some (.object members) := by
    rw [json, Tree.text, String.toList_ofList]
    exact hparse
  have hfields := hmixed.fields? (by simp [entries])
  have htext (s : String) : Json.text? ((Piece.ofText s).map Piece.reread) = some s := by
    rw [Json.text?_map_reread, Json.text?_ofText]
  have hkind := Kind.ofName?_eq_some_iff.2 (rfl : r.kind.name = r.kind.name)
  rw [ofJson?, hparse', Option.bind_some, ofTree?, hfields]
  simp [memberNames, entries, Tree.reread, List.lookup_cons, Tree.text?, htext, Kind.ofTree?, hkind]

end Request

/-! ### Settings -/

namespace Settings

/-- A setting. -/
inductive Field where
  /-- How many documents a stream keeps. -/
  | streamCapacity
  /-- The greatest length of a header block. -/
  | maxHeaderSize
  /-- The greatest length of a body. -/
  | maxBodySize
  /-- The greatest length of a read. -/
  | readBufferSize
  /-- How many requests may wait. -/
  | commandCapacity
  /-- The name of the client. -/
  | userAgent
  deriving DecidableEq

/-- The name under which a setting is written. -/
def Field.name : Field → String
  | streamCapacity => "stream_capacity"
  | maxHeaderSize => "max_header_size"
  | maxBodySize => "max_body_size"
  | readBufferSize => "read_buffer_size"
  | commandCapacity => "command_capacity"
  | userAgent => "user_agent"

theorem Field.name_inj {f g : Field} (h : f.name = g.name) : f = g := by
  cases f <;> cases g <;> first | rfl | exact absurd h (by decide)

/-- All settings in the order in which they are written. -/
def Field.all : List Field :=
  [streamCapacity, maxHeaderSize, maxBodySize, readBufferSize, commandCapacity, userAgent]

theorem memberNames_eq : memberNames = Field.all.map Field.name := rfl

/-- A setting that is a limit. -/
def limit (s : Settings) : Field → Option UInt64
  | .streamCapacity => some s.streamCapacity
  | .maxHeaderSize => some s.maxHeaderSize
  | .maxBodySize => some s.maxBodySize
  | .readBufferSize => some s.readBufferSize
  | .commandCapacity => some s.commandCapacity
  | .userAgent => none

/-- The trees that write a setting. -/
inductive Says (s : Settings) : Field → Tree → Prop where
  /-- A limit is written in digits. -/
  | limit {f : Field} {n : UInt64} : s.limit f = some n → Says s f (.number (.ofNat n.toNat))
  /-- The name of the client is a string, spelled in any way. -/
  | userAgent {text : List Piece} : Json.text? text = some s.userAgent →
      Says s .userAgent (.string text)

/-- The settings with defaults for all but some of them. -/
def only (s : Settings) (fields : List Field) : Settings :=
  let default : Settings := {}
  { streamCapacity :=
      if .streamCapacity ∈ fields then s.streamCapacity else default.streamCapacity
    maxHeaderSize := if .maxHeaderSize ∈ fields then s.maxHeaderSize else default.maxHeaderSize
    maxBodySize := if .maxBodySize ∈ fields then s.maxBodySize else default.maxBodySize
    readBufferSize :=
      if .readBufferSize ∈ fields then s.readBufferSize else default.readBufferSize
    commandCapacity :=
      if .commandCapacity ∈ fields then s.commandCapacity else default.commandCapacity
    userAgent := if .userAgent ∈ fields then s.userAgent else default.userAgent }

variable {s : Settings} {written : List (Field × Tree)}

theorem lookup_name (f : Field) :
    (written.map fun m => (m.1.name, m.2)).lookup f.name = written.lookup f := by
  induction written with
  | nil => rfl
  | cons m written ih =>
    obtain ⟨g, t⟩ := m
    rw [List.map_cons, List.lookup_cons, List.lookup_cons, ih]
    by_cases hf : f = g
    · subst hf
      rw [beq_self_eq_true, beq_self_eq_true]
    · have hname : f.name ≠ g.name := fun h => hf (Field.name_inj h)
      rw [beq_eq_false_iff_ne.2 hname, beq_eq_false_iff_ne.2 hf]

/-- A setting is written or not. -/
theorem lookup_cases (written : List (Field × Tree)) (f : Field) :
    (written.lookup f = none ∧ f ∉ written.map (·.1)) ∨
      ∃ t, written.lookup f = some t ∧ (f, t) ∈ written := by
  cases hlookup : written.lookup f with
  | none =>
    refine .inl ⟨rfl, fun hf => ?_⟩
    obtain ⟨m, hm, rfl⟩ := List.mem_map.1 hf
    simpa using List.lookup_eq_none_iff.1 hlookup m hm
  | some t =>
    obtain ⟨before, after, rfl, -⟩ := List.lookup_eq_some_iff.1 hlookup
    exact .inr ⟨t, rfl, by simp⟩

/-- A limit is read as it is written. -/
theorem limit?_lookup (h : ∀ m ∈ written, s.Says m.1 m.2) {f : Field} {n : UInt64}
    (hf : s.limit f = some n) (default : UInt64) :
    limit? default (written.lookup f) =
      some (if f ∈ written.map (·.1) then n else default) := by
  rcases lookup_cases written f with ⟨hnone, hf'⟩ | ⟨t, hsome, hmem⟩
  · rw [hnone, if_neg hf', limit?]
  · rw [hsome, if_pos (List.mem_map.2 ⟨_, hmem, rfl⟩)]
    cases h _ hmem with
    | limit hn =>
      obtain rfl := Option.some.inj (hf.symm.trans hn)
      have hsize : n.toNat < UInt64.size := n.toNat_lt
      rw [limit?, Tree.nat?, Json.nat?_ofNat, Option.filter_some, if_pos (by simpa using hsize),
        Option.map_some, UInt64.ofNat_toNat]
    | userAgent => cases hf

/-- The name of the client is read as it is written. -/
theorem text?_lookup (h : ∀ m ∈ written, s.Says m.1 m.2) (default : String) :
    text? default (written.lookup .userAgent) =
      some (if .userAgent ∈ written.map (·.1) then s.userAgent else default) := by
  rcases lookup_cases written .userAgent with ⟨hnone, hf⟩ | ⟨t, hsome, hmem⟩
  · rw [hnone, if_neg hf, text?]
  · rw [hsome, if_pos (List.mem_map.2 ⟨_, hmem, rfl⟩)]
    cases h _ hmem with
    | limit hn => cases hn
    | userAgent htext => exact htext

/-- Settings are read from an object with some of them among other members. -/
theorem ofTree?_of_mixed {members : List (List Piece × Tree)}
    (hnodup : (written.map (·.1)).Nodup) (hsaid : ∀ m ∈ written, s.Says m.1 m.2)
    (hmixed : Mixed memberNames (written.map fun m => (m.1.name, m.2)) members) :
    ofTree? (.object members) = some (s.only (written.map (·.1))) := by
  have hnames : ((written.map fun m => (m.1.name, m.2)).map (·.1)).Nodup := by
    have hmap := List.Nodup.map (f := Field.name) (fun _ _ => Field.name_inj) hnodup
    rwa [List.map_map] at hmap ⊢
  rw [ofTree?, hmixed.fields? hnames]
  simp only [memberNames_eq, Field.all, List.map_cons, List.map_nil, lookup_name,
    limit?_lookup hsaid (f := .streamCapacity) rfl, limit?_lookup hsaid (f := .maxHeaderSize) rfl,
    limit?_lookup hsaid (f := .maxBodySize) rfl, limit?_lookup hsaid (f := .readBufferSize) rfl,
    limit?_lookup hsaid (f := .commandCapacity) rfl, text?_lookup hsaid, Option.bind_eq_bind,
    Option.bind_some, Option.pure_def]
  rfl

/-- The tree of a setting. -/
def value (s : Settings) (f : Field) : Tree :=
  match s.limit f with
  | some n => .number (.ofNat n.toNat)
  | none => .string (Piece.ofText s.userAgent)

theorem printable_value (s : Settings) (f : Field) : (s.value f).Printable := by
  unfold value
  split
  · exact .number (Json.printable_ofNat _)
  · exact .string (Json.printable_ofText _)

theorem says_reread (s : Settings) (f : Field) : s.Says f (s.value f).reread := by
  cases f with
  | userAgent => exact .userAgent (by rw [Json.text?_map_reread, Json.text?_ofText])
  | _ => exact .limit rfl

/-- A text that writes some of the settings: an object with one member for each of them, in this
order, and any others among these. -/
def WrittenIn (s : Settings) (fields : List Field) (text : String) : Prop :=
  fields.Nodup ∧ ∃ (written : List (Field × Tree)) (members : List (List Piece × Tree)),
    written.map (·.1) = fields ∧ (∀ m ∈ written, s.Says m.1 m.2) ∧
      Mixed memberNames (written.map fun m => (m.1.name, m.2)) members ∧
      (Tree.object members).Writes text.toList

/-- What is written is read, and the defaults for the rest. -/
theorem WrittenIn.ofJson? {fields : List Field} {text : String} (h : s.WrittenIn fields text) :
    Settings.ofJson? text = some (s.only fields) := by
  obtain ⟨hnodup, written, members, rfl, hsaid, hmixed, htext⟩ := h
  rw [Settings.ofJson?, Tree.parse?_eq_some_iff.2 htext, Option.bind_some]
  exact ofTree?_of_mixed hnodup hsaid hmixed

/-- Any settings can be written in any order. -/
theorem writtenIn_text (s : Settings) {fields : List Field} (h : fields.Nodup) :
    s.WrittenIn fields (record (fields.map fun f => (f.name, s.value f))).text := by
  have hprintable : ∀ m ∈ fields.map fun f => (f.name, s.value f), m.2.Printable := by
    simpa using fun f _ => s.printable_value f
  obtain ⟨members, hparse, hmixed⟩ := Json.parse?_record hprintable memberNames
  refine ⟨h, fields.map fun f => (f, (s.value f).reread), members, ?_, ?_, ?_, ?_⟩
  · simp [Function.comp_def]
  · simpa using fun f _ => s.says_reread f
  · simpa [Function.comp_def] using hmixed
  · rw [Tree.text, String.toList_ofList]
    exact Tree.parse?_eq_some_iff.1 hparse

/-- Settings are read from their own text. -/
theorem ofJson?_json (s : Settings) : ofJson? s.json = some s :=
  (s.writtenIn_text (by decide : Field.all.Nodup)).ofJson?

end Settings

/-- **Requests and settings come back from their JSON texts**, and settings from every text that
writes some of them in any order among other members, with the defaults for the others. -/
theorem json_roundTrip :
    (∀ r : Request, Request.ofJson? r.json = some r) ∧
      (∀ s : Settings, Settings.ofJson? s.json = some s) ∧
      ∀ (s : Settings) (fields : List Settings.Field) (text : String),
        s.WrittenIn fields text → Settings.ofJson? text = some (s.only fields) :=
  ⟨Request.ofJson?_json, Settings.ofJson?_json, fun _ _ _ h => h.ofJson?⟩

/-- Two settings, the later one first and with escapes, and another member between them. -/
theorem json_roundTrip_mixed :
    let s : Settings := { streamCapacity := 8, userAgent := "a\n" }
    let text := "\x7b \"user_agent\": \"\\u0061\\n\", \"x\": [null, \x7b\"y\": -1.5e3\x7d]," ++
      " \"stream_capacity\": 8 \x7d"
    s.WrittenIn [.userAgent, .streamCapacity] text ∧ Settings.ofJson? text = some s := by
  intro s text
  let name : Tree := .string [.unit 97, .char '\n']
  let other : Tree := .array [.null,
    .object [(Piece.ofText "y", .number ⟨true, ['1'], ['5'], some (false, ['3'])⟩)]]
  let capacity : Tree := .number (.ofNat 8)
  have hwritten : s.WrittenIn [.userAgent, .streamCapacity] text := by
    refine ⟨by decide, [(.userAgent, name), (.streamCapacity, capacity)],
      [(Piece.ofText "user_agent", name), (Piece.ofText "x", other),
        (Piece.ofText "stream_capacity", capacity)], rfl, ?_, ?_, ?_⟩
    · simp only [List.forall_mem_cons, List.not_mem_nil, false_imp_iff, implies_true, and_true]
      exact ⟨.userAgent (by decide), .limit (n := 8) rfl⟩
    · exact .entry (Json.text?_ofText _) (.other (Json.text?_ofText _) (by decide)
        (.entry (Json.text?_ofText _) .nil))
    · exact Json.Token.lex?_eq_some_iff.1 (by decide +kernel)
  exact ⟨hwritten, json_roundTrip.2.2 s _ text hwritten⟩

end ClusterLink
