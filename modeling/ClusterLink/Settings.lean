import ClusterLink.Json.Fields
import ClusterLink.Json.Parser
import ClusterLink.Json.Printer

/-!
# Settings

The limits of one connection and the name by which the client introduces
itself. Settings are written as a JSON object and read from one that may leave
out any of them, which then keep their defaults, or from an array that may stop
early.
-/

namespace ClusterLink

/-- The settings of one connection. -/
structure Settings where
  /-- How many documents a stream keeps for a subscription that does not read. -/
  streamCapacity : UInt64 := 64
  /-- The greatest accepted length of a header block, in bytes. -/
  maxHeaderSize : UInt64 := 65536
  /-- The greatest accepted length of a gathered body, in bytes. -/
  maxBodySize : UInt64 := 67108864
  /-- The greatest number of bytes taken by one read. -/
  readBufferSize : UInt64 := 65536
  /-- How many requests may wait to be taken up. -/
  commandCapacity : UInt64 := 256
  /-- The value of the `User-Agent` field of every request. -/
  userAgent : String := "configwire-client/0.1.0"
  deriving DecidableEq, Repr

namespace Settings

open Json (Tree Piece)

/-- The names of the members, in the order in which they are written. -/
def memberNames : List String :=
  ["stream_capacity", "max_header_size", "max_body_size", "read_buffer_size",
    "command_capacity", "user_agent"]

/-- The values of the members in their order. -/
def values (s : Settings) : List Tree :=
  [s.streamCapacity, s.maxHeaderSize, s.maxBodySize, s.readBufferSize, s.commandCapacity].map
      (fun n => .number (.ofNat n.toNat))
    ++ [.string (Piece.ofText s.userAgent)]

/-- The tree of some settings. -/
def toTree (s : Settings) : Tree :=
  .object ((memberNames.map Piece.ofText).zip s.values)

/-- A limit that a tree may give: a plain natural number below `2 ^ 64`. -/
def limit? (default : UInt64) : Option Tree → Option UInt64
  | none => some default
  | some t => (t.nat?.filter (· < UInt64.size)).map UInt64.ofNat

/-- A text that a tree may give. -/
def text? (default : String) : Option Tree → Option String
  | none => some default
  | some t => t.text?

/-- The settings that a tree gives. -/
def ofTree? (t : Tree) : Option Settings :=
  let default : Settings := {}
  match t.fields? memberNames with
  | some [streamCapacity, maxHeaderSize, maxBodySize, readBufferSize, commandCapacity,
      userAgent] => do
    return {
      streamCapacity := ← limit? default.streamCapacity streamCapacity
      maxHeaderSize := ← limit? default.maxHeaderSize maxHeaderSize
      maxBodySize := ← limit? default.maxBodySize maxBodySize
      readBufferSize := ← limit? default.readBufferSize readBufferSize
      commandCapacity := ← limit? default.commandCapacity commandCapacity
      userAgent := ← text? default.userAgent userAgent }
  | _ => none

/-- The compact JSON text of some settings. -/
def json (s : Settings) : String :=
  s.toTree.text

/-- The settings that a JSON text gives. -/
def ofJson? (s : String) : Option Settings :=
  (Tree.parse? s.toList).bind ofTree?

end Settings

end ClusterLink
