import ClusterLink.Text.Quoted

/-!
# Faults

Why something could not be done, as causes. Three layers have causes of their
own: the bytes of a reply may be malformed, a frame may come out of turn, and a
connection may end. The wording of each stands in one place, `message`.
-/

namespace ClusterLink

/-- A part of a reply that ends with a mark and must not grow past the header limit. -/
inductive Part where
  /-- The header block. -/
  | headerBlock
  /-- The line that gives the size of a chunk. -/
  | chunkSizeLine
  /-- A line after the last chunk. -/
  | trailerLine
  deriving DecidableEq, Repr

/-- The name of a part. -/
def Part.name : Part → String
  | headerBlock => "Header block"
  | chunkSizeLine => "Chunk size line"
  | trailerLine => "Trailer line"

/-- Why some bytes are no reply. -/
inductive Malformed where
  /-- More than `limit` bytes have come and the end of the part is not among them. -/
  | endless (part : Part) (limit : Nat)
  /-- A header block of `length` bytes is complete, and longer than `limit`. -/
  | longBlock (length limit : Nat)
  /-- The header block is not UTF-8. -/
  | blockEncoding
  /-- The first line is no status line. -/
  | statusLine (line : List Char)
  /-- The length given for the body is no length. -/
  | contentLength (value : List Char)
  /-- The line that gives the size of a chunk is not UTF-8. -/
  | chunkEncoding
  /-- The size given for a chunk is no size. -/
  | chunkSize (value : List Char)
  /-- A chunk is not followed by a line end. -/
  | chunkEnd
  deriving DecidableEq, Repr

/-- Why a frame cannot be taken, or its response not be handed over. -/
inductive OutOfTurn where
  /-- A reply begins and no request waits for one. -/
  | unsolicited (code : UInt16) (reason : String)
  /-- A stream begins and no request waits for one. -/
  | streamUnsolicited
  /-- A piece of a body comes and no reply has begun. -/
  | strayContent
  /-- The body gathered so far has `length` bytes, more than `limit`. -/
  | longBody (length limit : Nat)
  /-- A reply ends and none has begun. -/
  | strayEnd
  /-- A reply ends and no request waits for one. -/
  | endUnsolicited
  /-- A streaming request at `path` is answered by a reply that opened no stream. -/
  | streamless (path : String)
  /-- A response is complete and nobody waits for one. -/
  | nobodyWaits
  deriving DecidableEq, Repr

/-- Why something could not be done. -/
inductive Fault where
  /-- No kind of request has this name. -/
  | unknownKind (name : String)
  /-- The bytes received are no reply. -/
  | malformed (cause : Malformed)
  /-- The reply received does not belong there. -/
  | outOfTurn (cause : OutOfTurn)
  /-- The connection ended before the response came. -/
  | closed
  deriving DecidableEq, Repr

/-- A text between double quotes. -/
def quoted (cs : List Char) : String :=
  String.ofList (Text.Quoted.quote cs)

/-- The wording of a malformed reply. -/
def Malformed.message : Malformed → String
  | endless part limit => s!"{part.name} exceeds maximum {limit} bytes"
  | longBlock length limit => s!"Header block of {length} bytes exceeds maximum {limit}"
  | blockEncoding => "Header block is not valid UTF-8"
  | statusLine line => s!"Invalid status line: {quoted line}"
  | contentLength value => s!"Invalid Content-Length: {quoted value}"
  | chunkEncoding => "Chunk size line is not valid UTF-8"
  | chunkSize value => s!"Invalid chunk size: {quoted value}"
  | chunkEnd => "Chunk data not terminated by CRLF"

/-- The wording of a frame out of turn. -/
def OutOfTurn.message : OutOfTurn → String
  | unsolicited code reason => s!"Reply header ({code} {reason}) with no outstanding request"
  | streamUnsolicited => "Streaming header with no outstanding request"
  | strayContent => "Body chunk with no reply in progress"
  | longBody length limit => s!"Reply body of {length} bytes exceeds maximum {limit}"
  | strayEnd => "Terminal frame with no reply in progress"
  | endUnsolicited => "Reply completed with no outstanding request"
  | streamless path => s!"Streaming request {path} completed without a stream"
  | nobodyWaits => "Response produced with no waiting caller"

/-- The wording of a fault. -/
def Fault.message : Fault → String
  | unknownKind name => "Unknown config request kind: " ++ name
  | malformed cause => "Protocol error: " ++ cause.message
  | outOfTurn cause => "Protocol error: " ++ cause.message
  | closed => "Connection closed"

end ClusterLink
