import ClusterLink.Fault
import ClusterLink.Reply.Frame
import ClusterLink.Text.Cut
import ClusterLink.Text.Numeral

/-!
# Header blocks

A reply opens with a status line and lines for its header fields. Here the
bytes of that block, without the empty line that ends it, become a `Header`
and the `Extent` of the body.

## The model

* The status line is a version that starts with `HTTP/`, the status code, and
  the reason, cut at the first two spaces.
* A field line is cut at its first colon and blanks around both parts are
  dropped; a line without a colon is passed over.
* The extent is settled by going through the fields in order (`Extent.after`):
  a transfer coding that ends with `chunked` settles it for good, and until
  then each content length replaces the one before.
-/

namespace ClusterLink.Reply

open Text

/-- How the end of a body is told. -/
inductive Extent where
  /-- The body has this many bytes. -/
  | length (n : Nat)
  /-- The body comes in chunks, the last of which is empty. -/
  | chunked
  /-- There is no body. -/
  | empty
  deriving DecidableEq, Repr

/-- The end of a line. -/
def lineEnd : Bytes := [13, 10]

/-- The end of a header block: a line end and an empty line. -/
def blockEnd : Bytes := [13, 10, 13, 10]

/-- The status code and the reason of a status line. -/
def statusLine? (line : List Char) : Option (UInt16 × List Char) :=
  match cut? [' '] line with
  | none => none
  | some (version, rest) =>
    if "HTTP/".toList.isPrefixOf version then
      let (code, reason) := (cut? [' '] rest).getD (rest, [])
      (Numeral.read? 10 UInt16.size code).map fun n => (UInt16.ofNat n, trim reason)
    else none

/-- The field of a line. -/
def field? (line : List Char) : Option (String × String) :=
  (cut? [':'] line).map fun (name, value) =>
    (String.ofList (trim name), String.ofList (trim value))

/-- Whether the last coding of a list with commas is `chunked`. -/
def endsChunked (codings : List Char) : Bool :=
  (pieces [','] codings).getLast?.any fun c => sameName (trim c) "chunked".toList

/-- The extent after one more field. -/
def Extent.after (e : Extent) (f : String × String) : Except Malformed Extent :=
  if sameField f.1 "transfer-encoding" && endsChunked f.2.toList then .ok .chunked
  else if sameField f.1 "content-length" && e != .chunked then
    match Numeral.read? 10 UInt64.size f.2.toList with
    | some n => .ok (.length n)
    | none => .error (.contentLength f.2.toList)
  else .ok e

/-- The extent that some fields tell. -/
def Extent.ofFields (fields : Fields) : Except Malformed Extent :=
  fields.foldlM Extent.after .empty

/-- The head and the extent that the lines of a block tell. -/
def headerOfLines (status : List Char) (lines : List (List Char)) :
    Except Malformed (Header × Extent) :=
  match statusLine? status with
  | none => .error (.statusLine status)
  | some (code, reason) =>
    let fields := lines.filterMap field?
    (Extent.ofFields fields).map fun extent => (⟨code, String.ofList reason, fields⟩, extent)

/-- The head and the extent that a block tells. -/
def headerOfBlock (block : Bytes) : Except Malformed (Header × Extent) :=
  match Utf8.decode? block with
  | none => .error .blockEncoding
  | some text =>
    match pieces ['\r', '\n'] text with
    | [] => headerOfLines [] []
    | status :: lines => headerOfLines status lines

/-- The size that the line in front of a chunk tells: a hexadecimal number that may be followed
by a semicolon and anything. -/
def chunkSizeOfLine (line : Bytes) : Except Malformed Nat :=
  match Utf8.decode? line with
  | none => .error .chunkEncoding
  | some text =>
    let size := trim ((cut? [';'] text).map (·.1) |>.getD text)
    match Numeral.read? 16 UInt64.size size with
    | some n => .ok n
    | none => .error (.chunkSize size)

end ClusterLink.Reply
