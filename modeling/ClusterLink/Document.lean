import ClusterLink.Text.Blank
import ClusterLink.Text.Cut
import ClusterLink.Text.Utf8

/-!
# Documents of a stream

The body of a stream is a sequence of documents, each followed by four line
feeds. What stands behind the last mark is the beginning of a document that is
not yet complete.
-/

namespace ClusterLink.Document

open Text

/-- The mark behind every document. -/
def mark : Bytes := [10, 10, 10, 10]

/-- The document that some bytes are: their text without the blanks around it. -/
def ofBytes (bytes : Bytes) : String :=
  String.ofList (trim (Utf8.decodeLossy bytes))

/-- The first complete document of a body, and the body behind its mark. -/
def first? (body : Bytes) : Option (String × Bytes) :=
  (cut? mark body).map fun (bytes, rest) => (ofBytes bytes, rest)

/-- All complete documents of a body, and what stands behind the last mark. -/
def split (body : Bytes) : List String × Bytes :=
  let parts := pieces mark body
  (parts.dropLast.map ofBytes, parts.getLast?.getD [])

end ClusterLink.Document
