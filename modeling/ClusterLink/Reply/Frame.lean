import ClusterLink.Field
import ClusterLink.Text.Utf8

/-!
# Frames

A reply as a sequence of frames: its head, any number of pieces of its body, and
its end, which may bring a last piece.
-/

namespace ClusterLink.Reply

/-- The head of a reply. -/
structure Header where
  /-- The status code. -/
  code : UInt16
  /-- The words beside the status code, often none. -/
  reason : String
  /-- The header fields in the order of their arrival. -/
  fields : Fields
  deriving DecidableEq, Repr

/-- A part of a reply. -/
inductive Frame where
  /-- A reply begins. -/
  | header (h : Header)
  /-- A piece of the body. -/
  | content (bytes : Bytes)
  /-- The reply ends with a last piece of the body, mostly an empty one. -/
  | last (bytes : Bytes)
  deriving DecidableEq, Repr

namespace Frame

/-- Whether a reply begins. -/
def isHeader : Frame → Bool
  | header _ => true
  | _ => false

/-- Whether a reply ends. -/
def isLast : Frame → Bool
  | last _ => true
  | _ => false

/-- The bytes of the body that a frame brings. -/
def content? : Frame → Option Bytes
  | header _ => none
  | content bytes => some bytes
  | last bytes => some bytes

end Frame

end ClusterLink.Reply
