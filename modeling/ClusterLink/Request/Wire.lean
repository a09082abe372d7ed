import ClusterLink.Field
import ClusterLink.Request.Basic
import ClusterLink.Text.Base64

/-!
# Requests on the wire

A request is sent as a request line, some header fields and an empty line, each
ended by a carriage return and a line feed. There is never a body. Nothing is
escaped: the texts of a request go out as they are.
-/

namespace ClusterLink

/-- The head of a message that is ready to be sent. -/
structure Outgoing where
  /-- The method. -/
  method : Method
  /-- The path. -/
  path : String
  /-- The header fields in the order in which they are sent. -/
  fields : Fields
  deriving DecidableEq, Repr

namespace Outgoing

/-- The end of a line. -/
def lineEnd : List Char := ['\r', '\n']

/-- The first line, without its end. -/
def requestLine (o : Outgoing) : List Char :=
  o.method.name.toList ++ ' ' :: o.path.toList ++ " HTTP/1.1".toList

/-- The line of a field, without its end. -/
def fieldLine (f : String × String) : List Char :=
  f.1.toList ++ ": ".toList ++ f.2.toList

/-- The lines before the empty one, without their ends. -/
def lines (o : Outgoing) : List (List Char) :=
  o.requestLine :: o.fields.map fieldLine

/-- The characters of a message. -/
def render (o : Outgoing) : List Char :=
  o.lines.flatMap (· ++ lineEnd) ++ lineEnd

/-- The bytes of a message. -/
def bytes (o : Outgoing) : Bytes :=
  Text.Utf8.encode o.render

end Outgoing

/-- The value of an `Authorization` field: the user and the password with a colon between
them, in base 64. -/
def basicCredentials (user password : String) : String :=
  "Basic " ++ String.ofList
    (Text.Base64.encode (Text.Utf8.encode (user.toList ++ ':' :: password.toList)))

/-- A request as it is sent to `host`; a post announces that it has no body. -/
def Request.outgoing (r : Request) (host userAgent : String) : Outgoing where
  method := r.kind.method
  path := r.path
  fields :=
    [("Host", host), ("User-Agent", userAgent),
      ("Authorization", basicCredentials r.bucket r.password)]
    ++ if r.kind.method = .post then [("Content-Length", "0")] else []

end ClusterLink
