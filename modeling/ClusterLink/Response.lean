import ClusterLink.Assembly
import ClusterLink.Hub
import ClusterLink.Outstanding
import ClusterLink.Status

/-!
# Responses

What a caller gets for a request, one form for each kind of request.
-/

namespace ClusterLink

/-- The answer to a request. -/
inductive Response where
  /-- The configuration of a bucket, or the reason why there is none. -/
  | bucketConfig (body : String) (status : Status)
  /-- The design documents of a bucket, or the reason why there are none. -/
  | designDocuments (body : String) (status : Status) (ticket : Ticket)
  /-- Whether a bucket has been emptied, or will be. -/
  | flush (done : Bool) (body : String) (status : Status)
  /-- A stream of configurations, inactive unless the status is a success. -/
  | bucketStreaming (stream : Stream) (host : String) (status : Status) (ticket : Ticket)
  deriving DecidableEq, Repr

namespace Response

/-- The kind of request that is answered. -/
def kind : Response → Request.Kind
  | bucketConfig .. => .bucketConfig
  | designDocuments .. => .designDocuments
  | flush .. => .flush
  | bucketStreaming .. => .bucketStreaming

/-- The outcome. -/
def status : Response → Status
  | bucketConfig _ status => status
  | designDocuments _ status _ => status
  | flush _ _ status => status
  | bucketStreaming _ _ status _ => status

/-- The text of the reply; a stream has none. -/
def body? : Response → Option String
  | bucketConfig body _ => some body
  | designDocuments body _ _ => some body
  | flush _ body _ => some body
  | bucketStreaming .. => none

/-- The status code of a flush that has been accepted and is still going on. -/
def flushPending : UInt16 := 201

/-- The response to a request whose reply is complete; a stream is not answered by its reply. -/
def ofReply? (t : Ticket) (r : Reply) : Option Response :=
  let status := Status.ofCode r.header.code
  match t.request.kind with
  | .bucketConfig => some (bucketConfig r.body status)
  | .designDocuments => some (designDocuments r.body status t)
  | .flush => some (flush (r.header.code != flushPending) r.body status)
  | .bucketStreaming => none

/-- A complete reply is answered in the form of its request. -/
theorem kind_of_ofReply? {t : Ticket} {r : Reply} {response : Response}
    (h : ofReply? t r = some response) : response.kind = t.request.kind := by
  unfold ofReply? at h
  split at h
  all_goals simp_all
  all_goals subst h; rfl

end Response

end ClusterLink
