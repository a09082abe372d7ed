import ClusterLink.Request.Kind

/-!
# Requests

A request asks one thing of one bucket. Its path is the standard one of its
kind unless the caller chooses another; the bucket and the password are also
the credentials.
-/

namespace ClusterLink

/-- A request to the configuration service. -/
structure Request where
  /-- What is asked. -/
  kind : Request.Kind
  /-- Where it is asked. -/
  path : String
  /-- The bucket, which is also the user of the credentials. -/
  bucket : String
  /-- The password of the bucket. -/
  password : String
  deriving DecidableEq, Repr

/-- A request for a bucket at the standard path of its kind. -/
def Request.forBucket (kind : Kind) (bucket password : String) : Request :=
  ⟨kind, kind.path bucket, bucket, password⟩

end ClusterLink
