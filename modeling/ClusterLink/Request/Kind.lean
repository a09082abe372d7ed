/-!
# Kinds of request

The four things that the configuration service is asked for, their names, and
where and how each of them is asked.
-/

namespace ClusterLink

/-- How a request is sent. -/
inductive Method where
  /-- Reading. -/
  | get
  /-- Asking for an action. -/
  | post
  deriving DecidableEq, Repr

/-- The word for a method in a request line. -/
def Method.name : Method → String
  | get => "GET"
  | post => "POST"

namespace Request

/-- What is asked of the service. -/
inductive Kind where
  /-- The configuration of a bucket. -/
  | bucketConfig
  /-- The configuration of a bucket, now and after every change. -/
  | bucketStreaming
  /-- Emptying a bucket. -/
  | flush
  /-- The design documents of a bucket. -/
  | designDocuments
  deriving DecidableEq, Repr

namespace Kind

/-- All kinds. -/
def all : List Kind :=
  [bucketConfig, bucketStreaming, flush, designDocuments]

/-- The name of a kind. -/
def name : Kind → String
  | bucketConfig => "bucket_config"
  | bucketStreaming => "bucket_streaming"
  | flush => "flush"
  | designDocuments => "get_design_documents"

/-- The kind of a name. -/
def ofName? (name : String) : Option Kind :=
  all.find? (·.name == name)

/-- Only a flush is an action. -/
def method : Kind → Method
  | flush => .post
  | _ => .get

/-- Whether the reply stays open as a stream of documents. -/
def isStreaming : Kind → Bool
  | bucketStreaming => true
  | _ => false

/-- Where a bucket is asked for this. -/
def path (bucket : String) : Kind → String
  | bucketConfig => "/pools/default/buckets/" ++ bucket
  | bucketStreaming => "/pools/default/bs/" ++ bucket
  | flush => "/pools/default/buckets/" ++ bucket ++ "/controller/doFlush"
  | designDocuments => "/pools/default/buckets/" ++ bucket ++ "/ddocs"

/-- A name names one kind, and a kind is found under its own. -/
theorem ofName?_eq_some_iff {n : String} {k : Kind} : ofName? n = some k ↔ k.name = n := by
  constructor
  · intro h
    simpa using List.find?_some h
  · rintro rfl
    cases k <;> decide

end Kind

end Request

end ClusterLink
