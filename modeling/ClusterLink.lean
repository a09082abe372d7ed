import ClusterLink.Assembly
import ClusterLink.Connection
import ClusterLink.Document
import ClusterLink.Fault
import ClusterLink.Hub
import ClusterLink.Json.Value
import ClusterLink.Link.Move
import ClusterLink.Outstanding
import ClusterLink.Proofs.Broadcast.Audience
import ClusterLink.Proofs.Connection.Cuts
import ClusterLink.Proofs.Connection.Due
import ClusterLink.Proofs.Connection.Turns
import ClusterLink.Proofs.Document
import ClusterLink.Proofs.Feed
import ClusterLink.Proofs.Hub
import ClusterLink.Proofs.Json.RoundTrip
import ClusterLink.Proofs.Link.Answers
import ClusterLink.Proofs.Link.Reads
import ClusterLink.Proofs.Link.Stalls
import ClusterLink.Proofs.Link.Survival
import ClusterLink.Proofs.Reply.Behind
import ClusterLink.Proofs.Reply.BodyLengths
import ClusterLink.Proofs.Reply.Bounds
import ClusterLink.Proofs.Reply.FieldOrder
import ClusterLink.Proofs.Reply.Limit
import ClusterLink.Proofs.Reply.Received
import ClusterLink.Proofs.Reply.Resting
import ClusterLink.Proofs.Reply.Segments
import ClusterLink.Proofs.Reply.Written
import ClusterLink.Proofs.Request.Identity
import ClusterLink.Proofs.Request.OneRequest
import ClusterLink.Proofs.Session.BodyLimit
import ClusterLink.Proofs.Session.Carrying
import ClusterLink.Proofs.Session.Delivery
import ClusterLink.Proofs.Session.Documents
import ClusterLink.Proofs.Session.Draining
import ClusterLink.Proofs.Session.Faults
import ClusterLink.Proofs.Session.Lifecycle
import ClusterLink.Proofs.Session.Openings
import ClusterLink.Proofs.Session.Ordinary
import ClusterLink.Proofs.Session.Pipelining
import ClusterLink.Proofs.Session.Publishing
import ClusterLink.Proofs.Session.StreamLimit
import ClusterLink.Proofs.Splitting
import ClusterLink.Reply.Framer
import ClusterLink.Request.Json
import ClusterLink.Request.Wire
import ClusterLink.Response
import ClusterLink.Session
import ClusterLink.Settings
import ClusterLink.Status
