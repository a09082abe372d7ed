import ClusterLink.Feed

/-!
# The hub

All feeds of a connection, past and present. Callers hold a `Stream`, which
names a feed, and take any number of subscriptions to it; both stay valid when
the feed has ended. A stream without a feed never brings anything.
-/

namespace ClusterLink

/-- What a caller holds of a stream of documents. -/
structure Stream where
  /-- The number of the feed behind it. -/
  feed : Option Nat
  deriving DecidableEq, Repr

/-- A stream that never brings anything. -/
def Stream.inactive : Stream := ⟨none⟩

/-- A caller's place in a feed. -/
structure Subscription where
  /-- The number of the feed and the receiver there; none once the end has been seen. -/
  place : Option (Nat × Nat)
  deriving DecidableEq, Repr

/-- Whether a subscription has seen the end. -/
def Subscription.isEnded (s : Subscription) : Bool :=
  s.place.isNone

/-- The feeds of a connection, by number. -/
structure Hub where
  /-- The feeds in the order in which they began. -/
  feeds : List Feed := []
  deriving DecidableEq, Repr

namespace Hub

/-- A new feed, under the number that is returned. -/
def start (h : Hub) (feed : Feed) : Nat × Hub :=
  (h.feeds.length, ⟨h.feeds ++ [feed]⟩)

/-- Changes one feed. -/
def update (h : Hub) (i : Nat) (change : Feed → Feed) : Hub :=
  ⟨h.feeds.modify i change⟩

/-- Whether a stream may still bring documents. -/
def isActive (h : Hub) (s : Stream) : Bool :=
  (s.feed.bind (h.feeds[·]?)).any (·.active)

/-- A new subscription to a stream. -/
def subscribe (h : Hub) (s : Stream) : Subscription × Hub :=
  let taken : Option (Subscription × Hub) := do
    let i ← s.feed
    let (receiver, feed) ← (← h.feeds[i]?).subscribe?
    return (⟨some (i, receiver)⟩, h.update i fun _ => feed)
  taken.getD (⟨none⟩, h)

/-- Gives up a subscription. -/
def unsubscribe (h : Hub) (s : Subscription) : Hub :=
  match s.place with
  | some (i, _) => h.update i .detach
  | none => h

/-- What a subscription gets now. At the end it gives up its place. -/
def next (h : Hub) (s : Subscription) : Feed.Next × Subscription × Hub :=
  let found := s.place.bind fun (i, receiver) => h.feeds[i]?.map fun feed => (i, feed.next receiver)
  match found with
  | none => (.ended, s, h)
  | some (_, .ended, _) => (.ended, ⟨none⟩, h.unsubscribe s)
  | some (i, got, receiver) => (got, ⟨some (i, receiver)⟩, h)

/-- Takes up to `n` documents, as long as they are ready; also what comes after them. -/
def takeReady (h : Hub) (s : Subscription) : Nat → List String × Feed.Next × Subscription × Hub
  | 0 => ([], h.next s)
  | n + 1 =>
    match h.next s with
    | (.document text, s, h) =>
      let (texts, rest) := takeReady h s n
      (text :: texts, rest)
    | (got, s, h) => ([], got, s, h)

/-- How many documents a feed has published that a subscription has yet to read or to skip. -/
def backlog (h : Hub) (s : Subscription) : Nat :=
  match s.place with
  | none => 0
  | some (i, receiver) => (h.feeds[i]?.map (·.total - receiver)).getD 0

/-- Takes all documents that are ready; also what comes after them. -/
def readAll (h : Hub) (s : Subscription) : List String × Feed.Next × Subscription × Hub :=
  h.takeReady s (h.backlog s)

end Hub

end ClusterLink
