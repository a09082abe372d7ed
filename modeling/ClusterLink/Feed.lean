/-!
# Feeds

A feed hands the documents of one stream to its receivers. Documents are
numbered from zero as they are published, and a receiver is a number, that of
the document it reads next. A document that nobody receives is not kept.

## The model

A feed keeps the newest documents only, as many as its capacity, which is a
power of two. A receiver that has fallen further behind goes on with the oldest
document kept. One receiver may be parked: it is attached to the feed from then
on, and the next subscription takes it over with all that it has received.
-/

namespace ClusterLink

/-- The documents of one stream on the way to its receivers. -/
structure Feed where
  /-- The greatest number of documents kept. -/
  capacity : Nat
  /-- The newest documents, oldest first. -/
  kept : List String := []
  /-- How many documents have been published. -/
  total : Nat := 0
  /-- How many receivers are attached, a parked one included. -/
  receivers : Nat := 0
  /-- The receiver that waits for the next subscription. -/
  parked : Option Nat := none
  /-- Whether there may be more documents. -/
  active : Bool := true
  deriving DecidableEq, Repr

namespace Feed

/-- What a receiver gets. -/
inductive Next where
  /-- The next document. -/
  | document (text : String)
  /-- Nothing yet. -/
  | pending
  /-- Nothing any more. -/
  | ended
  deriving DecidableEq, Repr

/-- The least power of two that is not less than `n`. -/
def roundUp (n : Nat) : Nat :=
  if n ≤ 1 then 1 else 2 * roundUp ((n + 1) / 2)

/-- A feed that keeps at least `n` documents: the next power of two. -/
def ofCapacity (n : Nat) : Feed where
  capacity := roundUp n

/-- The number of the oldest document kept. -/
def oldest (f : Feed) : Nat :=
  f.total - f.kept.length

/-- Attaches a receiver to an active feed. -/
def attach? (f : Feed) : Option (Nat × Feed) :=
  if f.active then some (f.total, { f with receivers := f.receivers + 1 }) else none

/-- Parks a receiver unless one is parked or the feed has ended. -/
def park (f : Feed) : Feed :=
  if f.parked.isSome then f
  else
    match f.attach? with
    | some (receiver, f) => { f with parked := some receiver }
    | none => f

/-- The receiver of a new subscription: the parked one, or else one attached now. -/
def subscribe? (f : Feed) : Option (Nat × Feed) :=
  match f.parked with
  | some receiver => some (receiver, { f with parked := none })
  | none => f.attach?

/-- Detaches a receiver. -/
def detach (f : Feed) : Feed :=
  { f with receivers := f.receivers - 1 }

/-- How many receivers are counted; none when the feed has ended. -/
def audience (f : Feed) : Nat :=
  if f.active then f.receivers else 0

/-- Publishes a document, and says how many receive it. If nobody does, or if the feed has ended, it
is dropped. -/
def push (f : Feed) (document : String) : Nat × Feed :=
  if f.active then
    if f.receivers = 0 then (0, f)
    else
      let kept := f.kept ++ [document]
      (f.receivers, { f with kept := kept.drop (kept.length - f.capacity), total := f.total + 1 })
  else (0, f)

/-- Publishes a document, whoever receives it. -/
def publish (f : Feed) (document : String) : Feed :=
  (f.push document).2

/-- There will be no more documents. -/
def complete (f : Feed) : Feed :=
  { f with active := false }

/-- The documents that are ready for a receiver. -/
def ready (f : Feed) (receiver : Nat) : List String :=
  f.kept.drop (receiver - f.oldest)

/-- What a receiver gets, and the receiver after that. -/
def next (f : Feed) (receiver : Nat) : Next × Nat :=
  match f.ready receiver with
  | document :: _ => (.document document, max receiver f.oldest + 1)
  | [] => (if f.active then .pending else .ended, receiver)

end Feed

end ClusterLink
