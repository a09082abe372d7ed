import ClusterLink.Text.Utf8

/-!
# The writer of a link

Messages on their way out stand in a queue of bounded length. The writer takes
what stands there, but not more than `batchLimit` messages, and writes it in one
piece; meanwhile the queue may fill again. A write that fails ends the writer
and loses its queue.
-/

namespace ClusterLink

/-- The outgoing side of a link. -/
structure Writer where
  /-- The greatest number of messages in the queue. -/
  capacity : Nat
  /-- The messages that wait. -/
  queue : List Bytes := []
  /-- The bytes of the write in progress. -/
  writing : Option Bytes := none
  /-- Whether a write has failed. -/
  failed : Bool := false
  deriving DecidableEq, Repr

namespace Writer

/-- The greatest number of messages in one write. -/
def batchLimit : Nat := 64

/-- Whether another message finds room. -/
def hasRoom (w : Writer) : Bool :=
  w.queue.length < w.capacity

/-- A message joins the queue. -/
def put (w : Writer) (message : Bytes) : Writer :=
  { w with queue := w.queue ++ [message] }

/-- Begins the next write, if there is none in progress and there is something to write. -/
def begin? (w : Writer) : Option Writer :=
  if w.writing.isSome || w.queue.isEmpty then none
  else some { w with
    writing := some (w.queue.take batchLimit).flatten
    queue := w.queue.drop batchLimit }

/-- The write in progress is done. -/
def done (w : Writer) : Writer :=
  { w with writing := none }

/-- The write in progress has failed. -/
def fail (w : Writer) : Writer :=
  { w with queue := [], writing := none, failed := true }

/-- How much is left to do: a message has to be taken and to be written. -/
def load (w : Writer) : Nat :=
  2 * w.queue.length + if w.writing.isSome then 1 else 0

@[simp] theorem load_put (w : Writer) (message : Bytes) :
    (w.put message).load = w.load + 2 := by
  show 2 * (w.queue ++ [message]).length + (if w.writing.isSome then 1 else 0) = _
  rw [List.length_append, load, List.length_singleton]
  omega

theorem load_lt_of_begin? {w w' : Writer} (h : w.begin? = some w') : w'.load < w.load := by
  unfold begin? at h
  split at h
  · simp at h
  · rename_i hc
    simp only [Bool.or_eq_true, not_or, Bool.not_eq_true, Option.isSome_eq_false_iff,
      Option.isNone_iff_eq_none, List.isEmpty_eq_false_iff] at hc
    simp only [Option.some.injEq] at h
    subst h
    have := List.length_pos_iff.2 hc.2
    simp only [load, hc.1, List.length_drop, batchLimit, Option.isSome_some, Option.isSome_none]
    simp
    omega

theorem load_done {w : Writer} {bytes : Bytes} (h : w.writing = some bytes) :
    w.done.load < w.load := by
  simp [load, done, h]

theorem load_fail {w : Writer} {bytes : Bytes} (h : w.writing = some bytes) :
    w.fail.load < w.load := by
  simp only [load, fail, h, List.length_nil, Option.isSome_some, Option.isSome_none]
  simp

end Writer

end ClusterLink
