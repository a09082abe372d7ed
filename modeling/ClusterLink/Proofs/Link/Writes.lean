import ClusterLink.Proofs.Connection.Cuts
import ClusterLink.Proofs.Link.Answers
import ClusterLink.Proofs.Link.Reads
import ClusterLink.Proofs.Session.Lasting
import Mathlib.Data.List.Infix
import Mathlib.Order.Nat

/-!
# What a link writes

Connection and writer are two tasks with a queue between them. The connection takes up a
request, registers it and its caller, and puts its message into the queue or keeps it until
there is room; the writer takes up to 64 messages for one write. However the two take turns,
the bytes of all writes are those of the first requests registered, each as a whole, once and
in order, and no message is lost before a write fails (`Journal.run_inOrder`).

## The argument

A `Journal` notes the writes that have been begun and the messages that the writer holds for
its next write. Messages go one way only: from the connection to the end of those that wait,
from the front of these to the writer, from the writer into a write. What one event of the
link means for them is told by `Passes`. The `Ledger` puts the requests accepted beside the
writes: some have been put into writes, batch by batch, and the messages of the others are
those that the writer holds and those that wait. Each step moves the line between the two, or
adds a request at the end (`Inv.act`).
-/

namespace ClusterLink

/-- The bytes of a request as it is sent to a host. -/
def Ticket.wire (t : Ticket) (host : String) (settings : Settings) : Bytes :=
  (t.request.outgoing host settings.userAgent).bytes

namespace Connection

/-- No frames change the client. -/
theorem sameClient_takeAll (c : Connection) (frames : List Reply.Frame) :
    c.session.SameClient (c.takeAll frames).2.2.session := by
  induction frames generalizing c with
  | nil => exact .refl _
  | cons frame rest ih =>
    have hframe := c.session.sameClient_receive frame
    rw [← session_take] at hframe
    rcases htake : c.take frame with ⟨cause | delivery, c'⟩
    · rw [htake] at hframe
      simp only [takeAll, htake]
      exact hframe
    · rw [htake] at hframe
      simp only [takeAll, htake]
      exact hframe.trans (ih c')

theorem sameClient_receive (c : Connection) (data : Bytes) :
    c.session.SameClient (c.receive data).2.2.session := by
  unfold receive
  obtain ⟨cause | frames, framer⟩ := c.framer.push data
  · exact .refl _
  · exact sameClient_takeAll { c with framer := framer } frames

end Connection

namespace Link

/-! ### What an event means for the writer -/

/-- The messages that wait for the writer, those in its queue and the one that waits for room. -/
def waiting (l : Link) : List Bytes :=
  l.writer.queue ++ l.blocked.toList

/-- Only the queue of the writer is touched: some messages have joined those that wait. A writer
that has failed gets no more messages. -/
structure Onward (l : Link) (news : List Bytes) (l' : Link) : Prop where
  /-- All but the queue is as it was. -/
  writer_eq : ∃ queue, l'.writer = { l.writer with queue := queue }
  /-- So is what the far end has taken. -/
  received_eq : l'.peer.received = l.peer.received
  /-- The new messages come last. -/
  waiting_eq : l.writer.failed = false → l'.waiting = l.waiting ++ news
  /-- A message joins the queue only if there is room. -/
  length_le : l'.writer.queue.length ≤ max l.writer.queue.length l.writer.capacity
  /-- None joins the queue of a writer that has failed. -/
  queue_eq : l.writer.failed = true → l'.writer.queue = l.writer.queue

/-- What an event means for the writer and the messages that wait: `news` are new, and `begun` are
the writes that it begins. -/
inductive Passes (l : Link) : (news begun : List Bytes) → Link → Prop where
  /-- The writer does nothing. -/
  | onward {news : List Bytes} {l' : Link} : Onward l news l' → Passes l news [] l'
  /-- The writer begins a write with the messages in front. -/
  | begin {front back : List Bytes} : l.writer.writing = none → l.writer.queue = front ++ back →
      front ≠ [] → front.length ≤ Writer.batchLimit →
      Passes l [] [front.flatten] { l with
        writer := { l.writer with writing := some front.flatten, queue := back } }
  /-- A write fails. -/
  | fail {bytes : Bytes} : l.writer.writing = some bytes →
      Passes l [] [] { l with writer := l.writer.fail }
  /-- A write is done. -/
  | done {bytes : Bytes} : l.writer.writing = some bytes →
      Passes l [] [] { l with
        writer := l.writer.done
        peer := { l.peer with received := l.peer.received ++ bytes } }

variable {l l' : Link} {message : Bytes} {news : List Bytes}

/-- Nothing has happened that concerns the messages. -/
theorem Onward.same (hwriter : l'.writer = l.writer) (hblocked : l'.blocked = l.blocked)
    (hreceived : l'.peer.received = l.peer.received) : Onward l [] l' where
  writer_eq := ⟨l.writer.queue, hwriter⟩
  received_eq := hreceived
  waiting_eq _ := by rw [waiting, waiting, hwriter, hblocked, List.append_nil]
  length_le := by
    rw [hwriter]
    exact Nat.le_max_left _ _
  queue_eq _ := by rw [hwriter]

/-- Only what concerns the messages matters. -/
theorem Onward.of_eq {l₀ : Link} (h : Onward l₀ news l') (hwriter : l₀.writer = l.writer)
    (hblocked : l₀.blocked = l.blocked) (hreceived : l₀.peer.received = l.peer.received) :
    Onward l news l' where
  writer_eq := hwriter ▸ h.writer_eq
  received_eq := h.received_eq.trans hreceived
  waiting_eq hfailed := by
    rw [h.waiting_eq (hwriter ▸ hfailed), waiting, waiting, hwriter, hblocked]
  length_le := hwriter ▸ h.length_le
  queue_eq hfailed := hwriter ▸ h.queue_eq (hwriter ▸ hfailed)

/-- The end of a connection that waits for nothing. -/
theorem Onward.close (hblocked : l.blocked = none) : Onward l [] l.close :=
  .same rfl hblocked.symm rfl

/-- Answering a caller concerns no messages. -/
theorem Onward.answer (l : Link) (caller : Nat) (outcome : Outcome) :
    Onward l [] (l.answer caller outcome) := by
  unfold Link.answer
  split
  · exact .same rfl rfl rfl
  · exact .same rfl rfl rfl

/-- A message is given to the writer. -/
theorem Onward.offer (hblocked : l.blocked = none) : Onward l [message] (l.offer message) := by
  unfold Link.offer
  split
  · rename_i hfailed
    have hclose := Onward.close hblocked
    exact ⟨hclose.writer_eq, hclose.received_eq, fun h => absurd hfailed (by simp [h]),
      hclose.length_le, hclose.queue_eq⟩
  · rename_i hfailed
    split
    · rename_i hroom
      refine ⟨⟨_, rfl⟩, rfl, fun _ => ?_, ?_, fun h => absurd h hfailed⟩
      · simp [waiting, Writer.put, hblocked]
      · have : l.writer.queue.length < l.writer.capacity := by simpa [Writer.hasRoom] using hroom
        simp only [Writer.put, List.length_append, List.length_singleton]
        omega
    · refine ⟨⟨l.writer.queue, rfl⟩, rfl, fun _ => ?_, Nat.le_max_left _ _, fun _ => rfl⟩
      simp [waiting, hblocked]

/-- The message that waits for room goes to the writer. -/
theorem Onward.unblock (hblocked : l.blocked = some message) :
    Onward l [] ({ l with blocked := none }.offer message) := by
  obtain ⟨hwriter, hreceived, hwaiting, hlength, hqueue⟩ :=
    (Onward.offer rfl : Onward { l with blocked := none } [message] _)
  refine ⟨hwriter, hreceived, fun hfailed => ?_, hlength, hqueue⟩
  rw [hwaiting hfailed]
  simp [waiting, hblocked]

/-- A read concerns no messages, whether it ends the connection or not. -/
theorem Onward.read (hblocked : l.blocked = none) (data : Bytes) : Onward l [] (l.read data) := by
  unfold Link.read
  obtain ⟨deliveries, fault, connection⟩ := l.connection.receive data
  have hdeliver (l : Link) : ∃ answers, l.deliver deliveries = { l with answers := answers } := by
    have hanswers := l.foldl_answer (deliveries.map fun d => (d.caller, .response d.response))
    rw [List.foldl_map] at hanswers
    exact ⟨_, hanswers⟩
  obtain ⟨answers, hanswers⟩ := hdeliver { l with connection := connection }
  dsimp only
  rw [hanswers]
  split
  · exact .of_eq (.close hblocked) rfl rfl rfl
  · exact .same rfl rfl rfl

/-- The writes that an event begins. -/
def begun (l : Link) : Event → List Bytes
  | .move .begin => (l.writer.begin?.bind (·.writing)).toList
  | _ => []

/-- The messages of the requests that a link takes up. -/
def wires (l : Link) (taken : List Ticket) : List Bytes :=
  taken.map fun t => t.wire l.connection.session.host l.connection.session.settings

/-- What a move means for the messages. -/
theorem passes_of_makes {m : Move} (h : l.Makes m l') :
    Passes l (l.wires (l.taken m)) (l.begun (.move m)) l' := by
  cases h with
  | unblock hblocked => exact .onward (.unblock hblocked)
  | @accept t rest hfree hcommands =>
    have htaken : l.taken .take = [t] := by simp only [taken, hcommands]
    rw [htaken]
    exact .onward (.of_eq (.offer (isFree_iff.1 hfree).2) rfl rfl rfl)
  | shutdown hfree hcommands =>
    rw [show l.taken .take = [] by simp only [taken, hcommands]]
    exact .onward (.close (isFree_iff.1 hfree).2)
  | released hfree hcommands =>
    rw [show l.taken .take = [] by simp only [taken, hcommands]]
    exact .onward (.close (isFree_iff.1 hfree).2)
  | read hfree =>
    refine .onward (.of_eq (.read ?_ _) rfl rfl rfl)
    exact (isFree_iff.1 hfree).2
  | ended hfree => exact .onward (.close (isFree_iff.1 hfree).2)
  | notice hfree => exact .onward (.close (isFree_iff.1 hfree).2)
  | @begin writer hwriter =>
    have hbegun : l.begun (.move .begin) = writer.writing.toList := by
      rw [begun, hwriter, Option.bind_some]
    rw [hbegun]
    unfold Writer.begin? at hwriter
    split at hwriter
    · cases hwriter
    · rename_i hcan
      simp only [Bool.or_eq_true, not_or, Bool.not_eq_true, Option.isSome_eq_false_iff,
        Option.isNone_iff_eq_none, List.isEmpty_eq_false_iff] at hcan
      cases hwriter
      refine .begin hcan.1 (List.take_append_drop _ _).symm ?_ (List.length_take_le _ _)
      simpa [Writer.batchLimit] using hcan.2
  | fail hwriting => exact .fail hwriting
  | write hwriting => exact .done hwriting
  | letIn => exact .onward (.same rfl rfl rfl)
  | @tell caller rest _ =>
    exact .onward (.of_eq (.answer { l with untold := rest } caller .closed) rfl rfl rfl)

/-- Handing in a command concerns no messages. -/
theorem Onward.handIn (l : Link) (command : Command) : Onward l [] (l.handIn command) := by
  unfold Link.handIn
  split
  · exact .same rfl rfl rfl
  · exact .same rfl rfl rfl

/-- A read does not change the client. -/
theorem sameClient_read (l : Link) (data : Bytes) :
    l.connection.session.SameClient (l.read data).connection.session := by
  have hreceive := l.connection.sameClient_receive data
  unfold Link.read
  generalize l.connection.receive data = received at hreceive
  obtain ⟨deliveries, fault, connection⟩ := received
  obtain ⟨hconnection, -⟩ := deliver_keeps { l with connection := connection } deliveries
  dsimp only at hreceive ⊢
  split
  · rw [close, hconnection]
    exact hreceive.trans ⟨rfl, rfl⟩
  · rw [hconnection]
    exact hreceive

namespace History

variable {r : History}

/-- What an event means for the messages. -/
theorem passes_act (r : History) (event : Event) :
    ∃ taken, (r.act event).accepted = r.accepted ++ taken ∧
      Passes r.link (r.link.wires taken) (r.link.begun event) (r.act event).link := by
  cases event with
  | move m =>
    show ∃ taken, (r.move m).accepted = _ ∧ Passes _ _ _ (r.move m).link
    unfold History.move
    split
    · rename_i hmove
      have hbegun : r.link.begun (.move m) = [] := by
        cases m with
        | begin =>
          have hnone : r.link.writer.begin? = none := by simpa [move?] using hmove
          rw [begun, hnone]
          rfl
        | _ => rfl
      rw [hbegun]
      exact ⟨[], (List.append_nil _).symm, .onward (.same rfl rfl rfl)⟩
    · rename_i link hmove
      exact ⟨_, rfl, passes_of_makes (makes_of_move? hmove)⟩
  | send request =>
    refine ⟨[], (List.append_nil _).symm, .onward ?_⟩
    show Onward r.link [] (r.link.send _)
    unfold Link.send
    split
    · exact .handIn r.link _
    · split
      · exact .answer r.link _ _
      · exact .same rfl rfl rfl
  | shutdown =>
    refine ⟨[], (List.append_nil _).symm, .onward ?_⟩
    show Onward r.link [] r.link.shutdown
    unfold Link.shutdown
    split
    · exact .handIn r.link _
    · exact .same rfl rfl rfl
  | _ => exact ⟨[], (List.append_nil _).symm, .onward (.same rfl rfl rfl)⟩

/-- Nothing that happens to a link changes its client. -/
theorem sameClient_act (r : History) (event : Event) :
    r.link.connection.session.SameClient (r.act event).link.connection.session := by
  have huntouched {c c' : Connection} (h : Untouched c c') : c.session.SameClient c'.session := by
    cases h with
    | same => exact .refl _
    | submit t => exact ⟨rfl, rfl⟩
    | withHub hub => exact ⟨rfl, rfl⟩
  rcases r.link.readBy_cases event with hread | ⟨rfl, hfree, hsent, -⟩
  · obtain ⟨-, hunread⟩ := r.unread_act hread
    cases hunread with
    | goesOn _ hc => exact huntouched hc
    | ends _ hc hclose =>
      rw [hclose]
      exact (huntouched hc).trans ⟨rfl, rfl⟩
  · rw [act_read hfree hsent rfl]
    exact sameClient_read { r.link with
      peer := { r.link.peer with sent := r.link.peer.sent.drop r.link.readSize } } _

end History

/-! ### Journals -/

/-- A history with what its writer takes and writes. A writer that begins a write takes all the
messages that it can at once; here it may also take them one by one, while others come. -/
structure Journal where
  /-- The history. -/
  history : History
  /-- The messages that the writer has taken for its next write. -/
  batch : List Bytes := []
  /-- The writes that have been begun, each with its bytes. -/
  writes : List Bytes := []

namespace Journal

/-- One thing that happens. -/
inductive Step where
  /-- An event of the link. -/
  | event (event : Event)
  /-- The writer takes a message for its next write. -/
  | collect
  /-- The writer begins the write. -/
  | commit

/-- The journal of a new link. -/
def start (host : String) (settings : Settings) : Journal where
  history := .start host settings

/-- The history with another writer. -/
def withWriter (j : Journal) (writer : Writer) : History :=
  { j.history with link := { j.history.link with writer := writer } }

/-- The journal after one more step. While the writer takes messages one by one, it does not begin a
write with others. -/
def act (j : Journal) : Step → Journal
  | .event event =>
    if event = .move .begin ∧ j.batch ≠ [] then j
    else { j with
      history := j.history.act event
      writes := j.writes ++ j.history.link.begun event }
  | .collect =>
    let writer := j.history.link.writer
    match writer.queue with
    | [] => j
    | message :: rest =>
      if writer.writing = none ∧ j.batch.length < Writer.batchLimit then
        { j with
          history := j.withWriter { writer with queue := rest }
          batch := j.batch ++ [message] }
      else j
  | .commit =>
    if j.batch = [] then j
    else {
      history := j.withWriter { j.history.link.writer with writing := some j.batch.flatten }
      batch := []
      writes := j.writes ++ [j.batch.flatten] }

/-- The journal after some steps. -/
def run (j : Journal) (steps : List Step) : Journal :=
  steps.foldl act j

/-- How the requests accepted have been put into writes: those in `batches` have been, in this way,
and the others have not, and unless the writer has failed, their messages are `left`. -/
structure Ledger (wire : Ticket → Bytes) (accepted : List Ticket) (writes left : List Bytes)
    (failed : Bool) (batches : List (List Ticket)) (rest : List Ticket) : Prop where
  /-- The first requests have been put into writes. -/
  accepted_eq : accepted = batches.flatten ++ rest
  /-- The bytes of a write are those of its requests, in order and nothing else. -/
  writes_eq : writes = batches.map (·.flatMap wire)
  /-- A write holds at least one request, and no more than the limit. -/
  size : ∀ batch ∈ batches, batch ≠ [] ∧ batch.length ≤ Writer.batchLimit
  /-- No message gets lost before a write fails. -/
  left_eq : failed = false → rest.map wire = left

section

variable {wire : Ticket → Bytes} {accepted rest taken : List Ticket} {writes left : List Bytes}
  {failed : Bool} {batches : List (List Ticket)}

/-- More requests are accepted. -/
theorem Ledger.accept {left' : List Bytes}
    (h : Ledger wire accepted writes left failed batches rest)
    (hleft : failed = false → left' = left ++ taken.map wire) :
    Ledger wire (accepted ++ taken) writes left' failed batches (rest ++ taken) where
  accepted_eq := by rw [h.accepted_eq, List.append_assoc]
  writes_eq := h.writes_eq
  size := h.size
  left_eq hfailed := by rw [List.map_append, h.left_eq hfailed, hleft hfailed]

/-- The messages in front are put into a write. -/
theorem Ledger.write {front back : List Bytes}
    (h : Ledger wire accepted writes (front ++ back) false batches rest) (hfront : front ≠ [])
    (hlength : front.length ≤ Writer.batchLimit) :
    ∃ batches rest, Ledger wire accepted (writes ++ [front.flatten]) back false batches rest := by
  obtain ⟨batch, rest', rfl, rfl, rfl⟩ := List.map_eq_append_iff.1 (h.left_eq rfl)
  refine ⟨batches ++ [batch], rest', ?_, ?_, ?_, fun _ => rfl⟩
  · rw [h.accepted_eq, List.flatten_concat, List.append_assoc]
  · rw [h.writes_eq, List.map_append, List.map_singleton, List.flatMap_def]
  · intro b hb
    rcases List.mem_append.1 hb with hb | hb
    · exact h.size b hb
    · rw [List.mem_singleton.1 hb]
      exact ⟨by simpa using hfront, by simpa using hlength⟩

/-- After a failure nothing more is known of what is left. -/
theorem Ledger.fail (h : Ledger wire accepted writes left failed batches rest)
    (left' : List Bytes) : Ledger wire accepted writes left' true batches rest :=
  ⟨h.accepted_eq, h.writes_eq, h.size, nofun⟩

end

/-! ### The invariant -/

/-- A history in the name of one client. -/
structure InNameOf (host : String) (settings : Settings) (r : History) : Prop where
  /-- Every request is sent to the host, -/
  host_eq : r.link.connection.session.host = host
  /-- in the name of the client. -/
  settings_eq : r.link.connection.session.settings = settings
  /-- Callers and requests are in order. -/
  orderly : r.Orderly

/-- The history goes on, and the requests in `taken` are accepted. -/
structure GoesOn (r r' : History) (taken : List Ticket) : Prop where
  /-- They come last. -/
  accepted_eq : r'.accepted = r.accepted ++ taken
  /-- Callers and requests stay in order. -/
  orderly : r'.Orderly
  /-- The client stays the same. -/
  client : r.link.connection.session.SameClient r'.link.connection.session

theorem InNameOf.goesOn {host : String} {settings : Settings} {r r' : History} {taken : List Ticket}
    (h : InNameOf host settings r) (hr : GoesOn r r' taken) : InNameOf host settings r' where
  host_eq := hr.client.host_eq.trans h.host_eq
  settings_eq := hr.client.settings_eq.trans h.settings_eq
  orderly := hr.orderly

/-- What holds of every journal of a link to `host` with `settings`. -/
structure Inv (host : String) (settings : Settings) (j : Journal) : Prop where
  /-- The client stays the same, and callers and requests are in order. -/
  client : InNameOf host settings j.history
  /-- The messages that the writer has taken and those that wait are left to be written. -/
  ledger : ∃ batches rest, Ledger (·.wire host settings) j.history.accepted j.writes
    (j.batch ++ j.history.link.waiting) j.history.link.writer.failed batches rest
  /-- The writer takes messages for its next write when the last one is done, -/
  writing_eq : j.batch ≠ [] → j.history.link.writer.writing = none
  /-- and no more than the limit. -/
  length_batch : j.batch.length ≤ Writer.batchLimit
  /-- The capacity is that of the settings. -/
  capacity_eq : j.history.link.writer.capacity = max 1 settings.commandCapacity.toNat
  /-- The queue keeps to it. -/
  length_queue : j.history.link.writer.queue.length ≤ j.history.link.writer.capacity
  /-- A writer that has failed has nothing more to do. -/
  idle : j.history.link.writer.failed = true → j.batch = [] ∧ j.history.link.writer.queue = [] ∧
    j.history.link.writer.writing = none
  /-- The far end has taken all writes but the one in progress. -/
  received_eq : j.history.link.writer.failed = false →
    j.history.link.peer.received ++ j.history.link.writer.writing.getD [] = j.writes.flatten
  /-- What it has taken has been written. -/
  received_of_writes : j.history.link.peer.received <+: j.writes.flatten

variable {host : String} {settings : Settings} {j : Journal}

theorem Inv.start (host : String) (settings : Settings) :
    (start host settings).Inv host settings where
  client := ⟨rfl, rfl, .inl (.start host settings)⟩
  ledger := ⟨[], [], rfl, rfl, nofun, fun _ => rfl⟩
  writing_eq _ := rfl
  length_batch := Nat.zero_le _
  capacity_eq := rfl
  length_queue := Nat.zero_le _
  idle := nofun
  received_eq _ := rfl
  received_of_writes := List.prefix_rfl

/-- A writer that has something to do has not failed. -/
theorem Inv.failed_eq (h : j.Inv host settings)
    (hbusy : j.batch ≠ [] ∨ j.history.link.writer.queue ≠ [] ∨
      j.history.link.writer.writing ≠ none) : j.history.link.writer.failed = false := by
  cases hfailed : j.history.link.writer.failed with
  | false => rfl
  | true =>
    obtain ⟨hbatch, hqueue, hwriting⟩ := h.idle hfailed
    simp [hbatch, hqueue, hwriting] at hbusy

/-- A writer that writes takes no messages for its next write. -/
theorem Inv.batch_eq_nil (h : j.Inv host settings)
    (hwriting : j.history.link.writer.writing ≠ none) : j.batch = [] := by
  by_contra hbatch
  exact hwriting (h.writing_eq hbatch)

section

variable {r : History} {taken : List Ticket}

/-- The writer does nothing. -/
theorem Inv.onward (h : j.Inv host settings) (hr : GoesOn j.history r taken)
    (honward : Onward j.history.link (j.history.link.wires taken) r.link) :
    Inv host settings { j with history := r } := by
  obtain ⟨batches, rest, hledger⟩ := h.ledger
  obtain ⟨⟨queue, hwriter⟩, hreceived, hwaiting, hlength, hqueue⟩ := honward
  have hfailed : r.link.writer.failed = j.history.link.writer.failed := by rw [hwriter]
  have hwriting : r.link.writer.writing = j.history.link.writer.writing := by rw [hwriter]
  have hcapacity : r.link.writer.capacity = j.history.link.writer.capacity := by rw [hwriter]
  refine ⟨h.client.goesOn hr, ⟨batches, rest ++ taken, ?_⟩, ?_, h.length_batch, ?_, ?_, ?_,
    ?_, ?_⟩
  · show Ledger _ r.accepted j.writes (j.batch ++ r.link.waiting) r.link.writer.failed _ _
    rw [hr.accepted_eq, hfailed]
    refine hledger.accept fun hworks => ?_
    rw [hwaiting hworks, wires, h.client.host_eq, h.client.settings_eq, List.append_assoc]
  · exact fun hbatch => hwriting.trans (h.writing_eq hbatch)
  · exact hcapacity.trans h.capacity_eq
  · show r.link.writer.queue.length ≤ r.link.writer.capacity
    rw [hcapacity]
    exact hlength.trans (max_le h.length_queue le_rfl)
  · intro hworks
    rw [hfailed] at hworks
    obtain ⟨hbatch, hnone, hwrites⟩ := h.idle hworks
    exact ⟨hbatch, (hqueue hworks).trans hnone, hwriting.trans hwrites⟩
  · intro hworks
    rw [hfailed] at hworks
    show r.link.peer.received ++ r.link.writer.writing.getD [] = j.writes.flatten
    rw [hreceived, hwriting, h.received_eq hworks]
  · show r.link.peer.received <+: j.writes.flatten
    rw [hreceived]
    exact h.received_of_writes

/-- The writer begins a write with the messages taken and some that wait. -/
theorem Inv.begin (h : j.Inv host settings) (hr : GoesOn j.history r []) {front back : List Bytes}
    (hwriting : j.history.link.writer.writing = none)
    (hqueue : j.history.link.writer.queue = front ++ back) (hfront : j.batch ++ front ≠ [])
    (hlength : (j.batch ++ front).length ≤ Writer.batchLimit)
    (hlink : r.link = { j.history.link with
      writer := { j.history.link.writer with
        writing := some (j.batch ++ front).flatten, queue := back } }) :
    Inv host settings ⟨r, [], j.writes ++ [(j.batch ++ front).flatten]⟩ := by
  obtain ⟨batches, rest, hledger⟩ := h.ledger
  have hworks : j.history.link.writer.failed = false := by
    refine h.failed_eq ?_
    by_cases hbatch : j.batch = []
    · right
      left
      rw [hbatch, List.nil_append] at hfront
      simp [hqueue, hfront]
    · exact .inl hbatch
  have hreceived := h.received_eq hworks
  rw [hwriting, Option.getD_none, List.append_nil] at hreceived
  have hleft : j.batch ++ j.history.link.waiting =
      (j.batch ++ front) ++ (back ++ j.history.link.blocked.toList) := by
    simp [waiting, hqueue]
  rw [hworks, hleft] at hledger
  obtain ⟨batches', rest', hledger'⟩ := hledger.write hfront hlength
  refine ⟨h.client.goesOn hr, ⟨batches', rest', ?_⟩, nofun, Nat.zero_le _, ?_, ?_, ?_, ?_,
    ?_⟩
  · show Ledger _ r.accepted _ ([] ++ r.link.waiting) r.link.writer.failed _ _
    rw [hr.accepted_eq, List.append_nil, hlink]
    show Ledger _ _ _ _ j.history.link.writer.failed _ _
    rw [hworks]
    exact hledger'
  · rw [hlink]
    exact h.capacity_eq
  · rw [hlink]
    have := h.length_queue
    rw [hqueue, List.length_append] at this
    exact Nat.le_of_add_left_le this
  · intro hfailed
    rw [hlink] at hfailed
    rw [show j.history.link.writer.failed = true from hfailed] at hworks
    cases hworks
  · intro _
    rw [hlink, List.flatten_concat, ← hreceived]
    rfl
  · rw [hlink, List.flatten_concat, ← hreceived]
    exact List.prefix_append _ _

/-- A write fails. -/
theorem Inv.fail (h : j.Inv host settings) (hr : GoesOn j.history r []) {bytes : Bytes}
    (hwriting : j.history.link.writer.writing = some bytes)
    (hlink : r.link = { j.history.link with writer := j.history.link.writer.fail }) :
    Inv host settings { j with history := r } := by
  obtain ⟨batches, rest, hledger⟩ := h.ledger
  have hbatch : j.batch = [] := h.batch_eq_nil (by simp [hwriting])
  refine ⟨h.client.goesOn hr, ⟨batches, rest, ?_⟩, ?_, h.length_batch, ?_, ?_, ?_, ?_, ?_⟩
  · show Ledger _ r.accepted j.writes (j.batch ++ r.link.waiting) r.link.writer.failed _ _
    rw [hr.accepted_eq, List.append_nil, hlink]
    exact hledger.fail _
  · exact fun hne => absurd hbatch hne
  · rw [hlink]
    exact h.capacity_eq
  · rw [hlink]
    exact Nat.zero_le _
  · rw [hlink]
    exact fun _ => ⟨hbatch, rfl, rfl⟩
  · rw [hlink]
    nofun
  · rw [hlink]
    exact h.received_of_writes

/-- A write is done. -/
theorem Inv.done (h : j.Inv host settings) (hr : GoesOn j.history r []) {bytes : Bytes}
    (hwriting : j.history.link.writer.writing = some bytes)
    (hlink : r.link = { j.history.link with
      writer := j.history.link.writer.done
      peer := { j.history.link.peer with received := j.history.link.peer.received ++ bytes } }) :
    Inv host settings { j with history := r } := by
  obtain ⟨batches, rest, hledger⟩ := h.ledger
  have hworks : j.history.link.writer.failed = false := h.failed_eq (by simp [hwriting])
  have hbatch : j.batch = [] := h.batch_eq_nil (by simp [hwriting])
  have hreceived := h.received_eq hworks
  rw [hwriting, Option.getD_some] at hreceived
  refine ⟨h.client.goesOn hr, ⟨batches, rest, ?_⟩, ?_, h.length_batch, ?_, ?_, ?_, ?_, ?_⟩
  · show Ledger _ r.accepted j.writes (j.batch ++ r.link.waiting) r.link.writer.failed _ _
    rw [hr.accepted_eq, List.append_nil, hlink]
    exact hledger
  · exact fun hne => absurd hbatch hne
  · rw [hlink]
    exact h.capacity_eq
  · rw [hlink]
    exact h.length_queue
  · intro hfailed
    rw [hlink] at hfailed
    rw [show j.history.link.writer.failed = true from hfailed] at hworks
    cases hworks
  · intro _
    rw [hlink, ← hreceived]
    exact List.append_nil _
  · rw [hlink, ← hreceived]

end

/-- Another writer changes nothing for the callers. -/
theorem goesOn_withWriter (h : j.history.Orderly) (writer : Writer) :
    GoesOn j.history (j.withWriter writer) [] where
  accepted_eq := (List.append_nil _).symm
  orderly := h.imp
    (·.of_outside writer j.history.link.peer j.history.link.blocked j.history.link.released)
    fun ⟨told, h⟩ => ⟨told, h.of_outside writer j.history.link.peer j.history.link.released
      j.history.link.commands j.history.link.admissions⟩
  client := .refl _

/-- Only one event begins a write. -/
theorem eq_of_begun {l : Link} {event : Event} (h : l.begun event ≠ []) : event = .move .begin := by
  cases event with
  | move m =>
    cases m with
    | begin => rfl
    | _ => exact absurd rfl h
  | _ => exact absurd rfl h

/-- Something happens to the link. -/
theorem Inv.event (h : j.Inv host settings) (event : Event) :
    Inv host settings (j.act (.event event)) := by
  unfold act
  dsimp only
  split
  · exact h
  · rename_i hother
    obtain ⟨taken, haccepted, hpasses⟩ := j.history.passes_act event
    have hr : GoesOn j.history (j.history.act event) taken :=
      ⟨haccepted, h.client.orderly.act event, j.history.sameClient_act event⟩
    have hbatch : j.history.link.begun event ≠ [] → j.batch = [] := by
      intro hbegun
      by_contra hbatch
      exact hother ⟨eq_of_begun hbegun, hbatch⟩
    have htaken : j.history.link.wires taken = [] → taken = [] := List.map_eq_nil_iff.1
    generalize hlink : (j.history.act event).link = link at hpasses
    generalize hnews : j.history.link.wires taken = news at hpasses htaken
    generalize j.history.link.begun event = begun at hpasses hbatch ⊢
    cases hpasses with
    | onward honward =>
      rw [List.append_nil]
      exact h.onward hr (hlink ▸ hnews ▸ honward)
    | @begin front back hwriting hqueue hfront hlength =>
      obtain rfl := htaken rfl
      have hnil : j.batch = [] := hbatch (List.cons_ne_nil _ _)
      have hbegin : Inv host settings
          ⟨j.history.act event, [], j.writes ++ [(j.batch ++ front).flatten]⟩ :=
        h.begin hr hwriting hqueue (by rwa [hnil]) (by rwa [hnil]) (by rw [hlink, hnil]; rfl)
      rw [hnil] at hbegin ⊢
      exact hbegin
    | fail hwriting =>
      obtain rfl := htaken rfl
      rw [List.append_nil]
      exact h.fail hr hwriting hlink
    | done hwriting =>
      obtain rfl := htaken rfl
      rw [List.append_nil]
      exact h.done hr hwriting hlink

/-- The writer takes a message for its next write. -/
theorem Inv.collect (h : j.Inv host settings) : Inv host settings (j.act .collect) := by
  unfold act
  dsimp only
  split
  · exact h
  · rename_i message rest hqueue
    split
    · rename_i hcan
      obtain ⟨batches, left, hledger⟩ := h.ledger
      have hworks : j.history.link.writer.failed = false := h.failed_eq (by simp [hqueue])
      have hwaiting : j.batch ++ j.history.link.waiting =
          (j.batch ++ [message]) ++ (rest ++ j.history.link.blocked.toList) := by
        simp [waiting, hqueue]
      have hlength := h.length_queue
      rw [hqueue, List.length_cons] at hlength
      rw [hwaiting] at hledger
      refine ⟨h.client.goesOn (goesOn_withWriter h.client.orderly _), ⟨batches, left, hledger⟩,
        fun _ => hcan.1, ?_, h.capacity_eq, Nat.le_of_lt hlength, ?_, h.received_eq,
        h.received_of_writes⟩
      · rw [List.length_append, List.length_singleton]
        exact hcan.2
      · intro hfailed
        rw [show j.history.link.writer.failed = true from hfailed] at hworks
        cases hworks
    · exact h

/-- The writer begins the write. -/
theorem Inv.commit (h : j.Inv host settings) : Inv host settings (j.act .commit) := by
  unfold act
  dsimp only
  split
  · exact h
  · rename_i hbatch
    have hbegin : Inv host settings ⟨j.withWriter { j.history.link.writer with
        writing := some (j.batch ++ []).flatten }, [], j.writes ++ [(j.batch ++ []).flatten]⟩ :=
      h.begin (goesOn_withWriter h.client.orderly _) (h.writing_eq hbatch) rfl
        (by simpa using hbatch) (by simpa using h.length_batch) rfl
    rwa [List.append_nil] at hbegin

theorem Inv.act (h : j.Inv host settings) (step : Step) : Inv host settings (j.act step) := by
  cases step with
  | event event => exact h.event event
  | collect => exact h.collect
  | commit => exact h.commit

theorem Inv.run (h : j.Inv host settings) (steps : List Step) :
    Inv host settings (j.run steps) := by
  induction steps generalizing j with
  | nil => exact h
  | cons step steps ih => exact ih (h.act step)

/-! ### What is written -/

/-- The writes of a link to `host` with `settings` follow the order of its requests. -/
structure InOrder (host : String) (settings : Settings) (j : Journal) : Prop where
  /-- The bytes of all writes are those of the first requests accepted, each as a whole, once and in
  order. A write holds at least one request and no more than the limit. Unless a write has failed,
  the messages of all other requests accepted are still there: those that the writer has taken for
  its next write, those in its queue and the one that waits for room. -/
  written : ∃ batches rest, j.history.accepted = List.flatten batches ++ rest ∧
    j.writes.flatten = batches.flatten.flatMap (·.wire host settings) ∧
    j.writes = batches.map (·.flatMap (·.wire host settings)) ∧
    (∀ batch ∈ batches, batch ≠ [] ∧ batch.length ≤ Writer.batchLimit) ∧
    (j.history.link.writer.failed = false →
      rest.map (·.wire host settings) = j.batch ++ j.history.link.waiting)
  /-- While the connection goes on, the requests that wait for a reply are the last accepted, and
  their callers wait in the same order. -/
  registered : j.history.link.isOpen = true →
    ∃ answered, j.history.accepted = answered ++ j.history.link.connection.session.queue ∧
      j.history.link.connection.callers = j.history.link.connection.session.queue.map (·.id)
  /-- The far end takes what has been written. -/
  received : j.history.link.peer.received <+: j.writes.flatten ∧
    (j.history.link.writer.failed = false →
      j.history.link.peer.received ++ j.history.link.writer.writing.getD [] = j.writes.flatten)

/-- **Requests are written in the order in which they are registered**, in whatever order callers,
connection and writer act and whatever the writer takes for one write. -/
theorem run_inOrder (host : String) (settings : Settings) (steps : List Step) :
    ((start host settings).run steps).InOrder host settings := by
  have h := (Inv.start host settings).run steps
  obtain ⟨batches, rest, hledger⟩ := h.ledger
  refine ⟨⟨batches, rest, hledger.accepted_eq, ?_, hledger.writes_eq, hledger.size,
    hledger.left_eq⟩, ?_, h.received_of_writes, h.received_eq⟩
  · rw [hledger.writes_eq, List.flatMap_def, List.map_flatten, List.flatten_flatten, List.map_map]
    rfl
  · intro hopen
    rcases h.client.orderly with hwork | ⟨told, hended⟩
    · obtain ⟨done, haccepted, -, -⟩ := hwork.answers
      exact ⟨done, haccepted, hwork.matched.callers_eq⟩
    · rw [hended.isOpen] at hopen
      cases hopen

end Journal

end Link

end ClusterLink
