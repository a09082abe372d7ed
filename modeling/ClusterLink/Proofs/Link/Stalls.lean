import ClusterLink.Proofs.Link.Writes

/-!
# Reading past a slow writer

A far end that takes nothing keeps the writer in one write for as long as it likes. The
connection is a task of its own, so it goes on reading, but only as long as the messages
that the writer has not taken fit into the queue. With one more the connection waits for
room, and then it reads nothing before the writer goes on, however much arrives
(`Journal.run_reads`).

## The argument

Only a message that waits for room, or that is due to a writer that has failed, keeps the
connection from reading. Nothing but the writer makes room, so without it such a connection
stays as it is or ends (`History.held_act`). Any other connection reads at once, after its
message has joined the queue if there is one (`History.reads_of_not_held`). When a message
finds no room is a matter of numbers, since the queue never exceeds its capacity
(`Journal.Inv.held_iff`).
-/

namespace ClusterLink

namespace Link

/-- Whatever is not done by the writer. -/
def Event.SparesWriter (event : Event) : Prop :=
  event ≠ .move .begin ∧ event ≠ .move .write

/-- The connection has ended or keeps a message that does not get into the queue. -/
def Held (l : Link) : Prop :=
  l.isOpen = true → l.blocked ≠ none ∧ (l.writer.failed = true ∨ l.writer.hasRoom = false)

instance (l : Link) : Decidable l.Held :=
  inferInstanceAs (Decidable (_ → _))

variable {l l' : Link} {m : Move} {event : Event}

theorem Held.isFree_eq (h : l.Held) : l.isFree = false := by
  rw [Bool.eq_false_iff]
  intro hfree
  obtain ⟨hopen, hblocked⟩ := isFree_iff.1 hfree
  exact (h hopen).1 hblocked

theorem Held.readBy (h : l.Held) (event : Event) : l.readBy event = [] := by
  rcases l.readBy_cases event with hread | ⟨-, hfree, -⟩
  · exact hread
  · rw [h.isFree_eq] at hfree
    cases hfree

/-- A move of any part but the writer leaves it so. -/
theorem Held.of_makes (h : l.Held) (hspares : (Event.move m).SparesWriter) (hmakes : l.Makes m l') :
    l'.Held := by
  have hbusy : ¬ l.isFree = true := by simp [h.isFree_eq]
  cases hmakes with
  | @unblock message hblocked hopen hcan =>
    have hfailed : l.writer.failed = true := by
      rcases (h hopen).2 with hfailed | hroom
      · exact hfailed
      · simpa [hroom] using hcan
    rw [Link.offer, if_pos hfailed]
    exact fun hopen => nomatch hopen
  | accept hfree => exact absurd hfree hbusy
  | shutdown hfree => exact absurd hfree hbusy
  | released hfree => exact absurd hfree hbusy
  | read hfree => exact absurd hfree hbusy
  | ended hfree => exact absurd hfree hbusy
  | notice hfree => exact absurd hfree hbusy
  | begin => exact absurd rfl hspares.1
  | fail => exact absurd rfl hspares.2
  | write => exact absurd rfl hspares.2
  | letIn => exact h
  | tell =>
    unfold Link.answer
    split
    · exact h
    · exact h

theorem Held.handIn (h : l.Held) (command : Command) : (l.handIn command).Held := by
  unfold Link.handIn
  split
  · exact h
  · exact h

namespace History

variable {r : History}

/-- Without the writer a connection that is held stays so. -/
theorem held_act (h : r.link.Held) (hspares : event.SparesWriter) : (r.act event).link.Held := by
  cases event with
  | send request =>
    show (r.link.send _).Held
    unfold Link.send Link.answer
    split
    · exact h.handIn _
    · split
      · split <;> exact h
      · exact h
  | shutdown =>
    show r.link.shutdown.Held
    unfold Link.shutdown
    split
    · exact h.handIn _
    · exact h
  | move m =>
    show (r.move m).link.Held
    unfold History.move
    split
    · exact h
    · rename_i link hmove
      exact h.of_makes hspares (makes_of_move? hmove)
  | _ => exact h

theorem reads_of_held {events : List Event} (h : r.link.Held)
    (hspares : ∀ event ∈ events, event.SparesWriter) : r.reads events = [] := by
  induction events generalizing r with
  | nil => rfl
  | cons event events ih =>
    obtain ⟨hevent, hevents⟩ := List.forall_mem_cons.1 hspares
    rw [History.reads, h.readBy event, ih (held_act h hevent) hevents]
    rfl

/-- A connection that is not held reads what has arrived, once its message is in the queue. -/
theorem reads_of_not_held (hopen : r.link.isOpen = true) (hsent : r.link.peer.sent ≠ [])
    (h : ¬ r.link.Held) :
    r.reads [.move .unblock, .move .read] = [r.link.peer.sent.take r.link.readSize] := by
  have hread {l : Link} (hfree : l.isFree = true) (hl : l.peer.sent ≠ []) :
      l.readBy (.move .read) = [l.peer.sent.take l.readSize] := by
    rw [readBy, if_pos (by simp [hfree, hl])]
  show [] ++ ((r.act (.move .unblock)).link.readBy (.move .read) ++ []) = _
  rw [List.nil_append, List.append_nil]
  cases hblocked : r.link.blocked with
  | none =>
    have hstill : r.act (.move .unblock) = r := by simp [act, move, move?, hblocked]
    rw [hstill]
    exact hread (isFree_iff.2 ⟨hopen, hblocked⟩) hsent
  | some message =>
    obtain ⟨hworks, hroom⟩ : r.link.writer.failed = false ∧ r.link.writer.hasRoom = true := by
      simpa [Held, hopen, hblocked] using h
    have hlink : (r.act (.move .unblock)).link = { r.link with
        blocked := none
        writer := r.link.writer.put message } := by
      simp [act, move, move?, Link.offer, hblocked, hopen, hworks, hroom]
    rw [hlink]
    exact hread (by simp [isFree, hopen]) hsent

end History

namespace Journal

variable {host : String} {settings : Settings} {j : Journal}

/-- With one message too many for the queue, or with a message for a writer that has failed, the
connection is held. -/
theorem Inv.held_iff (h : j.Inv host settings) (hopen : j.history.link.isOpen = true) :
    j.history.link.Held ↔
      ¬ (j.history.link.waiting.length ≤ max 1 settings.commandCapacity.toNat ∧
        (j.history.link.writer.failed = true → j.history.link.blocked = none)) := by
  have hlength := h.length_queue
  rw [← h.capacity_eq, waiting, List.length_append]
  cases hblocked : j.history.link.blocked with
  | none => simp [Held, hopen, hblocked, hlength]
  | some message =>
    have hroom : j.history.link.writer.hasRoom = false ↔
        ¬ j.history.link.writer.queue.length + 1 ≤ j.history.link.writer.capacity := by
      rw [Writer.hasRoom, decide_eq_false_iff_not, Nat.lt_iff_add_one_le]
    cases hfailed : j.history.link.writer.failed with
    | false => simp [Held, hopen, hblocked, hfailed, hroom]
    | true => simp [Held, hopen, hblocked, hfailed]

/-- **As long as the messages not taken by the writer fit into its queue, the connection reads what
has arrived, whatever the writer does; with one more it reads nothing before the writer goes on.**
A message for a writer that has failed is not waited for: the connection ends. -/
theorem run_reads (host : String) (settings : Settings) (steps : List Step) :
    let r := ((start host settings).run steps).history
    r.link.isOpen = true → r.link.peer.sent ≠ [] →
      if r.link.waiting.length ≤ max 1 settings.commandCapacity.toNat ∧
          (r.link.writer.failed = true → r.link.blocked = none) then
        r.reads [.move .unblock, .move .read] = [r.link.peer.sent.take r.link.readSize]
      else
        ∀ events : List Event, (∀ event ∈ events, event.SparesWriter) → r.reads events = [] := by
  intro r hopen hsent
  have hheld := ((Inv.start host settings).run steps).held_iff hopen
  split
  · rename_i hfits
    exact History.reads_of_not_held hopen hsent fun h => hheld.1 h hfits
  · rename_i hfull
    exact fun events hspares => History.reads_of_held (hheld.2 hfull) hspares

/-- A request is sent and taken up. -/
def request : List Event :=
  [.send ⟨.bucketConfig, "/", "b", ""⟩, .move .take]

/-- While the far end takes nothing of the first write, some more requests are taken up, and a byte
arrives. -/
def stalled (more : Nat) : List Step :=
  List.map .event (.stall true :: request ++ .move .begin ::
    (List.replicate more request).flatten ++ [.arrive [72]])

/-- With room for one message, the connection reads while one waits, and not while two do. -/
theorem run_reads_twice :
    let settings : Settings := { commandCapacity := 1 }
    let one := ((start "h" settings).run (stalled 1)).history
    let two := ((start "h" settings).run (stalled 2)).history
    (one.link.isOpen = true ∧ one.link.peer.sent ≠ [] ∧
      one.reads [.move .unblock, .move .read] = [[72]]) ∧
    two.link.isOpen = true ∧ two.link.peer.sent ≠ [] ∧
      ∀ events : List Event, (∀ event ∈ events, event.SparesWriter) → two.reads events = [] := by
  refine ⟨⟨by decide +kernel, by decide +kernel, ?_⟩, by decide +kernel, by decide +kernel, ?_⟩
  · have hreads := run_reads "h" { commandCapacity := 1 } (stalled 1) (by decide +kernel)
      (by decide +kernel)
    rw [if_pos (by decide +kernel)] at hreads
    exact hreads.trans (by decide +kernel)
  · have hreads := run_reads "h" { commandCapacity := 1 } (stalled 2) (by decide +kernel)
      (by decide +kernel)
    rwa [if_neg (by decide +kernel)] at hreads

/-- A connection reads what has arrived, and needs nothing of the writer for it. -/
def ReadsAlone : Prop :=
  ∀ (host : String) (settings : Settings) (steps : List Step),
    let r := ((start host settings).run steps).history
    r.link.isOpen = true → r.link.peer.sent ≠ [] →
      ∃ events : List Event, (∀ event ∈ events, event.SparesWriter) ∧ r.reads events ≠ []

/-- Three requests and a far end that takes none of them: what arrives is not read. -/
theorem not_readsAlone : ¬ ReadsAlone := by
  intro hreads
  obtain ⟨events, hspares, hread⟩ :=
    hreads "h" { commandCapacity := 1 } (stalled 2) (by decide +kernel) (by decide +kernel)
  refine hread (History.reads_of_held ?_ hspares)
  decide +kernel

end Journal

end Link

end ClusterLink
