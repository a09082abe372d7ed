import ClusterLink.Link.Basic

/-!
# What happens in a link

`Link.move?` says when each part of a link can act and what comes of it.
`Link.settle` lets the parts act until none of them can, always the first in
the order of `Move.all` that can. Every move uses up some of the work at hand
(`load_lt_of_move?`), so that ends, nothing is left to do (`next?_settle`), and
nobody is left to tell of the end of the connection (`untold_settle`).
-/

namespace ClusterLink

namespace Link

/-- A step of one part of a link. -/
inductive Move where
  /-- The connection gives the blocked message to the writer. -/
  | unblock
  /-- The connection takes up a command, or sees that no more will come. -/
  | take
  /-- The connection reads, or sees that no more will arrive. -/
  | read
  /-- The connection sees that the writer has failed. -/
  | notice
  /-- The writer begins a write. -/
  | begin
  /-- The writer ends a write. -/
  | write
  /-- A waiting command finds room. -/
  | letIn
  /-- A caller is told that the connection has ended. -/
  | tell
  deriving DecidableEq, Repr

/-- All moves, the most urgent first. -/
def Move.all : List Move :=
  [unblock, take, read, notice, tell, begin, write, letIn]

/-- Whether the connection goes on and waits for nothing. -/
def isFree (l : Link) : Bool :=
  l.isOpen && l.blocked.isNone

/-- What comes of a move, if it can be made. -/
def move? (l : Link) : Move → Option Link
  | .unblock =>
    match l.blocked with
    | none => none
    | some message =>
      if l.isOpen && (l.writer.failed || l.writer.hasRoom) then
        some ({ l with blocked := none }.offer message)
      else none
  | .take =>
    if !l.isFree then none
    else
      match l.commands with
      | .send t :: rest => some ({ l with commands := rest }.accept t)
      | .shutdown :: _ => some l.close
      | [] => if l.released && l.admissions.isEmpty then some l.close else none
  | .read =>
    if !l.isFree then none
    else if l.peer.sent.isEmpty then if l.peer.ended then some l.close else none
    else
      some ({ l with peer := { l.peer with sent := l.peer.sent.drop l.readSize } }.read
        (l.peer.sent.take l.readSize))
  | .notice => if l.isFree && l.writer.failed then some l.close else none
  | .begin => l.writer.begin?.map fun writer => { l with writer := writer }
  | .write =>
    match l.writer.writing with
    | none => none
    | some bytes =>
      if l.peer.refuses then some { l with writer := l.writer.fail }
      else if l.peer.stalled then none
      else some { l with
        writer := l.writer.done
        peer := { l.peer with received := l.peer.received ++ bytes } }
  | .letIn =>
    match l.admissions with
    | [] => none
    | command :: rest =>
      if l.commands.length < l.capacity then
        some { l with commands := l.commands ++ [command], admissions := rest }
      else none
  | .tell => l.tell?

/-- The work at hand. A command costs more the further it is from being written; its caller may have
to be told something in the end. -/
def load (l : Link) : Nat :=
  6 * l.admissions.length + 5 * l.commands.length + (if l.blocked.isSome then 3 else 0)
    + l.writer.load + l.peer.sent.length + (if l.isOpen then 1 else 0)
    + l.connection.callers.length + l.untold.length

/-! ## Every move uses up work -/

@[simp] theorem load_answer (l : Link) (caller : Nat) (outcome : Outcome) :
    (l.answer caller outcome).load = l.load := by
  unfold answer
  split <;> rfl

@[simp] theorem load_deliver (l : Link) (deliveries : List Delivery) :
    (l.deliver deliveries).load = l.load := by
  unfold deliver
  induction deliveries generalizing l with
  | nil => rfl
  | cons d rest ih => rw [List.foldl_cons, ih, load_answer]

/-- Of an ended connection only the writer, what arrives and those who are still to be told are
left. -/
theorem load_close (l : Link) : l.close.load = l.writer.load + l.peer.sent.length +
    (l.connection.callers.length +
      ((l.commands ++ l.admissions).filterMap Command.caller?).length) := by
  simp [load, close, Connection.close]

theorem load_close_add_le (l : Link) : l.close.load + (if l.isOpen then 1 else 0) ≤ l.load := by
  have hcallers := List.length_filterMap_le Command.caller? (l.commands ++ l.admissions)
  rw [List.length_append] at hcallers
  rw [load_close, load]
  omega

theorem load_close_le (l : Link) : l.close.load ≤ l.load :=
  Nat.le_trans (Nat.le_add_right _ _) l.load_close_add_le

theorem load_close_lt {l : Link} (h : l.isOpen = true) : l.close.load < l.load := by
  have hclose := l.load_close_add_le
  rwa [if_pos h] at hclose

theorem load_lt_of_tell? {l l' : Link} (h : l.tell? = some l') : l'.load < l.load := by
  unfold tell? at h
  split at h
  · cases h
  · rename_i caller rest huntold
    cases h
    rw [load_answer]
    simp only [load, huntold, List.length_cons]
    omega

theorem load_offer_le {l : Link} (message : Bytes) (hb : l.blocked = none) :
    (l.offer message).load ≤ l.load + 3 := by
  unfold offer
  split
  · exact Nat.le_trans l.load_close_le (Nat.le_add_right _ _)
  · split
    · simp only [load, Writer.load_put]
      omega
    · simp only [load, hb, Option.isSome_some, Option.isSome_none, if_true]
      simp only [Bool.false_eq_true, if_false]
      omega

theorem load_offer_lt {l : Link} (message : Bytes)
    (h : l.writer.failed = true ∨ l.writer.hasRoom = true) :
    (l.offer message).load < l.load + 3 := by
  unfold offer
  split
  · exact Nat.lt_of_le_of_lt l.load_close_le (Nat.lt_add_of_pos_right (by decide))
  · rename_i hf
    rw [if_pos (h.resolve_left hf)]
    simp only [load, Writer.load_put]
    omega

theorem load_accept_le {l : Link} (t : Ticket) (hb : l.blocked = none) :
    (l.accept t).load ≤ l.load + 4 := by
  have hoffer := load_offer_le
    (l := { l with connection := (l.connection.submit t).2 }) (l.connection.submit t).1.bytes hb
  have hcallers : (l.connection.submit t).2.callers.length = l.connection.callers.length + 1 :=
    List.length_append
  simp only [load, hcallers] at hoffer ⊢
  exact Nat.le_trans hoffer (by omega)

theorem load_read_le (l : Link) (data : Bytes) : (l.read data).load ≤ l.load := by
  have hcallers := l.connection.length_callers_receive_le data
  have hload : { l with connection := (l.connection.receive data).2.2 }.load ≤ l.load := by
    simp only [load]
    omega
  unfold read
  simp only
  split
  · refine Nat.le_trans (load_close_le _) ?_
    rwa [load_deliver]
  · rwa [load_deliver]

theorem isFree_iff {l : Link} : l.isFree = true ↔ l.isOpen = true ∧ l.blocked = none := by
  simp [isFree]

theorem load_lt_of_move? {l l' : Link} {m : Move} (h : l.move? m = some l') :
    l'.load < l.load := by
  cases m with
  | unblock =>
    simp only [move?] at h
    split at h
    · simp at h
    · rename_i message hb
      split at h
      · rename_i hc
        simp only [Bool.and_eq_true, Bool.or_eq_true] at hc
        simp only [Option.some.injEq] at h
        subst h
        have := load_offer_lt (l := { l with blocked := none }) message hc.2
        simp only [load, hb, Option.isSome_some, Option.isSome_none, if_true] at this ⊢
        simp only [Bool.false_eq_true, if_false] at this
        omega
      · simp at h
  | take =>
    simp only [move?] at h
    split at h
    · simp at h
    · rename_i hf
      simp only [Bool.not_eq_true', Bool.not_eq_false, isFree_iff] at hf
      split at h
      · rename_i t rest hcs
        simp only [Option.some.injEq] at h
        subst h
        have := load_accept_le (l := { l with commands := rest }) t hf.2
        simp only [load, hcs, List.length_cons] at this ⊢
        omega
      · simp only [Option.some.injEq] at h
        subst h
        exact load_close_lt hf.1
      · split at h
        · simp only [Option.some.injEq] at h
          subst h
          exact load_close_lt hf.1
        · simp at h
  | read =>
    simp only [move?] at h
    split at h
    · simp at h
    · rename_i hf
      simp only [Bool.not_eq_true', Bool.not_eq_false, isFree_iff] at hf
      split at h
      · split at h
        · simp only [Option.some.injEq] at h
          subst h
          exact load_close_lt hf.1
        · simp at h
      · rename_i hs
        simp only [Option.some.injEq] at h
        subst h
        refine Nat.lt_of_le_of_lt (load_read_le _ _) ?_
        have := List.length_pos_iff.2 (by simpa using hs : l.peer.sent ≠ [])
        have := l.readSize_pos
        simp only [load, List.length_drop]
        omega
  | notice =>
    simp only [move?] at h
    split at h
    · rename_i hc
      simp only [Bool.and_eq_true, isFree_iff] at hc
      simp only [Option.some.injEq] at h
      subst h
      exact load_close_lt hc.1.1
    · simp at h
  | begin =>
    simp only [move?, Option.map_eq_some_iff] at h
    obtain ⟨w, hw, rfl⟩ := h
    have := Writer.load_lt_of_begin? hw
    simp only [load]
    omega
  | write =>
    simp only [move?] at h
    split at h
    · simp at h
    · rename_i bytes hb
      split at h
      · simp only [Option.some.injEq] at h
        subst h
        have := Writer.load_fail hb
        simp only [load]
        omega
      · split at h
        · simp at h
        · simp only [Option.some.injEq] at h
          subst h
          have := Writer.load_done hb
          simp only [load]
          omega
  | letIn =>
    simp only [move?] at h
    split at h
    · simp at h
    · rename_i command rest ha
      split at h
      · simp only [Option.some.injEq] at h
        subst h
        simp only [load, ha, List.length_append, List.length_cons, List.length_nil]
        omega
      · simp at h
  | tell => exact load_lt_of_tell? h

/-- What comes of the most urgent move that can be made. -/
def next? (l : Link) : Option Link :=
  Move.all.findSome? l.move?

theorem load_lt_of_next? {l l' : Link} (h : l.next? = some l') : l'.load < l.load := by
  obtain ⟨_, m, _, _, hm, _⟩ := List.findSome?_eq_some_iff.1 h
  exact load_lt_of_move? hm

/-- Lets every part act until none can. -/
def settle (l : Link) : Link :=
  match h : l.next? with
  | none => l
  | some l' =>
    have := load_lt_of_next? h
    l'.settle
termination_by l.load

/-- In a settled link no part can act. -/
theorem next?_settle (l : Link) : l.settle.next? = none := by
  fun_induction settle l with
  | case1 l h => exact h
  | case2 l l' h _ ih => exact ih

/-- In a settled link nobody is still to be told that the connection has ended. -/
theorem untold_settle (l : Link) : l.settle.untold = [] := by
  have htell : l.settle.tell? = none :=
    List.findSome?_eq_none_iff.1 l.next?_settle .tell (by decide)
  unfold tell? at htell
  split at htell
  · assumption
  · cases htell

end Link

end ClusterLink
