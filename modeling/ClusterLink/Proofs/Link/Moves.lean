import ClusterLink.Link.Move

/-!
# When a move can be made

`Makes l m l'` says, move by move, when a part of a link can act and what comes of
it. It is just what `move?` computes (`move?_eq_some_iff`), and it is what proofs
about links go by.
-/

namespace ClusterLink

namespace Link

/-- What comes of a move that can be made. -/
inductive Makes (l : Link) : Move → Link → Prop where
  /-- The message that waits is given to the writer. -/
  | unblock {message : Bytes} : l.blocked = some message → l.isOpen = true →
      (l.writer.failed || l.writer.hasRoom) = true →
      Makes l .unblock ({ l with blocked := none }.offer message)
  /-- A request is taken up. -/
  | accept {t : Ticket} {rest : List Command} : l.isFree = true → l.commands = .send t :: rest →
      Makes l .take ({ l with commands := rest }.accept t)
  /-- The connection ends on demand. -/
  | shutdown {rest : List Command} : l.isFree = true → l.commands = .shutdown :: rest →
      Makes l .take l.close
  /-- The connection ends because nobody will ask for anything any more. -/
  | released : l.isFree = true → l.commands = [] → l.released = true → l.admissions = [] →
      Makes l .take l.close
  /-- Some bytes are taken in. -/
  | read : l.isFree = true → l.peer.sent ≠ [] →
      Makes l .read ({ l with peer := { l.peer with sent := l.peer.sent.drop l.readSize } }.read
        (l.peer.sent.take l.readSize))
  /-- The connection ends because nothing will arrive any more. -/
  | ended : l.isFree = true → l.peer.sent = [] → l.peer.ended = true → Makes l .read l.close
  /-- The connection ends because the writer has failed. -/
  | notice : l.isFree = true → l.writer.failed = true → Makes l .notice l.close
  /-- A write begins. -/
  | begin {writer : Writer} : l.writer.begin? = some writer →
      Makes l .begin { l with writer := writer }
  /-- A write fails. -/
  | fail {bytes : Bytes} : l.writer.writing = some bytes → l.peer.refuses = true →
      Makes l .write { l with writer := l.writer.fail }
  /-- A write is done. -/
  | write {bytes : Bytes} : l.writer.writing = some bytes → l.peer.refuses = false →
      l.peer.stalled = false →
      Makes l .write { l with
        writer := l.writer.done
        peer := { l.peer with received := l.peer.received ++ bytes } }
  /-- A command finds room. -/
  | letIn {command : Command} {rest : List Command} : l.admissions = command :: rest →
      l.commands.length < l.capacity →
      Makes l .letIn { l with commands := l.commands ++ [command], admissions := rest }
  /-- A caller is told that the connection has ended. -/
  | tell {caller : Nat} {rest : List Nat} : l.untold = caller :: rest →
      Makes l .tell ({ l with untold := rest }.answer caller .closed)

variable {l l' : Link} {m : Move}

theorem makes_of_move? (h : l.move? m = some l') : l.Makes m l' := by
  cases m with
  | unblock =>
    simp only [move?] at h
    split at h
    · cases h
    · rename_i message hblocked
      split at h
      · rename_i hcan
        cases h
        rw [Bool.and_eq_true] at hcan
        exact .unblock hblocked hcan.1 hcan.2
      · cases h
  | take =>
    simp only [move?] at h
    split at h
    · cases h
    · rename_i hfree
      rw [Bool.not_eq_true', Bool.not_eq_false] at hfree
      split at h
      · rename_i t rest hcommands
        cases h
        exact .accept hfree hcommands
      · rename_i rest hcommands
        cases h
        exact .shutdown hfree hcommands
      · rename_i hcommands
        split at h
        · rename_i hnone
          cases h
          rw [Bool.and_eq_true, List.isEmpty_iff] at hnone
          exact .released hfree hcommands hnone.1 hnone.2
        · cases h
  | read =>
    simp only [move?] at h
    split at h
    · cases h
    · rename_i hfree
      rw [Bool.not_eq_true', Bool.not_eq_false] at hfree
      split at h
      · rename_i hempty
        split at h
        · rename_i hended
          cases h
          exact .ended hfree (List.isEmpty_iff.1 hempty) hended
        · cases h
      · rename_i hsome
        cases h
        exact .read hfree (by simpa using hsome)
  | notice =>
    simp only [move?] at h
    split at h
    · rename_i hcan
      cases h
      rw [Bool.and_eq_true] at hcan
      exact .notice hcan.1 hcan.2
    · cases h
  | begin =>
    obtain ⟨writer, hwriter, rfl⟩ := Option.map_eq_some_iff.1 h
    exact .begin hwriter
  | write =>
    simp only [move?] at h
    split at h
    · cases h
    · rename_i bytes hwriting
      split at h
      · rename_i hrefuses
        cases h
        exact .fail hwriting hrefuses
      · rename_i hrefuses
        split at h
        · cases h
        · rename_i hstalled
          cases h
          exact .write hwriting (by simpa using hrefuses) (by simpa using hstalled)
  | letIn =>
    simp only [move?] at h
    split at h
    · cases h
    · rename_i command rest hadmissions
      split at h
      · rename_i hroom
        cases h
        exact .letIn hadmissions hroom
      · cases h
  | tell =>
    rw [move?, tell?] at h
    split at h
    · cases h
    · rename_i caller rest huntold
      cases h
      exact .tell huntold

/-- A move can be made just when its part can act. -/
theorem move?_eq_some_iff : l.move? m = some l' ↔ l.Makes m l' := by
  constructor
  · exact makes_of_move?
  · intro h
    cases h with
    | unblock hblocked hopen hcan => simp [move?, hblocked, hopen, hcan]
    | accept hfree hcommands => simp [move?, hfree, hcommands]
    | shutdown hfree hcommands => simp [move?, hfree, hcommands]
    | released hfree hcommands hreleased hadmissions =>
      simp [move?, hfree, hcommands, hreleased, hadmissions]
    | read hfree hsent => simp [move?, hfree, hsent]
    | ended hfree hsent hended => simp [move?, hfree, hsent, hended]
    | notice hfree hfailed => simp [move?, hfree, hfailed]
    | begin hwriter => simp [move?, hwriter]
    | fail hwriting hrefuses => simp [move?, hwriting, hrefuses]
    | write hwriting hrefuses hstalled => simp [move?, hwriting, hrefuses, hstalled]
    | letIn hadmissions hroom => simp [move?, hadmissions, hroom]
    | tell huntold => simp [move?, tell?, huntold]

end Link

end ClusterLink
