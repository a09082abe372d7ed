import ClusterLink.Proofs.Session.Publishing

/-!
# What a piece of a body does

A piece of a body goes behind what is left of the pieces before it. If a stream is open that
publishes, the documents that are then complete are published, and what stands behind them is
left; otherwise all is left. Then what is left is measured (`gather_eq`). So a body may come
in one piece or in several, as long as none is refused (`gather_append`).
-/

namespace ClusterLink

open Reply (Frame Header)
open Text

/-- A reply in progress has a head and a body. -/
theorem Assembly.exists_of_isOpen {a : Assembly} (h : a.isOpen = true) :
    ∃ head body, a = .gathering head body := by
  cases a with
  | gathering head body => exact ⟨head, body, rfl⟩
  | fresh => cases h
  | idle => cases h

theorem Outstanding.carried_ascribe {o : Outstanding} (h : o.carried.isSome = true) :
    o.ascribe.2.carried = none := by
  obtain ⟨t, ht⟩ := Option.isSome_iff_exists.1 h
  simp only [ascribe, ht]
  split <;> rfl

namespace Session

variable {s : Session} {head : Header} {body a : Bytes}

/-- What is said of a body when so many bytes of it are held. -/
def verdict (s : Session) (length : Nat) : Except OutOfTurn Unit :=
  if s.settings.maxBodySize.toNat < length then
    .error (.longBody length s.settings.maxBodySize.toNat)
  else .ok ()

/-- What a session leaves of a body: what the stream in progress does not publish. -/
def leaves (s : Session) (body : Bytes) : Bytes :=
  if s.isStreaming then (Document.split body).2 else body

/-- The session in which the request of the stream in progress is known. -/
def ascribed (s : Session) : Session :=
  match s.stream with
  | none => s
  | some stream =>
    let (ticket, outstanding) :=
      if s.outstanding.carried.isSome then s.outstanding.ascribe else (none, s.outstanding)
    { s with
      outstanding := outstanding
      stream := some { stream with ticket := ticket.getD stream.ticket } }

/-- The feeds after the documents of a body have been published. -/
def publish (s : Session) (body : Bytes) : Hub :=
  match s.stream.bind (·.feed) with
  | some i => s.hub.update i (Feed.publishAll (Document.split body).1)
  | none => s.hub

theorem verdict_of_le {length : Nat} (h : length ≤ s.settings.maxBodySize.toNat) :
    s.verdict length = .ok () :=
  if_neg (Nat.not_lt.2 h)

theorem verdict_of_lt {length : Nat} (h : s.settings.maxBodySize.toNat < length) :
    s.verdict length = .error (.longBody length s.settings.maxBodySize.toNat) :=
  if_pos h

theorem isOk_verdict (s : Session) (length : Nat) :
    (s.verdict length).isOk = false ↔ s.settings.maxBodySize.toNat < length := by
  by_cases h : s.settings.maxBodySize.toNat < length
  · rw [verdict_of_lt h]
    exact iff_of_true rfl h
  · rw [verdict_of_le (Nat.not_lt.1 h)]
    exact iff_of_false nofun h

/-- What is left of a body that goes on is what is left of the rest so far and the next piece. -/
theorem leaves_append (s : Session) (body more : Bytes) :
    s.leaves (body ++ more) = s.leaves (s.leaves body ++ more) := by
  unfold leaves
  split
  · rw [Document.split_append]
  · rfl

/-- What is passed on is published, and the rest is left. -/
theorem passOn_eq (s : Session) : s.passOn = { s.ascribed with
    assembly := s.assembly.withBody (s.leaves s.assembly.body)
    hub := s.publish s.assembly.body } := by
  have hsame : s.assembly.withBody s.assembly.body = s.assembly := by
    cases s.assembly <;> rfl
  rcases hstream : s.stream with _ | ⟨_ | feed, ticket, owns⟩
  · simp only [passOn, ascribed, publish, leaves, isStreaming, hstream, Option.bind_none,
      Option.isSome_none, Bool.false_eq_true, if_false, hsame]
    rw [← hstream]
  · simp only [passOn, ascribed, publish, leaves, isStreaming, hstream, Option.bind_some,
      Option.isSome_none, Bool.false_eq_true, if_false, hsame]
  · simp only [passOn, ascribed, publish, leaves, isStreaming, hstream, Option.bind_some,
      Option.isSome_some, if_true]
    rfl

theorem ascribed_eq (s : Session) (assembly : Assembly) (hub : Hub) :
    ascribed { s.ascribed with assembly := assembly, hub := hub } =
      { s.ascribed with assembly := assembly, hub := hub } := by
  rcases hstream : s.stream with _ | ⟨feed, ticket, owns⟩
  · simp only [ascribed, hstream]
  · by_cases hcarried : s.outstanding.carried.isSome = true
    · have hdown := Outstanding.carried_ascribe hcarried
      simp only [ascribed, hstream, hcarried, if_true, hdown, Option.isSome_none,
        Bool.false_eq_true, if_false, Option.getD_none]
    · simp only [ascribed, hstream, hcarried, Bool.false_eq_true, if_false, Option.getD_none]

theorem feed_ascribed (s : Session) : s.ascribed.stream.bind (·.feed) = s.stream.bind (·.feed) := by
  rcases hstream : s.stream with _ | stream
  · simp only [ascribed, hstream]
  · simp only [ascribed, hstream]
    rfl

theorem settings_ascribed (s : Session) : s.ascribed.settings = s.settings := by
  unfold ascribed
  split <;> rfl

/-- A piece of a body is published with what was left before it, the rest is left, and measured. -/
theorem gather_eq {head : Header} {body : Bytes} (h : s.assembly = .gathering head body)
    (bytes : Bytes) : s.gather bytes = (s.verdict (s.leaves (body ++ bytes)).length,
      { s.ascribed with
        assembly := .gathering head (s.leaves (body ++ bytes))
        hub := s.publish (body ++ bytes) }) := by
  have hgather : s.assembly.gather? bytes = some (.gathering head (body ++ bytes)) := by
    rw [h]
    rfl
  have hascribed : ascribed { s with assembly := .gathering head (body ++ bytes) } =
      { s.ascribed with assembly := .gathering head (body ++ bytes) } := by
    unfold ascribed
    dsimp only
    split <;> rfl
  simp only [gather, hgather, passOn_eq, hascribed, settings_ascribed]
  rfl

theorem gather_of_gathering (h : s.assembly = .gathering head body) (bytes : Bytes) :
    (s.gather bytes).1 = s.verdict (s.leaves (body ++ bytes)).length ∧
      (s.gather bytes).2.assembly = .gathering head (s.leaves (body ++ bytes)) ∧
      (s.gather bytes).2.hub = s.publish (body ++ bytes) := by
  rw [gather_eq h]
  exact ⟨rfl, rfl, rfl⟩

/-- A piece of no reply is refused. -/
theorem gather_of_not_isOpen (hopen : s.assembly.isOpen = false) (bytes : Bytes) :
    s.gather bytes = (.error .strayContent, s) := by
  have hnone : s.assembly.gather? bytes = none := by
    rw [← Option.not_isSome_iff_eq_none, Assembly.isSome_gather?, hopen]
    exact Bool.false_ne_true
  rw [gather, hnone]

/-- The bytes of a last frame are gathered first. If they are refused, the reply goes on; otherwise
it ends. -/
theorem receive_last_cases (s : Session) (b : UInt8) (bytes : Bytes) :
    (∃ cause, (s.gather (b :: bytes)).1 = .error cause ∧
        s.receive (.last (b :: bytes)) = (.error cause, (s.gather (b :: bytes)).2)) ∨
      (s.gather (b :: bytes)).1 = .ok () ∧
        s.receive (.last (b :: bytes)) = (s.gather (b :: bytes)).2.finish := by
  rw [receive]
  rcases s.gather (b :: bytes) with ⟨cause | _, s'⟩
  · exact .inl ⟨cause, rfl, rfl⟩
  · exact .inr ⟨rfl, rfl⟩

section

variable (s : Session) (bytes : Bytes)

theorem feed_gather : (s.gather bytes).2.stream.bind (·.feed) = s.stream.bind (·.feed) := by
  cases hopen : s.assembly.isOpen with
  | false => rw [gather_of_not_isOpen hopen]
  | true =>
    obtain ⟨head, body, hassembly⟩ := Assembly.exists_of_isOpen hopen
    rw [gather_eq hassembly]
    exact feed_ascribed s

theorem isStreaming_gather : (s.gather bytes).2.isStreaming = s.isStreaming := by
  rw [isStreaming, feed_gather, isStreaming]

theorem settings_gather : (s.gather bytes).2.settings = s.settings := by
  cases hopen : s.assembly.isOpen with
  | false => rw [gather_of_not_isOpen hopen]
  | true =>
    obtain ⟨head, body, hassembly⟩ := Assembly.exists_of_isOpen hopen
    rw [gather_eq hassembly]
    exact settings_ascribed s

end

/-- **A body may come in two pieces or in one**, as long as the first is not refused. -/
theorem gather_append (hok : (s.gather a).1 = .ok ()) (b : Bytes) :
    s.gather (a ++ b) = (s.gather a).2.gather b := by
  cases hopen : s.assembly.isOpen with
  | false =>
    rw [gather_of_not_isOpen hopen] at hok
    cases hok
  | true =>
    obtain ⟨head, body, hassembly⟩ := Assembly.exists_of_isOpen hopen
    have hfeed := feed_gather s a
    have hsettings := settings_gather s a
    have hascribed : (s.gather a).2.ascribed = (s.gather a).2 := by
      rw [gather_eq hassembly, ascribed_eq]
    have hleaves (bytes : Bytes) : (s.gather a).2.leaves bytes = s.leaves bytes := by
      rw [leaves, isStreaming_gather, leaves]
    obtain ⟨-, hheld, hhub⟩ := gather_of_gathering hassembly a
    have hpublish : (s.gather a).2.publish (s.leaves (body ++ a) ++ b) =
        s.publish (body ++ a ++ b) := by
      rw [publish, hfeed, hhub]
      unfold publish leaves isStreaming
      cases s.stream.bind (·.feed) with
      | none => rfl
      | some i =>
        simp only [Option.isSome_some, if_true]
        rw [Document.split_append (body ++ a) b, Hub.update_publishAll_append]
    rw [gather_eq hheld, hascribed, hleaves, hpublish, verdict, hsettings, ← leaves_append,
      gather_eq hassembly, gather_eq hassembly, ← List.append_assoc, verdict]

end Session

end ClusterLink
