import ClusterLink.Proofs.Session.Gathering
import ClusterLink.Proofs.Session.Streaming

/-!
# What lasts in a session

The host and the settings of a session are given when it begins, and no frame changes
them (`sameClient_receive`).
-/

namespace ClusterLink

open Reply (Frame Header)

namespace Session

/-- The client is the same, and so is the host that it speaks to. -/
structure SameClient (s s' : Session) : Prop where
  /-- The host. -/
  host_eq : s'.host = s.host
  /-- The settings. -/
  settings_eq : s'.settings = s.settings

theorem SameClient.refl (s : Session) : SameClient s s :=
  ⟨rfl, rfl⟩

theorem SameClient.trans {s s' s'' : Session} (h : SameClient s s') (h' : SameClient s' s'') :
    SameClient s s'' :=
  ⟨h'.host_eq.trans h.host_eq, h'.settings_eq.trans h.settings_eq⟩

variable (s : Session)

theorem sameClient_openStream (code : UInt16) : SameClient s (s.openStream code).2 := by
  unfold openStream
  split
  · exact .refl s
  · dsimp only
    split <;> exact ⟨rfl, rfl⟩

theorem sameClient_yieldReply : SameClient s s.yieldReply := by
  unfold yieldReply
  split
  · exact .refl s
  · split <;> exact ⟨rfl, rfl⟩

theorem sameClient_start (head : Header) : SameClient s (s.start head).2 := by
  cases hqueue : s.queue with
  | nil =>
    rw [start_of_queue_eq_nil hqueue]
    exact .refl s
  | cons t rest =>
    cases hkind : t.request.kind.isStreaming with
    | false =>
      have hyield := sameClient_yieldReply { s with assembly := .start head }
      rw [start_of_ordinary hqueue hkind]
      exact ⟨hyield.host_eq, hyield.settings_eq⟩
    | true =>
      have hway : SameClient s (s.makeWay head) := ⟨host_makeWay s head, settings_makeWay s head⟩
      rw [start_of_streaming hqueue hkind]
      exact hway.trans (sameClient_openStream _ _)

theorem sameClient_gather (bytes : Bytes) : SameClient s (s.gather bytes).2 := by
  refine ⟨?_, settings_gather s bytes⟩
  cases hopen : s.assembly.isOpen with
  | false => rw [gather_of_not_isOpen hopen]
  | true =>
    obtain ⟨head, body, hassembly⟩ := Assembly.exists_of_isOpen hopen
    rw [gather_eq hassembly]
    show s.ascribed.host = s.host
    unfold ascribed
    split <;> rfl

theorem sameClient_finish : SameClient s s.finish.2 := by
  cases howns : s.streamOwns with
  | true =>
    rw [finish_of_owns howns]
    exact ⟨rfl, rfl⟩
  | false =>
    rw [finish_of_not_owns howns]
    split
    · exact .refl s
    · split <;> exact ⟨rfl, rfl⟩

/-- No frame changes the client. -/
theorem sameClient_receive (frame : Frame) : SameClient s (s.receive frame).2 := by
  refine receive_keeps ?_ ?_ ?_ (.refl s) frame
  · intro s' head h
    exact h.trans (sameClient_start s' head)
  · intro s' bytes h
    exact h.trans (sameClient_gather s' bytes)
  · intro s' h
    exact h.trans (sameClient_finish s')

end Session

end ClusterLink
