import ClusterLink.Session

/-!
# What happens to a session

An `Event` is one thing that can happen to a session, in any order: requests are
submitted, frames come, whether they are in turn or not, the session is closed
or drained, and callers use their streams. A `History` is a session with what it
has been through; a fault does not end it.
-/

namespace ClusterLink

open Reply (Frame Header)

/-- The head that came last, after one more frame. -/
def Reply.Frame.heard : Frame → Option Header → Option Header
  | header h, _ => some h
  | _, before => before

namespace Session

/-- One thing that happens to a session. -/
inductive Event where
  /-- A request is submitted. -/
  | submit (t : Ticket)
  /-- A frame comes. -/
  | receive (frame : Frame)
  /-- The session is closed. -/
  | close
  /-- The requests that wait are forgotten. -/
  | drain
  /-- A caller subscribes to a stream. -/
  | subscribe (stream : Stream)
  /-- A caller gives up a subscription. -/
  | unsubscribe (sub : Subscription)
  /-- A caller asks a subscription for the next document. -/
  | next (sub : Subscription)
  deriving DecidableEq, Repr

/-- A session and what it has been through. -/
structure History where
  /-- The session. -/
  session : Session
  /-- The requests submitted, in order. -/
  submitted : List Ticket := []
  /-- The head that came last, in turn or not. -/
  heard : Option Header := none
  /-- The responses in order, each with the head that had come last. -/
  responses : List (Response × Option Header) := []
  /-- The faults in order. -/
  faults : List OutOfTurn := []
  deriving DecidableEq, Repr

namespace History

/-- The history of a new session. -/
def start (host : String) (settings : Settings) : History where
  session := { host := host, settings := settings }

/-- A frame comes, and what it leads to is noted. -/
def note (r : History) (frame : Frame) : Except OutOfTurn (Option Response) × Session → History
  | (.ok none, s) => { r with session := s, heard := frame.heard r.heard }
  | (.ok (some response), s) =>
    { r with
      session := s
      heard := frame.heard r.heard
      responses := r.responses ++ [(response, frame.heard r.heard)] }
  | (.error cause, s) =>
    { r with session := s, heard := frame.heard r.heard, faults := r.faults ++ [cause] }

section

variable (r : History) (frame : Frame) (result : Except OutOfTurn (Option Response) × Session)

theorem session_note : (r.note frame result).session = result.2 := by
  obtain ⟨_ | _ | _, _⟩ := result <;> rfl

theorem submitted_note : (r.note frame result).submitted = r.submitted := by
  obtain ⟨_ | _ | _, _⟩ := result <;> rfl

theorem prefix_faults_note : r.faults <+: (r.note frame result).faults := by
  obtain ⟨cause | _ | _, _⟩ := result
  · exact ⟨[cause], rfl⟩
  · exact List.prefix_rfl
  · exact List.prefix_rfl

/-- If a frame adds no fault, it is none. -/
theorem ne_error_of_faults_note (h : (r.note frame result).faults = r.faults) (cause : OutOfTurn) :
    result.1 ≠ .error cause := by
  rintro hcause
  obtain ⟨_, s⟩ := result
  subst hcause
  exact List.cons_ne_nil cause [] (List.append_right_eq_self.1 h)

end

/-- The history after one more event. -/
def act (r : History) : Event → History
  | .submit t => { r with session := (r.session.submit t).2, submitted := r.submitted ++ [t] }
  | .receive frame => r.note frame (r.session.receive frame)
  | .close => { r with session := r.session.close }
  | .drain => { r with session := r.session.drain.2 }
  | .subscribe stream =>
    { r with session := { r.session with hub := (r.session.hub.subscribe stream).2 } }
  | .unsubscribe sub =>
    { r with session := { r.session with hub := r.session.hub.unsubscribe sub } }
  | .next sub => { r with session := { r.session with hub := (r.session.hub.next sub).2.2 } }

/-- A fault stays. -/
theorem prefix_faults_act (r : History) (event : Event) : r.faults <+: (r.act event).faults := by
  cases event with
  | receive frame => exact r.prefix_faults_note frame _
  | _ => exact List.prefix_rfl

/-- The history after some events. -/
def run (r : History) (events : List Event) : History :=
  events.foldl act r

end History

end Session

end ClusterLink
