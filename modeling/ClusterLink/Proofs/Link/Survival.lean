import ClusterLink.Proofs.Connection.Due
import ClusterLink.Proofs.Link.Answers
import ClusterLink.Proofs.Link.Reads
import ClusterLink.Proofs.Reply.Behind

/-!
# Whole replies and what comes behind them

Bytes become frames one read at a time, and a read that turns out to be malformed
brings no frames at all. So what stands behind a whole reply matters, but only what is
read together with its end: the reply reaches its caller if a new framer accepts these
bytes, and otherwise the caller is told that the connection has ended
(`run_survives`). That a whole reply reaches its caller whatever comes behind it is
not true (`not_repliesSurvive`).

## The argument

As long as the end of the reply has not been read the connection is `Owing`: its framer
is on track, and its session is due the frames to come. No event but a read changes
that, unless the connection ends, and a read answers the first requests that are due.
The read with the end of the reply is taken in as the rest of the replies and, by a new
framer, what stands behind them.
-/

namespace ClusterLink

open Reply (Frame Framer OnTrack Written)

namespace Link

/-- What is due stays so when nothing is read. -/
theorem Untouched.due {c c' : Connection} {frames : List Frame} {due : List (Ticket × Written)}
    (h : Untouched c c') (hdue : c.session.Due frames due) : c'.session.Due frames due := by
  cases h with
  | same => exact hdue
  | submit t => exact hdue.submit t
  | withHub hub => exact hdue.of_hub hub

namespace History

variable {r : History} {event : Event} {data : Bytes}

/-- The bytes of some reads, up to the read that brings byte number `n`. -/
def upTo : List Bytes → Nat → Bytes
  | [], _ => []
  | read :: rest, n => if n ≤ read.length then read else read ++ upTo rest (n - read.length)

/-! ### The invariant -/

/-- The end of the last reply that is due is still to be read, with the bytes in front of it. -/
structure Owing (r : History) (limit : Nat) (wire : Bytes) (due : List (Ticket × Written)) :
    Prop where
  /-- The connection goes on. -/
  work : r.AtWork
  /-- The bytes lie ahead of the framer, and their frames are due. -/
  track : ∃ owed, OnTrack limit r.link.connection.framer wire owed ∧
    r.link.connection.session.Due (Frame.merge owed) due

variable {limit : Nat} {wire : Bytes} {due : List (Ticket × Written)}

/-- As long as bytes are to be read, something is due. -/
theorem Owing.due_ne_nil (h : r.Owing limit wire due) (hwire : wire ≠ []) : due ≠ [] := by
  obtain ⟨owed, htrack, hdue⟩ := h.track
  refine hdue.ne_nil fun hmerge => hwire ?_
  have hahead := htrack.ahead
  rw [Frame.eq_nil_of_merge hmerge] at hahead
  exact (List.append_eq_nil_iff.1 hahead.eq_nil.2).2

/-- Nothing changes what is due but a read, or the end of the connection. -/
theorem Owing.act (h : r.Owing limit wire due) (hread : r.link.readBy event = []) :
    (r.act event).produced = r.produced ∧
      ((r.act event).link.isOpen = false ∨ (r.act event).Owing limit wire due) := by
  obtain ⟨hproduced, hunread⟩ := unread_act hread
  refine ⟨hproduced, ?_⟩
  cases hunread with
  | ends hopen _ _ => exact .inl hopen
  | goesOn hopen huntouched =>
    rcases h.work.act event with hwork | hended
    · obtain ⟨owed, htrack, hdue⟩ := h.track
      refine .inr ⟨hwork, owed, ?_, huntouched.due hdue⟩
      rw [huntouched.framer_eq]
      exact htrack
    · exact .inl hended.isOpen

/-- A read that brings no more than what is due answers the first requests that are due. -/
theorem Owing.read_within (h : r.Owing limit (data ++ wire) due) (hfree : r.link.isFree = true)
    (hsent : r.link.peer.sent ≠ []) (hdata : r.link.peer.sent.take r.link.readSize = data) :
    ∃ done left responses, due = done ++ left ∧ List.Forall₂ Answered done responses ∧
      (r.act (.move .read)).produced = r.produced ++ responses ∧
      (r.act (.move .read)).Owing limit wire left := by
  obtain ⟨hwork, owed, htrack, hdue⟩ := h
  have hextend : OnTrack limit (r.link.connection.framer.extend data) wire owed :=
    ⟨htrack.limit_eq, by simpa [Framer.extend] using htrack.ahead⟩
  obtain ⟨first, framer, rest, hpush, -, htrack', hmerge⟩ := hextend.drain
  rw [← Framer.push_eq_drain] at hpush
  rw [hmerge] at hdue
  obtain ⟨done, left, responses, rfl, hdone, hfault, hleft, hrespond⟩ :=
    (hwork.matched.of_framer framer).pays hdue
  have hwhole := hrespond []
  rw [List.append_nil, Session.respond, List.append_nil] at hwhole
  obtain ⟨hproduced, hgoesOn⟩ := act_read_of_ok hfree hsent hdata hpush
  obtain ⟨hconnection, hopen⟩ := hgoesOn hfault
  refine ⟨done, left, responses, rfl, hdone, hproduced.trans (congrArg _ hwhole), ?_⟩
  rcases hwork.act (.move .read) with hwork' | hended
  · refine ⟨hwork', rest, ?_, ?_⟩
    · rw [hconnection, Connection.framer_takeAll]
      exact htrack'
    · rw [hconnection]
      exact hleft
  · rw [hended.isOpen, hwork.isOpen] at hopen
    cases hopen

/-- A read that brings all that is due, and more, answers every request that is due if a new framer
accepts the rest of it. Otherwise it brings nothing. -/
theorem Owing.read_behind (h : r.Owing limit wire due) (hfree : r.link.isFree = true)
    (hsent : r.link.peer.sent ≠ [])
    (hdata : r.link.peer.sent.take r.link.readSize = wire ++ data) :
    ((({ limit := limit } : Framer).push data).1.isOk = true →
      ∃ responses, List.Forall₂ Answered due responses ∧
        r.produced ++ responses <+: (r.act (.move .read)).produced) ∧
    ((({ limit := limit } : Framer).push data).1.isOk = false →
      (r.act (.move .read)).produced = r.produced ∧
        (r.act (.move .read)).link.isOpen = false) := by
  obtain ⟨hwork, owed, htrack, hdue⟩ := h
  obtain ⟨first, hmerge, hpush⟩ := htrack.drain_behind data
  rcases hbehind : ({ limit := limit } : Framer).push data with ⟨cause | frames, framer⟩
  · rw [hbehind] at hpush
    refine ⟨?_, fun _ => act_read_of_error hfree hsent hdata hpush⟩
    rintro ⟨⟩
  · rw [hbehind] at hpush
    refine ⟨fun _ => ?_, ?_⟩
    · rw [← hmerge, ← List.append_nil first] at hdue
      obtain ⟨done, left, responses, rfl, hdone, -, hleft, hrespond⟩ :=
        (hwork.matched.of_framer framer).pays hdue
      obtain rfl := hleft.eq_nil
      obtain ⟨hproduced, -⟩ := act_read_of_ok hfree hsent hdata hpush
      refine ⟨responses, by rwa [List.append_nil], ?_⟩
      rw [hproduced, hrespond frames, ← List.append_assoc]
      exact List.prefix_append _ _
    · rintro ⟨⟩

/-! ### The fate of what is due -/

/-- Whether all requests that are due are answered depends on what is read together with the end of
the last reply. -/
theorem Owing.run (h : r.Owing limit wire due) (hwire : wire ≠ []) {events : List Event}
    (hreads : wire <+: (r.reads events).flatten) :
    ((({ limit := limit } : Framer).push
        ((upTo (r.reads events) wire.length).drop wire.length)).1.isOk = true →
      ∃ responses, List.Forall₂ Answered due responses ∧
        r.produced ++ responses <+: (r.run events).produced) ∧
    ((({ limit := limit } : Framer).push
        ((upTo (r.reads events) wire.length).drop wire.length)).1.isOk = false →
      (r.run events).link.isOpen = false ∧
        (r.run events).produced.length < r.produced.length + due.length) := by
  induction events generalizing r wire due with
  | nil => exact absurd (List.prefix_nil.1 hreads) hwire
  | cons event events ih =>
    rcases r.link.readBy_cases event with hread | ⟨rfl, hfree, hsent, hread⟩
    · obtain ⟨hproduced, hended | hact⟩ := h.act hread
      · -- nothing can be read any more
        obtain ⟨hnone, -, -⟩ := run_of_ended hended events
        rw [reads, hread, hnone] at hreads
        exact absurd (List.prefix_nil.1 hreads) hwire
      · rw [reads, hread, List.nil_append] at hreads ⊢
        rw [← hproduced]
        exact ih hact hwire hreads
    · generalize hdata : r.link.peer.sent.take r.link.readSize = data at hread
      rw [reads, hread, List.singleton_append, List.flatten_cons] at hreads
      rw [reads, hread, List.singleton_append, upTo]
      by_cases hshort : data.length < wire.length
      · -- the end of the last reply is still to come
        obtain ⟨left, rfl⟩ := List.prefix_of_prefix_length_le (List.prefix_append data _) hreads
          (Nat.le_of_lt hshort)
        have hleft : left ≠ [] := by
          rintro rfl
          simp at hshort
        obtain ⟨done, due', responses, rfl, hdone, hproduced, hact⟩ :=
          h.read_within hfree hsent hdata
        obtain ⟨hok, herror⟩ := ih hact hleft ((List.prefix_append_right_inj data).1 hreads)
        have hbehind (rest : List Bytes) :
            (data ++ upTo rest ((data ++ left).length - data.length)).drop (data ++ left).length =
              (upTo rest left.length).drop left.length := by
          rw [List.length_append, Nat.add_sub_cancel_left, ← List.drop_drop,
            List.drop_left]
        rw [if_neg (Nat.not_le.2 hshort), hbehind]
        refine ⟨fun haccepts => ?_, fun hrefuses => ?_⟩
        · obtain ⟨more, hmore, hgrows⟩ := hok haccepts
          refine ⟨responses ++ more, List.rel_append hdone hmore, ?_⟩
          rwa [hproduced, List.append_assoc] at hgrows
        · obtain ⟨hopen, hlength⟩ := herror hrefuses
          refine ⟨hopen, ?_⟩
          rw [hproduced] at hlength
          simp only [List.length_append, ← hdone.length_eq] at hlength ⊢
          exact Nat.lt_of_lt_of_eq hlength (Nat.add_assoc _ _ _)
      · -- the end of the last reply comes now
        have hlong := Nat.not_lt.1 hshort
        obtain ⟨behind, rfl⟩ :=
          List.prefix_of_prefix_length_le hreads (List.prefix_append _ _) hlong
        obtain ⟨hok, herror⟩ := h.read_behind hfree hsent hdata
        rw [if_pos hlong, List.drop_left]
        refine ⟨fun haccepts => ?_, fun hrefuses => ?_⟩
        · obtain ⟨responses, hresponses, hgrows⟩ := hok haccepts
          exact ⟨responses, hresponses, hgrows.trans (grows_run _ events).2⟩
        · obtain ⟨hproduced, hopen⟩ := herror hrefuses
          obtain ⟨-, hopen', hproduced'⟩ := run_of_ended hopen events
          refine ⟨hopen', ?_⟩
          rw [show (r.run (Event.move .read :: events)).produced = r.produced from
            hproduced'.trans hproduced]
          exact Nat.lt_add_of_pos_right (List.length_pos_iff.2 (h.due_ne_nil hwire))

variable {settings : Settings}

/-! ### Whole replies -/

/-- Whole replies come to the requests that a new link has taken up first, and then something
else. -/
structure Receives (host : String) (settings : Settings) (before after : List Event)
    (due : List (Ticket × Written)) (junk : Bytes) : Prop where
  /-- Nothing has been read when the requests are taken up. -/
  unread : (start host settings).reads before = []
  /-- The requests are those taken up first. -/
  accepted : due.map (·.1) <+: ((start host settings).run before).accepted
  /-- They are ordinary ones, and the bodies of the replies are not too long. -/
  fair : Session.Fair settings.maxBodySize.toNat due
  /-- Nor are the header blocks and the lines between chunks. -/
  fits : ∀ p ∈ due, p.2.Fits settings.maxHeaderSize.toNat
  /-- All that is read is the replies and what stands behind them. -/
  reads : (((start host settings).run before).reads after).flatten =
    due.flatMap (·.2.wire) ++ junk

/-- What is read together with byte number `n` and stands behind it. -/
def behind (reads : List Bytes) (n : Nat) : Bytes :=
  (upTo reads n).drop n

/-- When nothing has been read, the requests that have been taken up wait. -/
theorem AtWork.queue_eq (h : r.AtWork) (hproduced : r.produced = []) :
    r.link.connection.session.queue = r.accepted := by
  obtain ⟨done, haccepted, hkinds, -⟩ := h.answers
  rw [hproduced] at hkinds
  cases hkinds
  exact haccepted.symm

/-- Replies that come to a new link are due. -/
theorem Receives.owing {host : String} {before after : List Event}
    {due first rest : List (Ticket × Written)} {junk : Bytes}
    (h : Receives host settings before after due junk) (hdue : due = first ++ rest)
    (hwork : ((start host settings).run before).AtWork) :
    ((start host settings).run before).Owing settings.maxHeaderSize.toNat
      (first.flatMap (·.2.wire)) first := by
  obtain ⟨hblank, hproduced⟩ := Blank.run (r := start host settings) ⟨rfl, rfl, rfl⟩ h.unread
  have hfits : ∀ w ∈ first.map (·.2), w.Fits settings.maxHeaderSize.toNat := by
    intro w hw
    obtain ⟨p, hp, rfl⟩ := List.mem_map.1 hw
    exact h.fits p (hdue ▸ List.mem_append_left rest hp)
  obtain ⟨owed, hahead, hmerge⟩ := Written.ahead hfits
  rw [List.flatMap_map] at hahead hmerge
  refine ⟨hwork, owed, ⟨?_, ?_⟩, ?_⟩
  · rw [hblank.framer_eq]
  · rw [hblank.framer_eq]
    exact hahead
  · rw [hmerge]
    refine .between hblank.stream_eq ?_ ?_
    · rw [hwork.queue_eq hproduced]
      refine .trans ?_ h.accepted
      rw [hdue, List.map_append]
      exact List.prefix_append _ _
    · rw [hblank.settings_eq]
      exact fun p hp => h.fair p (hdue ▸ List.mem_append_left rest hp)

/-- Some bytes are sent for every reply. -/
theorem wire_ne_nil (w : Written) : w.wire ≠ [] := by
  intro hwire
  have hlength := congrArg List.length hwire
  simp [Written.wire, Reply.blockEnd] at hlength

/-- What belongs to an element of the second list belongs to one of the first. -/
theorem exists_of_forall₂ {α β : Type} {R : α → β → Prop} {xs : List α} {ys : List β} {i : Nat}
    {y : β} (h : List.Forall₂ R xs ys) (hy : ys[i]? = some y) : ∃ x, xs[i]? = some x ∧ R x y := by
  obtain ⟨hlt, rfl⟩ := List.getElem?_eq_some_iff.1 hy
  have hlt' : i < xs.length := h.length_eq ▸ hlt
  exact ⟨xs[i], List.getElem?_eq_getElem hlt', h.get hlt' hlt⟩

/-- The caller of a request gets the response that was produced in its place. -/
theorem Accounted.hears_response (h : r.Accounted) {i : Nat} {t : Ticket} {response : Response}
    (ht : r.accepted[i]? = some t) (hresponse : r.produced[i]? = some response) :
    r.link.Hears t.id [.response response] := by
  obtain ⟨done, rest, hsplit, hhears, -⟩ := h.answered
  obtain ⟨t', ht', -, hhears'⟩ := exists_of_forall₂ hhears hresponse
  rw [hsplit, List.getElem?_append_left (List.getElem?_eq_some_iff.1 ht').1, ht'] at ht
  obtain rfl := Option.some.inj ht
  exact hhears'

/-- The caller of a request in whose place no response has been produced gets none. -/
theorem Accounted.refused_of_late (h : r.Accounted) {i : Nat} {t : Ticket}
    (ht : r.accepted[i]? = some t) (hlate : r.produced.length ≤ i) : r.Refused t.id := by
  obtain ⟨done, rest, hsplit, hhears, hothers⟩ := h.answered
  rw [← hhears.length_eq] at hlate
  rw [hsplit, List.getElem?_append_right hlate] at ht
  exact hothers t (List.mem_of_getElem? ht)

/-- A whole reply reaches its caller if a new framer accepts what is read together with its end and
stands behind it. Otherwise the caller is told that the connection has ended, when all are told who
are still to be told. -/
theorem run_survives {host : String} {settings : Settings} {before after : List Event}
    {first rest : List (Ticket × Written)} {t : Ticket} {w : Written} {junk : Bytes}
    (h : Receives host settings before after (first ++ (t, w) :: rest) junk) :
    ∃ response, Response.ofReply? t w.reply = some response ∧ t.Expects response ∧
      if (({ limit := settings.maxHeaderSize.toNat } : Framer).push
          (behind (((start host settings).run before).reads after)
            ((first ++ [(t, w)]).flatMap (·.2.wire)).length)).1.isOk then
        (((start host settings).run before).run after).link.Hears t.id [.response response]
      else
        (((start host settings).run before).run after).finish.link.Hears t.id [.closed] := by
  have hordinary := (h.fair (t, w) (by simp)).1
  obtain ⟨response, hresponse⟩ := Response.isSome_ofReply? hordinary w.reply
  refine ⟨response, hresponse, Response.kind_of_ofReply? hresponse, ?_⟩
  have hwire : (first ++ [(t, w)]).flatMap (·.2.wire) ≠ [] := by
    simp [wire_ne_nil]
  have hsplit : first ++ (t, w) :: rest = (first ++ [(t, w)]) ++ rest := by simp
  have hreads : (first ++ [(t, w)]).flatMap (·.2.wire) <+:
      (((start host settings).run before).reads after).flatten := by
    rw [h.reads]
    exact ⟨rest.flatMap (·.2.wire) ++ junk, by simp⟩
  obtain ⟨haccepted, -⟩ := grows_run ((start host settings).run before) after
  replace haccepted : (((start host settings).run before).run after).accepted[first.length]? =
      some t := by
    obtain ⟨later, hlater⟩ := h.accepted.trans haccepted
    rw [← hlater]
    simp
  have hstart : ((start host settings).run before).Orderly :=
    Orderly.run (.inl (.start host settings)) before
  have hproduced : ((start host settings).run before).produced = [] :=
    (Blank.run (r := start host settings) ⟨rfl, rfl, rfl⟩ h.unread).2
  rcases hstart with hwork | ⟨told, hended⟩
  · have haccounted : (((start host settings).run before).run after).Accounted :=
      (Orderly.run (.inl hwork) after).elim (·.accounted) fun ⟨_, h⟩ => h.accounted
    obtain ⟨hok, herror⟩ := (h.owing hsplit hwork).run hwire hreads
    rw [hproduced] at hok herror
    split
    · rename_i haccepts
      obtain ⟨responses, hresponses, more, hmore⟩ := hok haccepts
      obtain ⟨given, hgiven⟩ : ∃ given, responses[first.length]? = some given := by
        refine ⟨_, List.getElem?_eq_getElem ?_⟩
        rw [← hresponses.length_eq, List.length_append]
        exact Nat.lt_succ_self _
      obtain ⟨p, hp, hanswered⟩ := exists_of_forall₂ hresponses hgiven
      obtain rfl : p = (t, w) := by simpa using hp.symm
      obtain rfl : given = response := Option.some.inj (hanswered.symm.trans hresponse)
      refine haccounted.hears_response haccepted ?_
      obtain ⟨hlt, -⟩ := List.getElem?_eq_some_iff.1 hgiven
      rw [← hmore, List.nil_append, List.getElem?_append_left hlt]
      exact hgiven
    · rename_i hrefuses
      obtain ⟨hopen, hlength⟩ := herror (Bool.eq_false_iff.2 hrefuses)
      have hlate : (((start host settings).run before).run after).produced.length ≤
          first.length := by
        simpa [Nat.lt_succ_iff] using hlength
      exact (haccounted.refused_of_late haccepted hlate).told hopen
  · obtain ⟨hnone, -, -⟩ := run_of_ended hended.isOpen after
    rw [hnone] at hreads
    exact absurd (List.prefix_nil.1 hreads) hwire

/-- A reply with a body of two bytes. -/
def brief : Written :=
  { Written.inChunks with
    before := []
    body := .sized ("Content-Length", "2") [123, 125] (by decide) ⟨0, by decide⟩ (by decide)
    after := []
    fields_writable := by decide
    fields_other := by decide }

/-- The header block of no reply. -/
def nonsense : Bytes := Text.Utf8.encode "garbage\r\n\r\n".toList

/-- Two requests. -/
def inquiry (n : Nat) : Ticket := ⟨n, .forBucket .bucketConfig "b" "secret"⟩

/-- Two requests are taken up, and both replies arrive with nonsense behind them. A read takes sixty
bytes, so the first brings one reply and a part of the other, and the second what is left and the
nonsense: the first caller gets the response, the second does not. -/
theorem run_survives_once :
    let settings : Settings := { readBufferSize := 60 }
    let before : List Event :=
      [.send (inquiry 0).request, .send (inquiry 1).request, .move .take, .move .take]
    let after : List Event :=
      [.arrive (brief.wire ++ brief.wire ++ nonsense), .move .read, .move .read, .move .tell]
    let r := ((start "h" settings).run before).run after
    Receives "h" settings before after [(inquiry 0, brief), (inquiry 1, brief)] nonsense ∧
      r.link.Hears 0 [.response (.bucketConfig "{}" .success)] ∧
      r.link.Hears 1 [.closed] := by
  intro settings before after r
  have hreceives : Receives "h" settings before after [(inquiry 0, brief), (inquiry 1, brief)]
      nonsense := by
    refine ⟨by decide, by decide, by decide, by decide, ?_⟩
    decide +kernel
  refine ⟨hreceives, ?_, ?_⟩
  · obtain ⟨response, hresponse, -, hhears⟩ :=
      @run_survives "h" settings before after [] [(inquiry 1, brief)] _ _ _ hreceives
    obtain rfl : response = .bucketConfig "{}" .success :=
      Option.some.inj (hresponse.symm.trans (by decide +kernel))
    rwa [if_pos (by decide +kernel)] at hhears
  · obtain ⟨response, -, -, hhears⟩ :=
      @run_survives "h" settings before after [(inquiry 0, brief)] [] _ _ _ hreceives
    have hnobody : (((start "h" settings).run before).run after).link.untold = [] := by
      decide +kernel
    rw [if_neg (by decide +kernel), finish_of_untold hnobody] at hhears
    exact hhears

/-- Whole replies reach their callers, whatever stands behind them. -/
def RepliesSurvive : Prop :=
  ∀ (host : String) (settings : Settings) (before after : List Event)
    (first rest : List (Ticket × Written)) (t : Ticket) (w : Written) (junk : Bytes),
    Receives host settings before after (first ++ (t, w) :: rest) junk →
      ∃ response, Response.ofReply? t w.reply = some response ∧
        (((start host settings).run before).run after).link.Hears t.id [.response response]

/-- A whole reply and nonsense in one read: the caller is told that the connection has ended. -/
theorem not_repliesSurvive : ¬ RepliesSurvive := by
  intro hsurvive
  have hreceives : Receives "h" {} [.send (inquiry 0).request, .move .take]
      [.arrive (brief.wire ++ nonsense), .move .read, .move .tell] [(inquiry 0, brief)]
      nonsense := by
    refine ⟨by decide, by decide, by decide, by decide, ?_⟩
    decide +kernel
  obtain ⟨response, -, hhears⟩ := hsurvive _ _ _ _ [] [] _ _ _ hreceives
  have hclosed : (((start "h" {}).run [.send (inquiry 0).request, .move .take]).run
      [.arrive (brief.wire ++ nonsense), .move .read, .move .tell]).link.outcomes 0 =
        [.closed] := by
    decide +kernel
  have hwaits := hhears.outcomes_eq (by decide +kernel)
  rw [show (inquiry 0).id = 0 from rfl, hclosed] at hwaits
  cases hwaits

end History

end Link

end ClusterLink
