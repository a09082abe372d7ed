import ClusterLink.Proofs.Request.OneRequest
import ClusterLink.Proofs.Text.Base64

/-!
# What the bytes of a request tell

The bytes of a request tell what was asked of whom and by whom: two requests with the
same bytes have the same method, path, host, user agent, bucket and password
(`Request.outgoing_identifies`). This takes plain texts, since in others a line or a
part may end early (texts without blanks and line ends are plain, `plain_of_not_mem`), and
buckets without a colon, since the first one ends the bucket in the credentials. The kind is
not told: the same path may be asked for in two of them.

`credentials?` reads the credentials out of the bytes: the first line that begins as
their field does, in base 64.

## The argument

Bytes are read as a request in one way only (`Reads.unique`). So requests with the same
bytes have the same parts of the request line and the same header lines, which begin
with fixed names, and the credentials are what base 64 gives back.
-/

namespace ClusterLink

open Text

variable {bytes : Bytes} {parts parts' fields fields' : List Bytes}

/-- There is one way to read bytes as a request. -/
theorem Reads.unique (h : Reads bytes parts fields) (h' : Reads bytes parts' fields') :
    parts = parts' ∧ fields = fields' := by
  obtain ⟨head, first, hbytes, hlines, rfl⟩ := h.lines
  obtain ⟨head', first', hbytes', hlines', rfl⟩ := h'.lines
  obtain rfl : head = head' := List.append_cancel_right (hbytes.symm.trans hbytes')
  obtain ⟨rfl, rfl⟩ := List.cons.inj (hlines.symm.trans hlines')
  exact ⟨rfl, rfl⟩

/-- How the line of the credentials begins. -/
def credentialsMark : Bytes :=
  Utf8.encode "Authorization: Basic ".toList

/-- The credentials in the bytes of a request: what base 64 gives behind the mark of the first
header line that begins with it. -/
def credentials? (bytes : Bytes) : Option Bytes := do
  let digits ← (pieces Reply.lineEnd bytes).tail.findSome? (·.dropPrefix? credentialsMark)
  Base64.decode? (← Utf8.decode? digits)

/-- The first mark ends what stands in front of it. -/
theorem eq_of_append_mark {m : Char} {a b a' b' : List Char} (h : m ∉ a) (h' : m ∉ a')
    (heq : a ++ m :: b = a' ++ m :: b') : a = a' ∧ b = b' := by
  have hcut : cut? [m] (a ++ m :: b) = some (a, b) := cut?_singleton_eq_some_iff.2 ⟨rfl, h⟩
  have hcut' : cut? [m] (a' ++ m :: b') = some (a', b') := cut?_singleton_eq_some_iff.2 ⟨rfl, h'⟩
  rw [heq, hcut'] at hcut
  obtain ⟨rfl, rfl⟩ := Prod.mk.inj (Option.some.inj hcut)
  exact ⟨rfl, rfl⟩

theorem Method.name_inj {m m' : Method} (h : m.name = m'.name) : m = m' := by
  cases m <;> cases m' <;> first | rfl | exact absurd h (by decide)

/-- Texts without a carriage return are plain if there is no blank in the path. -/
theorem plain_of_not_mem {path host userAgent : String} (hblank : ' ' ∉ path.toList)
    (hreturn : ∀ s ∈ [path, host, userAgent], '\r' ∉ s.toList) : Plain path host userAgent := by
  have hend (s : String) (hs : '\r' ∉ s.toList) : ¬ Outgoing.lineEnd <:+: s.toList := by
    intro hfound
    exact hs (hfound.subset List.mem_cons_self)
  simp only [List.forall_mem_cons, List.not_mem_nil, false_imp_iff, implies_true, and_true]
    at hreturn
  obtain ⟨hpath, hhost, hagent⟩ := hreturn
  exact ⟨hblank, hend path hpath, hend host hhost, hend userAgent hagent⟩

namespace Request

variable {r r' : Request} {host host' userAgent userAgent' : String}

/-- The parts of the request line tell the method and the path. -/
theorem lineParts_inj (h : r.lineParts = r'.lineParts) :
    r.kind.method = r'.kind.method ∧ r.path = r'.path := by
  simp only [lineParts, List.map_cons, List.cons.injEq] at h
  obtain ⟨hmethod, hpath, -⟩ := h
  exact ⟨Method.name_inj (String.toList_inj.1 (Utf8.encode_inj hmethod)),
    String.toList_inj.1 (Utf8.encode_inj hpath)⟩

/-- The header lines tell the host and the user agent. -/
theorem headerLines_inj (h : r.headerLines host userAgent = r'.headerLines host' userAgent') :
    host = host' ∧ userAgent = userAgent' := by
  simp only [headerLines, List.cons_append, List.map_cons, List.cons.injEq] at h
  obtain ⟨hhost, hagent, -⟩ := h
  constructor
  · simpa [String.toList_inj] using Utf8.encode_inj hhost
  · simpa [String.toList_inj] using Utf8.encode_inj hagent

/-- The first header line with the mark of the credentials is theirs. -/
theorem findSome?_outgoing (h : Plain r.path host userAgent) :
    (pieces Reply.lineEnd (r.outgoing host userAgent).bytes).tail.findSome?
        (·.dropPrefix? credentialsMark) =
      some (Utf8.encode
        (Base64.encode (Utf8.encode (r.bucket.toList ++ ':' :: r.password.toList)))) := by
  obtain ⟨head, first, hbytes, hlines, -⟩ := (r.reads_of_plain host userAgent h).lines
  have hpieces := pieces_append_blockEnd_append head []
  rw [List.append_nil, ← hbytes, hlines] at hpieces
  have hhost : (Utf8.encode ("Host: " ++ host).toList).dropPrefix? credentialsMark = none := by
    rw [String.toList_append, Utf8.encode_append]
    rfl
  have hagent : (Utf8.encode ("User-Agent: " ++ userAgent).toList).dropPrefix? credentialsMark =
      none := by
    rw [String.toList_append, Utf8.encode_append]
    rfl
  have hcredentials :
      (Utf8.encode ("Authorization: " ++ basicCredentials r.bucket r.password).toList).dropPrefix?
        credentialsMark = some (Utf8.encode
          (Base64.encode (Utf8.encode (r.bucket.toList ++ ':' :: r.password.toList)))) := by
    rw [basicCredentials, ← String.append_assoc, String.toList_append, String.toList_ofList,
      Utf8.encode_append]
    exact List.dropPrefix?_append_of_beq _ (beq_self_eq_true credentialsMark)
  rw [hpieces, List.cons_append, List.tail_cons, headerLines]
  simp only [List.cons_append, List.map_cons, List.findSome?_cons, hhost, hagent, hcredentials]

/-- The credentials are read back. -/
theorem credentials?_outgoing (h : Plain r.path host userAgent) :
    credentials? (r.outgoing host userAgent).bytes =
      some (Utf8.encode (r.bucket.toList ++ ':' :: r.password.toList)) := by
  simp [credentials?, findSome?_outgoing h, Utf8.decode?_encode, Base64.decode?_encode]

/-- **The bytes of plain requests tell what was asked of whom and by whom.** Two requests with
buckets without a colon have the same bytes exactly if they have the same method, path, host, user
agent, bucket and password; and base 64 gives the bucket and the password back, with a colon between
them. -/
theorem outgoing_identifies (h : Plain r.path host userAgent) (h' : Plain r'.path host' userAgent')
    (hbucket : ':' ∉ r.bucket.toList) (hbucket' : ':' ∉ r'.bucket.toList) :
    ((r.outgoing host userAgent).bytes = (r'.outgoing host' userAgent').bytes ↔
      r.kind.method = r'.kind.method ∧ r.path = r'.path ∧ host = host' ∧ userAgent = userAgent' ∧
        r.bucket = r'.bucket ∧ r.password = r'.password) ∧
    credentials? (r.outgoing host userAgent).bytes =
      some (Utf8.encode (r.bucket.toList ++ ':' :: r.password.toList)) := by
  have hcredentials := credentials?_outgoing h
  refine ⟨⟨?_, ?_⟩, hcredentials⟩
  · intro hbytes
    have hreads := r.reads_of_plain host userAgent h
    rw [hbytes] at hreads hcredentials
    obtain ⟨hparts, hlines⟩ := hreads.unique (r'.reads_of_plain host' userAgent' h')
    obtain ⟨hmethod, hpath⟩ := lineParts_inj hparts
    obtain ⟨hhost, hagent⟩ := headerLines_inj hlines
    have htexts := hcredentials.symm.trans (credentials?_outgoing h')
    obtain ⟨huser, hpassword⟩ := eq_of_append_mark hbucket hbucket'
      (Utf8.encode_inj (Option.some.inj htexts))
    exact ⟨hmethod, hpath, hhost, hagent, String.toList_inj.1 huser, String.toList_inj.1 hpassword⟩
  · rintro ⟨hmethod, hpath, rfl, rfl, hbucket, hpassword⟩
    rw [outgoing, outgoing, hmethod, hpath, hbucket, hpassword]

/-- Two requests that differ in the password only, which has colons and line ends in it, have
different bytes. -/
theorem outgoing_identifies_password :
    let r := forBucket .flush "użytkownik" "a:b\r\n\r\n"
    let r' := forBucket .flush "użytkownik" "a:b"
    (Plain r.path "h" "a" ∧ Plain r'.path "h" "a" ∧ ':' ∉ r.bucket.toList ∧
      ':' ∉ r'.bucket.toList) ∧
    (r.outgoing "h" "a").bytes ≠ (r'.outgoing "h" "a").bytes ∧
    credentials? (r.outgoing "h" "a").bytes =
      some (Utf8.encode ("użytkownik".toList ++ ':' :: "a:b\r\n\r\n".toList)) := by
  intro r r'
  have hplain : Plain "użytkownik" "h" "a" := plain_of_not_mem (by decide) (by decide)
  have h : Plain r.path "h" "a" := (plain_path_iff "h" "a" .flush "użytkownik").2 hplain
  have h' : Plain r'.path "h" "a" := h
  have hbucket : ':' ∉ r.bucket.toList := by decide
  obtain ⟨hbytes, hcredentials⟩ := outgoing_identifies h h' hbucket hbucket
  refine ⟨⟨h, h', hbucket, hbucket⟩, ?_, hcredentials⟩
  intro heq
  obtain ⟨-, -, -, -, -, hpassword⟩ := hbytes.1 heq
  exact absurd hpassword (by decide)

/-- With a colon in the bucket, the credentials may be those of another bucket. -/
example : ((Request.mk .flush "/" "a:b" "c").outgoing "h" "a").bytes =
    ((Request.mk .flush "/" "a" "b:c").outgoing "h" "a").bytes := rfl

end Request

end ClusterLink
