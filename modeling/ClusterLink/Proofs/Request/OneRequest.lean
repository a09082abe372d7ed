import ClusterLink.Proofs.Reply.FieldOrder
import ClusterLink.Request.Wire

/-!
# What is read of a request

A request goes out as it is written, and nothing in it is escaped. Whoever reads it
takes the bytes in front of the first empty line for the head of a request, the first
line of it for the request line and what stands between blanks there for its parts
(`Reads`). Here it is shown for which texts this is the request that was meant
(`Request.outgoing_reads`): no blank may stand in the path, and no line end in the path,
the host and the user agent (`Plain`). The credentials are in base 64 and may be any
texts.

With other texts a request is read as something else, also as more than one request
(`Request.exists_bytes_eq_append`).

## The argument

What stands between marks is determined by the text, whatever stands in it
(`pieces_append_mark_append`). So there are as many lines as were written exactly if
none of them has a line end in it, and then they are those that were written
(`reads_joinLines_iff`); an empty line in front of the end would be one line more.
-/

namespace ClusterLink

namespace Text

/-- If every element brings something, there are as many as before exactly if each brings one. -/
theorem length_flatMap_eq_iff {α β : Type} {f : α → List β} (hf : ∀ x, f x ≠ []) {xs : List α} :
    (xs.flatMap f).length = xs.length ↔ ∀ x ∈ xs, (f x).length = 1 := by
  have hle (ys : List α) : ys.length ≤ (ys.flatMap f).length := by
    induction ys with
    | nil => exact Nat.le_refl 0
    | cons y ys ih =>
      have hpos := List.length_pos_iff.2 (hf y)
      rw [List.flatMap_cons, List.length_append, List.length_cons]
      omega
  induction xs with
  | nil => simp
  | cons x xs ih =>
    have hpos := List.length_pos_iff.2 (hf x)
    have hxs := hle xs
    rw [List.forall_mem_cons, List.flatMap_cons, List.length_append, List.length_cons]
    refine Iff.trans ?_ (and_congr_right fun _ => ih)
    omega

/-- No line end comes from base 64. -/
theorem Base64.not_mem_encode (bytes : Bytes) : '\r' ∉ Base64.encode bytes := by
  have hdigit (v : Nat) : ¬ '\r' = Base64.digit v := by
    by_cases hv : v < 64
    · have hall : ∀ v < 64, ¬ '\r' = Base64.digit v := by decide
      exact hall v hv
    · rw [Base64.digit, if_neg (by omega), if_neg (by omega), if_neg (by omega), if_neg (by omega)]
      decide
  fun_induction Base64.encode bytes with
  | case1 => simp
  | case2 => simp [hdigit]
  | case3 => simp [hdigit]
  | case4 a b c rest v ih => simp [hdigit, ih]

end Text

open Text Reply

/-- Some bytes are one request without a body, with these parts of the request line and these lines
for header fields. -/
structure Reads (bytes : Bytes) (parts fields : List Bytes) : Prop where
  /-- They end with an empty line, and in front of it stand the lines. -/
  lines : ∃ head first, bytes = head ++ blockEnd ∧
    pieces Reply.lineEnd head = first :: fields ∧ pieces [0x20] first = parts
  /-- There is no other empty line. -/
  whole : ∀ front back, bytes = front ++ (blockEnd ++ back) → back = []

variable {first : Bytes} {lines parts fields : List Bytes}

theorem pieces_lineEnd_joinLines (first : Bytes) (lines : List Bytes) :
    pieces Reply.lineEnd (joinLines first lines) =
      (first :: lines).flatMap (pieces Reply.lineEnd) := by
  induction lines generalizing first with
  | nil => simp [joinLines]
  | cons line lines ih =>
    have hjoin : joinLines first (line :: lines) =
        first ++ (Reply.lineEnd ++ joinLines line lines) := by
      simp [joinLines]
    rw [hjoin, List.flatMap_cons, ← ih]
    exact pieces_append_mark_append (by decide) _ _

theorem pieces_lineEnd_nil : pieces Reply.lineEnd [] = [[]] :=
  pieces_of_cut?_eq_none rfl

/-- An empty line is a line of its own between what stands before and behind it. -/
theorem pieces_append_blockEnd_append (bytes more : Bytes) :
    pieces Reply.lineEnd (bytes ++ (blockEnd ++ more)) =
      pieces Reply.lineEnd bytes ++ [] :: pieces Reply.lineEnd more := by
  have hcut (a b : Bytes) : pieces Reply.lineEnd (a ++ (Reply.lineEnd ++ b)) =
      pieces Reply.lineEnd a ++ pieces Reply.lineEnd b :=
    pieces_append_mark_append (by decide) a b
  calc pieces Reply.lineEnd (bytes ++ (blockEnd ++ more))
      = pieces Reply.lineEnd bytes ++ pieces Reply.lineEnd (Reply.lineEnd ++ more) :=
        hcut bytes (Reply.lineEnd ++ more)
    _ = pieces Reply.lineEnd bytes ++ [] :: pieces Reply.lineEnd more := by
        rw [← List.nil_append (Reply.lineEnd ++ more), hcut, pieces_lineEnd_nil]
        rfl

/-- Behind lines that are not empty the first empty line is at the end. -/
theorem eq_nil_of_joinLines_append (hne : ∀ line ∈ first :: lines, line ≠ [])
    (hwhole : ∀ line ∈ first :: lines, ¬ Reply.lineEnd <:+: line) {front back : Bytes}
    (h : joinLines first lines ++ blockEnd = front ++ (blockEnd ++ back)) : back = [] := by
  have hpieces := pieces_append_blockEnd_append (joinLines first lines) []
  rw [List.append_nil, h, pieces_append_blockEnd_append, pieces_joinLines hwhole,
    pieces_lineEnd_nil] at hpieces
  suffices hback : pieces Reply.lineEnd back = [[]] from
    ((pieces_eq_cons_iff (by decide)).1 hback).1
  -- an empty line further in front would be one of the lines
  rcases List.append_eq_append_iff.1 hpieces with ⟨more, hlines, hmore⟩ | ⟨more, hlines, hmore⟩
  · cases more with
    | nil => exact (List.cons.inj hmore).2
    | cons line more =>
      obtain ⟨rfl, -⟩ := List.cons.inj hmore
      exact absurd rfl (hne [] (hlines ▸ List.mem_append_right _ List.mem_cons_self))
  · cases more with
    | nil => exact (List.cons.inj hmore).2.symm
    | cons line more =>
      have hpos := List.length_pos_iff.2 (pieces_ne_nil Reply.lineEnd back)
      have hlength := congrArg List.length hmore
      simp only [List.cons_append, List.length_cons, List.length_append, List.length_nil] at hlength
      omega

/-- As many lines are read as there are exactly if there is no line end in any of them. -/
theorem reads_joinLines_iff (hne : ∀ line ∈ first :: lines, line ≠ [])
    (hlength : fields.length = lines.length) :
    Reads (joinLines first lines ++ blockEnd) parts fields ↔
      (∀ line ∈ first :: lines, ¬ Reply.lineEnd <:+: line) ∧
        parts = pieces [0x20] first ∧ fields = lines := by
  constructor
  · rintro ⟨⟨head, line, hhead, hlines, hparts⟩, -⟩
    obtain rfl := List.append_cancel_right hhead
    have hcount := congrArg List.length hlines
    rw [pieces_lineEnd_joinLines, List.length_cons, hlength, ← List.length_cons,
      length_flatMap_eq_iff (pieces_ne_nil Reply.lineEnd)] at hcount
    have hwhole : ∀ line ∈ first :: lines, ¬ Reply.lineEnd <:+: line := fun line hline =>
      (length_pieces_eq_one_iff (by decide)).1 (hcount line hline)
    rw [pieces_joinLines hwhole] at hlines
    obtain ⟨rfl, rfl⟩ := List.cons.inj hlines
    exact ⟨hwhole, hparts.symm, rfl⟩
  · rintro ⟨hwhole, rfl, rfl⟩
    exact ⟨⟨_, first, rfl, pieces_joinLines hwhole, rfl⟩,
      fun front back h => eq_nil_of_joinLines_append hne hwhole h⟩

/-! ## What goes out -/

namespace Outgoing

variable (o : Outgoing)

/-- The bytes are those of the lines and an empty line. -/
theorem bytes_eq : o.bytes =
    joinLines (Utf8.encode o.requestLine) (o.fields.map fun f => Utf8.encode (fieldLine f)) ++
      blockEnd := by
  have hjoin : o.requestLine ++ (o.fields.map fieldLine ++ [[]]).flatMap (lineEnd ++ ·) =
      o.lines.flatMap (· ++ lineEnd) ++ [] :=
    join_eq_of_cons_eq_concat lineEnd rfl
  rw [List.append_nil, List.flatMap_append, ← List.append_assoc] at hjoin
  rw [bytes, render, ← hjoin, Utf8.encode_append, Utf8.encode_append, lineEnd, encode_join,
    List.map_map, List.append_assoc]
  rfl

theorem requestLine_eq : o.requestLine =
    o.method.name.toList ++ ([' '] ++ (o.path.toList ++ " HTTP/1.1".toList)) := by
  simp [requestLine]

/-- What goes out behind the path. -/
def afterPath : List Char :=
  " HTTP/1.1".toList ++ (lineEnd ++ ((o.fields.map fieldLine).flatMap (· ++ lineEnd) ++ lineEnd))

theorem render_eq :
    o.render = o.method.name.toList ++ ([' '] ++ (o.path.toList ++ o.afterPath)) := by
  unfold render Outgoing.lines afterPath
  simp only [List.flatMap_cons, requestLine_eq, List.append_assoc]

theorem requestLine_ne_nil : o.requestLine ≠ [] := by
  simp [requestLine]

theorem fieldLine_ne_nil (f : String × String) : fieldLine f ≠ [] := by
  simp [fieldLine]

/-- As many lines are read as were written exactly if no line end stands in any of them. -/
theorem reads_iff (hlength : fields.length = o.fields.length) :
    Reads o.bytes parts fields ↔
      (∀ line ∈ o.lines, ¬ lineEnd <:+: line) ∧
        parts = pieces [0x20] (Utf8.encode o.requestLine) ∧
        fields = o.fields.map fun f => Utf8.encode (fieldLine f) := by
  have hlines : Utf8.encode o.requestLine :: o.fields.map (fun f => Utf8.encode (fieldLine f)) =
      o.lines.map Utf8.encode := by
    rw [lines, List.map_cons, List.map_map]
    rfl
  have hne : ∀ line ∈ o.lines, Utf8.encode line ≠ [] := by
    refine List.forall_mem_cons.2 ⟨mt Utf8.encode_eq_nil_iff.1 o.requestLine_ne_nil, ?_⟩
    exact List.forall_mem_map.2 fun f _ => mt Utf8.encode_eq_nil_iff.1 (fieldLine_ne_nil f)
  have hend (line : List Char) : Reply.lineEnd <:+: Utf8.encode line ↔ lineEnd <:+: line :=
    lineEnd_infix_encode_iff
  rw [bytes_eq, reads_joinLines_iff _ (by rw [hlength, List.length_map]), hlines]
  · simp only [List.forall_mem_map, hend]
  · rw [hlines]
    exact List.forall_mem_map.2 hne

/-- The parts of the request line, whatever stands in the path. -/
theorem pieces_requestLine : pieces [0x20] (Utf8.encode o.requestLine) =
    Utf8.encode o.method.name.toList :: (pieces [0x20] (Utf8.encode o.path.toList) ++
      [Utf8.encode "HTTP/1.1".toList]) := by
  have hline : Utf8.encode o.requestLine = Utf8.encode o.method.name.toList ++
      ([0x20] ++ (Utf8.encode o.path.toList ++ ([0x20] ++ Utf8.encode "HTTP/1.1".toList))) := by
    rw [requestLine_eq]
    simp only [Utf8.encode_append]
    rfl
  have hname : pieces [0x20] (Utf8.encode o.method.name.toList) =
      [Utf8.encode o.method.name.toList] := by
    cases o.method <;> exact pieces_of_cut?_eq_none rfl
  have hversion : pieces [0x20] (Utf8.encode "HTTP/1.1".toList) =
      [Utf8.encode "HTTP/1.1".toList] := pieces_of_cut?_eq_none rfl
  rw [hline, pieces_append_mark_append List.not_mem_nil, hname,
    pieces_append_mark_append List.not_mem_nil, hversion]
  rfl

/-- They are three exactly if there is no blank in the path. -/
theorem length_pieces_requestLine_iff :
    (pieces [0x20] (Utf8.encode o.requestLine)).length = 3 ↔ ' ' ∉ o.path.toList := by
  have hascii : ∀ c ∈ [' '], c.toNat < 0x80 := by simp
  have hblank : [0x20] <:+: Utf8.encode o.path.toList ↔ [' '] <:+: o.path.toList :=
    Utf8.encode_infix_encode_iff hascii
  rw [pieces_requestLine, List.length_cons, List.length_append, List.length_singleton,
    ← List.singleton_infix_iff, ← hblank, ← length_pieces_eq_one_iff List.not_mem_nil]
  omega

/-- Then they are the method, the path and the version. -/
theorem pieces_requestLine_of_not_mem (h : ' ' ∉ o.path.toList) :
    pieces [0x20] (Utf8.encode o.requestLine) =
      [o.method.name, o.path, "HTTP/1.1"].map fun part => Utf8.encode part.toList := by
  have hpath : 0x20 ∉ Utf8.encode o.path.toList := Utf8.not_mem_encode (by decide) h
  rw [pieces_requestLine, pieces_of_cut?_eq_none (cut?_singleton_eq_none_iff.2 hpath)]
  rfl

/-- A line end in the request line is one in the path. -/
theorem lineEnd_infix_requestLine_iff :
    lineEnd <:+: o.requestLine ↔ lineEnd <:+: o.path.toList := by
  have hname : '\r' ∉ o.method.name.toList ++ [' '] := by cases o.method <;> simp [Method.name]
  have hversion : '\n' ∉ " HTTP/1.1".toList := by simp
  have hbehind : ['\r'] ++ ['\n'] <:+: o.path.toList ++ " HTTP/1.1".toList ↔
      ['\r'] ++ ['\n'] <:+: o.path.toList := append_infix_iff_of_not_mem hversion
  rw [requestLine_eq, ← List.append_assoc]
  exact (infix_append_iff_of_not_mem hname).trans hbehind

/-- A line end in the line of a field is one in its value. -/
theorem lineEnd_infix_fieldLine_iff {name value : String} (hname : '\r' ∉ name.toList) :
    lineEnd <:+: fieldLine (name, value) ↔ lineEnd <:+: value.toList := by
  refine infix_append_iff_of_not_mem ?_
  simpa using hname

end Outgoing

/-- The credentials are one line, whatever the user and the password are. -/
theorem not_lineEnd_infix_basicCredentials (user password : String) :
    ¬ Outgoing.lineEnd <:+: (basicCredentials user password).toList := by
  have hreturn : '\r' ∉ (basicCredentials user password).toList := by
    simp [basicCredentials, Base64.not_mem_encode]
  exact fun h => hreturn (h.subset List.mem_cons_self)

/-- Nothing in these texts ends a line, and nothing in the path ends a part of the request line. -/
structure Plain (path host userAgent : String) : Prop where
  /-- There is no blank in the path. -/
  blank : ' ' ∉ path.toList
  /-- Nor a line end. -/
  path : ¬ Outgoing.lineEnd <:+: path.toList
  /-- There is none in the host. -/
  host : ¬ Outgoing.lineEnd <:+: host.toList
  /-- There is none in the user agent. -/
  userAgent : ¬ Outgoing.lineEnd <:+: userAgent.toList

namespace Request

variable (r : Request) (host userAgent : String)

/-- The parts of the request line. -/
def lineParts : List Bytes :=
  [r.kind.method.name, r.path, "HTTP/1.1"].map fun part => Utf8.encode part.toList

/-- The lines of the header fields. -/
def headerLines : List Bytes :=
  (["Host: " ++ host, "User-Agent: " ++ userAgent,
      "Authorization: " ++ basicCredentials r.bucket r.password] ++
    if r.kind.method = .post then ["Content-Length: 0"] else []).map
      fun line => Utf8.encode line.toList

theorem map_fieldLine_outgoing :
    ((r.outgoing host userAgent).fields.map fun f => Utf8.encode (Outgoing.fieldLine f)) =
      r.headerLines host userAgent := by
  have hline (name value : String) :
      Outgoing.fieldLine (name, value) = (name ++ ": " ++ value).toList := by
    simp [Outgoing.fieldLine]
  rw [headerLines, outgoing]
  split <;> simp only [List.map_append, List.map_cons, hline, String.reduceAppend] <;> rfl

/-- A line end can only come from the path, the host or the user agent. -/
theorem lines_outgoing_iff :
    (∀ line ∈ (r.outgoing host userAgent).lines, ¬ Outgoing.lineEnd <:+: line) ↔
      ¬ Outgoing.lineEnd <:+: r.path.toList ∧ ¬ Outgoing.lineEnd <:+: host.toList ∧
        ¬ Outgoing.lineEnd <:+: userAgent.toList := by
  have hhost : Outgoing.lineEnd <:+: Outgoing.fieldLine ("Host", host) ↔ _ :=
    Outgoing.lineEnd_infix_fieldLine_iff (by simp)
  have hagent : Outgoing.lineEnd <:+: Outgoing.fieldLine ("User-Agent", userAgent) ↔ _ :=
    Outgoing.lineEnd_infix_fieldLine_iff (by simp)
  have hcredentials : ¬ Outgoing.lineEnd <:+:
      Outgoing.fieldLine ("Authorization", basicCredentials r.bucket r.password) :=
    mt (Outgoing.lineEnd_infix_fieldLine_iff (by simp)).1 (not_lineEnd_infix_basicCredentials _ _)
  have hlength : ¬ Outgoing.lineEnd <:+: Outgoing.fieldLine ("Content-Length", "0") := by decide
  have hfields : (∀ f ∈ (r.outgoing host userAgent).fields,
      ¬ Outgoing.lineEnd <:+: Outgoing.fieldLine f) ↔
        ¬ Outgoing.lineEnd <:+: host.toList ∧ ¬ Outgoing.lineEnd <:+: userAgent.toList := by
    rw [outgoing]
    split <;> simp [hhost, hagent, hcredentials, hlength]
  rw [Outgoing.lines, List.forall_mem_cons, List.forall_mem_map, hfields,
    Outgoing.lineEnd_infix_requestLine_iff]
  rfl

/-- A request is read with as many parts and lines as were written exactly if its texts are plain,
and then with those that were written. -/
theorem reads_outgoing_iff {parts fields : List Bytes} (hparts : parts.length = 3)
    (hfields : fields.length = (r.headerLines host userAgent).length) :
    Reads (r.outgoing host userAgent).bytes parts fields ↔
      Plain r.path host userAgent ∧ parts = r.lineParts ∧
        fields = r.headerLines host userAgent := by
  have hlength : fields.length = (r.outgoing host userAgent).fields.length := by
    rw [hfields, ← map_fieldLine_outgoing, List.length_map]
  rw [Outgoing.reads_iff _ hlength, lines_outgoing_iff, map_fieldLine_outgoing]
  constructor
  · rintro ⟨⟨hpath, hhost, hagent⟩, rfl, rfl⟩
    have hblank := (Outgoing.length_pieces_requestLine_iff _).1 hparts
    have hline := (r.outgoing host userAgent).pieces_requestLine_of_not_mem hblank
    exact ⟨⟨hblank, hpath, hhost, hagent⟩, hline, rfl⟩
  · rintro ⟨⟨hblank, hpath, hhost, hagent⟩, rfl, rfl⟩
    have hline := (r.outgoing host userAgent).pieces_requestLine_of_not_mem hblank
    exact ⟨⟨hpath, hhost, hagent⟩, hline.symm, rfl⟩

/-- Plain texts are read as they were written. -/
theorem reads_of_plain (h : Plain r.path host userAgent) :
    Reads (r.outgoing host userAgent).bytes r.lineParts (r.headerLines host userAgent) :=
  (r.reads_outgoing_iff host userAgent rfl rfl).2 ⟨h, rfl, rfl⟩

/-- Other texts are not even read with as many parts and lines. -/
theorem exists_reads_iff :
    (∃ parts fields, Reads (r.outgoing host userAgent).bytes parts fields ∧ parts.length = 3 ∧
      fields.length = (r.headerLines host userAgent).length) ↔ Plain r.path host userAgent := by
  constructor
  · rintro ⟨parts, fields, hreads, hparts, hfields⟩
    exact ((r.reads_outgoing_iff host userAgent hparts hfields).1 hreads).1
  · exact fun h => ⟨_, _, r.reads_of_plain host userAgent h, rfl, rfl⟩

/-- The standard path of a bucket has the name of the bucket in it as it is. -/
theorem Kind.exists_path_eq (kind : Kind) (bucket : String) :
    ∃ front back : String, kind.path bucket = front ++ bucket ++ back ∧
      ' ' ∉ front.toList ∧ '\r' ∉ front.toList ∧ ' ' ∉ back.toList ∧ '\n' ∉ back.toList := by
  cases kind with
  | bucketConfig =>
    exact ⟨"/pools/default/buckets/", "", String.append_empty.symm, by decide, by decide, by decide,
      by decide⟩
  | bucketStreaming =>
    exact ⟨"/pools/default/bs/", "", String.append_empty.symm, by decide, by decide, by decide,
      by decide⟩
  | flush =>
    exact ⟨"/pools/default/buckets/", "/controller/doFlush", rfl, by decide, by decide, by decide,
      by decide⟩
  | designDocuments =>
    exact ⟨"/pools/default/buckets/", "/ddocs", rfl, by decide, by decide, by decide, by decide⟩

/-- So it is plain exactly if that name is. -/
theorem plain_path_iff (kind : Kind) (bucket : String) :
    Plain (kind.path bucket) host userAgent ↔ Plain bucket host userAgent := by
  obtain ⟨front, back, hpath, hblank, hreturn, hblank', hfeed⟩ := kind.exists_path_eq bucket
  have hmem : ' ' ∈ (kind.path bucket).toList ↔ ' ' ∈ bucket.toList := by
    simp [hpath, hblank, hblank']
  have hbehind : ['\r'] ++ ['\n'] <:+: bucket.toList ++ back.toList ↔
      ['\r'] ++ ['\n'] <:+: bucket.toList := append_infix_iff_of_not_mem hfeed
  have hend : Outgoing.lineEnd <:+: (kind.path bucket).toList ↔
      Outgoing.lineEnd <:+: bucket.toList := by
    rw [hpath, String.toList_append, String.toList_append, List.append_assoc]
    exact (infix_append_iff_of_not_mem hreturn).trans hbehind
  constructor
  · rintro ⟨hplain, hpath, hhost, hagent⟩
    exact ⟨mt hmem.2 hplain, mt hend.2 hpath, hhost, hagent⟩
  · rintro ⟨hplain, hpath, hhost, hagent⟩
    exact ⟨mt hmem.1 hplain, mt hend.1 hpath, hhost, hagent⟩

/-- **A request is read as one request exactly if its texts are plain.** If there is no blank in the
path and no line end in the path, the host and the user agent, the bytes are the request line with
its three parts, the lines of the header fields and the empty line that ends them. Otherwise they
are not read with so many parts and lines. At the standard path of a bucket the same goes for the
name of the bucket. -/
theorem outgoing_reads :
    (Plain r.path host userAgent →
      Reads (r.outgoing host userAgent).bytes r.lineParts (r.headerLines host userAgent)) ∧
    ((∃ parts fields, Reads (r.outgoing host userAgent).bytes parts fields ∧ parts.length = 3 ∧
      fields.length = (r.headerLines host userAgent).length) ↔ Plain r.path host userAgent) ∧
    ∀ kind bucket password,
      Plain (forBucket kind bucket password).path host userAgent ↔ Plain bucket host userAgent :=
  ⟨r.reads_of_plain host userAgent, r.exists_reads_iff host userAgent,
    fun kind bucket _ => plain_path_iff host userAgent kind bucket⟩

/-- Credentials with a line end in them do no harm. -/
theorem outgoing_reads_credentials :
    let r := forBucket .flush "default" "\r\n\r\n"
    Plain r.path "h" "a" ∧
      Reads (r.outgoing "h" "a").bytes r.lineParts (r.headerLines "h" "a") := by
  intro r
  obtain ⟨hreads, -, hpath⟩ := outgoing_reads r "h" "a"
  have hplain : Plain r.path "h" "a" := (hpath .flush "default" "\r\n\r\n").2
    ⟨by decide, by decide, by decide, by decide⟩
  exact ⟨hplain, hreads hplain⟩

/-- The request for a bucket with a blank in its name is not read as one, nor is the request at a
path with a line end in it. -/
theorem not_outgoing_reads :
    (¬ ∃ parts fields,
      Reads ((forBucket .bucketConfig "my bucket" "").outgoing "h" "a").bytes parts fields ∧
        parts.length = 3 ∧
        fields.length = ((forBucket .bucketConfig "my bucket" "").headerLines "h" "a").length) ∧
    ¬ ∃ parts fields,
      Reads ((Request.mk .bucketConfig "/x\r\nInjected:1" "b" "").outgoing "h" "a").bytes
          parts fields ∧
        parts.length = 3 ∧
        fields.length =
          ((Request.mk .bucketConfig "/x\r\nInjected:1" "b" "").headerLines "h" "a").length := by
  constructor
  · intro hreads
    have hplain := (exists_reads_iff _ _ _).1 hreads
    have hname := (plain_path_iff "h" "a" .bucketConfig "my bucket").1 hplain
    exact absurd hname.blank (by decide)
  · intro hreads
    have hplain := (exists_reads_iff _ _ _).1 hreads
    exact hplain.path (by decide)

/-! ## More than one request -/

/-- The bytes of any two requests of one method are those of a single one, with the first and the
method of the second in its path. -/
theorem exists_bytes_eq_append {r r' : Request} (h : r.kind.method = r'.kind.method) :
    ∃ path, (({ r' with path := path } : Request).outgoing host userAgent).bytes =
      (r.outgoing host userAgent).bytes ++ (r'.outgoing host userAgent).bytes := by
  let path := r.path.toList ++ ((r.outgoing host userAgent).afterPath ++
    (r'.kind.method.name.toList ++ ([' '] ++ r'.path.toList)))
  let both : Request := { r' with path := String.ofList path }
  have hafter : (both.outgoing host userAgent).afterPath =
      (r'.outgoing host userAgent).afterPath := rfl
  refine ⟨String.ofList path, ?_⟩
  show (both.outgoing host userAgent).bytes = _
  rw [Outgoing.bytes, Outgoing.bytes, Outgoing.bytes, ← Utf8.encode_append]
  congr 1
  simp only [Outgoing.render_eq, hafter]
  simp [outgoing, both, path, h]

end Request

end ClusterLink
