import ClusterLink.Text.Utf8

/-!
# Reading back what is written in UTF-8

The bytes of a text are a well-formed byte string, and they are read as that
text (`decode?_encode`). Each character is one piece, whatever its length
(`scan_encodeChar_append`). The bytes below `80` stand for the characters of
their own number and occur nowhere else (`not_mem_encode`), so a text can be
searched for a line end before it is decoded (`infix_of_infix_encode`).

No other byte string is well-formed: a piece that is read as a character has
been written for it (`encodeChar_of_front`), so `decode?` accepts just what
`encode` writes (`decode?_eq_some_iff`).
-/

namespace ClusterLink.Text.Utf8

/-! ### One character -/

theorem toNat_ofNat {n : Nat} (h : n < 256) : (UInt8.ofNat n).toNat = n := by
  rw [UInt8.toNat_ofNat']
  omega

theorem isTail_ofNat {n : Nat} (h : n < 64) : isTail (UInt8.ofNat (n + 0x80)) = true := by
  simp only [isTail, Bool.and_eq_true, decide_eq_true_eq, UInt8.le_iff_toNat_le,
    toNat_ofNat (show n + 0x80 < 256 by omega)]
  change 0x80 ≤ n + 0x80 ∧ n + 0x80 ≤ 0xBF
  omega

/-- A tail byte brings six more bits. -/
theorem tails_succ_ofNat {n : Nat} (h : n < 64) (bits k : Nat) (rest : Bytes) :
    tails bits (k + 1) (UInt8.ofNat (n + 0x80) :: rest) = tails (bits * 64 + n) k rest := by
  rw [tails, if_pos (isTail_ofNat h), toNat_ofNat (by omega)]
  rw [show (n + 0x80) % 64 = n by omega]

/-- The first piece of a byte string that opens with a leading byte and a byte it allows. -/
theorem front_of_lead {b : UInt8} {l : Lead} {n : Nat} (hb : ¬ b < 0x80) (hl : lead? b = some l)
    (hn : n < 64) (hlow : l.low.toNat ≤ n + 0x80) (hhigh : n + 0x80 ≤ l.high.toNat) (rest : Bytes) :
    front b (UInt8.ofNat (n + 0x80) :: rest) = tails (l.bits * 64 + n) l.more rest := by
  have hc : l.low ≤ UInt8.ofNat (n + 0x80) ∧ UInt8.ofNat (n + 0x80) ≤ l.high := by
    rw [UInt8.le_iff_toNat_le, UInt8.le_iff_toNat_le, toNat_ofNat (by omega)]
    exact ⟨hlow, hhigh⟩
  simp only [front, if_neg hb, hl, if_pos hc, toNat_ofNat (show n + 0x80 < 256 by omega)]
  rw [show (n + 0x80) % 64 = n by omega]

/-- A leading byte of two announces the high bits of the characters from `80` to `7FF`. -/
theorem lead?_two {n : Nat} (h : 2 ≤ n) (h' : n < 32) :
    lead? (UInt8.ofNat (n + 0xC0)) = some ⟨n, 0x80, 0xBF, 0⟩ := by
  have hb : (UInt8.ofNat (n + 0xC0)).toNat = n + 0xC0 := toNat_ofNat (by omega)
  rw [lead?, if_pos]
  · rw [hb, Nat.add_sub_cancel]
  · rw [UInt8.le_iff_toNat_le, UInt8.le_iff_toNat_le, hb]
    change 0xC2 ≤ n + 0xC0 ∧ n + 0xC0 ≤ 0xDF
    omega

/-- The byte behind a leading byte of three is at least `A0` where the form would be overlong, and
at most `9F` where surrogates would follow. -/
theorem lead?_three {n : Nat} (h : n < 16) :
    ∃ l, lead? (UInt8.ofNat (n + 0xE0)) = some l ∧ l.bits = n ∧ l.more = 1 ∧
      l.low.toNat = (if n = 0 then 0xA0 else 0x80) ∧
      l.high.toNat = (if n = 13 then 0x9F else 0xBF) := by
  have hcases : ∀ n < 16, ((lead? (UInt8.ofNat (n + 0xE0))).any fun l =>
      l.bits = n ∧ l.more = 1 ∧ l.low.toNat = (if n = 0 then 0xA0 else 0x80) ∧
        l.high.toNat = (if n = 13 then 0x9F else 0xBF)) = true := by decide
  obtain ⟨l, hl, hp⟩ := (Option.any_eq_true _ _).1 (hcases n h)
  exact ⟨l, hl, by simpa using hp⟩

/-- The byte behind a leading byte of four is at least `90` where the form would be overlong, and
at most `8F` where the value would be too great. -/
theorem lead?_four {n : Nat} (h : n < 5) :
    ∃ l, lead? (UInt8.ofNat (n + 0xF0)) = some l ∧ l.bits = n ∧ l.more = 2 ∧
      l.low.toNat = (if n = 0 then 0x90 else 0x80) ∧
      l.high.toNat = (if n = 4 then 0x8F else 0xBF) := by
  have hcases : ∀ n < 5, ((lead? (UInt8.ofNat (n + 0xF0))).any fun l =>
      l.bits = n ∧ l.more = 2 ∧ l.low.toNat = (if n = 0 then 0x90 else 0x80) ∧
        l.high.toNat = (if n = 4 then 0x8F else 0xBF)) = true := by decide
  obtain ⟨l, hl, hp⟩ := (Option.any_eq_true _ _).1 (hcases n h)
  exact ⟨l, hl, by simpa using hp⟩

/-- A leading byte of more than one byte is no ASCII character. -/
theorem not_lt_of_high {n : Nat} (h : 0x80 ≤ n) (h' : n < 256) : ¬ UInt8.ofNat n < 0x80 := by
  rw [UInt8.lt_iff_toNat_lt, toNat_ofNat h']
  change ¬ n < 0x80
  omega

/-- The bytes of a character are one piece. -/
theorem scan_encodeChar_append (c : Char) (rest : Bytes) :
    scan (String.utf8EncodeChar c ++ rest) = some c :: scan rest := by
  have hvalid : c.toNat < 0xD800 ∨ 0xDFFF < c.toNat ∧ c.toNat < 0x110000 := c.valid
  have hchar : Char.ofNat c.toNat = c := Char.ofNat_toNat c
  unfold String.utf8EncodeChar
  simp only [show c.val.toNat = c.toNat from rfl]
  generalize c.toNat = v at hvalid hchar
  split
  · -- one byte
    rename_i h1
    have hlt : UInt8.ofNat v < 0x80 := by
      rw [UInt8.lt_iff_toNat_lt, toNat_ofNat (by omega)]
      change v < 0x80
      omega
    rw [List.cons_append, List.nil_append, scan_cons]
    simp only [front, if_pos hlt, toNat_ofNat (show v < 256 by omega), hchar]
  · split
    · -- two bytes
      rename_i h1 h2
      rw [show v / 64 % 32 = v / 64 by omega]
      rw [List.cons_append, List.cons_append, List.nil_append, scan_cons,
        front_of_lead (not_lt_of_high (by omega) (by omega)) (lead?_two (by omega) (by omega))
          (by omega) (by simp) (by simp; omega), tails, show v / 64 * 64 + v % 64 = v by omega,
        hchar]
    · split
      · -- three bytes
        rename_i h1 h2 h3
        obtain ⟨l, hl, hbits, hmore, hlow, hhigh⟩ := lead?_three (n := v / 4096) (by omega)
        rw [show v / 4096 % 16 = v / 4096 by omega]
        simp only [List.cons_append, List.nil_append]
        rw [scan_cons, front_of_lead (not_lt_of_high (by omega) (by omega)) hl (by omega)
            (by rw [hlow]; split <;> omega) (by rw [hhigh]; split <;> omega), hmore, hbits,
          tails_succ_ofNat (by omega), tails,
          show (v / 4096 * 64 + v / 64 % 64) * 64 + v % 64 = v by omega, hchar]
      · -- four bytes
        rename_i h1 h2 h3
        obtain ⟨l, hl, hbits, hmore, hlow, hhigh⟩ := lead?_four (n := v / 262144) (by omega)
        rw [show v / 262144 % 8 = v / 262144 by omega]
        simp only [List.cons_append, List.nil_append]
        rw [scan_cons, front_of_lead (not_lt_of_high (by omega) (by omega)) hl (by omega)
            (by rw [hlow]; split <;> omega) (by rw [hhigh]; split <;> omega), hmore, hbits,
          tails_succ_ofNat (by omega), tails_succ_ofNat (by omega), tails,
          show ((v / 262144 * 64 + v / 4096 % 64) * 64 + v / 64 % 64) * 64 + v % 64 = v by omega,
          hchar]

/-! ### Texts -/

@[simp] theorem encode_nil : encode [] = [] := rfl

theorem encode_cons (c : Char) (cs : List Char) :
    encode (c :: cs) = String.utf8EncodeChar c ++ encode cs := rfl

@[simp] theorem encode_append (a b : List Char) : encode (a ++ b) = encode a ++ encode b :=
  List.flatMap_append

/-- Parts with the same text in front of each are written one by one. -/
theorem encode_flatMap_append (mark : List Char) (parts : List (List Char)) :
    encode (parts.flatMap (mark ++ ·)) = (parts.map encode).flatMap (encode mark ++ ·) := by
  rw [encode, List.flatMap_assoc, List.flatMap_map]
  exact congrArg (parts.flatMap ·) (funext fun part => encode_append mark part)

theorem scan_encode (cs : List Char) : scan (encode cs) = cs.map some := by
  induction cs with
  | nil => simp
  | cons c cs ih => rw [encode_cons, scan_encodeChar_append, ih, List.map_cons]

/-- The bytes of a text are read as that text. -/
theorem decode?_encode (cs : List Char) : decode? (encode cs) = some cs := by
  rw [decode?, scan_encode]
  induction cs with
  | nil => rfl
  | cons c cs ih => simp [List.mapM_cons, ih]

/-- No two texts are written as the same bytes. -/
theorem encode_inj {cs cs' : List Char} (h : encode cs = encode cs') : cs = cs' := by
  have hdecode := congrArg decode? h
  rwa [decode?_encode, decode?_encode, Option.some.injEq] at hdecode

theorem encode_eq_nil_iff {cs : List Char} : encode cs = [] ↔ cs = [] := by
  cases cs with
  | nil => simp
  | cons c cs => simp [encode_cons, String.utf8EncodeChar_ne_nil]

/-- The bytes of a character from `80` on are no ASCII characters. -/
theorem mem_encodeChar {b : UInt8} {c : Char} (hb : b.toNat < 0x80)
    (h : b ∈ String.utf8EncodeChar c) : c.toNat = b.toNat := by
  unfold String.utf8EncodeChar at h
  simp only [show c.val.toNat = c.toNat from rfl] at h
  generalize c.toNat = v at h
  split at h
  · simp only [List.mem_singleton] at h
    subst h
    rw [toNat_ofNat (by omega)]
  · split at h
    · simp only [List.mem_cons, List.not_mem_nil, or_false] at h
      rcases h with rfl | rfl <;> rw [toNat_ofNat (by omega)] at hb <;> omega
    · split at h
      · simp only [List.mem_cons, List.not_mem_nil, or_false] at h
        rcases h with rfl | rfl | rfl <;> rw [toNat_ofNat (by omega)] at hb <;> omega
      · simp only [List.mem_cons, List.not_mem_nil, or_false] at h
        rcases h with rfl | rfl | rfl | rfl <;> rw [toNat_ofNat (by omega)] at hb <;> omega

/-- An ASCII character stands in the bytes of a text only where it stands in the text. -/
theorem not_mem_encode {c : Char} {cs : List Char} (hc : c.toNat < 0x80) (h : c ∉ cs) :
    UInt8.ofNat c.toNat ∉ encode cs := by
  have hn : (UInt8.ofNat c.toNat).toNat = c.toNat := toNat_ofNat (by omega)
  intro hmem
  obtain ⟨d, hd, hb⟩ := List.mem_flatMap.1 hmem
  have := mem_encodeChar (by omega) hb
  rw [hn, Char.toNat_inj] at this
  exact h (this ▸ hd)

/-- The last character of a text whose bytes end with an ASCII character is that. -/
theorem getLast?_of_encode {cs : List Char} {b : UInt8} (hb : b.toNat < 0x80)
    (h : (encode cs).getLast? = some b) : ∃ c, cs.getLast? = some c ∧ c.toNat = b.toNat := by
  rcases List.eq_nil_or_concat cs with rfl | ⟨cs, c, rfl⟩
  · cases h
  · rw [List.concat_eq_append] at h ⊢
    refine ⟨c, List.getLast?_concat, ?_⟩
    rw [encode_append, encode_cons, encode_nil, List.append_nil, List.getLast?_append,
      List.getLast?_eq_some_getLast String.utf8EncodeChar_ne_nil, Option.some_or] at h
    cases h
    exact mem_encodeChar hb (List.getLast_mem _)

/-! ### What is read was written so -/

/-- The bytes of the character with a given number. -/
theorem encodeChar_ofNat {v : Nat} (h : v.isValidChar) :
    String.utf8EncodeChar (Char.ofNat v) =
      if v ≤ 0x7F then [UInt8.ofNat v]
      else if v ≤ 0x7FF then [UInt8.ofNat (v / 64 % 32 + 0xC0), UInt8.ofNat (v % 64 + 0x80)]
      else if v ≤ 0xFFFF then
        [UInt8.ofNat (v / 4096 % 16 + 0xE0), UInt8.ofNat (v / 64 % 64 + 0x80),
          UInt8.ofNat (v % 64 + 0x80)]
      else [UInt8.ofNat (v / 262144 % 8 + 0xF0), UInt8.ofNat (v / 4096 % 64 + 0x80),
          UInt8.ofNat (v / 64 % 64 + 0x80), UInt8.ofNat (v % 64 + 0x80)] := by
  have hv : (Char.ofNat v).val.toNat = v := by
    rw [Char.ofNat, dif_pos h]
    rfl
  unfold String.utf8EncodeChar
  simp only [hv]

theorem encodeChar_two {n m : Nat} (hn : 2 ≤ n) (hn' : n < 32) (hm : m < 64) :
    String.utf8EncodeChar (Char.ofNat (n * 64 + m)) =
      [UInt8.ofNat (n + 0xC0), UInt8.ofNat (m + 0x80)] := by
  rw [encodeChar_ofNat (.inl (by omega)), if_neg (by omega), if_pos (by omega),
    show (n * 64 + m) / 64 % 32 = n by omega, show (n * 64 + m) % 64 = m by omega]

/-- A character of three bytes, which is no surrogate and not written in an overlong form. -/
theorem encodeChar_three {n m k : Nat} (hn : n < 16) (hm : m < 64) (hk : k < 64)
    (hlow : n = 0 → 0x20 ≤ m) (hhigh : n = 13 → m < 0x20) :
    String.utf8EncodeChar (Char.ofNat ((n * 64 + m) * 64 + k)) =
      [UInt8.ofNat (n + 0xE0), UInt8.ofNat (m + 0x80), UInt8.ofNat (k + 0x80)] := by
  have hvalid : ((n * 64 + m) * 64 + k).isValidChar := by
    unfold Nat.isValidChar
    omega
  rw [encodeChar_ofNat hvalid, if_neg (by omega), if_neg (by omega), if_pos (by omega),
    show ((n * 64 + m) * 64 + k) / 4096 % 16 = n by omega,
    show ((n * 64 + m) * 64 + k) / 64 % 64 = m by omega,
    show ((n * 64 + m) * 64 + k) % 64 = k by omega]

/-- A character of four bytes, which is within the range and not written in an overlong form. -/
theorem encodeChar_four {n m k j : Nat} (hn : n < 5) (hm : m < 64) (hk : k < 64) (hj : j < 64)
    (hlow : n = 0 → 0x10 ≤ m) (hhigh : n = 4 → m < 0x10) :
    String.utf8EncodeChar (Char.ofNat (((n * 64 + m) * 64 + k) * 64 + j)) =
      [UInt8.ofNat (n + 0xF0), UInt8.ofNat (m + 0x80), UInt8.ofNat (k + 0x80),
        UInt8.ofNat (j + 0x80)] := by
  have hvalid : (((n * 64 + m) * 64 + k) * 64 + j).isValidChar := by
    unfold Nat.isValidChar
    omega
  rw [encodeChar_ofNat hvalid, if_neg (by omega), if_neg (by omega), if_neg (by omega),
    show (((n * 64 + m) * 64 + k) * 64 + j) / 262144 % 8 = n by omega,
    show (((n * 64 + m) * 64 + k) * 64 + j) / 4096 % 64 = m by omega,
    show (((n * 64 + m) * 64 + k) * 64 + j) / 64 % 64 = k by omega,
    show (((n * 64 + m) * 64 + k) * 64 + j) % 64 = j by omega]

/-- What a leading byte of two, three or four bytes announces. -/
theorem lead?_cases {b : UInt8} {l : Lead} (h : lead? b = some l) :
    (l.more = 0 ∧ 2 ≤ l.bits ∧ l.bits < 32 ∧ b = UInt8.ofNat (l.bits + 0xC0) ∧
      l.low.toNat = 0x80 ∧ l.high.toNat = 0xBF) ∨
    (l.more = 1 ∧ l.bits < 16 ∧ b = UInt8.ofNat (l.bits + 0xE0) ∧
      l.low.toNat = (if l.bits = 0 then 0xA0 else 0x80) ∧
      l.high.toNat = (if l.bits = 13 then 0x9F else 0xBF)) ∨
    (l.more = 2 ∧ l.bits < 5 ∧ b = UInt8.ofNat (l.bits + 0xF0) ∧
      l.low.toNat = (if l.bits = 0 then 0x90 else 0x80) ∧
      l.high.toNat = (if l.bits = 4 then 0x8F else 0xBF)) := by
  have hall : ∀ n < 256, (lead? (UInt8.ofNat n)).all fun l =>
      (l.more = 0 ∧ 2 ≤ l.bits ∧ l.bits < 32 ∧ UInt8.ofNat n = UInt8.ofNat (l.bits + 0xC0) ∧
        l.low.toNat = 0x80 ∧ l.high.toNat = 0xBF) ∨
      (l.more = 1 ∧ l.bits < 16 ∧ UInt8.ofNat n = UInt8.ofNat (l.bits + 0xE0) ∧
        l.low.toNat = (if l.bits = 0 then 0xA0 else 0x80) ∧
        l.high.toNat = (if l.bits = 13 then 0x9F else 0xBF)) ∨
      (l.more = 2 ∧ l.bits < 5 ∧ UInt8.ofNat n = UInt8.ofNat (l.bits + 0xF0) ∧
        l.low.toNat = (if l.bits = 0 then 0x90 else 0x80) ∧
        l.high.toNat = (if l.bits = 4 then 0x8F else 0xBF)) := by
    decide +kernel
  have hb := hall b.toNat b.toNat_lt
  rw [UInt8.ofNat_toNat, h] at hb
  simpa using hb

/-- A tail byte that has been read brought six bits. -/
theorem tails_succ_eq {bits n : Nat} {s rest : Bytes} {c : Char}
    (h : tails bits (n + 1) s = (some c, rest)) :
    ∃ m more, m < 64 ∧ s = UInt8.ofNat (m + 0x80) :: more ∧
      tails (bits * 64 + m) n more = (some c, rest) := by
  cases s with
  | nil => cases h
  | cons b more =>
    rw [tails] at h
    split at h
    · rename_i htail
      simp only [isTail, Bool.and_eq_true, decide_eq_true_eq, UInt8.le_iff_toNat_le] at htail
      change 0x80 ≤ b.toNat ∧ b.toNat ≤ 0xBF at htail
      refine ⟨b.toNat % 64, more, by omega, ?_, h⟩
      rw [show b.toNat % 64 + 0x80 = b.toNat by omega, UInt8.ofNat_toNat]
    · cases h

/-- A first piece of more than one byte that is a character has been written for it. -/
theorem encodeChar_of_lead {b x : UInt8} {l : Lead} {more left : Bytes} {c : Char}
    (hlead : lead? b = some l) (hx : l.low ≤ x ∧ x ≤ l.high)
    (h : tails (l.bits * 64 + x.toNat % 64) l.more more = (some c, left)) :
    b :: x :: more = String.utf8EncodeChar c ++ left := by
  rw [UInt8.le_iff_toNat_le, UInt8.le_iff_toNat_le] at hx
  have hm : x.toNat % 64 < 64 := Nat.mod_lt _ (by decide)
  have hxb (hrange : 0x80 ≤ x.toNat ∧ x.toNat ≤ 0xBF) : x = UInt8.ofNat (x.toNat % 64 + 0x80) := by
    rw [show x.toNat % 64 + 0x80 = x.toNat by omega, UInt8.ofNat_toNat]
  obtain ⟨hmore, hbits, hbits', hb, hlow, hhigh⟩ | ⟨hmore, hbits, hb, hlow, hhigh⟩ |
    ⟨hmore, hbits, hb, hlow, hhigh⟩ := lead?_cases hlead
  · -- two bytes
    rw [hmore, tails] at h
    cases h
    rw [encodeChar_two hbits hbits' hm, ← hxb (by omega), hb]
    rfl
  · -- three bytes
    rw [hmore] at h
    obtain ⟨k, more, hk, rfl, hlast⟩ := tails_succ_eq h
    rw [tails] at hlast
    cases hlast
    have hrange : 0x80 ≤ x.toNat ∧ x.toNat ≤ 0xBF := by
      split at hlow <;> split at hhigh <;> omega
    rw [encodeChar_three hbits hm hk (fun h0 => by rw [if_pos h0] at hlow; omega)
      (fun h13 => by rw [if_pos h13] at hhigh; omega), ← hxb hrange, hb]
    rfl
  · -- four bytes
    rw [hmore] at h
    obtain ⟨k, more, hk, rfl, hthird⟩ := tails_succ_eq h
    obtain ⟨j, more, hj, rfl, hlast⟩ := tails_succ_eq hthird
    rw [tails] at hlast
    cases hlast
    have hrange : 0x80 ≤ x.toNat ∧ x.toNat ≤ 0xBF := by
      split at hlow <;> split at hhigh <;> omega
    rw [encodeChar_four hbits hm hk hj (fun h0 => by rw [if_pos h0] at hlow; omega)
      (fun h4 => by rw [if_pos h4] at hhigh; omega), ← hxb hrange, hb]
    rfl

/-- The first piece, if it is a character, has been written for it. -/
theorem encodeChar_of_front {b : UInt8} {rest left : Bytes} {c : Char}
    (h : front b rest = (some c, left)) : b :: rest = String.utf8EncodeChar c ++ left := by
  unfold front at h
  split at h
  · -- one byte
    rename_i hb
    rw [UInt8.lt_iff_toNat_lt] at hb
    change b.toNat < 0x80 at hb
    cases h
    rw [encodeChar_ofNat (.inl (by omega)), if_pos (by omega), UInt8.ofNat_toNat]
    rfl
  · split at h
    · cases h
    · cases h
    · rename_i hlead
      split at h
      · rename_i hx
        exact encodeChar_of_lead hlead hx h
      · cases h

/-- A byte string without a bad piece is what its characters are written as. -/
theorem encode_of_scan {s : Bytes} {cs : List Char} (h : scan s = cs.map some) : s = encode cs := by
  induction cs generalizing s with
  | nil =>
    cases s with
    | nil => rfl
    | cons b rest =>
      rw [scan_cons] at h
      cases h
  | cons c cs ih =>
    cases s with
    | nil =>
      rw [scan_nil] at h
      cases h
    | cons b rest =>
      rw [scan_cons, List.map_cons, List.cons.injEq] at h
      rw [encodeChar_of_front (Prod.ext h.1 rfl), encode_cons, ← ih h.2]

theorem mapM_id_eq_some {ps : List (Option Char)} {cs : List Char} (h : ps.mapM id = some cs) :
    ps = cs.map some := by
  induction ps generalizing cs with
  | nil =>
    cases h
    rfl
  | cons p ps ih =>
    rw [List.mapM_cons] at h
    obtain ⟨c, hc, h⟩ := Option.bind_eq_some_iff.1 h
    obtain ⟨rest, hrest, h⟩ := Option.bind_eq_some_iff.1 h
    cases h
    rw [List.map_cons, ← ih hrest]
    exact congrArg (· :: ps) hc

/-- **The well-formed byte strings are those that some text is written as.** -/
theorem decode?_eq_some_iff {s : Bytes} {cs : List Char} : decode? s = some cs ↔ s = encode cs := by
  constructor
  · intro h
    exact encode_of_scan (mapM_id_eq_some h)
  · rintro rfl
    exact decode?_encode cs

/-- Nothing is replaced in what a text is written as. -/
theorem decodeLossy_encode (cs : List Char) : decodeLossy (encode cs) = cs := by
  rw [decodeLossy, scan_encode, List.map_map]
  exact List.map_id cs

/-! ### ASCII characters in a text -/

/-- An ASCII character is written as one byte. -/
theorem encodeChar_of_lt {c : Char} (h : c.toNat < 0x80) :
    String.utf8EncodeChar c = [UInt8.ofNat c.toNat] := by
  rw [← Char.ofNat_toNat c, encodeChar_ofNat (.inl (by omega)), Char.ofNat_toNat, if_pos (by omega)]

/-- An ASCII character opens what is written for a text only if it opens the text. -/
theorem encode_eq_cons {c : Char} (hc : c.toNat < 0x80) {cs : List Char} {rest : Bytes}
    (h : encode cs = UInt8.ofNat c.toNat :: rest) :
    ∃ more, cs = c :: more ∧ encode more = rest := by
  have hbyte : (UInt8.ofNat c.toNat).toNat = c.toNat := toNat_ofNat (by omega)
  cases cs with
  | nil => cases h
  | cons d more =>
    rw [encode_cons] at h
    obtain ⟨b, tail, hd⟩ := List.exists_cons_of_ne_nil (String.utf8EncodeChar_ne_nil (c := d))
    rw [hd, List.cons_append] at h
    obtain ⟨rfl, htail⟩ := List.cons.inj h
    have hdc : d = c := by
      rw [← Char.toNat_inj, ← hbyte]
      exact mem_encodeChar (by omega) (hd ▸ List.mem_cons_self)
    subst hdc
    rw [encodeChar_of_lt hc] at hd
    obtain ⟨-, rfl⟩ := List.cons.inj hd
    exact ⟨more, rfl, htail⟩

/-- ASCII characters open the bytes of a text only if they open the text. -/
theorem prefix_of_prefix_encode {mark cs : List Char} (hmark : ∀ c ∈ mark, c.toNat < 0x80)
    (h : encode mark <+: encode cs) : mark <+: cs := by
  induction mark generalizing cs with
  | nil => exact List.nil_prefix
  | cons m mark ih =>
    obtain ⟨hm, hmark⟩ := List.forall_mem_cons.1 hmark
    obtain ⟨rest, hrest⟩ := h
    rw [encode_cons, encodeChar_of_lt hm] at hrest
    obtain ⟨more, rfl, hmore⟩ := encode_eq_cons hm hrest.symm
    exact List.cons_prefix_cons.2 ⟨rfl, ih hmark ⟨rest, hmore.symm⟩⟩

/-- **ASCII characters occur in the bytes of a text only where they occur in the text.** -/
theorem infix_of_infix_encode {mark cs : List Char} (hmark : ∀ c ∈ mark, c.toNat < 0x80)
    (h : encode mark <:+: encode cs) : mark <:+: cs := by
  cases mark with
  | nil => exact List.nil_infix
  | cons m mark =>
    induction cs with
    | nil =>
      rw [encode_nil, List.infix_nil, encode_eq_nil_iff] at h
      cases h
    | cons c cs ih =>
      obtain ⟨front, back, h⟩ := h
      rw [encode_cons c cs, List.append_assoc] at h
      rcases List.append_eq_append_iff.1 h with ⟨tail, hc, htail⟩ | ⟨more, -, hmore⟩
      · cases tail with
        | nil =>
          -- the mark begins behind the first character
          have hprefix : encode (m :: mark) <+: encode cs := ⟨back, htail⟩
          exact (ih hprefix.isInfix).trans (List.suffix_cons c cs).isInfix
        | cons b tail =>
          -- it begins inside the first character, which is then the first of the mark
          have hm := (List.forall_mem_cons.1 hmark).1
          rw [encode_cons, encodeChar_of_lt hm, List.append_assoc, List.singleton_append,
            List.cons_append] at htail
          obtain ⟨rfl, -⟩ := List.cons.inj htail
          have hbyte : (UInt8.ofNat m.toNat).toNat = m.toNat := toNat_ofNat (by omega)
          have hcm : c = m := by
            rw [← Char.toNat_inj, ← hbyte]
            exact mem_encodeChar (by omega) (hc ▸ List.mem_append_right front List.mem_cons_self)
          subst hcm
          rw [encodeChar_of_lt hm, List.singleton_eq_append_iff] at hc
          obtain ⟨rfl, -⟩ : front = [] ∧ tail = [] := by simpa using hc
          rw [List.nil_append, ← encode_cons] at h
          exact (prefix_of_prefix_encode hmark ⟨back, h⟩).isInfix
      · have hinfix : encode (m :: mark) <:+: encode cs :=
          ⟨more, back, by rw [hmore, List.append_assoc]⟩
        exact (ih hinfix).trans (List.suffix_cons c cs).isInfix

/-- ASCII characters stand in the bytes of a text where they stand in the text. -/
theorem encode_infix_encode_iff {mark cs : List Char} (hmark : ∀ c ∈ mark, c.toNat < 0x80) :
    encode mark <:+: encode cs ↔ mark <:+: cs := by
  constructor
  · exact infix_of_infix_encode hmark
  · rintro ⟨front, back, rfl⟩
    exact ⟨encode front, encode back, by rw [encode_append, encode_append]⟩

end ClusterLink.Text.Utf8
