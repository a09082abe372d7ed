import ClusterLink.Proofs.Text.Blank
import ClusterLink.Text.Numeral

/-!
# Numerals as they are written

`Writes base cs n` says that `cs` writes the number `n` in a base up to sixteen:
the digits of `n` without a superfluous zero, then any number of zeros in front,
then any letter in either case. Such a numeral is read as the number that it
writes (`read?_of_writes`), and all its characters are ASCII letters and digits
(`isAlphanum_of_writes`). Any digits write a number, if there is at least one
(`exists_writes_iff`).

Besides these only one kind of text is read, such a numeral behind a plus sign
(`Signed`, `read?_eq_some_iff`).
-/

namespace ClusterLink.Text

namespace Numeral

/-- The texts that write a number: zeros may stand in front, and letters may be of either case. -/
def Writes (base : Nat) (cs : List Char) (n : Nat) : Prop :=
  ∃ zeros, cs.map Char.toLower = List.replicate zeros '0' ++ Nat.toDigits base n

/-! ### Digits -/

theorem digit?_eq (base : Nat) (c : Char) :
    digit? base c =
      (if 48 ≤ c.toNat ∧ c.toNat ≤ 57 then some (c.toNat - 48)
        else if 97 ≤ c.toNat ∧ c.toNat ≤ 122 then some (c.toNat - 97 + 10)
        else if 65 ≤ c.toNat ∧ c.toNat ≤ 90 then some (c.toNat - 65 + 10)
        else none).filter (· < base) := by
  have hd : c.isDigit = true ↔ 48 ≤ c.toNat ∧ c.toNat ≤ 57 := Char.isDigit_iff_toNat
  simp only [digit?, hd, isLower_iff_toNat, isUpper_iff_toNat]
  rfl

theorem digit?_toLower (base : Nat) (c : Char) : digit? base c.toLower = digit? base c := by
  rw [digit?_eq, digit?_eq, toNat_toLower]
  by_cases h : 65 ≤ c.toNat ∧ c.toNat ≤ 90
  · rw [if_pos h, if_neg (by omega), if_pos (by omega), if_neg (by omega), if_neg (by omega),
      if_pos h, show c.toNat + 32 - 97 = c.toNat - 65 by omega]
  · rw [if_neg h]

theorem digit?_digitChar {base n : Nat} (hb : base ≤ 16) (hn : n < base) :
    digit? base n.digitChar = some n := by
  have hvalue : ∀ n < 16, digit? 16 n.digitChar = some n := by decide
  have h := hvalue n (by omega)
  rw [digit?_eq] at h ⊢
  rw [Option.filter_eq_some_iff] at h ⊢
  exact ⟨h.1, by simpa using hn⟩

/-- Digits are ASCII letters and digits. -/
theorem isAlphanum_of_digit? {base n : Nat} {c : Char} (h : digit? base c = some n) :
    c.isAlphanum := by
  unfold digit? at h
  rw [Option.filter_eq_some_iff] at h
  have h := h.1
  rw [isAlphanum_iff]
  split at h
  · exact .inr ‹_›
  · split at h
    · exact .inl (.inr ‹_›)
    · split at h
      · exact .inl (.inl ‹_›)
      · cases h

/-! ### Numbers -/

@[simp] theorem digits?_nil (base : Nat) : digits? base [] = some 0 := rfl

/-- The last digit counts least. -/
theorem digits?_append_singleton (base : Nat) (cs : List Char) (c : Char) :
    digits? base (cs ++ [c]) =
      (digits? base cs).bind fun n => (digit? base c).map (n * base + ·) := by
  simp only [digits?, List.foldlM_append]
  cases List.foldlM (fun n c => (digit? base c).map (n * base + ·)) 0 cs with
  | none => rfl
  | some n =>
    simp only [Option.bind_some, List.foldlM_cons, List.foldlM_nil, Option.bind_eq_bind]
    cases digit? base c <;> rfl

theorem digits?_toLower (base : Nat) (cs : List Char) :
    digits? base (cs.map Char.toLower) = digits? base cs := by
  simp only [digits?, List.foldlM_map, digit?_toLower]

theorem digits?_toDigits {base : Nat} (hb : 2 ≤ base) (hb' : base ≤ 16) (n : Nat) :
    digits? base (Nat.toDigits base n) = some n := by
  induction n using Nat.strongRecOn with
  | ind n ih =>
    by_cases hlt : n < base
    · rw [Nat.toDigits_of_lt_base hlt]
      simp [digits?, digit?_digitChar hb' hlt]
    · have hdiv : n / base < n := Nat.div_lt_self (by omega) (by omega)
      rw [Nat.toDigits_of_base_le (by omega) (by omega), digits?_append_singleton, ih _ hdiv,
        digit?_digitChar hb' (Nat.mod_lt n (by omega)), Option.bind_some, Option.map_some,
        Option.some.injEq, Nat.mul_comm, Nat.div_add_mod]

theorem digits?_zeros {base : Nat} (hb : 0 < base) (zeros : Nat) (cs : List Char) :
    digits? base (List.replicate zeros '0' ++ cs) = digits? base cs := by
  have h0 : digit? base '0' = some 0 := by
    rw [digit?_eq]
    simpa using hb
  induction zeros with
  | zero => simp
  | succ zeros ih =>
    rw [List.replicate_succ, List.cons_append, ← ih, digits?, digits?, List.foldlM_cons, h0]
    simp

theorem digits?_of_writes {base n : Nat} {cs : List Char} (hb : 2 ≤ base) (hb' : base ≤ 16)
    (h : Writes base cs n) : digits? base cs = some n := by
  obtain ⟨zeros, hcs⟩ := h
  rw [← digits?_toLower, hcs, digits?_zeros (by omega), digits?_toDigits hb hb']

/-- Where digits can be read, each character is one. -/
theorem digit?_of_digits? {base n : Nat} {cs : List Char} (h : digits? base cs = some n) :
    ∀ c ∈ cs, ∃ d, digit? base c = some d := by
  induction hr : cs.reverse generalizing cs n with
  | nil => simp [List.reverse_eq_nil_iff.1 hr]
  | cons c rest ih =>
    have hcs : cs = rest.reverse ++ [c] := by
      rw [← List.reverse_reverse cs, hr, List.reverse_cons]
    rw [hcs, digits?_append_singleton] at h
    obtain ⟨m, hm, hd⟩ := Option.bind_eq_some_iff.1 h
    obtain ⟨d, hd, -⟩ := Option.map_eq_some_iff.1 hd
    intro x hx
    rw [hcs, List.mem_append, List.mem_singleton] at hx
    rcases hx with hx | rfl
    · exact ih hm (List.reverse_reverse rest) x hx
    · exact ⟨d, hd⟩

/-- A written number consists of ASCII letters and digits. -/
theorem isAlphanum_of_writes {base n : Nat} {cs : List Char} (hb : 2 ≤ base) (hb' : base ≤ 16)
    (h : Writes base cs n) : ∀ c ∈ cs, c.isAlphanum := by
  intro c hc
  obtain ⟨d, hd⟩ := digit?_of_digits? (digits?_of_writes hb hb' h) c hc
  exact isAlphanum_of_digit? hd

/-- A written number has no sign. -/
theorem unsigned_of_writes {base n : Nat} {cs : List Char} (hb : 2 ≤ base) (hb' : base ≤ 16)
    (h : Writes base cs n) : unsigned cs = cs := by
  unfold unsigned
  split
  · exact absurd (isAlphanum_of_writes hb hb' h '+' List.mem_cons_self) (by decide)
  · rfl

/-- A written number is read. -/
theorem read?_of_writes {base bound n : Nat} {cs : List Char} (hb : 2 ≤ base) (hb' : base ≤ 16)
    (h : Writes base cs n) (hn : n < bound) : read? base bound cs = some n := by
  have hdigits := digits?_of_writes hb hb' h
  have hsigned := unsigned_of_writes hb hb' h
  obtain ⟨zeros, hcs⟩ := h
  cases cs with
  | nil => simp [Nat.toDigits_ne_nil] at hcs
  | cons c rest =>
    simp only [read?, hsigned, hdigits]
    simpa using hn

/-- Decimal digits are their own lower case. -/
theorem writes_toDigits_ten (n : Nat) : Writes 10 (Nat.toDigits 10 n) n := by
  refine ⟨0, ?_⟩
  rw [List.replicate_zero, List.nil_append]
  conv => rhs; rw [← List.map_id (Nat.toDigits 10 n)]
  refine List.map_congr_left fun c hc => ?_
  have hdigit := Char.isDigit_iff_toNat.1 (Nat.isDigit_of_mem_toDigits (by decide) (by decide) hc)
  change 48 ≤ c.toNat ∧ c.toNat ≤ 57 at hdigit
  rw [id_eq, ← Char.toNat_inj, toNat_toLower, if_neg (by omega)]

/-! ### What is read was written so -/

/-- The texts that are read as a number: its digits, and one plus sign may stand in front. -/
def Signed (base : Nat) (cs : List Char) (n : Nat) : Prop :=
  Writes base cs n ∨ ∃ digits, cs = '+' :: digits ∧ Writes base digits n

theorem toNat_digitChar : ∀ n < 16, n.digitChar.toNat = if n < 10 then n + 48 else n + 87 := by
  decide

/-- A digit is the digit of its value, in either case. -/
theorem toLower_of_digit? {base n : Nat} {c : Char} (hb : base ≤ 16) (h : digit? base c = some n) :
    c.toLower = n.digitChar ∧ n < base := by
  rw [digit?_eq, Option.filter_eq_some_iff, decide_eq_true_eq] at h
  obtain ⟨hvalue, hn⟩ := h
  refine ⟨?_, hn⟩
  rw [← Char.toNat_inj, toNat_toLower, toNat_digitChar n (by omega)]
  split at hvalue
  · cases hvalue
    rw [if_neg (by omega), if_pos (by omega)]
    omega
  · split at hvalue
    · cases hvalue
      rw [if_neg (by omega), if_neg (by omega)]
      omega
    · split at hvalue
      · cases hvalue
        rw [if_pos (by omega), if_neg (by omega)]
        omega
      · cases hvalue

/-- A digit writes its value. -/
theorem writes_singleton {base d : Nat} {c : Char} (hc : c.toLower = d.digitChar) (hd : d < base) :
    Writes base [c] d := by
  refine ⟨0, ?_⟩
  rw [Nat.toDigits_of_lt_base hd]
  exact congrArg (· :: []) hc

/-- One more digit may stand behind a written number. -/
theorem Writes.snoc {base m d : Nat} {cs : List Char} {c : Char} (hb : 2 ≤ base)
    (h : Writes base cs m) (hc : c.toLower = d.digitChar) (hd : d < base) :
    Writes base (cs ++ [c]) (m * base + d) := by
  obtain ⟨zeros, hcs⟩ := h
  rw [Writes, List.map_append, hcs, List.map_singleton, hc]
  cases m with
  | zero =>
    -- the digits so far are zeros in front of this one
    refine ⟨zeros + 1, ?_⟩
    rw [Nat.zero_mul, Nat.zero_add, Nat.toDigits_of_lt_base hd, Nat.toDigits_of_lt_base (by omega),
      List.replicate_succ']
    rfl
  | succ m =>
    refine ⟨zeros, ?_⟩
    have hle : base ≤ (m + 1) * base + d :=
      Nat.le_add_right_of_le (Nat.le_mul_of_pos_left base m.succ_pos)
    rw [Nat.toDigits_of_base_le (by omega) hle, Nat.mul_comm (m + 1) base,
      Nat.mul_add_div (by omega), Nat.mul_add_mod, Nat.div_eq_of_lt hd, Nat.mod_eq_of_lt hd,
      Nat.add_zero, List.append_assoc]

/-- Digits that can be read write the number that is read. -/
theorem writes_of_digits? {base n : Nat} {cs : List Char} (hb : 2 ≤ base) (hb' : base ≤ 16)
    (hcs : cs ≠ []) (h : digits? base cs = some n) : Writes base cs n := by
  induction hr : cs.reverse generalizing cs n with
  | nil => exact absurd (List.reverse_eq_nil_iff.1 hr) hcs
  | cons c rest ih =>
    have hsnoc : cs = rest.reverse ++ [c] := by
      rw [← List.reverse_reverse cs, hr, List.reverse_cons]
    rw [hsnoc, digits?_append_singleton] at h
    obtain ⟨m, hm, h⟩ := Option.bind_eq_some_iff.1 h
    obtain ⟨d, hd, rfl⟩ := Option.map_eq_some_iff.1 h
    obtain ⟨hc, hlt⟩ := toLower_of_digit? hb' hd
    rw [hsnoc]
    cases rest with
    | nil =>
      cases hm
      rw [Nat.zero_mul, Nat.zero_add]
      exact writes_singleton hc hlt
    | cons c' rest =>
      exact (ih (by simp) hm (List.reverse_reverse _)).snoc hb hc hlt

/-- The digits of a base, in either case. -/
def IsDigit (base : Nat) (c : Char) : Prop :=
  ∃ d < base, c.toLower = d.digitChar

/-- Every text of one or more digits writes a number. -/
theorem exists_writes_iff {base : Nat} {cs : List Char} (hb : 2 ≤ base) (hb' : base ≤ 16) :
    (∃ n, Writes base cs n) ↔ cs ≠ [] ∧ ∀ c ∈ cs, IsDigit base c := by
  constructor
  · rintro ⟨n, h⟩
    constructor
    · rintro rfl
      obtain ⟨zeros, hcs⟩ := h
      simp [Nat.toDigits_ne_nil] at hcs
    · intro c hc
      obtain ⟨d, hd⟩ := digit?_of_digits? (digits?_of_writes hb hb' h) c hc
      obtain ⟨hlower, hlt⟩ := toLower_of_digit? hb' hd
      exact ⟨d, hlt, hlower⟩
  · rintro ⟨hcs, hdigits⟩
    induction hr : cs.reverse generalizing cs with
    | nil => exact absurd (List.reverse_eq_nil_iff.1 hr) hcs
    | cons c rest ih =>
      have hsnoc : cs = rest.reverse ++ [c] := by
        rw [← List.reverse_reverse cs, hr, List.reverse_cons]
      rw [hsnoc, List.forall_mem_append, List.forall_mem_singleton] at hdigits
      obtain ⟨hrest, d, hd, hc⟩ := hdigits
      rw [hsnoc]
      cases rest with
      | nil => exact ⟨d, writes_singleton hc hd⟩
      | cons c' rest =>
        obtain ⟨m, hm⟩ := ih (by simp) hrest (List.reverse_reverse _)
        exact ⟨m * base + d, hm.snoc hb hc hd⟩

theorem read?_plus {base bound : Nat} {cs : List Char} (h : unsigned cs = cs) :
    read? base bound ('+' :: cs) = read? base bound cs := by
  rw [read?, read?, h]
  rfl

/-- **A numeral is read exactly if it is a number below the bound, with or without a plus sign.** -/
theorem read?_eq_some_iff {base bound n : Nat} {cs : List Char} (hb : 2 ≤ base) (hb' : base ≤ 16) :
    read? base bound cs = some n ↔ Signed base cs n ∧ n < bound := by
  constructor
  · intro h
    unfold read? at h
    split at h
    · cases h
    · rename_i c rest hcs
      rw [Option.filter_eq_some_iff, decide_eq_true_eq] at h
      obtain ⟨hdigits, hn⟩ := h
      have hwrites := writes_of_digits? hb hb' (List.cons_ne_nil c rest) hdigits
      refine ⟨?_, hn⟩
      unfold unsigned at hcs
      split at hcs
      · exact .inr ⟨c :: rest, by rw [hcs], hwrites⟩
      · exact .inl (hcs ▸ hwrites)
  · rintro ⟨hwrites | ⟨digits, rfl, hwrites⟩, hn⟩
    · exact read?_of_writes hb hb' hwrites hn
    · rw [read?_plus (unsigned_of_writes hb hb' hwrites)]
      exact read?_of_writes hb hb' hwrites hn

/-- In a numeral there is nothing but letters, digits and the plus sign. -/
theorem not_mem_of_signed {base n : Nat} {cs : List Char} {c : Char} (hb : 2 ≤ base)
    (hb' : base ≤ 16) (h : Signed base cs n) (hc : c.isAlphanum = false) (hplus : c ≠ '+') :
    c ∉ cs := by
  have hdigits {digits : List Char} (hwrites : Writes base digits n) : c ∉ digits := by
    intro hmem
    have halpha := isAlphanum_of_writes hb hb' hwrites c hmem
    rw [hc] at halpha
    cases halpha
  rcases h with hwrites | ⟨digits, rfl, hwrites⟩
  · exact hdigits hwrites
  · exact List.not_mem_cons_of_ne_of_not_mem hplus (hdigits hwrites)

end Numeral

end ClusterLink.Text
