import ClusterLink.Json.Token
import Mathlib.Data.List.TakeWhile

/-!
# How tokens are spelled

A text spells a list of tokens, one after another, with any blanks between them (`Laid`). One
token has many spellings: a character of a string may stand for itself, have a short escape or
be written as a code unit, and an exponent may have its letter in either case and a plus sign
in front. The lexer reads exactly the texts that spell something, and it reads the tokens that
they spell (`Token.lex?_eq_some_iff`).

## The argument

Each part of a token has its own reader and its own spellings, and for each there are two
lemmas: a spelling is read, and nothing else is. A number ends where it cannot go on. No token
and no blank begins with a point or with the letter of an exponent, so only a digit behind a
number would be a part of it, and a digit does not follow it by the definition of `Laid`.
-/

namespace ClusterLink.Json

/-! ### Strings -/

/-- How a piece is spelled inside a string. -/
inductive Piece.Spells : Piece → List Char → Prop where
  /-- A character stands for itself, but for the quote, the backslash and those below the space. -/
  | plain {c : Char} : ¬ c < ' ' → c ≠ '"' → c ≠ '\\' → Spells (.char c) [c]
  /-- A character may have an escape of one letter or mark. -/
  | escape {e c : Char} : escaped? e = some c → Spells (.char c) ['\\', e]
  /-- A code unit has an escape of four digits. -/
  | unit {a b c d : Char} {n : Nat} : unit? a b c d = some n →
      Spells (.unit n) ['\\', 'u', a, b, c, d]

/-- How the pieces of a string are spelled, one after another. -/
inductive Piece.SpellAll : List Piece → List Char → Prop where
  /-- No pieces. -/
  | nil : SpellAll [] []
  /-- One more piece in front. -/
  | cons {p : Piece} {ps : List Piece} {cs rest : List Char} : p.Spells cs → SpellAll ps rest →
      SpellAll (p :: ps) (cs ++ rest)

variable {s rest : List Char} {ps acc : List Piece}

theorem stringOnto?_of_spells {p : Piece} {cs : List Char} (h : p.Spells cs) :
    stringOnto? acc (cs ++ rest) = stringOnto? (p :: acc) rest := by
  cases h with
  | @plain c hspace hquote hslash =>
    rw [List.singleton_append, stringOnto?]
    · exact if_neg (not_or.2 ⟨hspace, hslash⟩)
    · exact hquote
    · exact fun _ _ _ _ _ hc _ => hslash hc
    · exact fun _ _ hc _ => hslash hc
  | @escape e c hescape =>
    have hu : e ≠ 'u' := by
      rintro rfl
      simp [escaped?] at hescape
    rw [List.cons_append, List.singleton_append, stringOnto?, hescape]
    exact fun _ _ _ _ _ he _ => hu he
  | unit hunit =>
    simp only [List.cons_append, List.nil_append, stringOnto?, hunit]

/-- Spelled pieces are read up to the closing quote. -/
theorem stringOnto?_of_spellAll (h : Piece.SpellAll ps s) :
    stringOnto? acc (s ++ '"' :: rest) = some (acc.reverse ++ ps, rest) := by
  induction h generalizing acc with
  | nil => simp [stringOnto?]
  | cons hp _ ih => rw [List.append_assoc, stringOnto?_of_spells hp, ih, List.reverse_cons,
      List.append_assoc, List.singleton_append]

/-- Nothing else is read as a string. -/
theorem spellAll_of_stringOnto? {r : List Piece × List Char} (h : stringOnto? acc s = some r) :
    ∃ ps cs, Piece.SpellAll ps cs ∧ s = cs ++ '"' :: r.2 ∧ r.1 = acc.reverse ++ ps := by
  fun_induction stringOnto? acc s with
  | case1 => cases h
  | case2 acc rest =>
    obtain rfl := Option.some.inj h
    exact ⟨[], [], .nil, rfl, (List.append_nil _).symm⟩
  | case3 acc a b c d rest n hunit ih =>
    obtain ⟨ps, cs, hps, rfl, hr⟩ := ih h
    exact ⟨_, _, .cons (.unit hunit) hps, by simp, by simp [hr]⟩
  | case4 => cases h
  | case5 acc e rest _ c hescape ih =>
    obtain ⟨ps, cs, hps, rfl, hr⟩ := ih h
    exact ⟨_, _, .cons (.escape hescape) hps, by simp, by simp [hr]⟩
  | case6 => cases h
  | case7 => cases h
  | case8 acc c rest hquote _ _ hplain ih =>
    obtain ⟨ps, cs, hps, rfl, hr⟩ := ih h
    rw [not_or] at hplain
    exact ⟨_, _, .cons (.plain hplain.1 hquote hplain.2) hps, by simp, by simp [hr]⟩

/-! ### Numbers -/

/-- Some digits, at least one. -/
def IsDigits (ds : List Char) : Prop :=
  ds ≠ [] ∧ ∀ d ∈ ds, d.isDigit = true

/-- A text that does not open with a digit. -/
def NoDigit (s : List Char) : Prop :=
  ∀ c ∈ s.head?, c.isDigit = false

/-- A text that does not go on with a number. -/
def NoNumber (s : List Char) : Prop :=
  ∀ c ∈ s.head?, c.isDigit = false ∧ c ≠ '.' ∧ c ≠ 'e' ∧ c ≠ 'E'

/-- How the digits after the point are spelled. -/
inductive FractionSpells : List Char → List Char → Prop where
  /-- There is no point. -/
  | none : FractionSpells [] []
  /-- A point and digits. -/
  | some {ds : List Char} : IsDigits ds → FractionSpells ds ('.' :: ds)

/-- How the sign of an exponent is spelled; a minus sign is `true`. -/
inductive SignSpells : Bool → List Char → Prop where
  /-- There is no sign. -/
  | none : SignSpells false []
  /-- A plus sign, which changes nothing. -/
  | plus : SignSpells false ['+']
  /-- A minus sign. -/
  | minus : SignSpells true ['-']

/-- How an exponent is spelled. -/
inductive ExponentSpells : Option (Bool × List Char) → List Char → Prop where
  /-- There is no exponent. -/
  | none : ExponentSpells none []
  /-- A letter of either case, a sign and digits. -/
  | some {e : Char} {negative : Bool} {sign ds : List Char} : e = 'e' ∨ e = 'E' →
      SignSpells negative sign → IsDigits ds →
      ExponentSpells (some (negative, ds)) (e :: (sign ++ ds))

/-- How a number is spelled after its sign. -/
structure Numeral.SpellsUnsigned (n : Numeral) (cs : List Char) : Prop where
  /-- There are digits before the point. -/
  digits : IsDigits n.whole
  /-- A zero in front stands alone. -/
  whole_ne : ∀ d ds, n.whole ≠ '0' :: d :: ds
  /-- The fraction and the exponent stand behind them. -/
  parts : ∃ fraction exponent, FractionSpells n.fraction fraction ∧
    ExponentSpells n.exponent exponent ∧ cs = n.whole ++ (fraction ++ exponent)

variable {ds : List Char}

theorem noDigit_cons {c : Char} (h : c.isDigit = false) : NoDigit (c :: s) := by
  rintro _ ⟨⟩
  exact h

theorem NoNumber.noDigit (h : NoNumber rest) : NoDigit rest :=
  fun c hc => (h c hc).1

/-- The digits in front are those up to the first other character. -/
theorem digits?_eq_some_iff :
    digits? s = some (ds, rest) ↔ s = ds ++ rest ∧ IsDigits ds ∧ NoDigit rest := by
  constructor
  · intro h
    have hspan : s.takeWhile Char.isDigit ++ s.dropWhile Char.isDigit = s :=
      List.takeWhile_append_dropWhile
    unfold digits? at h
    split at h
    · cases h
    · rename_i d ds' htake
      obtain ⟨rfl, rfl⟩ := Prod.mk.inj (Option.some.inj h)
      rw [htake] at hspan
      refine ⟨hspan.symm, ⟨List.cons_ne_nil _ _, ?_⟩, ?_⟩
      · intro c hc
        rw [← htake] at hc
        exact List.mem_takeWhile_imp hc
      · intro c hc
        have hother := List.head?_dropWhile_not Char.isDigit s
        rw [hc] at hother
        exact hother
  · rintro ⟨rfl, ⟨hne, hdigits⟩, hrest⟩
    have hstop : rest.takeWhile Char.isDigit = [] ∧ rest.dropWhile Char.isDigit = rest := by
      cases rest with
      | nil => exact ⟨rfl, rfl⟩
      | cons c rest =>
        have hc : c.isDigit = false := hrest c rfl
        simp [hc]
    unfold digits?
    rw [List.takeWhile_append_of_pos hdigits, List.dropWhile_append_of_pos hdigits, hstop.1,
      hstop.2, List.append_nil]
    split
    · exact absurd rfl hne
    · rfl

theorem whole?_eq_some_iff : whole? s = some (ds, rest) ↔
    s = ds ++ rest ∧ IsDigits ds ∧ NoDigit rest ∧ ∀ d ds', ds ≠ '0' :: d :: ds' := by
  unfold whole?
  constructor
  · intro h
    split at h
    · cases h
    · rename_i hzero
      obtain ⟨hs, hdigits, hrest⟩ := digits?_eq_some_iff.1 h
      exact ⟨hs, hdigits, hrest, fun d ds' hds => hzero d ds' rest (hds ▸ h)⟩
  · rintro ⟨hs, hdigits, hrest, hzero⟩
    have h := digits?_eq_some_iff.2 ⟨hs, hdigits, hrest⟩
    rw [h]
    split
    · rename_i d ds' _ heq
      exact absurd (congrArg Prod.fst (Option.some.inj heq)) (hzero d ds')
    · rfl

/-- A spelled fraction is read. -/
theorem fraction?_of_spells {cs : List Char} (h : FractionSpells ds cs)
    (hrest : NoDigit rest ∧ rest.head? ≠ some '.') : fraction? (cs ++ rest) = some (ds, rest) := by
  cases h with
  | none =>
    rw [List.nil_append]
    unfold fraction?
    split
    · exact absurd rfl hrest.2
    · rfl
  | some hdigits => exact digits?_eq_some_iff.2 ⟨rfl, hdigits, hrest.1⟩

/-- Nothing else is read as a fraction. -/
theorem spells_of_fraction? (h : fraction? s = some (ds, rest)) (hs : NoDigit s) :
    ∃ cs, FractionSpells ds cs ∧ s = cs ++ rest ∧ NoDigit rest := by
  unfold fraction? at h
  split at h
  · obtain ⟨rfl, hdigits, hrest⟩ := digits?_eq_some_iff.1 h
    exact ⟨_, .some hdigits, rfl, hrest⟩
  · obtain ⟨rfl, rfl⟩ := Prod.mk.inj (Option.some.inj h)
    exact ⟨[], .none, rfl, hs⟩

/-- A sign is read in front of digits. -/
theorem exponentSign_of_spells {negative : Bool} {sign : List Char}
    (h : SignSpells negative sign) (hdigits : IsDigits ds) :
    exponentSign (sign ++ (ds ++ rest)) = (negative, ds ++ rest) := by
  cases h with
  | none =>
    obtain ⟨hne, hall⟩ := hdigits
    cases ds with
    | nil => exact absurd rfl hne
    | cons d ds =>
      have hd : d.isDigit = true := hall d List.mem_cons_self
      rw [List.nil_append, List.cons_append, exponentSign]
      · rintro _ hplus
        rw [(List.cons.inj hplus).1] at hd
        cases hd
      · rintro _ hminus
        rw [(List.cons.inj hminus).1] at hd
        cases hd
  | plus => rfl
  | minus => rfl

/-- Some spelling of a sign stands in front. -/
theorem spells_exponentSign (s : List Char) :
    ∃ sign, SignSpells (exponentSign s).1 sign ∧ s = sign ++ (exponentSign s).2 := by
  unfold exponentSign
  split
  · exact ⟨_, .plus, rfl⟩
  · exact ⟨_, .minus, rfl⟩
  · exact ⟨_, .none, rfl⟩

/-- A spelled exponent is read. -/
theorem exponent?_of_spells {exponent : Option (Bool × List Char)} {cs : List Char}
    (h : ExponentSpells exponent cs) (hrest : NoNumber rest) :
    exponent? (cs ++ rest) = some (exponent, rest) := by
  cases h with
  | none =>
    rw [List.nil_append]
    cases rest with
    | nil => rfl
    | cons c rest =>
      obtain ⟨-, -, he, hE⟩ := hrest c rfl
      rw [exponent?, if_neg (not_or.2 ⟨he, hE⟩)]
  | some he hsign hdigits =>
    rw [List.cons_append, List.append_assoc, exponent?, if_pos he,
      exponentSign_of_spells hsign hdigits,
      digits?_eq_some_iff.2 ⟨rfl, hdigits, hrest.noDigit⟩]

/-- Nothing else is read as an exponent. -/
theorem spells_of_exponent? {exponent : Option (Bool × List Char)}
    (h : exponent? s = some (exponent, rest)) (hs : NoDigit s) :
    ∃ cs, ExponentSpells exponent cs ∧ s = cs ++ rest ∧ NoDigit rest := by
  unfold exponent? at h
  split at h
  · obtain ⟨rfl, rfl⟩ := Prod.mk.inj (Option.some.inj h)
    exact ⟨[], .none, rfl, hs⟩
  · rename_i e s'
    split at h
    · rename_i he
      split at h
      · rename_i ds rest' hdigits
        obtain ⟨rfl, rfl⟩ := Prod.mk.inj (Option.some.inj h)
        obtain ⟨sign, hsign, hs'⟩ := spells_exponentSign s'
        obtain ⟨hds, hdigits, hrest⟩ := digits?_eq_some_iff.1 hdigits
        refine ⟨_, .some he hsign hdigits, ?_, hrest⟩
        rw [List.cons_append, List.append_assoc, ← hds, ← hs']
      · cases h
    · obtain ⟨rfl, rfl⟩ := Prod.mk.inj (Option.some.inj h)
      exact ⟨[], .none, rfl, hs⟩

/-- A spelled number is read. -/
theorem number?_of_spells {n : Numeral} {cs : List Char} (h : n.SpellsUnsigned cs)
    (hrest : NoNumber rest) : number? n.negative (cs ++ rest) = some (.number n, rest) := by
  obtain ⟨negative, whole, fractionDigits, exponentDigits⟩ := n
  obtain ⟨hdigits, hzero, fraction, exponent, hfraction, hexponent, rfl⟩ := h
  dsimp only at hdigits hzero hfraction hexponent
  have hbehind : NoDigit (exponent ++ rest) ∧ (exponent ++ rest).head? ≠ some '.' := by
    cases hexponent with
    | none => exact ⟨hrest.noDigit, fun hpoint => (hrest '.' hpoint).2.1 rfl⟩
    | some he => rcases he with rfl | rfl <;> exact ⟨noDigit_cons rfl, by simp⟩
  have hafter : NoDigit (fraction ++ (exponent ++ rest)) := by
    cases hfraction with
    | none => exact hbehind.1
    | some => exact noDigit_cons rfl
  have hwhole : whole? (whole ++ (fraction ++ (exponent ++ rest))) =
      some (whole, fraction ++ (exponent ++ rest)) :=
    whole?_eq_some_iff.2 ⟨rfl, hdigits, hafter, hzero⟩
  simp only [List.append_assoc, number?, hwhole, fraction?_of_spells hfraction hbehind,
    exponent?_of_spells hexponent hrest, Option.bind_eq_bind, Option.bind_some, Option.pure_def]

/-- Nothing else is read as a number. -/
theorem spells_of_number? {negative : Bool} {t : Token}
    (h : number? negative s = some (t, rest)) :
    ∃ n cs, t = .number n ∧ n.negative = negative ∧ n.SpellsUnsigned cs ∧ s = cs ++ rest ∧
      NoDigit rest := by
  simp only [number?, Option.bind_eq_bind, Option.bind_eq_some_iff, Option.pure_def,
    Option.some.injEq, Prod.mk.injEq] at h
  obtain ⟨⟨whole, s₁⟩, hwhole, ⟨fraction, s₂⟩, hfraction, ⟨exponent, s₃⟩, hexponent, rfl, rfl⟩ := h
  obtain ⟨rfl, hdigits, hs₁, hzero⟩ := whole?_eq_some_iff.1 hwhole
  obtain ⟨fs, hfs, rfl, hs₂⟩ := spells_of_fraction? hfraction hs₁
  obtain ⟨es, hes, rfl, hs₃⟩ := spells_of_exponent? hexponent hs₂
  exact ⟨_, _, rfl, rfl, ⟨hdigits, hzero, _, _, hfs, hes, rfl⟩, by simp, hs₃⟩

/-! ### Texts -/

/-- How a token is spelled. -/
inductive Token.Spells : Token → List Char → Prop where
  /-- A bracket opens an array. -/
  | openArray : Spells .openArray ['[']
  /-- A bracket closes it. -/
  | closeArray : Spells .closeArray [']']
  /-- A brace opens an object. -/
  | openObject : Spells .openObject ['\x7b']
  /-- A brace closes it. -/
  | closeObject : Spells .closeObject ['\x7d']
  /-- A comma. -/
  | comma : Spells .comma [',']
  /-- A colon. -/
  | colon : Spells .colon [':']
  /-- The word `null`. -/
  | wordNull : Spells .null ['n', 'u', 'l', 'l']
  /-- The word `true`. -/
  | wordTrue : Spells (.bool true) ['t', 'r', 'u', 'e']
  /-- The word `false`. -/
  | wordFalse : Spells (.bool false) ['f', 'a', 'l', 's', 'e']
  /-- A number below zero begins with its sign. -/
  | minus {n : Numeral} {cs : List Char} : n.negative = true → n.SpellsUnsigned cs →
      Spells (.number n) ('-' :: cs)
  /-- Another number has no sign. -/
  | number {n : Numeral} {cs : List Char} : n.negative = false → n.SpellsUnsigned cs →
      Spells (.number n) cs
  /-- A string stands between quotes. -/
  | string {ps : List Piece} {cs : List Char} : Piece.SpellAll ps cs →
      Spells (.string ps) ('"' :: (cs ++ ['"']))

/-- The texts that spell some tokens, one after another, with any blanks between them. -/
inductive Laid : List Token → List Char → Prop where
  /-- Nothing is left. -/
  | nil : Laid [] []
  /-- A blank. -/
  | space {ts : List Token} {c : Char} {s : List Char} : isSpace c = true → Laid ts s →
      Laid ts (c :: s)
  /-- A token. No digit follows a number, since it would be part of the number. -/
  | token {t : Token} {ts : List Token} {cs s : List Char} : t.Spells cs →
      (∀ n, t = .number n → NoDigit s) → Laid ts s → Laid (t :: ts) (cs ++ s)

variable {t : Token} {ts : List Token} {cs : List Char}

theorem ne_of_isDigit {d c : Char} (hd : d.isDigit = true) (hc : c.isDigit = false) : d ≠ c := by
  rintro rfl
  rw [hd] at hc
  cases hc

theorem Numeral.SpellsUnsigned.exists_cons {n : Numeral} (h : n.SpellsUnsigned cs) :
    ∃ d cs', cs = d :: cs' ∧ d.isDigit = true := by
  obtain ⟨⟨hne, hdigits⟩, -, fraction, exponent, -, -, rfl⟩ := h
  cases hwhole : n.whole with
  | nil => exact absurd hwhole hne
  | cons d ds => exact ⟨d, _, rfl, hdigits d (by simp [hwhole])⟩

/-- No token begins with a blank or with a character inside a number. -/
theorem Token.Spells.exists_cons (h : t.Spells cs) :
    ∃ c cs', cs = c :: cs' ∧ isSpace c = false ∧ c ≠ '.' ∧ c ≠ 'e' ∧ c ≠ 'E' := by
  cases h with
  | number _ hn =>
    obtain ⟨d, cs', rfl, hd⟩ := hn.exists_cons
    refine ⟨d, cs', rfl, ?_, ne_of_isDigit hd rfl, ne_of_isDigit hd rfl, ne_of_isDigit hd rfl⟩
    simp only [isSpace, beq_eq_false_iff_ne.2 (ne_of_isDigit hd (c := ' ') rfl),
      beq_eq_false_iff_ne.2 (ne_of_isDigit hd (c := '\t') rfl),
      beq_eq_false_iff_ne.2 (ne_of_isDigit hd (c := '\n') rfl),
      beq_eq_false_iff_ne.2 (ne_of_isDigit hd (c := '\r') rfl), Bool.or_self]
  | _ => exact ⟨_, _, rfl, by decide, by decide, by decide, by decide⟩

/-- A spelled token is read. -/
theorem Token.Spells.token? {c : Char} (h : t.Spells (c :: cs))
    (hrest : ∀ n, t = .number n → NoNumber rest) :
    Json.token? c (cs ++ rest) = some (t, rest) := by
  cases h with
  | minus hnegative hn =>
    rw [← number?_of_spells hn (hrest _ rfl), hnegative]
    rfl
  | number hnegative hn =>
    have hd : c.isDigit = true := by
      obtain ⟨d, cs', hcs, hd⟩ := hn.exists_cons
      rwa [(List.cons.inj hcs).1]
    rw [← number?_of_spells hn (hrest _ rfl), hnegative]
    unfold Json.token?
    iterate 8 rw [if_neg (ne_of_isDigit hd rfl)]
    rw [if_pos hd, List.cons_append]
  | string hps =>
    rw [List.append_assoc]
    show (stringOnto? [] (_ ++ '"' :: rest)).map _ = _
    rw [stringOnto?_of_spellAll hps]
    rfl
  | _ => rfl

/-- Nothing else is read as a token. -/
theorem Token.spells_of_token? {c : Char} (h : Json.token? c s = some (t, rest)) :
    ∃ cs, t.Spells cs ∧ c :: s = cs ++ rest ∧ ∀ n, t = .number n → NoDigit rest := by
  unfold Json.token? at h
  have hmark {c : Char} {t' : Token} (h : some (t', s) = some (t, rest)) (hspells : t'.Spells [c])
      (hnumber : ∀ n, t' ≠ .number n) :
      ∃ cs, t.Spells cs ∧ c :: s = cs ++ rest ∧ ∀ n, t = .number n → NoDigit rest := by
    obtain ⟨rfl, rfl⟩ := Prod.mk.inj (Option.some.inj h)
    exact ⟨_, hspells, rfl, fun n hn => absurd hn (hnumber n)⟩
  split at h
  · subst c
    exact hmark h .openArray nofun
  split at h
  · subst c
    exact hmark h .closeArray nofun
  split at h
  · subst c
    exact hmark h .openObject nofun
  split at h
  · subst c
    exact hmark h .closeObject nofun
  split at h
  · subst c
    exact hmark h .comma nofun
  split at h
  · subst c
    exact hmark h .colon nofun
  split at h
  · subst c
    obtain ⟨⟨ps, rest'⟩, hread, hr⟩ := Option.map_eq_some_iff.1 h
    obtain ⟨rfl, rfl⟩ := Prod.mk.inj hr
    obtain ⟨ps', cs, hps, rfl, rfl⟩ := spellAll_of_stringOnto? hread
    exact ⟨_, .string hps, by simp, nofun⟩
  split at h
  · subst c
    obtain ⟨n, cs, rfl, hnegative, hn, rfl, hrest⟩ := spells_of_number? h
    exact ⟨_, .minus hnegative hn, rfl, fun _ _ => hrest⟩
  split at h
  · obtain ⟨n, cs, rfl, hnegative, hn, hcs, hrest⟩ := spells_of_number? h
    exact ⟨_, .number hnegative hn, hcs, fun _ _ => hrest⟩
  split at h
  · obtain ⟨rfl, rfl⟩ := Prod.mk.inj (Option.some.inj h)
    exact ⟨_, .wordNull, rfl, nofun⟩
  · obtain ⟨rfl, rfl⟩ := Prod.mk.inj (Option.some.inj h)
    exact ⟨_, .wordTrue, rfl, nofun⟩
  · obtain ⟨rfl, rfl⟩ := Prod.mk.inj (Option.some.inj h)
    exact ⟨_, .wordFalse, rfl, nofun⟩
  · cases h

/-- What goes on with a token or a blank does not go on with a number, unless by a digit. -/
theorem Laid.noNumber (h : Laid ts s) (hs : NoDigit s) : NoNumber s := by
  intro c hc
  refine ⟨hs c hc, ?_⟩
  cases h with
  | nil => cases hc
  | space hspace =>
    cases hc
    refine ⟨?_, ?_, ?_⟩
    all_goals
      rintro rfl
      exact absurd hspace (by decide)
  | token ht =>
    obtain ⟨d, cs', rfl, -, hne⟩ := ht.exists_cons
    cases hc
    exact hne

/-- The tokens of a text are read. -/
theorem Laid.lexOnto? (h : Laid ts s) (acc : List Token) :
    Token.lexOnto? acc s = some (acc.reverse ++ ts) := by
  induction h generalizing acc with
  | nil => rw [Token.lexOnto?, List.append_nil]
  | space hspace _ ih => rw [Token.lexOnto?, if_pos hspace, ih]
  | @token t ts cs s ht hnumber hs ih =>
    obtain ⟨c, cs, rfl, hspace, -⟩ := ht.exists_cons
    have hread := ht.token? fun n hn => hs.noNumber (hnumber n hn)
    rw [List.cons_append, Token.lexOnto?, if_neg (by simp [hspace])]
    split
    · rename_i hnone
      rw [hread] at hnone
      cases hnone
    · rename_i hsome
      obtain ⟨rfl, rfl⟩ := Prod.mk.inj (Option.some.inj (hread.symm.trans hsome))
      rw [ih, List.reverse_cons, List.append_assoc, List.singleton_append]

/-- Only the tokens of a text are read. -/
theorem laid_of_lexOnto? {acc all : List Token} (h : Token.lexOnto? acc s = some all) :
    ∃ ts, Laid ts s ∧ all = acc.reverse ++ ts := by
  fun_induction Token.lexOnto? acc s with
  | case1 acc =>
    obtain rfl := Option.some.inj h
    exact ⟨[], .nil, (List.append_nil _).symm⟩
  | case2 acc c rest hspace ih =>
    obtain ⟨ts, hlaid, rfl⟩ := ih h
    exact ⟨ts, .space hspace hlaid, rfl⟩
  | case3 => cases h
  | case4 acc c rest _ t rest' hread _ ih =>
    obtain ⟨ts, hlaid, rfl⟩ := ih h
    obtain ⟨cs, ht, hcs, hnumber⟩ := Token.spells_of_token? hread
    rw [hcs]
    exact ⟨t :: ts, .token ht hnumber hlaid, by simp⟩

/-- **The tokens read are those that the text spells.** -/
theorem Token.lex?_eq_some_iff : Token.lex? s = some ts ↔ Laid ts s := by
  constructor
  · intro h
    obtain ⟨ts', hlaid, rfl⟩ := laid_of_lexOnto? h
    exact hlaid
  · exact fun h => h.lexOnto? []

end ClusterLink.Json
