import ClusterLink.Json.Printer
import ClusterLink.Proofs.Json.Grammar
import ClusterLink.Proofs.Text.Numeral

/-!
# What is printed is read back

The compact text of a tree writes that tree, but for one thing: a control character without a
short escape is printed as a code unit, and it is read back as one (`Tree.reread`). As texts
the strings are the same (`text?_map_reread`). Trees with malformed numbers or code units have
no text that could be read (`Tree.Printable`).

## The argument

A printed number ends where the next token begins, and what follows it in a printed tree is a
comma or a bracket. So each part is printed so that it can stand in front of any text without
a digit at the front (`Prints`), and that is all that has to be known about what follows.
-/

namespace ClusterLink.Json

/-! ### Pieces -/

/-- The piece that is read where a piece has been printed: a character without a short escape comes
back as a code unit. -/
def Piece.reread : Piece → Piece
  | .char c => if renderChar c = renderUnit c.toNat then .unit c.toNat else .char c
  | .unit n => .unit n

/-- A code unit can be printed if it fits into four digits. -/
def Piece.Printable (p : Piece) : Prop :=
  ∀ n, p = .unit n → n < 0x10000

theorem unit?_hexDigits {n : Nat} (h : n < 0x10000) :
    ∃ a b c d, hexDigits 4 n = [a, b, c, d] ∧ unit? a b c d = some n := by
  refine ⟨_, _, _, _, rfl, ?_⟩
  have hdigit (m : Nat) : Text.Numeral.digit? 16 (m % 16).digitChar = some (m % 16) :=
    Text.Numeral.digit?_digitChar le_rfl (Nat.mod_lt m (by omega))
  simp only [unit?, Text.Numeral.digits?, List.foldlM_cons, List.foldlM_nil, hdigit,
    Option.map_some, Option.bind_eq_bind, Option.bind_some, Option.pure_def, Option.some.injEq]
  omega

theorem Piece.spells_renderUnit {n : Nat} (h : n < 0x10000) :
    (Piece.unit n).Spells (renderUnit n) := by
  obtain ⟨a, b, c, d, hdigits, hunit⟩ := unit?_hexDigits h
  rw [renderUnit, hdigits]
  exact .unit hunit

/-- A character is printed by a short escape, by number or as itself. -/
theorem renderChar_cases (c : Char) :
    (∃ e, renderChar c = ['\\', e] ∧ escaped? e = some c) ∨
      (c < ' ' ∧ renderChar c = renderUnit c.toNat) ∨
      (¬ c < ' ' ∧ c ≠ '"' ∧ c ≠ '\\' ∧ renderChar c = [c]) := by
  have hescape {e : Char} (he : escaped? e = some c) (hprint : renderChar c = ['\\', e]) :
      ∃ e, renderChar c = ['\\', e] ∧ escaped? e = some c := ⟨e, hprint, he⟩
  by_cases hshort : c ∈ ['"', '\\', '\x08', '\x0c', '\n', '\r', '\t']
  · left
    simp only [List.mem_cons, List.not_mem_nil, or_false] at hshort
    rcases hshort with rfl | rfl | rfl | rfl | rfl | rfl | rfl <;> exact ⟨_, rfl, rfl⟩
  · right
    simp only [List.mem_cons, List.not_mem_nil, or_false, not_or] at hshort
    obtain ⟨hquote, hslash, hb, hf, hn, hr, ht⟩ := hshort
    simp only [renderChar, hquote, hslash, hb, hf, hn, hr, ht, if_false]
    by_cases hspace : c < ' '
    · exact .inl ⟨hspace, if_pos hspace⟩
    · exact .inr ⟨hspace, hquote, hslash, if_neg hspace⟩

/-- A character that is printed by number stands below the space. -/
theorem lt_of_renderChar_eq {c : Char} (h : renderChar c = renderUnit c.toNat) : c < ' ' := by
  rcases renderChar_cases c with ⟨e, hprint, -⟩ | ⟨hspace, -⟩ | ⟨-, -, -, hprint⟩
  · cases hprint.symm.trans h
  · exact hspace
  · cases hprint.symm.trans h

theorem toNat_lt_of_lt {c : Char} (h : c < ' ') : c.toNat < 32 := h

/-- What is printed spells what is read back. -/
theorem Piece.spells_render {p : Piece} (h : p.Printable) : p.reread.Spells p.render := by
  cases p with
  | unit n => exact spells_renderUnit (h n rfl)
  | char c =>
    rw [reread]
    split
    · rename_i hnumber
      show Spells _ (renderChar c)
      rw [hnumber]
      have := toNat_lt_of_lt (lt_of_renderChar_eq hnumber)
      exact spells_renderUnit (by omega)
    · rename_i hnumber
      show Spells _ (renderChar c)
      rcases renderChar_cases c with ⟨e, hprint, he⟩ | ⟨-, hprint⟩ |
        ⟨hspace, hquote, hslash, hprint⟩
      · rw [hprint]
        exact .escape he
      · exact absurd hprint hnumber
      · rw [hprint]
        exact .plain hspace hquote hslash

theorem Piece.spellAll_render {s : List Piece} (h : ∀ p ∈ s, p.Printable) :
    SpellAll (s.map reread) (s.flatMap render) := by
  induction s with
  | nil => exact .nil
  | cons p s ih =>
    obtain ⟨hp, hs⟩ := List.forall_mem_cons.1 h
    exact .cons (spells_render hp) (ih hs)

theorem textOnto?_high {n : Nat} {acc : List Char} {rest : List Piece}
    (h : isHighUnit n = true) : textOnto? acc (.unit n :: rest) =
      match rest with
      | .unit m :: rest' =>
        if isLowUnit m then textOnto? (pairedUnits n m :: acc) rest' else none
      | _ => none := by
  rw [textOnto?.eq_def]
  exact if_pos h

theorem textOnto?_unit {n : Nat} {acc : List Char} {rest : List Piece}
    (h : isHighUnit n = false) : textOnto? acc (.unit n :: rest) =
      if isLowUnit n then none else textOnto? (Char.ofNat n :: acc) rest := by
  rw [textOnto?.eq_def]
  exact if_neg (by simp [h])

/-- A character is read back as itself or as a unit that stands for it alone. -/
theorem reread_char (c : Char) :
    (Piece.char c).reread = .char c ∨ ∃ n, (Piece.char c).reread = .unit n ∧
      Char.ofNat n = c ∧ isHighUnit n = false ∧ isLowUnit n = false := by
  rw [Piece.reread]
  split
  · rename_i hnumber
    have := toNat_lt_of_lt (lt_of_renderChar_eq hnumber)
    refine .inr ⟨_, rfl, Char.ofNat_toNat c, ?_, ?_⟩
    · simp [isHighUnit]
      omega
    · simp [isLowUnit]
      omega
  · exact .inl rfl

/-- What is read back is the same text, if it is one. -/
theorem textOnto?_map_reread (acc : List Char) (s : List Piece) :
    textOnto? acc (s.map Piece.reread) = textOnto? acc s := by
  fun_induction textOnto? acc s with
  | case1 => rfl
  | case2 acc c rest ih =>
    rw [List.map_cons]
    rcases reread_char c with hsame | ⟨n, hunit, hn, hhigh, hlow⟩
    · rw [hsame, textOnto?, ih]
    · rw [hunit, textOnto?_unit hhigh, hlow, hn]
      exact ih
  | case3 acc n hhigh m rest hlow ih =>
    simp only [List.map_cons, Piece.reread, textOnto?_high hhigh, if_pos hlow, ih]
  | case4 acc n hhigh m rest hlow =>
    simp only [List.map_cons, Piece.reread, textOnto?_high hhigh, if_neg hlow]
  | case5 acc n rest hhigh hother =>
    rw [List.map_cons, Piece.reread, textOnto?_high hhigh]
    cases rest with
    | nil => rfl
    | cons p rest =>
      cases p with
      | unit m => exact absurd rfl (hother m rest)
      | char c =>
        rw [List.map_cons]
        rcases reread_char c with hsame | ⟨m, hunit, -, -, hlow⟩
        · rw [hsame]
        · simp only [hunit, hlow, Bool.false_eq_true, if_false]
  | case6 acc n rest hhigh hlow =>
    rw [List.map_cons, Piece.reread, textOnto?_unit (Bool.eq_false_iff.2 hhigh), if_pos hlow]
  | case7 acc n rest hhigh hlow ih =>
    rw [List.map_cons, Piece.reread, textOnto?_unit (Bool.eq_false_iff.2 hhigh), if_neg hlow, ih]

theorem text?_map_reread (s : List Piece) : text? (s.map Piece.reread) = text? s := by
  rw [text?, textOnto?_map_reread, text?]

/-- The pieces of a text write it. -/
@[simp] theorem text?_ofText (s : String) : text? (Piece.ofText s) = some s := by
  have honto (acc cs : List Char) : textOnto? acc (cs.map .char) = some (cs.reverse ++ acc) := by
    induction cs generalizing acc with
    | nil => rfl
    | cons c cs ih => rw [List.map_cons, textOnto?, ih, List.reverse_cons, List.append_assoc,
        List.singleton_append]
  rw [text?, Piece.ofText, honto]
  simp

theorem printable_ofText (s : String) : ∀ p ∈ Piece.ofText s, p.Printable := by
  intro p hp n hn
  obtain ⟨c, -, rfl⟩ := List.mem_map.1 hp
  cases hn

/-! ### Trees -/

mutual

/-- The tree that is read where a tree has been printed. -/
def Tree.reread : Tree → Tree
  | .string s => .string (s.map Piece.reread)
  | .array items => .array (rereadItems items)
  | .object members => .object (rereadMembers members)
  | t => t

/-- The items that are read. -/
def rereadItems : List Tree → List Tree
  | [] => []
  | t :: items => t.reread :: rereadItems items

/-- The members that are read. -/
def rereadMembers : List (List Piece × Tree) → List (List Piece × Tree)
  | [] => []
  | (key, t) :: members => (key.map Piece.reread, t.reread) :: rereadMembers members

end

/-- A number that can be printed. -/
structure Numeral.Printable (n : Numeral) : Prop where
  /-- There are digits before the point. -/
  whole : IsDigits n.whole
  /-- A zero in front stands alone. -/
  whole_ne : ∀ d ds, n.whole ≠ '0' :: d :: ds
  /-- Behind the point stand digits. -/
  fraction : ∀ d ∈ n.fraction, d.isDigit = true
  /-- The exponent has digits. -/
  exponent : ∀ negative ds, n.exponent = some (negative, ds) → IsDigits ds

/-- A tree whose numbers and strings can be printed. -/
inductive Tree.Printable : Tree → Prop where
  /-- The word `null`. -/
  | null : Printable .null
  /-- The words `true` and `false`. -/
  | bool (b : Bool) : Printable (.bool b)
  /-- A number. -/
  | number {n : Numeral} : n.Printable → Printable (.number n)
  /-- A string. -/
  | string {s : List Piece} : (∀ p ∈ s, p.Printable) → Printable (.string s)
  /-- An array. -/
  | array {items : List Tree} : (∀ t ∈ items, Printable t) → Printable (.array items)
  /-- An object. -/
  | object {members : List (List Piece × Tree)} : (∀ m ∈ members, ∀ p ∈ m.1, p.Printable) →
      (∀ m ∈ members, Printable m.2) → Printable (.object members)

/-- A text prints some tokens if it spells them wherever no digit follows. -/
def Prints (ts : List Token) (cs : List Char) : Prop :=
  ∀ us s, NoDigit s → Laid us s → Laid (ts ++ us) (cs ++ s)

/-- A printed number is spelled. -/
theorem Numeral.Printable.spells {n : Numeral} (h : n.Printable) :
    (Token.number n).Spells n.render := by
  obtain ⟨negative, whole, fraction, exponent⟩ := n
  obtain ⟨hwhole, hzero, hfraction, hexponent⟩ := h
  have hpoint : FractionSpells fraction (if fraction.isEmpty then [] else '.' :: fraction) := by
    cases fraction with
    | nil => exact .none
    | cons d ds => exact .some ⟨List.cons_ne_nil _ _, hfraction⟩
  have hpower : ∃ cs, ExponentSpells exponent cs ∧
      render ⟨negative, whole, fraction, exponent⟩ = (if negative then ['-'] else []) ++
        (whole ++ ((if fraction.isEmpty then [] else '.' :: fraction) ++ cs)) := by
    obtain _ | ⟨minus, ds⟩ := exponent
    · exact ⟨[], .none, by simp only [render, List.append_assoc]⟩
    · have hdigits := hexponent minus ds rfl
      cases minus with
      | false =>
        exact ⟨_, .some (.inl rfl) .none hdigits, by simp only [render, List.append_assoc]; rfl⟩
      | true =>
        exact ⟨_, .some (.inl rfl) .minus hdigits, by simp only [render, List.append_assoc]; rfl⟩
  obtain ⟨cs, hcs, hprint⟩ := hpower
  rw [hprint]
  cases negative with
  | false => exact .number rfl ⟨hwhole, hzero, _, _, hpoint, hcs, rfl⟩
  | true => exact .minus rfl ⟨hwhole, hzero, _, _, hpoint, hcs, rfl⟩

theorem prints_token {t : Token} {cs : List Char} (h : t.Spells cs) : Prints [t] cs :=
  fun _ _ hs hlaid => .token h (fun _ _ => hs) hlaid

/-- Texts with commas between them. -/
def commas : List (List Char) → List Char
  | [] => []
  | text :: texts => text ++ texts.flatMap (',' :: ·)

theorem renderItems_eq_commas (items : List Tree) :
    renderItems items = commas (items.map Tree.render) := by
  induction items with
  | nil => rfl
  | cons t items ih =>
    cases items with
    | nil => simp [renderItems, commas]
    | cons u items => simpa [renderItems, commas] using ih

theorem renderMembers_eq_commas (members : List (List Piece × Tree)) :
    renderMembers members =
      commas (members.map fun m => renderString m.1 ++ ':' :: m.2.render) := by
  induction members with
  | nil => rfl
  | cons m members ih =>
    cases members with
    | nil => simp [renderMembers, commas]
    | cons n members => simpa [renderMembers, commas] using ih

/-- Parts are printed with commas between them. -/
theorem prints_separated {α : Type} {tokens : α → List Token} {text : α → List Char}
    {parts : List α} (h : ∀ p ∈ parts, Prints (tokens p) (text p)) :
    Prints (separated (parts.map tokens)) (commas (parts.map text)) := by
  have hmore (parts : List α) (h : ∀ p ∈ parts, Prints (tokens p) (text p)) {us : List Token}
      {s : List Char} (hs : NoDigit s) (hlaid : Laid us s) :
      NoDigit ((parts.map text).flatMap (',' :: ·) ++ s) ∧
        Laid ((parts.map tokens).flatMap (.comma :: ·) ++ us)
          ((parts.map text).flatMap (',' :: ·) ++ s) := by
    induction parts with
    | nil => exact ⟨hs, hlaid⟩
    | cons p parts ih =>
      obtain ⟨hp, hparts⟩ := List.forall_mem_cons.1 h
      obtain ⟨hs', hlaid'⟩ := ih hparts
      refine ⟨noDigit_cons rfl, ?_⟩
      simp only [List.map_cons, List.flatMap_cons, List.cons_append, List.append_assoc]
      exact .token .comma nofun (hp _ _ hs' hlaid')
  intro us s hs hlaid
  cases parts with
  | nil => exact hlaid
  | cons p parts =>
    obtain ⟨hp, hparts⟩ := List.forall_mem_cons.1 h
    obtain ⟨hs', hlaid'⟩ := hmore parts hparts hs hlaid
    simp only [List.map_cons, separated, commas, List.append_assoc]
    exact hp _ _ hs' hlaid'

theorem rereadItems_eq_map (items : List Tree) : rereadItems items = items.map Tree.reread := by
  induction items with
  | nil => rfl
  | cons t items ih => rw [rereadItems, ih, List.map_cons]

theorem rereadMembers_eq_map (members : List (List Piece × Tree)) :
    rereadMembers members = members.map fun m => (m.1.map Piece.reread, m.2.reread) := by
  induction members with
  | nil => rfl
  | cons m members ih => rw [rereadMembers, ih, List.map_cons]

theorem spells_renderString {s : List Piece} (h : ∀ p ∈ s, p.Printable) :
    (Token.string (s.map Piece.reread)).Spells (renderString s) :=
  .string (Piece.spellAll_render h)

/-- A printed tree is spelled. -/
theorem Tree.Printable.prints {t : Tree} (h : t.Printable) : Prints t.reread.tokens t.render := by
  induction h with
  | null => exact prints_token .wordNull
  | bool b =>
    cases b with
    | false => exact prints_token .wordFalse
    | true => exact prints_token .wordTrue
  | number hn => exact prints_token hn.spells
  | string hs => exact prints_token (spells_renderString hs)
  | @array items _ ih =>
    intro us s hs hlaid
    have hitems := prints_separated ih _ _ (noDigit_cons (s := s) (c := ']') rfl)
      (.token .closeArray nofun hlaid)
    simp only [Tree.reread, Tree.tokens, Tree.render, rereadItems_eq_map, itemTokens_eq_map,
      renderItems_eq_commas, List.map_map, List.cons_append, List.append_assoc, List.nil_append]
    exact .token .openArray nofun hitems
  | @object members hkeys _ ih =>
    intro us s hs hlaid
    have hmember : ∀ m ∈ members,
        Prints (.string (m.1.map Piece.reread) :: .colon :: m.2.reread.tokens)
          (renderString m.1 ++ ':' :: m.2.render) := by
      intro m hm us s hs hlaid
      have hvalue : Laid (.colon :: (m.2.reread.tokens ++ us)) (':' :: (m.2.render ++ s)) :=
        .token .colon nofun (ih m hm us s hs hlaid)
      rw [List.append_assoc]
      exact .token (spells_renderString (hkeys m hm)) nofun hvalue
    have hmembers := prints_separated hmember _ _ (noDigit_cons (s := s) (c := '\x7d') rfl)
      (.token .closeObject nofun hlaid)
    simp only [Tree.reread, Tree.tokens, Tree.render, rereadMembers_eq_map, memberTokens_eq_map,
      renderMembers_eq_commas, List.map_map, List.cons_append, List.append_assoc, List.nil_append]
    exact .token .openObject nofun hmembers

/-- **What is printed is read back.** -/
theorem Tree.parse?_render {t : Tree} (h : t.Printable) : Tree.parse? t.render = some t.reread := by
  have hprints := h.prints [] [] nofun .nil
  rw [List.append_nil, List.append_nil] at hprints
  exact parse?_eq_some_iff.2 hprints

/-! ### Natural numbers -/

/-- The digits of a number are read as the number. -/
theorem decimal_toDigits (n : Nat) : decimal (Nat.toDigits 10 n) = n := by
  have hdigits := Nat.ofDigitChars_toDigits (b := 10) (n := n) (by decide) (by decide)
  rw [Nat.ofDigitChars] at hdigits
  simpa only [decimal, Nat.mul_comm] using hdigits

theorem nat?_ofNat (n : Nat) : (Numeral.ofNat n).nat? = some n := by
  simp [Numeral.nat?, Numeral.ofNat, decimal_toDigits]

/-- No number has a superfluous zero in front. -/
theorem toDigits_ne (n : Nat) (d : Char) (ds : List Char) :
    Nat.toDigits 10 n ≠ '0' :: d :: ds := by
  induction n using Nat.strongRecOn generalizing d ds with
  | ind n ih =>
    by_cases hlt : n < 10
    · rw [Nat.toDigits_of_lt_base hlt]
      simp
    · rw [Nat.toDigits_of_base_le (by omega) (by omega)]
      intro h
      rcases List.append_eq_cons_iff.1 h with ⟨hnil, -⟩ | ⟨ds', hds', -⟩
      · exact Nat.toDigits_ne_nil hnil
      · cases ds' with
        | nil =>
          have hzero := decimal_toDigits (n / 10)
          rw [hds'] at hzero
          change 0 = n / 10 at hzero
          omega
        | cons e ds' => exact ih _ (by omega) e ds' hds'

theorem printable_ofNat (n : Nat) : (Numeral.ofNat n).Printable where
  whole := ⟨Nat.toDigits_ne_nil, fun _ => Nat.isDigit_of_mem_toDigits (by decide) (by decide)⟩
  whole_ne := toDigits_ne n
  fraction := nofun
  exponent := nofun

end ClusterLink.Json
