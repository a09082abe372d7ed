import ClusterLink.Json.Tree
import ClusterLink.Text.Numeral

/-!
# JSON tokens

`Token.lex?` cuts a text into tokens: marks, words, numbers and strings, with
blanks (space, tab, line feed, carriage return) between them. It refuses a
character that begins no token, a malformed number, an unknown escape, and a
control character inside a string.
-/

namespace ClusterLink.Json

/-- A token of a JSON text. -/
inductive Token where
  /-- An opening bracket. -/
  | openArray
  /-- A closing bracket. -/
  | closeArray
  /-- An opening brace. -/
  | openObject
  /-- A closing brace. -/
  | closeObject
  /-- A comma. -/
  | comma
  /-- A colon. -/
  | colon
  /-- The word `null`. -/
  | null
  /-- One of the words `true` and `false`. -/
  | bool (b : Bool)
  /-- A number. -/
  | number (n : Numeral)
  /-- A string. -/
  | string (s : List Piece)
  deriving DecidableEq

/-- The characters that may stand between tokens. -/
def isSpace (c : Char) : Bool :=
  c == ' ' || c == '\t' || c == '\n' || c == '\r'

/-- The code unit that four hexadecimal digits write. -/
def unit? (a b c d : Char) : Option Nat :=
  Text.Numeral.digits? 16 [a, b, c, d]

/-- The character of an escape by one letter or mark. -/
def escaped? (c : Char) : Option Char :=
  if c = '"' then some '"'
  else if c = '\\' then some '\\'
  else if c = '/' then some '/'
  else if c = 'b' then some '\x08'
  else if c = 'f' then some '\x0c'
  else if c = 'n' then some '\n'
  else if c = 'r' then some '\r'
  else if c = 't' then some '\t'
  else none

/-- A string after its opening quote, with the pieces already read, last one first; what
follows the closing quote is returned too. -/
def stringOnto? (acc : List Piece) : List Char → Option (List Piece × List Char)
  | [] => none
  | '"' :: rest => some (acc.reverse, rest)
  | '\\' :: 'u' :: a :: b :: c :: d :: rest =>
    match unit? a b c d with
    | some n => stringOnto? (.unit n :: acc) rest
    | none => none
  | '\\' :: e :: rest =>
    match escaped? e with
    | some c => stringOnto? (.char c :: acc) rest
    | none => none
  | c :: rest =>
    if c < ' ' ∨ c = '\\' then none else stringOnto? (.char c :: acc) rest

/-- The digits at the front, which must be there. -/
def digits? (s : List Char) : Option (List Char × List Char) :=
  match s.takeWhile Char.isDigit with
  | [] => none
  | d :: ds => some (d :: ds, s.dropWhile Char.isDigit)

/-- The digits before the point: a zero alone, or digits that open with another one. -/
def whole? (s : List Char) : Option (List Char × List Char) :=
  match digits? s with
  | some ('0' :: _ :: _, _) => none
  | r => r

/-- The digits after the point, if there is one. -/
def fraction? : List Char → Option (List Char × List Char)
  | '.' :: rest => digits? rest
  | s => some ([], s)

/-- The sign of an exponent. -/
def exponentSign : List Char → Bool × List Char
  | '+' :: rest => (false, rest)
  | '-' :: rest => (true, rest)
  | s => (false, s)

/-- The exponent, if there is one. -/
def exponent? (s : List Char) : Option (Option (Bool × List Char) × List Char) :=
  match s with
  | [] => some (none, [])
  | c :: rest =>
    if c = 'e' ∨ c = 'E' then
      match digits? (exponentSign rest).2 with
      | some (ds, rest') => some (some ((exponentSign rest).1, ds), rest')
      | none => none
    else some (none, s)

/-- A number after its sign. -/
def number? (negative : Bool) (s : List Char) : Option (Token × List Char) := do
  let (whole, s) ← whole? s
  let (fraction, s) ← fraction? s
  let (exponent, s) ← exponent? s
  return (.number ⟨negative, whole, fraction, exponent⟩, s)

/-- The token that begins with the character `c`, and what follows it. -/
def token? (c : Char) (rest : List Char) : Option (Token × List Char) :=
  if c = '[' then some (.openArray, rest)
  else if c = ']' then some (.closeArray, rest)
  else if c = '\x7b' then some (.openObject, rest)
  else if c = '\x7d' then some (.closeObject, rest)
  else if c = ',' then some (.comma, rest)
  else if c = ':' then some (.colon, rest)
  else if c = '"' then (stringOnto? [] rest).map fun (s, rest) => (.string s, rest)
  else if c = '-' then number? true rest
  else if c.isDigit then number? false (c :: rest)
  else
    match c, rest with
    | 'n', 'u' :: 'l' :: 'l' :: rest => some (.null, rest)
    | 't', 'r' :: 'u' :: 'e' :: rest => some (.bool true, rest)
    | 'f', 'a' :: 'l' :: 's' :: 'e' :: rest => some (.bool false, rest)
    | _, _ => none

/-! ## Every token has a character -/

theorem length_of_stringOnto? {acc : List Piece} {s : List Char} {r : List Piece × List Char}
    (h : stringOnto? acc s = some r) : r.2.length < s.length := by
  fun_induction stringOnto? acc s with
  | case1 => simp at h
  | case2 acc rest =>
    simp only [Option.some.injEq] at h
    subst h
    simp
  | case3 _ _ _ _ _ _ _ _ ih =>
    have := ih h
    simp only [List.length_cons]
    omega
  | case4 => simp at h
  | case5 _ _ _ _ _ _ ih =>
    have := ih h
    simp only [List.length_cons]
    omega
  | case6 => simp at h
  | case7 => simp at h
  | case8 _ _ _ _ _ _ _ ih =>
    have := ih h
    simp only [List.length_cons]
    omega

theorem length_of_digits? {s : List Char} {r : List Char × List Char}
    (h : digits? s = some r) : r.2.length < s.length := by
  have hlen := congrArg List.length (List.takeWhile_append_dropWhile (p := Char.isDigit) (l := s))
  simp only [List.length_append] at hlen
  unfold digits? at h
  split at h
  · simp at h
  · rename_i d ds heq
    simp only [Option.some.injEq] at h
    subst h
    rw [heq] at hlen
    simp only [List.length_cons] at hlen
    simp only
    omega

theorem length_of_whole? {s : List Char} {r : List Char × List Char}
    (h : whole? s = some r) : r.2.length < s.length := by
  unfold whole? at h
  split at h
  · simp at h
  · exact length_of_digits? h

theorem length_of_fraction? {s : List Char} {r : List Char × List Char}
    (h : fraction? s = some r) : r.2.length ≤ s.length := by
  unfold fraction? at h
  split at h
  · have := length_of_digits? h
    simp only [List.length_cons]
    omega
  · simp only [Option.some.injEq] at h
    subst h
    simp

theorem length_exponentSign_le (s : List Char) : (exponentSign s).2.length ≤ s.length := by
  unfold exponentSign
  split <;> simp

theorem length_of_exponent? {s : List Char} {r : Option (Bool × List Char) × List Char}
    (h : exponent? s = some r) : r.2.length ≤ s.length := by
  unfold exponent? at h
  split at h
  · simp only [Option.some.injEq] at h
    subst h
    simp
  · rename_i c rest
    split at h
    · split at h
      · rename_i ds rest' heq
        simp only [Option.some.injEq] at h
        subst h
        have h1 := length_of_digits? heq
        have h2 := length_exponentSign_le rest
        simp only [List.length_cons] at h1 ⊢
        omega
      · simp at h
    · simp only [Option.some.injEq] at h
      subst h
      simp

theorem length_of_number? {negative : Bool} {s : List Char} {r : Token × List Char}
    (h : number? negative s = some r) : r.2.length < s.length := by
  simp only [number?, Option.bind_eq_bind, Option.bind_eq_some_iff, Option.pure_def] at h
  obtain ⟨⟨w, s₁⟩, hw, ⟨f, s₂⟩, hf, ⟨e, s₃⟩, he, hr⟩ := h
  have h1 := length_of_whole? hw
  have h2 := length_of_fraction? hf
  have h3 := length_of_exponent? he
  simp only [Option.some.injEq] at hr
  subst hr
  simp only at h1 h2 h3 ⊢
  omega

theorem length_of_token? {c : Char} {rest : List Char} {r : Token × List Char}
    (h : token? c rest = some r) : r.2.length ≤ rest.length := by
  unfold token? at h
  repeat' split at h
  all_goals first
    | (simp only [Option.some.injEq] at h; subst h; simp only [List.length_cons]; omega)
    | (simp only [Option.map_eq_some_iff] at h
       obtain ⟨p, hp, rfl⟩ := h
       exact Nat.le_of_lt (length_of_stringOnto? hp))
    | exact Nat.le_of_lt (length_of_number? h)
    | exact Nat.lt_succ_iff.1 (length_of_number? h)
    | simp at h

/-- The tokens of a text, behind those already read, last one first. -/
def Token.lexOnto? (acc : List Token) : List Char → Option (List Token)
  | [] => some acc.reverse
  | c :: rest =>
    if isSpace c then lexOnto? acc rest
    else
      match h : token? c rest with
      | none => none
      | some (t, rest') =>
        have := length_of_token? h
        lexOnto? (t :: acc) rest'
termination_by s => s.length
decreasing_by all_goals (simp only [List.length_cons] at *; omega)

/-- The tokens of a text. -/
def Token.lex? (s : List Char) : Option (List Token) :=
  lexOnto? [] s

end ClusterLink.Json
