/-!
# UTF-8

Bytes are `List UInt8` and texts are lists of characters. `encode` writes the
bytes of a text. Reading goes through `scan`, which cuts a byte string into
pieces from the left: the bytes of one character, or a *bad piece*, the longest
proper start of a character's bytes that the string still offers (at least one
byte). Two readers stand on it:

* `decode?` accepts a byte string with no bad piece;
* `decodeLossy` puts one replacement character for each bad piece.

## The model

`front` reads the first piece. A leading byte announces (`lead?`) its own
payload bits, the range of the byte that has to follow, and how many further
tail bytes there are; the narrowed ranges after `E0`, `ED`, `F0` and `F4` rule
out overlong forms, surrogates and values above `10FFFF`.
-/

namespace ClusterLink

/-- A string of bytes. -/
abbrev Bytes := List UInt8

namespace Text.Utf8

/-- The bytes of a text, character by character. -/
def encode (cs : List Char) : Bytes :=
  cs.flatMap String.utf8EncodeChar

/-- The bytes `80` to `BF`, which never begin a character. -/
def isTail (b : UInt8) : Bool :=
  0x80 ≤ b && b ≤ 0xBF

/-- What the first byte of a character of two to four bytes announces. -/
structure Lead where
  /-- The payload bits of the leading byte. -/
  bits : Nat
  /-- The least byte that may follow. -/
  low : UInt8
  /-- The greatest byte that may follow. -/
  high : UInt8
  /-- The number of tail bytes after the second byte. -/
  more : Nat

/-- The leading bytes of more than one byte; `C0`, `C1` and `F5` to `FF` lead nothing. -/
def lead? (b : UInt8) : Option Lead :=
  if 0xC2 ≤ b ∧ b ≤ 0xDF then some ⟨b.toNat - 0xC0, 0x80, 0xBF, 0⟩
  else if b = 0xE0 then some ⟨0x0, 0xA0, 0xBF, 1⟩
  else if b = 0xED then some ⟨0xD, 0x80, 0x9F, 1⟩
  else if 0xE1 ≤ b ∧ b ≤ 0xEF then some ⟨b.toNat - 0xE0, 0x80, 0xBF, 1⟩
  else if b = 0xF0 then some ⟨0x0, 0x90, 0xBF, 2⟩
  else if 0xF1 ≤ b ∧ b ≤ 0xF3 then some ⟨b.toNat - 0xF0, 0x80, 0xBF, 2⟩
  else if b = 0xF4 then some ⟨0x4, 0x80, 0x8F, 2⟩
  else none

/-- Reads `n` tail bytes after the payload `bits`; a byte that is no tail stays in the rest. -/
def tails (bits : Nat) : Nat → Bytes → Option Char × Bytes
  | 0, rest => (some (Char.ofNat bits), rest)
  | _ + 1, [] => (none, [])
  | n + 1, b :: rest =>
    if isTail b then tails (bits * 64 + b.toNat % 64) n rest else (none, b :: rest)

/-- The first piece of `b :: rest`, as a character or as a bad piece, and what follows it. -/
def front (b : UInt8) (rest : Bytes) : Option Char × Bytes :=
  if b < 0x80 then (some (Char.ofNat b.toNat), rest)
  else
    match lead? b, rest with
    | none, _ => (none, rest)
    | some _, [] => (none, [])
    | some l, c :: rest' =>
      if l.low ≤ c ∧ c ≤ l.high then tails (l.bits * 64 + c.toNat % 64) l.more rest'
      else (none, rest)

/-- Reading tail bytes never lengthens the rest. -/
theorem length_tails_le (bits n : Nat) (s : Bytes) : (tails bits n s).2.length ≤ s.length := by
  induction n generalizing bits s with
  | zero => simp [tails]
  | succ n ih =>
    cases s with
    | nil => simp [tails]
    | cons b rest =>
      rw [tails]
      split
      · exact Nat.le_trans (ih _ _) (by simp)
      · simp

/-- A piece has at least one byte. -/
theorem length_front_le (b : UInt8) (rest : Bytes) : (front b rest).2.length ≤ rest.length := by
  unfold front
  split
  · simp
  · split
    · simp
    · simp
    · split
      · exact Nat.le_trans (length_tails_le _ _ _) (by simp)
      · simp

/-- The pieces of a byte string, the last one first, in front of those already read. -/
def scanOnto (acc : List (Option Char)) : Bytes → List (Option Char)
  | [] => acc
  | b :: rest =>
    have := length_front_le b rest
    scanOnto ((front b rest).1 :: acc) (front b rest).2
termination_by s => s.length
decreasing_by simp only [List.length_cons]; omega

/-- The pieces of a byte string in order; `none` stands for a bad piece. -/
def scan (s : Bytes) : List (Option Char) :=
  (scanOnto [] s).reverse

/-- The text of a well-formed byte string. -/
def decode? (s : Bytes) : Option (List Char) :=
  (scan s).mapM id

/-- The text of any byte string, with one replacement character for each bad piece. -/
def decodeLossy (s : Bytes) : List Char :=
  (scan s).map (·.getD '\uFFFD')

/-- Pieces already read stay behind those still to come. -/
theorem scanOnto_eq_append (acc : List (Option Char)) (s : Bytes) :
    scanOnto acc s = scanOnto [] s ++ acc := by
  induction hn : s.length using Nat.strongRecOn generalizing acc s with
  | ind n ih =>
    cases s with
    | nil => simp [scanOnto]
    | cons b rest =>
      have hlt : (front b rest).2.length < n := by
        have := length_front_le b rest
        simp only [List.length_cons] at hn
        omega
      rw [scanOnto, scanOnto, ih _ hlt _ _ rfl, ih _ hlt [(front b rest).1] _ rfl]
      simp

@[simp] theorem scan_nil : scan [] = [] := by
  simp [scan, scanOnto]

/-- The first piece comes first. -/
theorem scan_cons (b : UInt8) (rest : Bytes) :
    scan (b :: rest) = (front b rest).1 :: scan (front b rest).2 := by
  rw [scan, scanOnto, scanOnto_eq_append]
  simp [scan]

end Text.Utf8

end ClusterLink
