import ClusterLink.Json.Parser
import ClusterLink.Proofs.Json.Spelling

/-!
# The grammar of JSON

A tree is written by its tokens: items and members with commas between them, each container
between its brackets (`Tree.tokens`). The parser reads a text if and only if it writes a tree,
and then it reads this tree (`Tree.parse?_eq_some_iff`). So no text writes two trees, and
nesting has no limit.

## The argument

One direction follows the tree: in any place the tokens of a value lead to the value in this
place (`Reader.run?_tree`). The other follows the parser. What it has read can be told from
its stack and from what it expects next (`Reader.tokens`), and each step adds its token at the
end (`Reader.tokens_of_step?`). While a container is open, a comma stands behind each of its
parts; when it is closed, there is none behind the last (`separated_append`).
-/

namespace ClusterLink.Json

/-! ### The tokens of a tree -/

/-- Parts with commas between them. -/
def separated : List (List Token) → List Token
  | [] => []
  | part :: parts => part ++ parts.flatMap (.comma :: ·)

mutual

/-- The tokens that write a tree. -/
def Tree.tokens : Tree → List Token
  | .null => [.null]
  | .bool b => [.bool b]
  | .number n => [.number n]
  | .string s => [.string s]
  | .array items => .openArray :: (separated (itemTokens items) ++ [.closeArray])
  | .object members => .openObject :: (separated (memberTokens members) ++ [.closeObject])

/-- The tokens of each item. -/
def itemTokens : List Tree → List (List Token)
  | [] => []
  | t :: items => t.tokens :: itemTokens items

/-- The tokens of each member. -/
def memberTokens : List (List Piece × Tree) → List (List Token)
  | [] => []
  | (key, t) :: members => (.string key :: .colon :: t.tokens) :: memberTokens members

end

/-- A text that writes a tree: its tokens with any blanks between them. -/
def Tree.Writes (t : Tree) (s : List Char) : Prop :=
  Laid t.tokens s

/-- The parser after some tokens. -/
def Reader.run? (r : Reader) (ts : List Token) : Option Reader :=
  ts.foldlM Reader.step? r

variable {r r' : Reader} {t : Tree} {ts rest : List Token} {token : Token}

theorem Reader.run?_cons (h : r.step? token = some r') : r.run? (token :: rest) = r'.run? rest := by
  rw [run?, List.foldlM_cons, h]
  rfl

/-! ### Every tree is read -/

/-- The first token of a value does the same as the first token of an array's first item. -/
theorem Reader.run?_firstItem (t : Tree) (stack : List Open) (rest : List Token) :
    Reader.run? ⟨stack, .firstItem⟩ (t.tokens ++ rest) =
      Reader.run? ⟨.array [] :: stack, .value⟩ (t.tokens ++ rest) := by
  cases t <;> rfl

mutual

/-- A value is read in its place. -/
theorem Reader.run?_tree (t : Tree) (stack : List Open) (rest : List Token) :
    Reader.run? ⟨stack, .value⟩ (t.tokens ++ rest) = (place t stack).run? rest := by
  match t with
  | .null | .bool _ | .number _ | .string _ => rfl
  | .array [] => rfl
  | .array (t :: items) =>
    simp only [Tree.tokens, itemTokens, separated, List.cons_append, List.append_assoc,
      List.nil_append]
    rw [run?_cons rfl, run?_firstItem, run?_tree t]
    exact run?_moreItems items [t] stack rest
  | .object [] => rfl
  | .object ((key, t) :: members) =>
    simp only [Tree.tokens, memberTokens, separated, List.cons_append, List.append_assoc,
      List.nil_append]
    rw [run?_cons rfl, run?_cons rfl, run?_cons rfl, run?_tree t]
    exact run?_moreMembers members [(key, t)] stack rest

/-- The items behind those in `done` are read to the end of the array. -/
theorem Reader.run?_moreItems (items done : List Tree) (stack : List Open) (rest : List Token) :
    Reader.run? ⟨stack, .afterItem done⟩
        ((itemTokens items).flatMap (.comma :: ·) ++ .closeArray :: rest) =
      (place (.array (done.reverse ++ items)) stack).run? rest := by
  match items with
  | [] =>
    rw [List.append_nil]
    rfl
  | t :: items =>
    simp only [itemTokens, List.flatMap_cons, List.cons_append, List.append_assoc]
    rw [run?_cons rfl, run?_tree t, List.append_cons done.reverse, ← List.reverse_cons]
    exact run?_moreItems items (t :: done) stack rest

/-- The members behind those in `done` are read to the end of the object. -/
theorem Reader.run?_moreMembers (members done : List (List Piece × Tree)) (stack : List Open)
    (rest : List Token) :
    Reader.run? ⟨stack, .afterMember done⟩
        ((memberTokens members).flatMap (.comma :: ·) ++ .closeObject :: rest) =
      (place (.object (done.reverse ++ members)) stack).run? rest := by
  match members with
  | [] =>
    rw [List.append_nil]
    rfl
  | (key, t) :: members =>
    simp only [memberTokens, List.flatMap_cons, List.cons_append, List.append_assoc]
    rw [run?_cons rfl, run?_cons rfl, run?_cons rfl, run?_tree t, List.append_cons done.reverse,
      ← List.reverse_cons]
    exact run?_moreMembers members ((key, t) :: done) stack rest

end

/-! ### Nothing else is read -/

/-- Parts with a comma behind each. -/
def ended (parts : List (List Token)) : List Token :=
  parts.flatMap (· ++ [.comma])

/-- The tokens read in the containers around the current one. -/
def stackTokens : List Open → List Token
  | [] => []
  | .array items :: stack => stackTokens stack ++ .openArray :: ended (itemTokens items.reverse)
  | .member members key :: stack =>
    stackTokens stack ++
      .openObject :: (ended (memberTokens members.reverse) ++ [.string key, .colon])

/-- The tokens read in the current container, or those of the whole text. -/
def Expect.tokens : Expect → List Token
  | .value => []
  | .firstItem => [.openArray]
  | .firstKey => [.openObject]
  | .key members => .openObject :: ended (memberTokens members.reverse)
  | .colon members name => .openObject :: (ended (memberTokens members.reverse) ++ [.string name])
  | .afterItem items => .openArray :: separated (itemTokens items.reverse)
  | .afterMember members => .openObject :: separated (memberTokens members.reverse)
  | .nothing t => t.tokens

/-- The tokens that the parser has read. -/
def Reader.tokens (r : Reader) : List Token :=
  stackTokens r.stack ++ r.expect.tokens

/-- A comma comes only behind something, and nothing is left open at the end. -/
def Reader.Sound (r : Reader) : Prop :=
  match r.expect with
  | .afterItem items => items ≠ []
  | .afterMember members => members ≠ []
  | .nothing _ => r.stack = []
  | _ => True

theorem ended_append (parts : List (List Token)) (part : List Token) :
    ended (parts ++ [part]) = ended parts ++ (part ++ [.comma]) := by
  simp [ended]

/-- What is separated by commas has a comma behind each part but the last. -/
theorem separated_append (parts : List (List Token)) (part : List Token) :
    separated (parts ++ [part]) = ended parts ++ part := by
  have hshift (parts : List (List Token)) :
      parts.flatMap (.comma :: ·) ++ [.comma] = .comma :: ended parts := by
    induction parts with
    | nil => rfl
    | cons p parts ih => simp [ended, ih]
  cases parts with
  | nil => simp [separated, ended]
  | cons p parts =>
    show p ++ (parts ++ [part]).flatMap (.comma :: ·) = p ++ [.comma] ++ ended parts ++ part
    rw [List.flatMap_append, List.flatMap_singleton, List.append_cons, hshift]
    simp

theorem ended_eq {parts : List (List Token)} (h : parts ≠ []) :
    ended parts = separated parts ++ [.comma] := by
  obtain rfl | ⟨init, last, rfl⟩ := parts.eq_nil_or_concat
  · exact absurd rfl h
  · rw [List.concat_eq_append, ended_append, separated_append, List.append_assoc]

theorem itemTokens_eq_map (items : List Tree) : itemTokens items = items.map Tree.tokens := by
  induction items with
  | nil => rfl
  | cons t items ih => rw [itemTokens, ih, List.map_cons]

theorem memberTokens_eq_map (members : List (List Piece × Tree)) :
    memberTokens members = members.map fun m => .string m.1 :: .colon :: m.2.tokens := by
  induction members with
  | nil => rfl
  | cons m members ih => rw [memberTokens, ih, List.map_cons]

/-- A value is read behind what stands in front of it. -/
theorem Reader.tokens_place (t : Tree) (stack : List Open) :
    (place t stack).tokens = stackTokens stack ++ t.tokens ∧ (place t stack).Sound := by
  cases stack with
  | nil => exact ⟨rfl, rfl⟩
  | cons o stack =>
    cases o with
    | array items =>
      refine ⟨?_, List.cons_ne_nil _ _⟩
      simp [place, tokens, Expect.tokens, stackTokens, itemTokens_eq_map, separated_append]
    | member members key =>
      refine ⟨?_, List.cons_ne_nil _ _⟩
      simp [place, tokens, Expect.tokens, stackTokens, memberTokens_eq_map, separated_append]

/-- A token that begins a value is read. -/
theorem Reader.tokens_of_begin? {stack : List Open} (h : begin? stack token = some r) :
    r.tokens = stackTokens stack ++ [token] ∧ r.Sound := by
  cases token with
  | null | bool | number | string =>
    obtain rfl := Option.some.inj h
    exact tokens_place _ _
  | openArray | openObject =>
    obtain rfl := Option.some.inj h
    exact ⟨rfl, trivial⟩
  | _ => cases h

/-- A value is complete when its last token is read. -/
theorem Reader.tokens_of_place {stack : List Open} {expect : Expect}
    (h : some (place t stack) = some r) (ht : t.tokens = expect.tokens ++ [token]) :
    r.tokens = Reader.tokens ⟨stack, expect⟩ ++ [token] ∧ r.Sound := by
  obtain rfl := Option.some.inj h
  obtain ⟨htokens, hsound⟩ := tokens_place t stack
  refine ⟨?_, hsound⟩
  rw [htokens, ht, tokens, List.append_assoc]

/-- One more token is read. -/
theorem Reader.tokens_of_step? (hr : r.Sound) (h : r.step? token = some r') :
    r'.tokens = r.tokens ++ [token] ∧ r'.Sound := by
  obtain ⟨stack, expect⟩ := r
  unfold step? at h
  dsimp only at h
  split at h
  · obtain ⟨htokens, hsound⟩ := tokens_of_begin? h
    exact ⟨by rw [htokens, tokens, Expect.tokens, List.append_nil], hsound⟩
  · exact tokens_of_place h rfl
  · exact tokens_of_begin? h
  · exact tokens_of_place h rfl
  · obtain rfl := Option.some.inj h
    refine ⟨?_, trivial⟩
    simp [tokens, Expect.tokens, memberTokens, ended]
  · obtain rfl := Option.some.inj h
    refine ⟨?_, trivial⟩
    simp [tokens, Expect.tokens]
  · obtain rfl := Option.some.inj h
    refine ⟨?_, trivial⟩
    simp [tokens, Expect.tokens, stackTokens]
  · rename_i items
    obtain rfl := Option.some.inj h
    have hitems : items ≠ [] := hr
    have hparts : itemTokens items.reverse ≠ [] := by simpa [itemTokens_eq_map] using hitems
    refine ⟨?_, trivial⟩
    simp [tokens, Expect.tokens, stackTokens, ended_eq hparts]
  · exact tokens_of_place h rfl
  · rename_i members
    obtain rfl := Option.some.inj h
    have hmembers : members ≠ [] := hr
    have hparts : memberTokens members.reverse ≠ [] := by
      simpa [memberTokens_eq_map] using hmembers
    refine ⟨?_, trivial⟩
    simp [tokens, Expect.tokens, ended_eq hparts]
  · exact tokens_of_place h rfl
  · cases h

theorem Reader.tokens_of_run? (hr : r.Sound) (h : r.run? ts = some r') :
    r'.tokens = r.tokens ++ ts ∧ r'.Sound := by
  induction ts generalizing r with
  | nil =>
    obtain rfl := Option.some.inj h
    exact ⟨(List.append_nil _).symm, hr⟩
  | cons token ts ih =>
    rw [run?, List.foldlM_cons] at h
    obtain ⟨next, hstep, hrun⟩ := Option.bind_eq_some_iff.1 h
    obtain ⟨htokens, hsound⟩ := tokens_of_step? hr hstep
    obtain ⟨htokens', hsound'⟩ := ih hsound hrun
    exact ⟨by rw [htokens', htokens, List.append_assoc, List.singleton_append], hsound'⟩

/-- **The tokens from which a tree is read are those that write it.** -/
theorem Tree.ofTokens?_eq_some_iff : Tree.ofTokens? ts = some t ↔ ts = t.tokens := by
  constructor
  · intro h
    obtain ⟨⟨stack, expect⟩, hrun, hresult⟩ := Option.bind_eq_some_iff.1 h
    obtain ⟨htokens, hsound⟩ := Reader.tokens_of_run? (r := .start) trivial hrun
    unfold Reader.result? at hresult
    dsimp only at hresult
    split at hresult
    · obtain rfl := Option.some.inj hresult
      obtain rfl : stack = [] := hsound
      exact htokens.symm
    · cases hresult
  · rintro rfl
    have h := Reader.run?_tree t [] []
    rw [List.append_nil] at h
    show (Reader.run? ⟨[], .value⟩ t.tokens).bind _ = _
    rw [h]
    rfl

/-- **The tree read from a text is the one that the text writes.** -/
theorem Tree.parse?_eq_some_iff {s : List Char} : Tree.parse? s = some t ↔ t.Writes s := by
  rw [parse?, Option.bind_eq_some_iff]
  constructor
  · rintro ⟨ts, hlex, htree⟩
    rw [ofTokens?_eq_some_iff] at htree
    rw [Writes, ← htree]
    exact Token.lex?_eq_some_iff.1 hlex
  · intro h
    exact ⟨t.tokens, Token.lex?_eq_some_iff.2 h, ofTokens?_eq_some_iff.2 rfl⟩

end ClusterLink.Json
