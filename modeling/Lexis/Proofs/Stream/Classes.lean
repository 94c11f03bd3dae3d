import Lexis.Proofs.Stream.Spans
import Lexis.Proofs.Stream.Tiling

/-!
# Only the classes of characters matter

The token grammar looks at characters by class and at whole words in the keyword table, and nowhere
else. `tokenize_classes` says what follows for two texts that have characters of the same class at
every index: their tokens stand at the same places and are of the same kinds, keywords counted as
the identifiers they look like, and have for lexemes what each text has at these places. Everything
that reading decides is told by classes: where a gap ends (`subset_whiteSpace_iff`), where a lexeme
ends (`munch_iff`), what kind it makes (`Lexeme.unreserved_kind_congr`) and where the next line
begins (`Position.after_congr`), so the two texts are cut alike (`Cursor.forall₂_tokens`).
-/

namespace Lexis

/-- The characters are in the same one of the eight classes. -/
def SameClass (c d : Char) : Prop := ∃ k : CharClass, k.Holds c ∧ k.Holds d

/-- The kind that a word would have if no words were reserved. -/
def TokenKind.unreserved : TokenKind → TokenKind
  | .keywordAs => .lowerIdentifier
  | .keywordTrue | .keywordFalse => .upperIdentifier
  | kind => kind

/-- The tokens stand at the same place, and their kinds differ by no more than a reservation. -/
structure Token.Alike (t u : Token) : Prop where
  location_eq : t.location = u.location
  kind_eq : t.kind.unreserved = u.kind.unreserved
  ends_eq : t.ends = u.ends

/-- A class that holds two characters is the class of both, since a character is in one class only.
-/
theorem sameClass_iff {c d : Char} : SameClass c d ↔ CharClass.of c = CharClass.of d := by
  constructor
  · rintro ⟨k, hc, hd⟩
    rw [CharClass.of_of_holds hc, CharClass.of_of_holds hd]
  · intro h
    exact ⟨CharClass.of d, h ▸ CharClass.holds_of c, CharClass.holds_of d⟩

/-- Texts of the same classes, index by index, are texts whose lists of classes are the same. -/
theorem forall₂_sameClass_iff {as bs : List Char} :
    List.Forall₂ SameClass as bs ↔ as.map CharClass.of = bs.map CharClass.of := by
  have hclass : SameClass = fun c d => CharClass.of c = CharClass.of d :=
    funext fun _ => funext fun _ => propext sameClass_iff
  rw [← List.forall₂_eq_eq_eq, List.forall₂_map_left_iff, List.forall₂_map_right_iff, hclass]

/-! ## What is told by classes -/

/-- Whether a text is white space is told by its classes. -/
theorem subset_whiteSpace_iff {cs : List Char} :
    cs ⊆ whiteSpace ↔ ∀ k ∈ cs.map CharClass.of, k.isSpace := by
  simp only [List.subset_def, ← isSpace_iff_mem, isSpace, List.forall_mem_map]

/-- Where a lexeme begins and ends is told by the classes of its text. -/
theorem munch_iff {first : Char} {tail rest : List Char} : Munch first tail rest ↔
    (CharClass.of first).isSpace = false ∧
      (∀ k ∈ tail.map CharClass.of, (CharClass.of first).continues k) ∧
      ∀ k ∈ (rest.map CharClass.of).head?, (CharClass.of first).continues k = false := by
  have hhead : (∀ k ∈ (rest.map CharClass.of).head?, (CharClass.of first).continues k = false) ↔
      ∀ c ∈ rest.head?, isContinuedBy first c = false := by
    simp [List.head?_map, isContinuedBy]
  rw [hhead, List.forall_mem_map]
  exact ⟨fun h => ⟨h.start, h.run, h.stop⟩, fun h => ⟨h.1, h.2.1, h.2.2⟩⟩

/-- Going over texts of the same classes leads from one place to one place. -/
theorem Position.after_congr {as bs : List Char}
    (h : as.map CharClass.of = bs.map CharClass.of) (p : Position) : p.after as = p.after bs := by
  induction as generalizing bs p with
  | nil =>
    obtain rfl := List.map_eq_nil_iff.1 h.symm
    rfl
  | cons c as ih =>
    obtain ⟨d, bs, rfl, hclass, hrest⟩ := List.map_eq_cons_iff.1 h.symm
    have hnext : p.next c = p.next d := by rw [next, next, hclass]
    rw [after_cons, after_cons, hnext, ih hrest.symm]

namespace Lexeme

section
variable {first : Char} {tail : List Char}

/-- A word is an identifier or reserved, and is counted as the identifier it looks like. -/
theorem unreserved_getD {k : TokenKind} (hk : k.unreserved = k)
    (hword : ∀ word : TokenKind, word.isKeyword → Legal word (first :: tail) →
      word.unreserved = k) :
    ((TokenKind.keyword? (String.ofList (first :: tail))).getD k).unreserved = k := by
  cases h : TokenKind.keyword? (String.ofList (first :: tail)) with
  | none => exact hk
  | some word =>
    obtain ⟨hkeyword, hlegal⟩ := keyword?_eq_some_iff.1 h
    exact hword word hkeyword hlegal

/-- A lexeme that begins with a lower-case letter looks like one kind of identifier. -/
theorem unreserved_kind_of_lower (h : CharClass.of first = .lower) :
    (kind (first :: tail)).unreserved = .lowerIdentifier := by
  simp only [kind, h]
  refine unreserved_getD rfl ?_
  intro word hword hlegal
  cases word with
  | keywordAs => rfl
  | keywordTrue | keywordFalse =>
    cases hlegal
    cases h
  | _ => cases hword

/-- A lexeme that begins with an upper-case letter looks like the other kind. -/
theorem unreserved_kind_of_upper (h : CharClass.of first = .upper) :
    (kind (first :: tail)).unreserved = .upperIdentifier := by
  simp only [kind, h]
  refine unreserved_getD rfl ?_
  intro word hword hlegal
  cases word with
  | keywordAs =>
    cases hlegal
    cases h
  | keywordTrue | keywordFalse => rfl
  | _ => cases hword

end

/-- Apart from reservations, the kind of a lexeme is told by its classes. -/
theorem unreserved_kind_congr {as bs : List Char} (h : as.map CharClass.of = bs.map CharClass.of) :
    (kind as).unreserved = (kind bs).unreserved := by
  cases as with
  | nil =>
    obtain rfl := List.map_eq_nil_iff.1 h.symm
    rfl
  | cons c as =>
    obtain ⟨d, bs, rfl, hclass, hrest⟩ := List.map_eq_cons_iff.1 h.symm
    cases hc : CharClass.of c with
    | lower => rw [unreserved_kind_of_lower hc, unreserved_kind_of_lower (hclass.trans hc)]
    | upper => rw [unreserved_kind_of_upper hc, unreserved_kind_of_upper (hclass.trans hc)]
    | minus =>
      have hnil : as = [] ↔ bs = [] := by
        rw [← List.map_eq_nil_iff (f := CharClass.of), ← hrest, List.map_eq_nil_iff]
      simp only [kind, hclass, hc, hnil]
    | newline | blank | comma | digit | other => simp only [kind, hclass, hc]

end Lexeme

/-! ## Texts of the same classes -/

/-- Reserved words are located like other words. -/
theorem TokenKind.isSpanned_unreserved (kind : TokenKind) :
    kind.unreserved.isSpanned = kind.isSpanned := by
  cases kind <;> rfl

/-- Lexemes of the same classes make tokens that are alike. -/
theorem Token.alike_ofLexeme {as bs : List Char} (h : as.map CharClass.of = bs.map CharClass.of)
    (p : Position) : (ofLexeme p as).Alike (ofLexeme p bs) := by
  have hkind := Lexeme.unreserved_kind_congr h
  have hspanned : (Lexeme.kind as).isSpanned = (Lexeme.kind bs).isSpanned := by
    rw [← TokenKind.isSpanned_unreserved, hkind, TokenKind.isSpanned_unreserved]
  have hlength := congrArg List.length h
  rw [List.length_map, List.length_map] at hlength
  refine ⟨?_, hkind, ?_⟩
  · simp only [ofLexeme, hspanned, Position.after_congr h p]
  · rw [ends_ofLexeme, ends_ofLexeme, hlength]

namespace Cursor

/-- Texts of the same classes are cut alike, and have tokens that are alike. -/
theorem forall₂_tokens (p : Position) {as bs : List Char}
    (h : as.map CharClass.of = bs.map CharClass.of) :
    List.Forall₂ Token.Alike (tokens ⟨p, as⟩) (tokens ⟨p, bs⟩) := by
  induction as using reading_induction generalizing p bs with
  | gap gap hgap =>
    have hbs : bs ⊆ whiteSpace := by
      rw [subset_whiteSpace_iff, ← h]
      exact subset_whiteSpace_iff.1 hgap
    rw [tokens_gap p hgap, tokens_gap p hbs, Position.after_congr h p]
    exact .cons (Token.alike_ofLexeme rfl _) .nil
  | lexeme gap first tail rest hgap hmunch ih =>
    rw [List.map_append, List.map_cons, List.map_append] at h
    obtain ⟨gap', behind, rfl, hgaps, hbehind⟩ := List.map_eq_append_iff.1 h.symm
    obtain ⟨first', behind', rfl, hfirst, hbehind'⟩ := List.map_eq_cons_iff.1 hbehind
    obtain ⟨tail', rest', rfl, htail, hrest⟩ := List.map_eq_append_iff.1 hbehind'
    have hgap' : gap' ⊆ whiteSpace := by
      rw [subset_whiteSpace_iff, hgaps]
      exact subset_whiteSpace_iff.1 hgap
    have hmunch' : Munch first' tail' rest' := by
      rw [munch_iff, hfirst, htail, hrest]
      exact munch_iff.1 hmunch
    have hlexeme : (first :: tail).map CharClass.of = (first' :: tail').map CharClass.of := by
      rw [List.map_cons, List.map_cons, hfirst, htail]
    rw [tokens_munch p hgap hmunch, tokens_munch p hgap' hmunch', Position.after_append,
      Position.after_append, Position.after_congr hgaps p, Position.after_congr hlexeme]
    exact .cons (Token.alike_ofLexeme hlexeme _) (ih _ hrest.symm)

end Cursor

/-- A token has for its lexeme what its text has where it stands. -/
theorem Token.lexeme_eq_extract {source : String} {t : Token} (h : t ∈ tokenize source) :
    t.lexeme.toList = source.toList.extract t.begins t.ends := by
  obtain ⟨front, lexeme, behind, htext, hread⟩ := Cursor.exists_readAt_of_mem h
  have hbegins : t.begins = front.length := by
    rw [begins, hread.start_eq, Position.offset_after_origin]
  have hends : t.ends = front.length + lexeme.length := by
    rw [ends, hbegins, ← String.length_toList, hread.toList_lexeme]
  rw [hread.toList_lexeme, htext, extract_eq hbegins hends]

/-- Exchanging a character that has no place in the grammar for another one moves nothing. -/
theorem map_location_exchange {c d : Char} (hc : Unsupported c) (hd : Unsupported d)
    (before behind : String) :
    (tokenize (before ++ String.singleton c ++ behind)).map Token.location =
      (tokenize (before ++ String.singleton d ++ behind)).map Token.location := by
  have hclass : CharClass.of c = CharClass.of d := sameClass_iff.1 ⟨.other, hc, hd⟩
  have hclasses : (before ++ String.singleton c ++ behind).toList.map CharClass.of =
      (before ++ String.singleton d ++ behind).toList.map CharClass.of := by
    simp [hclass]
  have halike := Cursor.forall₂_tokens .origin hclasses
  rw [← List.forall₂_eq_eq_eq, List.forall₂_map_left_iff, List.forall₂_map_right_iff]
  exact halike.imp fun _ _ h => h.location_eq

/-- If two texts have characters of the same class at every index, their streams are equally long,
and token by token they have the same locations and, keywords counted as the identifiers they look
like, the same kinds. Each lexeme is what its own text has at these offsets. -/
theorem tokenize_classes {s s' : String} (h : List.Forall₂ SameClass s.toList s'.toList) :
    List.Forall₂ Token.Alike (tokenize s) (tokenize s') ∧
      (∀ t ∈ tokenize s, t.lexeme.toList = s.toList.extract t.begins t.ends) ∧
      (∀ t ∈ tokenize s', t.lexeme.toList = s'.toList.extract t.begins t.ends) := by
  refine ⟨?_, ?_, ?_⟩
  · exact Cursor.forall₂_tokens .origin (forall₂_sameClass_iff.1 h)
  · intro t ht
    exact Token.lexeme_eq_extract ht
  · intro t ht
    exact Token.lexeme_eq_extract ht

/-- Reserved words against identifiers, and a character of one byte against one of three. -/
theorem classes_reserved_words :
    List.Forall₂ SameClass "as;\n-1 True".toList "qz€\n-7\tWhat".toList ∧
      List.Forall₂ Token.Alike (tokenize "as;\n-1 True") (tokenize "qz€\n-7\tWhat") ∧
      (tokenize "as;\n-1 True").map (·.kind) =
        [.keywordAs, .error, .literalInt, .keywordTrue, .endOfStream] ∧
      (tokenize "qz€\n-7\tWhat").map (·.kind) =
        [.lowerIdentifier, .error, .literalInt, .upperIdentifier, .endOfStream] := by
  have h : List.Forall₂ SameClass "as;\n-1 True".toList "qz€\n-7\tWhat".toList :=
    forall₂_sameClass_iff.2 (by decide)
  exact ⟨h, (tokenize_classes h).1, by decide +kernel, by decide +kernel⟩

end Lexis
