import Lexis.Diagnostic
import Lexis.Proofs.Cursor.Reading
import Lexis.Proofs.Position.Counting

/-!
# The lexical errors of a text are a filter of its characters

Reading goes by context, reporting does not: `collect_tokenize` says that the errors of a text
are its unsupported characters, each with its index and the line and column counted over the text
in front of it. An unsupported character begins every lexeme it is in (`kind_eq_error_iff`) and
ends it, so none is taken in by a word or a number, and nothing else makes an error token. Strict
reading is the first of these errors, or the stream when there is none.
-/

namespace Lexis

/-- The unsupported characters of a text, each with its index, in their order. The index of the
first character is `k`. -/
def unsupportedChars (k : Nat) (text : List Char) : List (Char × Nat) :=
  (text.zipIdx k).filter fun e => Unsupported e.1

/-- What the character `c` at index `i` of a text is reported as: the line and the column of the
index are counted over the text in front of it. -/
def LexicalError.ofChar (text : List Char) (c : Char) (i : Nat) : LexicalError where
  lexeme := String.singleton c
  position := .counted text i

/-! ## The filter -/

/-- The unsupported characters of a text are those of its parts; those of the second part are
counted from the end of the first. -/
theorem unsupportedChars_append (k : Nat) (as bs : List Char) : unsupportedChars k (as ++ bs) =
    unsupportedChars k as ++ unsupportedChars (k + as.length) bs := by
  simp [unsupportedChars, List.zipIdx_append]

/-- Only unsupported characters are listed. -/
theorem unsupportedChars_eq_nil_iff {k : Nat} {cs : List Char} :
    unsupportedChars k cs = [] ↔ ∀ c ∈ cs, ¬ Unsupported c := by
  rw [unsupportedChars, List.filter_eq_nil_iff]
  constructor
  · intro h c hc
    obtain ⟨i, hi⟩ := List.getElem?_of_mem hc
    have hmem := List.mk_add_mem_zipIdx_iff_getElem? (k := k).2 hi
    simpa using h _ hmem
  · intro h e he
    simpa using h e.1 (List.fst_mem_of_mem_zipIdx he)

/-- White space is supported. -/
theorem not_unsupported_of_mem_whiteSpace {c : Char} (h : c ∈ whiteSpace) : ¬ Unsupported c := by
  intro hu
  exact hu.1 h

/-- Letters and digits are supported. -/
theorem not_unsupported_of_isAlphanum {c : Char} (h : c.isAlphanum) : ¬ Unsupported c := by
  intro hu
  exact hu.2.2.2 h

/-- White space holds no unsupported character. -/
theorem unsupportedChars_gap (k : Nat) {gap : List Char} (hgap : gap ⊆ whiteSpace) :
    unsupportedChars k gap = [] := by
  rw [unsupportedChars_eq_nil_iff]
  intro c hc
  exact not_unsupported_of_mem_whiteSpace (hgap hc)

/-- The first character of a lexeme decides whether it is an error. -/
theorem kind_eq_error_iff {first : Char} {tail rest : List Char} (h : Munch first tail rest) :
    Lexeme.kind (first :: tail) = .error ↔ Unsupported first := by
  constructor
  · intro hkind
    have hlegal := Lexeme.legal_kind h.start h.run
    rw [hkind] at hlegal
    obtain ⟨c, heq, hc⟩ := hlegal
    cases heq
    exact hc
  · exact Lexeme.kind_of_unsupported

/-- Of a lexeme only the first character can be unsupported. -/
theorem unsupportedChars_lexeme (k : Nat) {first : Char} {tail rest : List Char}
    (h : Munch first tail rest) :
    unsupportedChars k (first :: tail) = if Unsupported first then [(first, k)] else [] := by
  have htail : unsupportedChars (k + 1) tail = [] := by
    rw [unsupportedChars_eq_nil_iff]
    intro c hc
    exact not_unsupported_of_isAlphanum (isAlphanum_of_isContinuedBy (h.run c hc))
  rw [← List.singleton_append, unsupportedChars_append]
  rw [List.length_singleton, htail, List.append_nil]
  by_cases hu : Unsupported first <;> simp [unsupportedChars, hu]

namespace LexicalError

/-- Errors are collected token by token. -/
theorem collect_append (as bs : List Token) : collect (as ++ bs) = collect as ++ collect bs := by
  simp [collect]

/-- A token makes an error exactly when it is an error token. -/
theorem collect_singleton (t : Token) : collect [t] = if t.isError then [ofToken t] else [] := by
  by_cases h : t.isError <;> simp [collect, h]

/-- The error token of an unsupported character is reported as that character. -/
theorem ofToken_ofLexeme (front rest : List Char) (c : Char) :
    ofToken (.ofLexeme (Position.origin.after front) [c]) =
      ofChar (front ++ c :: rest) c front.length := by
  rw [ofToken, Token.start_location_ofLexeme, Position.after_origin front (c :: rest), ofChar,
    String.singleton_eq_ofList]
  rfl

/-- The token of a lexeme is reported exactly when its first character is unsupported. -/
theorem collect_lexeme (front : List Char) {first : Char} {tail rest : List Char}
    (h : Munch first tail rest) :
    collect [.ofLexeme (Position.origin.after front) (first :: tail)] =
      (unsupportedChars front.length (first :: tail)).map fun e =>
        ofChar (front ++ first :: (tail ++ rest)) e.1 e.2 := by
  rw [unsupportedChars_lexeme _ h, collect_singleton]
  by_cases hu : Unsupported first
  · obtain rfl := Lexeme.tail_eq_nil (isContinuedBy_of_unsupported hu) h.run
    have herror : (Token.ofLexeme (Position.origin.after front) [first]).isError :=
      decide_eq_true ((kind_eq_error_iff h).2 hu)
    rw [if_pos herror, if_pos hu, ofToken_ofLexeme front rest]
    rfl
  · have herror : ¬ (Token.ofLexeme (Position.origin.after front) (first :: tail)).isError := by
      intro he
      exact hu ((kind_eq_error_iff h).1 (of_decide_eq_true he))
    rw [if_neg herror, if_neg hu]
    rfl

/-- What is left of a text gives its unsupported characters for errors. -/
theorem collect_tokens (cs front : List Char) :
    collect (Cursor.tokens ⟨Position.origin.after front, cs⟩) =
      (unsupportedChars front.length cs).map fun e => ofChar (front ++ cs) e.1 e.2 := by
  induction cs using reading_induction generalizing front with
  | gap gap hgap =>
    rw [Cursor.tokens_gap _ hgap, unsupportedChars_gap _ hgap]
    rfl
  | lexeme gap first tail rest hgap hmunch ih =>
    have hbefore : front ++ (gap ++ first :: (tail ++ rest)) =
        front ++ gap ++ first :: (tail ++ rest) := by simp
    have hbehind : front ++ (gap ++ first :: (tail ++ rest)) =
        front ++ (gap ++ first :: tail) ++ rest := by simp
    have hlist : unsupportedChars front.length (gap ++ (first :: tail ++ rest)) =
        unsupportedChars (front ++ gap).length (first :: tail) ++
          unsupportedChars (front ++ (gap ++ first :: tail)).length rest := by
      rw [unsupportedChars_append, unsupportedChars_gap _ hgap, List.nil_append,
        unsupportedChars_append, ← List.length_append, ← List.length_append, List.append_assoc]
    have hlexeme := collect_lexeme (front ++ gap) hmunch
    rw [Position.after_append, ← hbefore] at hlexeme
    have hrest := ih (front ++ (gap ++ first :: tail))
    rw [Position.after_append, ← hbehind] at hrest
    rw [Cursor.tokens_munch _ hgap hmunch, ← List.singleton_append, collect_append, hlexeme, hrest,
      ← List.map_append, ← hlist]
    rfl

end LexicalError

/-! ## Strict reading -/

/-- The errors of a text are its unsupported characters. -/
theorem collect_tokenize (source : String) : LexicalError.collect (tokenize source) =
    (unsupportedChars 0 source.toList).map fun e => .ofChar source.toList e.1 e.2 :=
  LexicalError.collect_tokens source.toList []

/-- The first unsupported character of a text, with its index. -/
theorem head?_unsupportedChars {text : List Char} {c : Char} {i : Nat} :
    (unsupportedChars 0 text).head? = some (c, i) ↔
      text[i]? = some c ∧ Unsupported c ∧ ∀ d ∈ text.take i, ¬ Unsupported d := by
  rw [unsupportedChars, List.head?_filter, List.find?_eq_some_iff_getElem]
  simp only [List.getElem_zipIdx, Prod.mk.injEq, Nat.zero_add, List.length_zipIdx]
  constructor
  · rintro ⟨hu, j, hj, ⟨rfl, rfl⟩, hfirst⟩
    refine ⟨List.getElem?_eq_getElem hj, of_decide_eq_true hu, ?_⟩
    intro d hd
    obtain ⟨l, hl, rfl⟩ := List.mem_take_iff_getElem.1 hd
    simpa using hfirst l (by omega)
  · rintro ⟨hc, hu, hfirst⟩
    obtain ⟨hi, rfl⟩ := List.getElem?_eq_some_iff.1 hc
    refine ⟨decide_eq_true hu, i, hi, ⟨rfl, rfl⟩, ?_⟩
    intro j hj
    have hmem : text[j] ∈ text.take i := List.mem_take_iff_getElem.2 ⟨j, by omega, rfl⟩
    simpa using hfirst _ hmem

/-- Strict reading looks at the first error. -/
theorem tokenizeStrict_eq (source : String) : tokenizeStrict source =
    match (LexicalError.collect (tokenize source)).head? with
    | some e => .error e
    | none => .ok (tokenize source) := by
  rw [LexicalError.collect, List.head?_map, List.head?_filter, tokenizeStrict]
  cases (tokenize source).find? Token.isError <;> rfl

/-- A text without errors is one whose characters are all supported. -/
theorem head?_collect_eq_none_iff {source : String} :
    (LexicalError.collect (tokenize source)).head? = none ↔
      ∀ c ∈ source.toList, ¬ Unsupported c := by
  rw [collect_tokenize, List.head?_eq_none_iff, List.map_eq_nil_iff, unsupportedChars_eq_nil_iff]

/-- The first error of a text is its first unsupported character. -/
theorem head?_collect_eq_some_iff {source : String} {e : LexicalError} :
    (LexicalError.collect (tokenize source)).head? = some e ↔
      ∃ i c, source.toList[i]? = some c ∧ Unsupported c ∧
        (∀ d ∈ source.toList.take i, ¬ Unsupported d) ∧ e = .ofChar source.toList c i := by
  rw [collect_tokenize, List.head?_map, Option.map_eq_some_iff]
  constructor
  · rintro ⟨⟨c, i⟩, hhead, rfl⟩
    obtain ⟨hc, hu, hfirst⟩ := head?_unsupportedChars.1 hhead
    exact ⟨i, c, hc, hu, hfirst, rfl⟩
  · rintro ⟨i, c, hc, hu, hfirst, rfl⟩
    exact ⟨(c, i), head?_unsupportedChars.2 ⟨hc, hu, hfirst⟩, rfl⟩

/-- A character is reported when it is unsupported, wherever it stands. -/
theorem reported_iff {source : String} {i : Nat} :
    (∃ e ∈ LexicalError.collect (tokenize source), e.position.offset = i) ↔
      ∃ c ∈ source.toList[i]?, Unsupported c := by
  rw [collect_tokenize]
  constructor
  · rintro ⟨e, he, rfl⟩
    obtain ⟨⟨c, i⟩, hmem, rfl⟩ := List.mem_map.1 he
    obtain ⟨hmem, hu⟩ := List.mem_filter.1 hmem
    exact ⟨c, List.mk_mem_zipIdx_iff_getElem?.1 hmem, of_decide_eq_true hu⟩
  · rintro ⟨c, hc, hu⟩
    refine ⟨_, List.mem_map.2 ⟨(c, i), ?_, rfl⟩, rfl⟩
    exact List.mem_filter.2 ⟨List.mk_mem_zipIdx_iff_getElem?.2 hc, decide_eq_true hu⟩

/-- The errors of a text are a filter of its characters: one for each unsupported character, in
their order, with its index, the line and column counted over the text in front of it, and its
message. Whether a character is reported depends on the character alone. Strict reading succeeds
exactly when there is none, and fails with the one that has the smallest index otherwise. -/
theorem errors_filter_text (source : String) :
    LexicalError.collect (tokenize source) =
        (unsupportedChars 0 source.toList).map (fun e => .ofChar source.toList e.1 e.2) ∧
      (∀ c i, (LexicalError.ofChar source.toList c i).reason =
        "Unexpected character: '" ++ String.singleton c ++ "'") ∧
      (∀ i, (∃ e ∈ LexicalError.collect (tokenize source), e.position.offset = i) ↔
        ∃ c ∈ source.toList[i]?, Unsupported c) ∧
      (∀ tokens, tokenizeStrict source = .ok tokens ↔
        tokens = tokenize source ∧ ∀ c ∈ source.toList, ¬ Unsupported c) ∧
      (∀ e, tokenizeStrict source = .error e ↔
        ∃ i c, source.toList[i]? = some c ∧ Unsupported c ∧
          (∀ d ∈ source.toList.take i, ¬ Unsupported d) ∧ e = .ofChar source.toList c i) := by
  refine ⟨collect_tokenize source, fun _ _ => rfl, fun _ => reported_iff, ?_, ?_⟩
  · intro tokens
    rw [tokenizeStrict_eq, ← head?_collect_eq_none_iff]
    cases (LexicalError.collect (tokenize source)).head? with
    | none => simp [eq_comm]
    | some e => simp
  · intro e
    rw [tokenizeStrict_eq, ← head?_collect_eq_some_iff]
    cases (LexicalError.collect (tokenize source)).head? with
    | none => simp
    | some e => simp

end Lexis
