import Lexis.Diagnostic
import Lexis.Proofs.Cursor.Reading
import Lexis.Proofs.Listing.Lossless
import Lexis.Proofs.Position.LineFeeds
import Lexis.Proofs.Position.Shift

/-!
# Carriage returns in front of line feeds

Some texts end their lines with a line feed, others with a carriage return and a line feed. `crlf`
turns the first form into the second, and `tokenize_crlf` says what the tokens notice of it: they
have the same kinds, lexemes, shapes, lines and columns, and each of their positions is one offset
further on for each line above it (`Position.crlf`). What is shown of tokens and of errors leaves
out offsets, so listings and error reports stay as they are. A carriage return is white space and
the columns begin anew behind it, so going over a text and converting it commute
(`Position.after_crlf`), and the two texts are cut alike (`Cursor.tokens_crlf`).
-/

namespace Lexis

/-- The text with a carriage return and a line feed for every line feed, also for one that has a
carriage return in front of it already. -/
def crlf (cs : List Char) : List Char :=
  cs.flatMap fun c => if c = '\n' then ['\r', '\n'] else [c]

/-- The text with all of its line ends converted by `crlf`. -/
def convertLineEnds (source : String) : String := String.ofList (crlf source.toList)

/-- Where a position of a text is when `crlf` has converted the text: each of the lines above it is
longer by one character. -/
def Position.crlf (p : Position) : Position := { p with offset := p.offset + (p.line - 1) }

/-- The location with its positions moved by `f`; it keeps its shape. -/
def Location.map (f : Position → Position) : Location → Location
  | .point p => .point (f p)
  | .range s => .range ⟨f s.start, f s.stop⟩

/-- The token with its location moved by `f`; it keeps its kind and its text. -/
def Token.relocate (f : Position → Position) (t : Token) : Token :=
  { t with location := t.location.map f }

/-! ## Converted texts -/

section
variable {cs : List Char}

/-- Line ends are converted part by part. -/
theorem crlf_append (as bs : List Char) : crlf (as ++ bs) = crlf as ++ crlf bs :=
  List.flatMap_append

/-- A carriage return is put in front of a line feed. -/
theorem crlf_lineFeed_cons (cs : List Char) : crlf ('\n' :: cs) = '\r' :: '\n' :: crlf cs := rfl

/-- Every other character stays as it is. -/
theorem crlf_cons_of_ne {c : Char} (h : c ≠ '\n') (cs : List Char) :
    crlf (c :: cs) = c :: crlf cs := by
  rw [crlf, List.flatMap_cons, if_neg h, List.singleton_append, ← crlf]

/-- Without line feeds there is nothing to convert. -/
theorem crlf_of_not_mem (h : '\n' ∉ cs) : crlf cs = cs := by
  induction cs with
  | nil => rfl
  | cons c cs ih =>
    have hc : c ≠ '\n' := (List.ne_of_not_mem_cons h).symm
    rw [crlf_cons_of_ne hc, ih (List.not_mem_of_not_mem_cons h)]

/-- White space stays white space. -/
theorem crlf_subset_whiteSpace (h : cs ⊆ whiteSpace) : crlf cs ⊆ whiteSpace := by
  induction cs with
  | nil => exact h
  | cons c cs ih =>
    obtain ⟨hc, hcs⟩ := List.cons_subset.1 h
    have hconverted := ih hcs
    by_cases hfeed : c = '\n'
    · subst hfeed
      have hreturn : '\r' ∈ whiteSpace := by decide
      rw [crlf_lineFeed_cons]
      exact List.cons_subset.2 ⟨hreturn, List.cons_subset.2 ⟨hc, hconverted⟩⟩
    · rw [crlf_cons_of_ne hfeed]
      exact List.cons_subset.2 ⟨hc, hconverted⟩

/-- A converted text begins as the text does, or with white space. -/
theorem head?_crlf (cs : List Char) :
    (crlf cs).head? = cs.head? ∨ ∃ c ∈ (crlf cs).head?, isSpace c := by
  cases cs with
  | nil => exact .inl rfl
  | cons c cs =>
    by_cases hc : c = '\n'
    · subst hc
      exact .inr ⟨'\r', rfl, rfl⟩
    · rw [crlf_cons_of_ne hc]
      exact .inl rfl

end

/-- A lexeme ends where it ended when the text behind it is converted. -/
theorem Munch.crlf {first : Char} {tail rest : List Char} (h : Munch first tail rest) :
    Munch first tail (Lexis.crlf rest) := by
  refine ⟨h.start, h.run, ?_⟩
  intro c hc
  rcases head?_crlf rest with hhead | ⟨d, hd, hspace⟩
  · rw [hhead] at hc
    exact h.stop c hc
  · cases Option.mem_unique hc hd
    exact isContinuedBy_eq_false_of_isSpace hspace

/-- There is no line feed in a lexeme. -/
theorem Munch.lineFeed_not_mem {first : Char} {tail rest : List Char} (h : Munch first tail rest) :
    '\n' ∉ first :: tail :=
  fun hmem => h.not_mem_whiteSpace '\n' hmem (by decide)

/-! ## Positions and tokens of a converted text -/

namespace Position

/-- A line feed behind a carriage return opens the next line where the line feed alone does: the
column that the carriage return takes is gone behind it, its offset is not. -/
theorem next_lineFeed_crlf {p : Position} (h : p.OneBased) :
    (p.crlf.next '\r').next '\n' = (p.next '\n').crlf := by
  have hreturn : '\r' ≠ '\n' := by decide
  have hline := h.line_pos
  rw [next_of_ne _ hreturn, next_lineFeed, next_lineFeed, crlf, crlf]
  dsimp only
  rw [Position.mk.injEq]
  omega

/-- A character that is no line feed is gone over alike before and after the conversion. -/
theorem next_crlf_of_ne (p : Position) {c : Char} (h : c ≠ '\n') :
    p.crlf.next c = (p.next c).crlf := by
  rw [next_of_ne _ h, next_of_ne _ h, crlf, crlf]
  dsimp only
  rw [Position.mk.injEq]
  omega

/-- Going over a converted text comes to where the position behind the text is in it. -/
theorem after_crlf {p : Position} (h : p.OneBased) (cs : List Char) :
    p.crlf.after (Lexis.crlf cs) = (p.after cs).crlf := by
  induction cs generalizing p with
  | nil => rfl
  | cons c cs ih =>
    by_cases hc : c = '\n'
    · subst hc
      rw [crlf_lineFeed_cons, after_cons, after_cons, after_cons, next_lineFeed_crlf h,
        ih (h.next _)]
    · rw [crlf_cons_of_ne hc, after_cons, after_cons, next_crlf_of_ne p hc, ih (h.next _)]

end Position

/-- The token of a lexeme is moved with the place of the lexeme, if both of its ends are. -/
theorem Token.relocate_ofLexeme {f : Position → Position} {p : Position} {lexeme : List Char}
    (h : f (p.after lexeme) = (f p).after lexeme) :
    (ofLexeme p lexeme).relocate f = ofLexeme (f p) lexeme := by
  unfold ofLexeme relocate
  split
  · simp only [Location.map, h]
  · rfl

/-- The tokens of a converted text are those of the text, moved to where they are in it. -/
theorem Cursor.tokens_crlf {p : Position} (h : p.OneBased) (cs : List Char) :
    tokens ⟨p.crlf, crlf cs⟩ = (tokens ⟨p, cs⟩).map (Token.relocate Position.crlf) := by
  induction cs using reading_induction generalizing p with
  | gap gap hgap =>
    rw [tokens_gap _ (crlf_subset_whiteSpace hgap), tokens_gap p hgap, Position.after_crlf h,
      List.map_singleton, Token.relocate_ofLexeme rfl]
  | lexeme gap first tail rest hgap hmunch ih =>
    have hlexeme : crlf (first :: tail) = first :: tail := crlf_of_not_mem hmunch.lineFeed_not_mem
    have htext : crlf (gap ++ first :: (tail ++ rest)) =
        crlf gap ++ first :: (tail ++ crlf rest) := by
      rw [← List.cons_append, crlf_append, crlf_append, hlexeme, List.cons_append]
    have hends : (p.after (gap ++ first :: tail)).crlf =
        p.crlf.after (crlf gap ++ first :: tail) := by
      rw [← Position.after_crlf h, crlf_append, hlexeme]
    have htoken : (Token.ofLexeme (p.after gap) (first :: tail)).relocate Position.crlf =
        .ofLexeme (p.crlf.after (crlf gap)) (first :: tail) := by
      rw [Position.after_crlf h]
      refine Token.relocate_ofLexeme ?_
      rw [← Position.after_crlf (h.after gap), hlexeme]
    rw [htext, tokens_munch _ (crlf_subset_whiteSpace hgap) hmunch.crlf, tokens_munch p hgap hmunch,
      List.map_cons, htoken, ← hends, ih (h.after _)]

/-! ## What is shown of a converted text -/

/-- Converting moves offsets and nothing else. -/
theorem Token.relocate_crlf_agreesUpToOffsets (t : Token) :
    (t.relocate Position.crlf).AgreesUpToOffsets t := by
  refine ⟨rfl, rfl, ?_⟩
  rw [relocate]
  cases t.location with
  | point p => exact ⟨rfl, rfl⟩
  | range s => exact ⟨⟨rfl, rfl⟩, ⟨rfl, rfl⟩⟩

/-- What a report shows of an error: what is wrong, the whole message, and the line and column. -/
def LexicalError.shown (e : LexicalError) : String × String × Nat × Nat :=
  (e.reason, e.message, e.position.line, e.position.column)

/-- What is done to a location is done to its start. -/
theorem Location.start_map (f : Position → Position) (l : Location) :
    (l.map f).start = f l.start := by
  cases l <;> rfl

/-- Reports of errors leave out offsets. -/
theorem LexicalError.map_shown_collect (tokens : List Token) :
    (collect (tokens.map (Token.relocate Position.crlf))).map shown =
      (collect tokens).map shown := by
  have herror : Token.isError ∘ Token.relocate Position.crlf = Token.isError := rfl
  rw [collect, collect, List.filter_map, herror, List.map_map, List.map_map, List.map_map]
  refine List.map_congr_left ?_
  intro t _
  have hstart : (t.relocate Position.crlf).location.start = t.location.start.crlf :=
    Location.start_map _ _
  rw [Function.comp_apply, Function.comp_apply, Function.comp_apply, ofToken, ofToken, hstart]
  rfl

/-- When every line feed of a text is replaced by a carriage return and a line feed, also behind
another carriage return, the tokens keep their kinds, lexemes, shapes, lines and columns, and each
of their positions is one offset further on for each line above its own. So the listing of the
tokens stays the same, and so does what is shown of the errors. -/
theorem tokenize_crlf (source : String) :
    tokenize (convertLineEnds source) = (tokenize source).map (Token.relocate Position.crlf) ∧
      listing (tokenize (convertLineEnds source)) = listing (tokenize source) ∧
      (LexicalError.collect (tokenize (convertLineEnds source))).map LexicalError.shown =
        (LexicalError.collect (tokenize source)).map LexicalError.shown := by
  have htokens : tokenize (convertLineEnds source) =
      (tokenize source).map (Token.relocate Position.crlf) := by
    rw [tokenize, Cursor.ofString, convertLineEnds, String.toList_ofList]
    exact Cursor.tokens_crlf Position.oneBased_origin source.toList
  rw [htokens]
  refine ⟨rfl, ?_, LexicalError.map_shown_collect _⟩
  refine listingWith_eq_iff.2 (List.forall₂_map_left_iff.2 (List.forall₂_same.2 ?_))
  intro t _
  exact t.relocate_crlf_agreesUpToOffsets

-- The second line end has a carriage return already, and the text ends with a third one.
example : convertLineEnds "ab\n?\r\n" = "ab\r\n?\r\r\n" ∧
    (tokenize "ab\n?\r\n").map (·.location) =
      [.range ⟨⟨1, 1, 0⟩, ⟨1, 3, 2⟩⟩, .point ⟨2, 1, 3⟩, .point ⟨3, 1, 6⟩] ∧
    (tokenize "ab\r\n?\r\r\n").map (·.location) =
      [.range ⟨⟨1, 1, 0⟩, ⟨1, 3, 2⟩⟩, .point ⟨2, 1, 4⟩, .point ⟨3, 1, 8⟩] := by
  decide +kernel

end Lexis
