import Mathlib.Data.List.Forall2
import Lexis.Listing
import Lexis.Proofs.Text.Lines
import Lexis.Proofs.Text.Quoted

/-!
# What a listing tells

A listing and the description of a token leave out offsets and nothing else.
`listing_tells_all_but_offsets` says that they are the same for the same kinds, lexemes, shapes of
locations, lines and columns (`Token.AgreesUpToOffsets`) and different otherwise, and that a line
feed stands at the end of each line and nowhere else. Every part of a line ends where it can be
seen: a number in front of something else than a digit, a location and a name in front of a space, a
lexeme at its closing quote. So one part after the other is read back from whatever begins with it,
up to the line (`Token.lineWith_append_inj`).
-/

namespace Lexis

/-! ## What is told -/

/-- The positions have the same line and the same column. -/
structure Position.AgreesUpToOffset (p q : Position) : Prop where
  line_eq : p.line = q.line
  column_eq : p.column = q.column

/-- The locations have the same shape and the same lines and columns. -/
def Location.AgreesUpToOffsets : Location → Location → Prop
  | .point p, .point q => p.AgreesUpToOffset q
  | .range s, .range t => s.start.AgreesUpToOffset t.start ∧ s.stop.AgreesUpToOffset t.stop
  | .point _, .range _ | .range _, .point _ => False

/-- The tokens differ in no more than the offsets of their locations. -/
structure Token.AgreesUpToOffsets (a b : Token) : Prop where
  kind_eq : a.kind = b.kind
  lexeme_eq : a.lexeme = b.lexeme
  location_agrees : a.location.AgreesUpToOffsets b.location

/-! ## Locations -/

namespace Position

variable {p q : Position} {xs ys : List Char}

/-- A position is printed as two numerals with a colon between them. -/
theorem toList_render (p : Position) :
    p.render.toList = Nat.toDigits 10 p.line ++ ':' :: Nat.toDigits 10 p.column := by
  simp [render]

/-- The offset of a position is not printed. -/
theorem AgreesUpToOffset.render_eq (h : p.AgreesUpToOffset q) : p.render = q.render := by
  rw [render, render, h.line_eq, h.column_eq]

/-- A position in front of something else than a digit is read back. -/
theorem render_append_inj (hxs : Text.NumberEnds xs) (hys : Text.NumberEnds ys)
    (h : p.render.toList ++ xs = q.render.toList ++ ys) : p.AgreesUpToOffset q ∧ xs = ys := by
  rw [toList_render, toList_render, List.append_assoc, List.append_assoc, List.cons_append,
    List.cons_append] at h
  have hcolon : ∀ cs, Text.NumberEnds (':' :: cs) := fun _ => Text.numberEnds_cons rfl
  obtain ⟨hline, hrest⟩ := Text.toDigits_append_inj (hcolon _) (hcolon _) h
  obtain ⟨hcolumn, hrest⟩ := Text.toDigits_append_inj hxs hys (List.cons.inj hrest).2
  exact ⟨⟨hline, hcolumn⟩, hrest⟩

end Position

namespace Location

variable {a b : Location} {xs ys : List Char}

/-- The offsets of a location are not printed. -/
theorem AgreesUpToOffsets.render_eq (h : a.AgreesUpToOffsets b) : a.render = b.render := by
  cases a with
  | point p =>
    cases b with
    | point q => exact Position.AgreesUpToOffset.render_eq h
    | range t => cases h
  | range s =>
    cases b with
    | point q => cases h
    | range t =>
      rw [render, render, Span.render, Span.render, h.1.render_eq, h.2.render_eq]

/-- A location ends here: it goes on neither with a digit nor with a second position. -/
def EndsBefore (cs : List Char) : Prop := ∀ c ∈ cs.head?, c.isDigit = false ∧ c ≠ '-'

/-- A span is printed as its two ends with a hyphen between them. -/
theorem toList_render_range (s : Span) :
    (range s).render.toList = s.start.render.toList ++ '-' :: s.stop.render.toList := by
  simp [render, Span.render]

/-- A location ends at the end of a text. -/
theorem endsBefore_nil : EndsBefore [] := by simp [EndsBefore]

/-- Where a location ends there is no second position. -/
theorem not_endsBefore_hyphen (cs : List Char) : ¬ EndsBefore ('-' :: cs) :=
  fun h => (h '-' rfl).2 rfl

/-- A location that ends where it ends is read back. -/
theorem render_append_inj (hxs : EndsBefore xs) (hys : EndsBefore ys)
    (h : a.render.toList ++ xs = b.render.toList ++ ys) : a.AgreesUpToOffsets b ∧ xs = ys := by
  have hxs' : Text.NumberEnds xs := fun c hc => (hxs c hc).1
  have hys' : Text.NumberEnds ys := fun c hc => (hys c hc).1
  have hhyphen : ∀ cs, Text.NumberEnds ('-' :: cs) := fun _ => Text.numberEnds_cons rfl
  cases a with
  | point p =>
    cases b with
    | point q => exact Position.render_append_inj hxs' hys' h
    | range t =>
      rw [toList_render_range, List.append_assoc] at h
      obtain ⟨-, rfl⟩ := Position.render_append_inj hxs' (hhyphen _) h
      exact absurd hxs (not_endsBefore_hyphen _)
  | range s =>
    rw [toList_render_range, List.append_assoc] at h
    cases b with
    | point q =>
      obtain ⟨-, rfl⟩ := Position.render_append_inj (hhyphen _) hys' h
      exact absurd hys (not_endsBefore_hyphen _)
    | range t =>
      rw [toList_render_range, List.append_assoc] at h
      obtain ⟨hstart, hrest⟩ := Position.render_append_inj (hhyphen _) (hhyphen _) h
      obtain ⟨hstop, hrest⟩ := Position.render_append_inj hxs' hys' (List.cons.inj hrest).2
      exact ⟨⟨hstart, hstop⟩, hrest⟩

end Location

/-! ## Names of kinds -/

namespace TokenKind

/-- The kind of a display name. -/
def ofDisplayName? (name : String) : Option TokenKind :=
  all.find? (·.displayName = name)

/-- Display names tell all kinds apart. -/
theorem ofDisplayName?_displayName (kind : TokenKind) :
    ofDisplayName? kind.displayName = some kind := by
  cases kind <;> decide

/-- There is neither a space nor a line feed in a display name. -/
theorem not_mem_displayName (kind : TokenKind) :
    ∀ c ∈ kind.displayName.toList, c ≠ ' ' ∧ c ≠ '\n' := by
  cases kind <;> simp [displayName, name]

/-- A display name in front of a space is read back. -/
theorem displayName_append_inj {k l : TokenKind} {xs ys : List Char}
    (h : k.displayName.toList ++ ' ' :: xs = l.displayName.toList ++ ' ' :: ys) :
    k = l ∧ xs = ys := by
  have hname : ∀ kind : TokenKind, ∀ c ∈ kind.displayName.toList, decide (c ≠ ' ') := by
    intro kind c hc
    exact decide_eq_true (kind.not_mem_displayName c hc).1
  have hspace : ∀ cs : List Char, ∀ c ∈ (' ' :: cs).head?, decide (c ≠ ' ') = false := by
    intro cs c hc
    cases hc
    rfl
  obtain ⟨hnames, hrest⟩ := append_inj_of_stop (hname k) (hspace xs) (hname l) (hspace ys) h
  have hkind := congrArg ofDisplayName? (String.toList_inj.1 hnames)
  rw [ofDisplayName?_displayName, ofDisplayName?_displayName] at hkind
  exact ⟨Option.some.inj hkind, (List.cons.inj hrest).2⟩

end TokenKind

/-! ## Tokens -/

/-- A padded text and a space begin with the text and a space. -/
theorem Text.toList_padRight_space (width : Nat) (text : String) (cs : List Char) :
    (padRight width text).toList ++ ' ' :: cs =
      text.toList ++ ' ' :: (List.replicate (width - text.length) ' ' ++ cs) := by
  have hswap : ∀ k, List.replicate k ' ' ++ ' ' :: cs = ' ' :: (List.replicate k ' ' ++ cs) := by
    intro k
    rw [← List.cons_append, ← List.replicate_succ, List.replicate_succ', List.append_assoc,
      List.singleton_append]
  simp [padRight, List.rightpad, hswap, String.length_toList]

namespace Token

variable {hidden : Char → Bool} {a b : Token} {xs ys : List Char}

/-- Tokens that agree up to offsets have the same line in a listing. -/
theorem AgreesUpToOffsets.lineWith_eq (h : a.AgreesUpToOffsets b) :
    a.lineWith hidden = b.lineWith hidden := by
  rw [lineWith, lineWith, h.kind_eq, h.lexeme_eq, h.location_agrees.render_eq]

/-- Tokens that agree up to offsets have the same description. -/
theorem AgreesUpToOffsets.describeWith_eq (h : a.AgreesUpToOffsets b) :
    a.describeWith hidden = b.describeWith hidden := by
  rw [describeWith, describeWith, h.kind_eq, h.lexeme_eq, h.location_agrees.render_eq]

/-- The parts of a line, and what stands behind it. -/
theorem toList_lineWith_append (hidden : Char → Bool) (t : Token) (cs : List Char) :
    (t.lineWith hidden).toList ++ cs =
      t.location.render.toList ++ ' ' ::
        (List.replicate (12 - t.location.render.length) ' ' ++ (t.kind.displayName.toList ++ ' ' ::
          (List.replicate (16 - t.kind.displayName.length) ' ' ++
            ((Text.quote hidden t.lexeme).toList ++ '\n' :: cs)))) := by
  rw [← Text.toList_padRight_space, ← Text.toList_padRight_space]
  simp [lineWith]

/-- A line is read back from whatever begins with it. -/
theorem lineWith_append_inj
    (h : (a.lineWith hidden).toList ++ xs = (b.lineWith hidden).toList ++ ys) :
    a.AgreesUpToOffsets b ∧ xs = ys := by
  rw [toList_lineWith_append, toList_lineWith_append] at h
  have hspace : ∀ cs : List Char, Location.EndsBefore (' ' :: cs) := by
    intro cs c hc
    cases hc
    exact ⟨rfl, by decide⟩
  obtain ⟨hlocation, hrest⟩ := Location.render_append_inj (hspace _) (hspace _) h
  have hrest := (List.cons.inj hrest).2
  rw [hlocation.render_eq] at hrest
  obtain ⟨hkind, hrest⟩ := TokenKind.displayName_append_inj (List.append_cancel_left hrest)
  rw [hkind] at hrest
  obtain ⟨hlexeme, hrest⟩ := Text.quote_append_inj (List.append_cancel_left hrest)
  exact ⟨⟨hkind, hlexeme, hlocation⟩, (List.cons.inj hrest).2⟩

/-- The parts of a description. -/
theorem toList_describeWith (hidden : Char → Bool) (t : Token) :
    (t.describeWith hidden).toList = t.kind.displayName.toList ++ ' ' ::
      ((Text.quote hidden t.lexeme).toList ++ ([' ', '@', ' '] ++ t.location.render.toList)) := by
  simp [describeWith]

/-- A description is read back. -/
theorem agreesUpToOffsets_of_describeWith_eq (h : a.describeWith hidden = b.describeWith hidden) :
    a.AgreesUpToOffsets b := by
  have hlist := congrArg String.toList h
  rw [toList_describeWith, toList_describeWith] at hlist
  obtain ⟨hkind, hrest⟩ := TokenKind.displayName_append_inj hlist
  obtain ⟨hlexeme, hrest⟩ := Text.quote_append_inj hrest
  have hrest := List.append_cancel_left hrest
  rw [← List.append_nil a.location.render.toList, ← List.append_nil b.location.render.toList]
    at hrest
  obtain ⟨hlocation, -⟩ := Location.render_append_inj Location.endsBefore_nil
    Location.endsBefore_nil hrest
  exact ⟨hkind, hlexeme, hlocation⟩

end Token

/-! ## Line feeds -/

/-- A position is printed on one line. -/
theorem Position.lineFeed_not_mem_render (p : Position) : '\n' ∉ p.render.toList := by
  simp [toList_render, Text.lineFeed_not_mem_toDigits]

/-- A location is printed on one line. -/
theorem Location.lineFeed_not_mem_render (l : Location) : '\n' ∉ l.render.toList := by
  cases l with
  | point p => exact p.lineFeed_not_mem_render
  | range s => simp [toList_render_range, Position.lineFeed_not_mem_render]

namespace Token

variable {hidden : Char → Bool}

/-- A line is ended by its only line feed. -/
theorem exists_lineWith_eq (hidden : Char → Bool) (t : Token) :
    ∃ line, t.lineWith hidden = line ++ "\n" ∧ '\n' ∉ line.toList := by
  have hname : '\n' ∉ t.kind.displayName.toList :=
    fun hmem => (t.kind.not_mem_displayName '\n' hmem).2 rfl
  refine ⟨_, rfl, ?_⟩
  simp [Text.padRight, List.rightpad, Text.quote, t.location.lineFeed_not_mem_render, hname,
    Text.Quoted.lineFeed_not_mem_encode]

/-- The line of a token holds one line feed, since those of its lexeme are escaped. -/
theorem count_lineFeed_lineWith (t : Token) : (t.lineWith hidden).toList.count '\n' = 1 := by
  obtain ⟨line, heq, hline⟩ := t.exists_lineWith_eq hidden
  rw [heq]
  exact Text.count_lineFeed_line hline

end Token

/-! ## Listings -/

section
variable {hidden : Char → Bool}

/-- A listing is made line by line. -/
theorem listingWith_cons (hidden : Char → Bool) (t : Token) (tokens : List Token) :
    listingWith hidden (t :: tokens) = t.lineWith hidden ++ listingWith hidden tokens := by
  simp [listingWith]

/-- A listing has one line feed for each token. -/
theorem count_lineFeed_listingWith (tokens : List Token) :
    (listingWith hidden tokens).toList.count '\n' = tokens.length :=
  Text.count_lineFeed_join fun t _ => t.count_lineFeed_lineWith

/-- Equal listings have as many lines, so they are of as many tokens. -/
theorem length_eq_of_listingWith_eq {as bs : List Token}
    (h : listingWith hidden as = listingWith hidden bs) : as.length = bs.length := by
  have hcount := congrArg (fun text => text.toList.count '\n') h
  simpa only [count_lineFeed_listingWith] using hcount

/-- Listings are the same exactly when their tokens agree up to offsets. -/
theorem listingWith_eq_iff {as bs : List Token} :
    listingWith hidden as = listingWith hidden bs ↔ List.Forall₂ Token.AgreesUpToOffsets as bs := by
  induction as generalizing bs with
  | nil =>
    cases bs with
    | nil => exact iff_of_true rfl .nil
    | cons b bs =>
      refine iff_of_false ?_ nofun
      intro h
      cases length_eq_of_listingWith_eq h
  | cons a as ih =>
    cases bs with
    | nil =>
      refine iff_of_false ?_ nofun
      intro h
      cases length_eq_of_listingWith_eq h
    | cons b bs =>
      rw [List.forall₂_cons, ← ih, listingWith_cons, listingWith_cons]
      refine ⟨?_, ?_⟩
      · intro h
        have hlist := congrArg String.toList h
        rw [String.toList_append, String.toList_append] at hlist
        obtain ⟨hagrees, hrest⟩ := Token.lineWith_append_inj hlist
        exact ⟨hagrees, String.toList_inj.1 hrest⟩
      · rintro ⟨hagrees, hrest⟩
        rw [hagrees.lineWith_eq, hrest]

end

/-- Listings and descriptions tell everything about tokens but the offsets, whichever characters are
hidden in lexemes: they are equal exactly when the tokens agree pairwise in kind, lexeme and shape,
lines and columns of the location. In a listing each token has a line, which its only line feed
ends. -/
theorem listing_tells_all_but_offsets (hidden : Char → Bool) :
    (∀ as bs : List Token, listingWith hidden as = listingWith hidden bs ↔
        List.Forall₂ Token.AgreesUpToOffsets as bs) ∧
      (∀ tokens : List Token,
        listingWith hidden tokens = String.join (tokens.map (Token.lineWith hidden)) ∧
          (listingWith hidden tokens).toList.count '\n' = tokens.length) ∧
      (∀ t : Token, ∃ line, t.lineWith hidden = line ++ "\n" ∧ '\n' ∉ line.toList) ∧
      (∀ a b : Token, a.describeWith hidden = b.describeWith hidden ↔ a.AgreesUpToOffsets b) := by
  refine ⟨?_, ?_, Token.exists_lineWith_eq hidden, ?_⟩
  · intro as bs
    exact listingWith_eq_iff
  · intro tokens
    exact ⟨rfl, count_lineFeed_listingWith tokens⟩
  · intro a b
    exact ⟨Token.agreesUpToOffsets_of_describeWith_eq, Token.AgreesUpToOffsets.describeWith_eq⟩

end Lexis
