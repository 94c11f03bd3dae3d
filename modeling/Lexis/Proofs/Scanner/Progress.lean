import Lexis.Proofs.Scanner.Bookmark
import Lexis.Proofs.Scanner.Reachable
import Lexis.Proofs.Stream.Prefix

/-!
# Reading gets to the end

`advances_terminate`: an advance of a reachable scanner comes to the end of the text exactly when
nothing but white space is left, goes over a gap and a non-empty lexeme otherwise, and changes
nothing once the end is reached (`Scanner.Progresses`). So reading a text ends after as many
advances as there are lexemes, which are at most as many as the characters that are not white
space. The end is told by the text that is left and by no mark in it, so a text may hold any
character.
-/

namespace Lexis

open Scanner

/-- What an advance does to a scanner of the text. It comes to the end of the text when nothing but
white space is left. Otherwise it goes over a gap and the lexeme of its new token, which is not
empty and holds no white space. A scanner at the end of the text stays as it is. -/
structure Scanner.Progresses (s : Scanner) (text : List Char) : Prop where
  atEnd_advance_iff : s.advance.atEnd ↔ text.drop s.cursor.position.offset ⊆ whiteSpace
  forward : ¬ s.advance.atEnd → ∃ gap lexeme rest,
    text.drop s.cursor.position.offset = gap ++ (lexeme ++ rest) ∧ gap ⊆ whiteSpace ∧
      lexeme ≠ [] ∧ (∀ c ∈ lexeme, c ∉ whiteSpace) ∧ s.advance.token.lexeme.toList = lexeme ∧
      s.advance.cursor.position.offset = s.cursor.position.offset + gap.length + lexeme.length
  stays : s.atEnd → ∀ n, advance^[n] s = s

/-! ## One advance -/

/-- The offset of a cursor tells what it still has to read. -/
theorem Cursor.Reads.drop_eq {c : Cursor} {text : List Char} (h : c.Reads text) :
    text.drop c.position.offset = c.rest := by
  obtain ⟨front, rfl, hp⟩ := h
  rw [hp, Position.offset_after_origin, List.drop_left]

namespace Scanner

variable {c : Cursor} {s : Scanner} {source : String}

/-- In front of the end of a text the first token is read from a gap and a lexeme. -/
theorem exists_munch_of_not_atEnd (h : ¬ (ofCursor c).atEnd) : ∃ gap first tail rest,
    c.rest = gap ++ first :: (tail ++ rest) ∧ gap ⊆ whiteSpace ∧ Munch first tail rest ∧
      ofCursor c = ⟨.ofLexeme (c.position.after gap) (first :: tail),
        ⟨c.position.after (gap ++ first :: tail), rest⟩⟩ := by
  obtain ⟨p, cs⟩ := c
  rcases exists_gap cs with hgap | ⟨gap, first, behind, rfl, hgap, hfirst⟩
  · exact absurd (atEnd_ofCursor_iff.2 hgap) h
  · obtain ⟨tail, rest, rfl, hmunch⟩ := exists_munch hfirst behind
    refine ⟨gap, first, tail, rest, rfl, hgap, hmunch, ?_⟩
    rw [ofCursor, Cursor.next_munch p hgap hmunch]

/-- At the end of the text any number of advances leaves the scanner as it is. -/
theorem iterate_advance_of_atEnd (h : (ofCursor c).atEnd) (n : Nat) :
    advance^[n] (ofCursor c) = ofCursor c :=
  Function.iterate_fixed (advance_of_atEnd h) n

/-- What an advance does to a reachable scanner. -/
theorem Reachable.progresses (h : Reachable source s) : s.Progresses source.toList := by
  obtain ⟨c, rfl, hc⟩ := h.exists_eq_ofCursor
  have hreads : (ofCursor c).cursor.Reads source.toList := hc.next
  refine ⟨?_, ?_, iterate_advance_of_atEnd⟩
  · rw [hreads.drop_eq]
    exact atEnd_ofCursor_iff
  · intro hend
    obtain ⟨gap, first, tail, rest, hrest, hgap, hmunch, hadvance⟩ := exists_munch_of_not_atEnd hend
    refine ⟨gap, first :: tail, rest, ?_, hgap, List.cons_ne_nil _ _, hmunch.not_mem_whiteSpace,
      ?_, ?_⟩
    · rw [hreads.drop_eq]
      exact hrest
    · rw [advance, hadvance, Token.lexeme_ofLexeme, String.toList_ofList]
    · rw [advance, hadvance, Position.offset_after, List.length_append, Nat.add_assoc]

end Scanner

/-! ## All advances -/

namespace Cursor

/-- There is a lexeme for each token but the last. -/
theorem length_body (c : Cursor) : c.body.length = c.last := by
  rw [body, List.length_dropLast, last]

/-- The stream from a cursor on is what scanners show in front of the end and when they reach it. -/
theorem tokens_eq_map_nth (c : Cursor) :
    c.tokens = (List.range (c.last + 1)).map fun k => (nth c k).token := by
  refine List.ext_getElem? ?_
  intro k
  rw [List.getElem?_map]
  by_cases hk : k < c.last + 1
  · rw [getElem?_tokens (Nat.le_of_lt_succ hk), List.getElem?_range hk, Option.map_some]
  · have hrange : (List.range (c.last + 1)).length ≤ k := by
      rw [List.length_range]
      exact Nat.le_of_not_lt hk
    rw [List.getElem?_eq_none hrange, List.getElem?_eq_none (by rw [c.length_tokens]; omega),
      Option.map_none]

end Cursor

/-- The tokens of a text that have lexemes are those in front of the mark of its end. -/
theorem lexemeTokens_eq_body (source : String) :
    lexemeTokens source = (Cursor.ofString source).body := by
  have hbody : (Cursor.ofString source).body.filter (fun t => !t.isEnd) =
      (Cursor.ofString source).body := by
    rw [List.filter_eq_self]
    intro t ht
    rw [Token.isEnd, decide_eq_false (Cursor.kind_ne_of_mem_body ht)]
    rfl
  rw [lexemeTokens, tokenize, Cursor.ofString, Cursor.tokens_eq_body_append, List.filter_append,
    ← Cursor.ofString, hbody]
  exact List.append_nil _

/-! ## How many lexemes there are -/

/-- The number of characters of a text that are not white space. -/
def solidCount (cs : List Char) : Nat := cs.countP (· ∉ whiteSpace)

/-- What is no white space is counted part by part. -/
theorem solidCount_append (as bs : List Char) :
    solidCount (as ++ bs) = solidCount as + solidCount bs :=
  List.countP_append

/-- A gap holds nothing but white space. -/
theorem solidCount_gap {gap : List Char} (h : gap ⊆ whiteSpace) : solidCount gap = 0 := by
  rw [solidCount, List.countP_eq_zero]
  intro c hc
  simpa using h hc

/-- A lexeme holds no white space, so all of it is counted. -/
theorem Munch.solidCount_eq {first : Char} {tail rest : List Char} (h : Munch first tail rest) :
    solidCount (first :: tail) = tail.length + 1 := by
  rw [solidCount, List.countP_eq_length.2, List.length_cons]
  intro c hc
  exact decide_eq_true (h.not_mem_whiteSpace c hc)

/-- Each lexeme takes at least one of the characters that are not white space, and no two lexemes
share one. -/
theorem Cursor.length_body_le (p : Position) (cs : List Char) :
    (body ⟨p, cs⟩).length ≤ solidCount cs ∧
      ((body ⟨p, cs⟩).length = solidCount cs ↔ ∀ t ∈ body ⟨p, cs⟩, t.lexeme.length = 1) := by
  induction cs using reading_induction generalizing p with
  | gap gap hgap =>
    rw [body_gap p hgap, solidCount_gap hgap]
    exact ⟨Nat.le_refl _, iff_of_true rfl nofun⟩
  | lexeme gap first tail rest hgap hmunch ih =>
    have hcount : solidCount (gap ++ first :: (tail ++ rest)) =
        tail.length + 1 + solidCount rest := by
      rw [← List.cons_append, solidCount_append, solidCount_append, solidCount_gap hgap,
        hmunch.solidCount_eq, Nat.zero_add]
    obtain ⟨hle, hiff⟩ := ih (p.after (gap ++ first :: tail))
    rw [body_munch p hgap hmunch, hcount, List.length_cons, List.forall_mem_cons, ← hiff,
      Token.lexeme_ofLexeme, String.length_ofList, List.length_cons]
    omega

/-- Every advance of a reachable scanner makes progress until the end of the text is reached, and
none does then. So the end is reached: a text of `n` lexemes is at its end after `n` advances, no
earlier, and its tokens are those shown before each of these advances and after the last one. There
are no more lexemes than characters that are not white space, and as many exactly when each lexeme
is a single character. -/
theorem advances_terminate (source : String) :
    (∀ s, Reachable source s → s.Progresses source.toList) ∧
      let n := (lexemeTokens source).length
      (∀ k ≤ n, (advance^[k] (.ofString source)).atEnd ↔ k = n) ∧
      tokenize source = (List.range (n + 1)).map (fun k => (advance^[k] (.ofString source)).token) ∧
      n ≤ solidCount source.toList ∧
      (n = solidCount source.toList ↔ ∀ t ∈ lexemeTokens source, t.lexeme.length = 1) := by
  have hn : (lexemeTokens source).length = (Cursor.ofString source).last := by
    rw [← Cursor.length_body, ← lexemeTokens_eq_body]
  refine ⟨fun s hs => hs.progresses, ?_, ?_, ?_⟩
  · intro k hk
    rw [hn] at hk ⊢
    exact atEnd_nth_iff hk
  · rw [hn]
    exact Cursor.tokens_eq_map_nth _
  · have hbody := Cursor.length_body_le .origin source.toList
    rwa [← Cursor.ofString, ← lexemeTokens_eq_body] at hbody

/-- A null character is read as any other one: it does not look like the end of the text. -/
theorem advances_terminate_null :
    let source := "a\x00 "
    let s := Scanner.ofString source
    Reachable source s ∧ ¬ s.advance.atEnd ∧ Reachable source s.advance.advance ∧
      s.advance.advance.atEnd ∧ (∀ n, advance^[n] s.advance.advance = s.advance.advance) ∧
      (lexemeTokens source).length = 2 ∧ solidCount source.toList = 2 := by
  intro source s
  have hfirst : Reachable source s := ⟨_, .new, List.mem_singleton_self _⟩
  have hlast : Reachable source s.advance.advance :=
    ⟨_, .step (.step .new (.advance [] _ [])) (.advance [] _ []), List.mem_singleton_self _⟩
  have hcount : (lexemeTokens source).length = 2 := by decide +kernel
  obtain ⟨hprogress, hend, -, -, hiff⟩ := advances_terminate source
  rw [hcount] at hend hiff
  have hnot : ¬ s.advance.atEnd := mt (hend 1 (by decide)).1 (by decide)
  have hatEnd : s.advance.advance.atEnd := (hend 2 (by decide)).2 rfl
  exact ⟨hfirst, hnot, hlast, hatEnd, (hprogress _ hlast).stays hatEnd, hcount,
    (hiff.2 (by decide +kernel)).symm⟩

end Lexis
