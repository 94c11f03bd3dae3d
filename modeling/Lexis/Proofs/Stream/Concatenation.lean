import Lexis.Proofs.Position.Shift
import Lexis.Proofs.Stream.Tiling

/-!
# Reading a text in two parts

A text may be cut anywhere and its parts read by themselves. `tokenize_append_iff` says when this
gives the tokens of the whole: the tokens of the first part, followed by those of the second part
moved to where the first one ends, are the tokens of the whole unless the cut goes through a lexeme
(`CutsLexeme`). Nothing but the last lexeme of the first part can be lengthened by what is behind
the cut, so the two cases are told apart along the cuts of the first part (`tokens_append_cases`):
either reading goes on behind the cut, or no token of the whole ends at it.
-/

namespace Lexis

/-- The last of the tokens ends at offset `n`, and takes in the character with which the text goes
on from there. -/
def CutsLexeme (tokens : List Token) (n : Nat) (behind : List Char) : Prop :=
  ∃ t ∈ tokens.getLast?, t.ends = n ∧ ∃ c ∈ behind.head?, t.kind.takesIn c

/-! ## Moved texts -/

/-- The tokens of a moved text are the moved tokens of the text. -/
theorem Cursor.tokens_shift (base : Position) {q : Position} (h : q.OneBased) (cs : List Char) :
    tokens ⟨base.shift q, cs⟩ = (tokens ⟨q, cs⟩).map (Token.shift base) := by
  induction cs using reading_induction generalizing q with
  | gap gap hgap =>
    rw [tokens_gap _ hgap, tokens_gap _ hgap, Position.after_shift base h, List.map_singleton,
      Token.shift_ofLexeme base (h.after gap)]
  | lexeme gap first tail rest hgap hmunch ih =>
    rw [tokens_munch _ hgap hmunch, tokens_munch _ hgap hmunch, Position.after_shift base h,
      Position.after_shift base h, ih (h.after _), List.map_cons,
      Token.shift_ofLexeme base (h.after gap)]

/-! ## Where tokens stand -/

/-- No token ends in front of where it begins. -/
theorem Token.begins_le_ends (t : Token) : t.begins ≤ t.ends := Nat.le_add_right _ _

namespace Cursor

variable {p : Position} {cs : List Char} {t : Token}

/-- A token in front of the end of the text has a lexeme, which lies in the text. -/
theorem bounds_of_mem_body (h : t ∈ body ⟨p, cs⟩) :
    p.offset ≤ t.begins ∧ t.begins < t.ends ∧ t.ends ≤ (p.after cs).offset := by
  induction cs using reading_induction generalizing p with
  | gap gap hgap =>
    rw [body_gap p hgap] at h
    cases h
  | lexeme gap first tail rest hgap hmunch ih =>
    rw [body_munch p hgap hmunch] at h
    rcases List.mem_cons.1 h with rfl | h
    · rw [Token.begins_ofLexeme, Token.ends_ofLexeme]
      simp
      omega
    · have hrest := ih h
      simp only [Position.offset_after, List.length_append, List.length_cons] at hrest ⊢
      omega

/-- Only the token behind the body marks the end of a text. -/
theorem kind_ne_of_mem_body (h : t ∈ body ⟨p, cs⟩) : t.kind ≠ .endOfStream := by
  induction cs using reading_induction generalizing p with
  | gap gap hgap =>
    rw [body_gap p hgap] at h
    cases h
  | lexeme gap first tail rest hgap hmunch ih =>
    rw [body_munch p hgap hmunch] at h
    rcases List.mem_cons.1 h with rfl | h
    · exact hmunch.kind_ne_endOfStream
    · exact ih h

/-- A lexeme that ends where the text ends leaves no white space behind it. -/
theorem getLast?_not_mem_whiteSpace (h : t ∈ body ⟨p, cs⟩) (hends : t.ends = (p.after cs).offset) :
    ∀ c ∈ cs.getLast?, c ∉ whiteSpace := by
  induction cs using reading_induction generalizing p with
  | gap gap hgap =>
    rw [body_gap p hgap] at h
    cases h
  | lexeme gap first tail rest hgap hmunch ih =>
    rw [body_munch p hgap hmunch] at h
    intro c hc hspace
    rcases List.mem_cons.1 h with rfl | h
    · rw [Token.ends_ofLexeme] at hends
      simp at hends
      obtain rfl : rest = [] := List.length_eq_zero_iff.1 (by omega)
      rw [List.append_nil, List.getLast?_append_cons] at hc
      exact hmunch.not_mem_whiteSpace c (List.mem_of_getLast? hc) hspace
    · have hrest : rest ≠ [] := by
        rintro rfl
        rw [body_gap _ (List.nil_subset _)] at h
        cases h
      have htext : gap ++ first :: (tail ++ rest) = gap ++ first :: tail ++ rest := by simp
      rw [htext, Position.after_append] at hends
      rw [htext, List.getLast?_append_of_ne_nil _ hrest] at hc
      exact ih h hends c hc hspace

/-- No token begins in front of the place from which reading goes on. -/
theorem offset_le_begins_of_mem (h : t ∈ tokens ⟨p, cs⟩) : p.offset ≤ t.begins := by
  rw [tokens_eq_body_append] at h
  rcases List.mem_append.1 h with h | h
  · exact (bounds_of_mem_body h).1
  · rw [List.mem_singleton.1 h, Token.begins_ofLexeme, Position.offset_after]
    exact Nat.le_add_right _ _

end Cursor

/-! ## Where a text is cut -/

section
variable {first : Char} {tail rest : List Char}

/-- A lexeme that takes in what comes when the text goes on has nothing behind it. -/
theorem Munch.eq_nil_of_continued (h : Munch first tail rest) {behind : List Char} {c : Char}
    (hc : c ∈ (rest ++ behind).head?) (hcontinued : isContinuedBy first c) : rest = [] := by
  cases rest with
  | nil => rfl
  | cons d rest =>
    have hstop := h.stop c hc
    rw [hcontinued] at hstop
    cases hstop

/-- A lexeme that takes in what comes is longer in the text that goes on. -/
theorem Munch.exists_longer (h : Munch first tail rest) {c : Char} (hc : isContinuedBy first c)
    (cs : List Char) :
    ∃ more rest', cs = more ++ rest' ∧ Munch first (tail ++ c :: more) rest' := by
  obtain ⟨more, rest', rfl, hmunch⟩ := exists_munch h.start cs
  refine ⟨more, rest', rfl, h.start, ?_, hmunch.stop⟩
  intro d hd
  rcases List.mem_append.1 hd with hd | hd
  · exact h.run d hd
  rcases List.mem_cons.1 hd with rfl | hd
  · exact hc
  · exact hmunch.run d hd

/-- In front of more tokens that have lexemes, a token that is not cut makes no difference. -/
theorem cutsLexeme_cons_iff {t : Token} {tokens : List Token} {n : Nat} {behind : List Char}
    (ht : t.ends = n → ∀ c ∈ behind.head?, t.kind.takesIn c = false) :
    CutsLexeme (t :: tokens) n behind ↔ CutsLexeme tokens n behind := by
  cases tokens with
  | nil =>
    simp only [CutsLexeme, List.getLast?_singleton, List.getLast?_nil]
    refine iff_of_false ?_ nofun
    rintro ⟨u, hu, hends, c, hc, htakes⟩
    cases hu
    rw [ht hends c hc] at htakes
    cases htakes
  | cons u tokens => rw [CutsLexeme, CutsLexeme, List.getLast?_cons_cons]

open Cursor in
/-- A lexeme that goes on behind a cut keeps all tokens from ending there. -/
theorem ends_ne_of_continued {gap : List Char} (p : Position) (hgap : gap ⊆ whiteSpace)
    (h : Munch first tail []) {c : Char} (hcontinued : isContinuedBy first c) (cs : List Char) :
    ∀ t ∈ tokens ⟨p, gap ++ first :: (tail ++ c :: cs)⟩,
      t.ends ≠ (p.after (gap ++ first :: tail)).offset := by
  obtain ⟨more, rest, rfl, hlonger⟩ := h.exists_longer hcontinued cs
  have htext : tail ++ c :: (more ++ rest) = tail ++ c :: more ++ rest := by simp
  rw [htext, tokens_munch p hgap hlonger]
  intro t ht
  rcases List.mem_cons.1 ht with rfl | ht
  · rw [Token.ends_ofLexeme]
    simp
    omega
  · have hbegins := offset_le_begins_of_mem ht
    have hle := t.begins_le_ends
    simp at hbegins ⊢
    omega

end

open Cursor in
/-- Reading a text in two parts: either the cut goes through no lexeme, and reading goes on behind
it as it would have begun there, or it goes through one, and no token of the whole ends at it. -/
theorem tokens_append_cases (p : Position) (as bs : List Char) :
    (¬ CutsLexeme (body ⟨p, as⟩) (p.after as).offset bs ∧
        tokens ⟨p, as ++ bs⟩ = body ⟨p, as⟩ ++ tokens ⟨p.after as, bs⟩) ∨
      (CutsLexeme (body ⟨p, as⟩) (p.after as).offset bs ∧
        ∀ t ∈ tokens ⟨p, as ++ bs⟩, t.ends ≠ (p.after as).offset) := by
  induction as using reading_induction generalizing p with
  | gap gap hgap =>
    rw [body_gap p hgap]
    refine .inl ⟨?_, tokens_gap_append p hgap bs⟩
    rintro ⟨t, ht, -⟩
    cases ht
  | lexeme gap first tail rest hgap hmunch ih =>
    have hends : (Token.ofLexeme (p.after gap) (first :: tail)).ends =
        (p.after (gap ++ first :: tail)).offset := by
      simp [Token.ends_ofLexeme, Nat.add_assoc]
    have htakes : ∀ c, (Token.ofLexeme (p.after gap) (first :: tail)).kind.takesIn c =
        isContinuedBy first c := (Lexeme.legal_kind hmunch.start hmunch.run).takesIn_eq
    have hafter : p.after (gap ++ first :: (tail ++ rest)) =
        (p.after (gap ++ first :: tail)).after rest := by
      rw [← Position.after_append, List.append_assoc, List.cons_append]
    have htext : gap ++ first :: (tail ++ rest) ++ bs =
        gap ++ first :: (tail ++ (rest ++ bs)) := by simp
    rw [body_munch p hgap hmunch, hafter, htext]
    by_cases hstop : ∀ c ∈ (rest ++ bs).head?, isContinuedBy first c = false
    · -- The lexeme ends where it ended, so the cut is one of what is behind it.
      have hcuts : CutsLexeme (.ofLexeme (p.after gap) (first :: tail) ::
            body ⟨p.after (gap ++ first :: tail), rest⟩)
          ((p.after (gap ++ first :: tail)).after rest).offset bs ↔
          CutsLexeme (body ⟨p.after (gap ++ first :: tail), rest⟩)
            ((p.after (gap ++ first :: tail)).after rest).offset bs := by
        refine cutsLexeme_cons_iff ?_
        intro hcut c hc
        rw [hends, Position.offset_after _ rest] at hcut
        obtain rfl : rest = [] := List.length_eq_zero_iff.1 (by omega)
        rw [htakes]
        exact hstop c hc
      rw [hcuts, tokens_munch p hgap ⟨hmunch.start, hmunch.run, hstop⟩, List.cons_append,
        List.cons_inj_right]
      refine (ih _).imp_right ?_
      rintro ⟨hcut, hall⟩
      refine ⟨hcut, ?_⟩
      intro t ht
      rcases List.mem_cons.1 ht with rfl | ht
      · obtain ⟨u, hu, huends, -⟩ := hcut
        have hbounds := bounds_of_mem_body (List.mem_of_getLast? hu)
        omega
      · exact hall t ht
    · -- Nothing stands between the lexeme and the cut, and the lexeme goes on behind it.
      simp only [not_forall, Bool.not_eq_false, exists_prop] at hstop
      obtain ⟨c, hc, hcontinued⟩ := hstop
      obtain rfl := hmunch.eq_nil_of_continued hc hcontinued
      obtain ⟨cs, rfl⟩ := List.head?_eq_some_iff.1 hc
      rw [body_gap _ (List.nil_subset _)]
      exact .inr ⟨⟨_, rfl, hends, c, rfl, (htakes c).trans hcontinued⟩,
        ends_ne_of_continued p hgap hmunch hcontinued cs⟩

/-- Tokens take in letters and digits only. -/
theorem TokenKind.isAlphanum_of_takesIn {k : TokenKind} {c : Char} (h : k.takesIn c) :
    c.isAlphanum := by
  cases k with
  | upperIdentifier | lowerIdentifier | keywordTrue | keywordFalse | keywordAs => exact h
  | literalInt | minus => exact isAlphanum_of_isDigit h
  | literalChar | literalString | comma | endOfStream | error => cases h

section
variable {p : Position} {as bs : List Char}

open Cursor in
/-- Reading goes on behind a cut as it would have begun there, unless the cut goes through a
lexeme. -/
theorem tokens_append_iff :
    tokens ⟨p, as ++ bs⟩ = body ⟨p, as⟩ ++ tokens ⟨p.after as, bs⟩ ↔
      ¬ CutsLexeme (body ⟨p, as⟩) (p.after as).offset bs := by
  rcases tokens_append_cases p as bs with ⟨hcut, heq⟩ | ⟨hcut, hall⟩
  · exact iff_of_true heq hcut
  · refine iff_of_false ?_ (not_not_intro hcut)
    intro heq
    obtain ⟨t, ht, hends, -⟩ := hcut
    refine hall t ?_ hends
    rw [heq]
    exact List.mem_append_left _ (List.mem_of_getLast? ht)

open Cursor in
/-- A cut at which a token ends, or with white space on one of its sides, goes through no lexeme. -/
theorem not_cutsLexeme_of_boundary
    (h : (∃ t ∈ tokens ⟨p, as ++ bs⟩, t.ends = (p.after as).offset) ∨
      (∃ c ∈ as.getLast?, c ∈ whiteSpace) ∨ (∃ c ∈ bs.head?, c ∈ whiteSpace)) :
    ¬ CutsLexeme (body ⟨p, as⟩) (p.after as).offset bs := by
  intro hcut
  rcases h with ⟨t, ht, hends⟩ | ⟨c, hc, hspace⟩ | ⟨c, hc, hspace⟩
  · rcases tokens_append_cases p as bs with ⟨hnot, -⟩ | ⟨-, hall⟩
    · exact hnot hcut
    · exact hall t ht hends
  · obtain ⟨t, ht, hends, -⟩ := hcut
    exact getLast?_not_mem_whiteSpace (List.mem_of_getLast? ht) hends c hc hspace
  · obtain ⟨t, -, -, d, hd, htakes⟩ := hcut
    cases Option.mem_unique hc hd
    have halphanum := TokenKind.isAlphanum_of_takesIn htakes
    exact not_mem_whiteSpace_of_isSpace (Lexeme.isSpace_eq_false_of_isAlphanum halphanum) hspace

open Cursor in
/-- Where reading goes on behind a cut, the tokens of what is behind it are those that do not begin
in front of it. -/
theorem filter_begins
    (h : tokens ⟨p, as ++ bs⟩ = body ⟨p, as⟩ ++ tokens ⟨p.after as, bs⟩) :
    (tokens ⟨p, as ++ bs⟩).filter (fun t => (p.after as).offset ≤ t.begins) =
      tokens ⟨p.after as, bs⟩ := by
  have hfront : (body ⟨p, as⟩).filter (fun t => (p.after as).offset ≤ t.begins) = [] := by
    rw [List.filter_eq_nil_iff]
    intro t ht
    have hbounds := bounds_of_mem_body ht
    rw [decide_eq_true_iff]
    omega
  have hbehind : (tokens ⟨p.after as, bs⟩).filter (fun t => (p.after as).offset ≤ t.begins) =
      tokens ⟨p.after as, bs⟩ := by
    rw [List.filter_eq_self]
    intro t ht
    exact decide_eq_true (offset_le_begins_of_mem ht)
  rw [h, List.filter_append, hfront, hbehind, List.nil_append]

end

/-- The tokens of a text in two parts are those of the first part, without the mark of its end, and
those of the second part, moved to that end, exactly when the last token of the first part does not
stand at its end and take in the first character of the second part. So it is when some token of the
text ends at the cut, or there is white space on one side of it: the moved tokens of the second part
are then all that are still to come. -/
theorem tokenize_append_iff (a b : String) :
    ∃ tokens place, tokenize a = tokens ++ [⟨.endOfStream, "", .point place⟩] ∧
      (∀ t ∈ tokens, t.kind ≠ .endOfStream) ∧
      (tokenize (a ++ b) = tokens ++ (tokenize b).map (Token.shift place) ↔
        ¬ CutsLexeme tokens a.length b.toList) ∧
      ((∃ t ∈ tokenize (a ++ b), t.ends = a.length) ∨
          (∃ c ∈ a.toList.getLast?, c ∈ whiteSpace) ∨ (∃ c ∈ b.toList.head?, c ∈ whiteSpace) →
        (tokenize (a ++ b)).filter (fun t => a.length ≤ t.begins) =
          (tokenize b).map (Token.shift place)) := by
  have hlength : (Position.origin.after a.toList).offset = a.length := by
    rw [Position.offset_after, String.length_toList]
    exact Nat.zero_add _
  have hwhole : tokenize (a ++ b) = Cursor.tokens ⟨.origin, a.toList ++ b.toList⟩ := by
    rw [tokenize, Cursor.ofString, String.toList_append]
  have hmoved : (tokenize b).map (Token.shift (Position.origin.after a.toList)) =
      Cursor.tokens ⟨Position.origin.after a.toList, b.toList⟩ := by
    rw [tokenize, Cursor.ofString, ← Cursor.tokens_shift _ Position.oneBased_origin,
      Position.shift_origin]
  refine ⟨Cursor.body ⟨.origin, a.toList⟩, Position.origin.after a.toList,
    Cursor.tokens_eq_body_append _ _, fun t => Cursor.kind_ne_of_mem_body, ?_, ?_⟩
  · rw [hwhole, hmoved, ← hlength]
    exact tokens_append_iff
  · rw [hwhole, hmoved, ← hlength]
    intro h
    exact filter_begins (tokens_append_iff.2 (not_cutsLexeme_of_boundary h))

-- A cut behind a sign, in front of a letter: the positions of the second part go on from column 4
-- in its first line and are moved by one line in the next.
example : tokenize ("a\n\t -" ++ "b\r\nc") =
    (tokenize "a\n\t -").dropLast ++ (tokenize "b\r\nc").map (Token.shift ⟨2, 4, 5⟩) := by
  decide +kernel

end Lexis
