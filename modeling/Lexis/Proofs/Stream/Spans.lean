import Mathlib.Order.Fin.Basic
import Mathlib.Order.MinMax
import Lexis.Proofs.Cursor.Reading
import Lexis.Proofs.Location.Merging
import Lexis.Proofs.Position.Counting

/-!
# The span of visited tokens

A reader that goes back and forth merges the locations of the tokens it visits, in the order of its
visits. `mergeAll_visited` says what comes of it: the location of the only token it has visited, or
the span from the start of the first token of the text that it has visited to the end of the last
one, and which piece of the text that span is. It rests on where the lexemes of a stream stand: the
lexeme of each token is in the text (`Token.ReadAt`), and of two tokens the lexeme of the second
stands behind that of the first (`Token.Precedes`, `Cursor.pairwise_tokens`).
-/

namespace Lexis

namespace Token

/-- The token is that of a lexeme which begins at `p` and has `behind` behind it. Only the end of
the text has an empty lexeme. -/
structure ReadAt (t : Token) (p : Position) (lexeme behind : List Char) : Prop where
  eq_ofLexeme : t = .ofLexeme p lexeme
  end_or_legal : lexeme = [] ∧ behind = [] ∨ Lexeme.Legal t.kind lexeme

/-- A text that begins at `p` has the lexemes of both tokens in it, that of `t` in front of that of
`u`. -/
def Precedes (p : Position) (text : List Char) (t u : Token) : Prop :=
  ∃ front lexeme between lexeme' behind,
    text = front ++ (lexeme ++ (between ++ (lexeme' ++ behind))) ∧ lexeme ≠ [] ∧
      t.ReadAt (p.after front) lexeme (between ++ (lexeme' ++ behind)) ∧
      u.ReadAt (p.after (front ++ (lexeme ++ between))) lexeme' behind

/-- What precedes in the rest of a text precedes in the text. -/
theorem Precedes.append_left {p : Position} {text : List Char} {t u : Token} (front : List Char)
    (h : Precedes (p.after front) text t u) : Precedes p (front ++ text) t u := by
  obtain ⟨front', lexeme, between, lexeme', behind, rfl, hne, ht, hu⟩ := h
  rw [← Position.after_append] at ht hu
  refine ⟨front ++ front', lexeme, between, lexeme', behind, by simp, hne, ht, ?_⟩
  rwa [List.append_assoc]

end Token

namespace Cursor

/-- Every token of a stream is read from a lexeme of the text. -/
theorem exists_readAt_of_mem {p : Position} {cs : List Char} {t : Token}
    (h : t ∈ tokens ⟨p, cs⟩) : ∃ front lexeme behind,
      cs = front ++ (lexeme ++ behind) ∧ t.ReadAt (p.after front) lexeme behind := by
  induction cs using reading_induction generalizing p with
  | gap gap hgap =>
    rw [tokens_gap p hgap] at h
    exact ⟨gap, [], [], by simp, List.mem_singleton.1 h, .inl ⟨rfl, rfl⟩⟩
  | lexeme gap first tail rest hgap hmunch ih =>
    rw [tokens_munch p hgap hmunch] at h
    rcases List.mem_cons.1 h with rfl | h
    · exact ⟨gap, first :: tail, rest, rfl, rfl, .inr (Lexeme.legal_kind hmunch.start hmunch.run)⟩
    · obtain ⟨front, lexeme, behind, rfl, ht⟩ := ih h
      rw [← Position.after_append] at ht
      exact ⟨_, lexeme, behind, by simp, ht⟩

/-- The tokens of a stream are in the order of their lexemes. -/
theorem pairwise_tokens (p : Position) (cs : List Char) :
    (tokens ⟨p, cs⟩).Pairwise (Token.Precedes p cs) := by
  induction cs using reading_induction generalizing p with
  | gap gap hgap =>
    rw [tokens_gap p hgap]
    exact List.pairwise_singleton _ _
  | lexeme gap first tail rest hgap hmunch ih =>
    have htext : gap ++ first :: (tail ++ rest) = gap ++ first :: tail ++ rest := by simp
    rw [tokens_munch p hgap hmunch, List.pairwise_cons]
    refine ⟨?_, ?_⟩
    · intro u hu
      obtain ⟨between, lexeme', behind, rfl, hread⟩ := exists_readAt_of_mem hu
      rw [← Position.after_append, List.append_assoc] at hread
      exact ⟨gap, first :: tail, between, lexeme', behind, rfl, List.cons_ne_nil _ _,
        ⟨rfl, .inr (Lexeme.legal_kind hmunch.start hmunch.run)⟩, hread⟩
    · rw [htext]
      exact (ih _).imp fun h => h.append_left _

end Cursor

/-! ## Ends of locations -/

namespace Token

section
variable {t u : Token} {p : Position} {text lexeme behind : List Char}

/-- A token begins where it was read. -/
theorem ReadAt.start_eq (h : t.ReadAt p lexeme behind) : t.location.start = p := by
  rw [h.eq_ofLexeme, start_location_ofLexeme]

/-- A token holds the lexeme it was read from. -/
theorem ReadAt.toList_lexeme (h : t.ReadAt p lexeme behind) : t.lexeme.toList = lexeme := by
  rw [h.eq_ofLexeme, lexeme_ofLexeme, String.toList_ofList]

/-- Words and integers end behind their lexemes, and so does the end of the text; single characters
end where they begin. -/
theorem ReadAt.stop_cases (h : t.ReadAt p lexeme behind) :
    ((t.kind.isSpanned ∨ t.kind = .endOfStream ∧ behind = []) ∧
        t.location.stop = p.after lexeme) ∨
      ((t.kind = .comma ∨ t.kind = .minus ∨ t.kind = .error) ∧ lexeme.length = 1 ∧
        t.location.stop = p) := by
  obtain ⟨rfl, hcases⟩ := h
  have hspanned : (Lexeme.kind lexeme).isSpanned →
      (ofLexeme p lexeme).location.stop = p.after lexeme := by
    intro hkind
    rw [ofLexeme, if_pos hkind]
    rfl
  have hpoint : (Lexeme.kind lexeme).isSpanned = false →
      (ofLexeme p lexeme).location.stop = p := by
    intro hkind
    rw [ofLexeme, hkind]
    rfl
  rcases hcases with ⟨rfl, rfl⟩ | hlegal
  · exact .inl ⟨.inr ⟨rfl, rfl⟩, rfl⟩
  rw [kind_ofLexeme] at hlegal ⊢
  cases hkind : Lexeme.kind lexeme with
  | upperIdentifier | lowerIdentifier | literalInt | keywordTrue | keywordFalse | keywordAs =>
    exact .inl ⟨.inl rfl, hspanned (by rw [hkind]; rfl)⟩
  | comma | minus =>
    rw [hkind] at hlegal
    cases hlegal
    exact .inr ⟨by simp, rfl, hpoint (by rw [hkind]; rfl)⟩
  | error =>
    rw [hkind] at hlegal
    obtain ⟨c, rfl, -⟩ := hlegal
    exact .inr ⟨by simp, rfl, hpoint (by rw [hkind]; rfl)⟩
  | literalChar | literalString | endOfStream =>
    rw [hkind] at hlegal
    cases hlegal

/-- A token ends no earlier than it begins, and not behind its lexeme. -/
theorem ReadAt.stop_bounds (h : t.ReadAt p lexeme behind) :
    p.offset ≤ t.location.stop.offset ∧ t.location.stop.offset ≤ p.offset + lexeme.length := by
  rcases h.stop_cases with ⟨-, hstop⟩ | ⟨-, -, hstop⟩
  · rw [hstop, Position.offset_after]
    exact ⟨Nat.le_add_right _ _, Nat.le_refl _⟩
  · rw [hstop]
    exact ⟨Nat.le_refl _, Nat.le_add_right _ _⟩

/-- A token begins and ends at places of its text. -/
theorem ReadAt.counts {front : List Char}
    (h : t.ReadAt (Position.origin.after front) lexeme behind) :
    t.location.start.Counts (front ++ (lexeme ++ behind)) ∧
      t.location.stop.Counts (front ++ (lexeme ++ behind)) := by
  have hstart := Position.counts_after_origin front (lexeme ++ behind)
  have hstop := Position.counts_after_origin (front ++ lexeme) behind
  rw [List.append_assoc, Position.after_append] at hstop
  refine ⟨by rwa [h.start_eq], ?_⟩
  rcases h.stop_cases with ⟨-, heq⟩ | ⟨-, -, heq⟩
  · rwa [heq]
  · rwa [heq]

/-- Of two tokens, the second begins behind the start of the first, and ends no earlier. -/
theorem Precedes.offset_lt_and_le (h : Precedes p text t u) :
    t.location.start.offset < u.location.start.offset ∧
      t.location.stop.offset ≤ u.location.stop.offset := by
  obtain ⟨front, lexeme, between, lexeme', behind, -, hne, ht, hu⟩ := h
  have hpos := List.length_pos_iff.2 hne
  have htstop := ht.stop_bounds.2
  have hustop := hu.stop_bounds.1
  rw [ht.start_eq, hu.start_eq]
  simp only [Position.offset_after, List.length_append] at htstop hustop ⊢
  omega

/-- The text from the start of `t` to the end of `u` is the lexeme of `t`, all that stands between
the two lexemes and, if `u` is a word or an integer or marks the end of the text, the lexeme of `u`.
If `u` is a single character, the text from `t` to `u` stops in front of it. -/
def SpanReads (text : List Char) (t u : Token) : Prop :=
  ∃ front between behind,
    text = front ++ (t.lexeme.toList ++ (between ++ (u.lexeme.toList ++ behind))) ∧
      front.length = t.location.start.offset ∧
      ((u.kind.isSpanned ∨ u.kind = .endOfStream ∧ behind = []) ∧
          text.extract t.location.start.offset u.location.stop.offset =
            t.lexeme.toList ++ (between ++ u.lexeme.toList) ∨
        (u.kind = .comma ∨ u.kind = .minus ∨ u.kind = .error) ∧ u.lexeme.length = 1 ∧
          text.extract t.location.start.offset u.location.stop.offset =
            t.lexeme.toList ++ between)

/-- A stretch of a text is cut out of it by the offsets of its ends. -/
theorem extract_eq {front inner behind : List Char} {i j : Nat} (hi : i = front.length)
    (hj : j = front.length + inner.length) :
    (front ++ (inner ++ behind)).extract i j = inner := by
  subst hi hj
  simp

/-- What the span from one token to another behind it reads. -/
theorem Precedes.spanReads (h : Precedes .origin text t u) : SpanReads text t u := by
  obtain ⟨front, lexeme, between, lexeme', behind, rfl, -, ht, hu⟩ := h
  have hstart : t.location.start.offset = front.length := by
    rw [ht.start_eq, Position.offset_after]
    exact Nat.zero_add _
  refine ⟨front, between, behind, ?_, hstart.symm, ?_⟩
  · rw [ht.toList_lexeme, hu.toList_lexeme]
  rw [ht.toList_lexeme, hu.toList_lexeme]
  rcases hu.stop_cases with ⟨hkind, hstop⟩ | ⟨hkind, hlength, hstop⟩
  · have htext : front ++ (lexeme ++ (between ++ (lexeme' ++ behind))) =
        front ++ (lexeme ++ (between ++ lexeme') ++ behind) := by simp
    rw [htext]
    refine .inl ⟨hkind, extract_eq hstart ?_⟩
    rw [hstop]
    simp [Position.origin, Nat.add_assoc]
  · have htext : front ++ (lexeme ++ (between ++ (lexeme' ++ behind))) =
        front ++ (lexeme ++ between ++ (lexeme' ++ behind)) := by simp
    rw [htext]
    refine .inr ⟨hkind, ?_, extract_eq hstart ?_⟩
    · rw [← String.length_toList, hu.toList_lexeme, hlength]
    · rw [hstop]
      simp [Position.origin]

end

end Token

/-- The locations of tokens of one text stand in one text. -/
theorem coherent_of_mem_tokenize {source : String} {tokens : List Token}
    (h : ∀ t ∈ tokens, t ∈ tokenize source) : Coherent (tokens.map Token.location) := by
  refine ⟨?_, ?_⟩
  · intro l hl
    obtain ⟨t, ht, rfl⟩ := List.mem_map.1 hl
    obtain ⟨front, lexeme, behind, -, hread⟩ := Cursor.exists_readAt_of_mem (h t ht)
    rw [hread.start_eq]
    exact hread.stop_bounds.1
  · have hcounts : ∀ t ∈ tokens, t.location.start.Counts source.toList ∧
        t.location.stop.Counts source.toList := by
      intro t ht
      obtain ⟨front, lexeme, behind, htext, hread⟩ := Cursor.exists_readAt_of_mem (h t ht)
      rw [htext]
      exact hread.counts
    -- All ends are counted over the same text, so their offsets tell them.
    have hends : ∀ p ∈ (tokens.map Token.location).map Location.start ++
        (tokens.map Token.location).map Location.stop, p.Counts source.toList := by
      simp only [List.forall_mem_append, List.forall_mem_map]
      exact ⟨fun t ht => (hcounts t ht).1, fun t ht => (hcounts t ht).2⟩
    intro p hp q hq hoffset
    rw [(hends p hp).eq_counted, (hends q hq).eq_counted, hoffset]

/-! ## Visits -/

section
variable {source : String} {i j : Fin (tokenize source).length}

/-- The index of a token tells where it stands among the tokens of the text. -/
theorem precedes_get (h : i < j) :
    ((tokenize source).get i).Precedes .origin source.toList ((tokenize source).get j) :=
  List.pairwise_iff_getElem.1 (Cursor.pairwise_tokens .origin source.toList) i j i.isLt j.isLt h

/-- A token with a larger index neither begins nor ends earlier. -/
theorem offset_le_of_le (h : i ≤ j) :
    ((tokenize source).get i).location.start.offset ≤
        ((tokenize source).get j).location.start.offset ∧
      ((tokenize source).get i).location.stop.offset ≤
        ((tokenize source).get j).location.stop.offset := by
  rcases Nat.eq_or_lt_of_le h with heq | hlt
  · rw [Fin.ext heq]
    exact ⟨Nat.le_refl _, Nat.le_refl _⟩
  · have hoffset := (precedes_get hlt).offset_lt_and_le
    exact ⟨Nat.le_of_lt hoffset.1, hoffset.2⟩

/-- The hull of the locations of some tokens is the span from the start of the first of them to the
end of the last of them, if these are two. -/
theorem isHull_visited {visited : List (Fin (tokenize source).length)} (hi : i ∈ visited)
    (hj : j ∈ visited) (hlt : i < j) (hall : ∀ k ∈ visited, i ≤ k ∧ k ≤ j) :
    IsHull (visited.map fun k => ((tokenize source).get k).location)
      (.range ⟨((tokenize source).get i).location.start,
        ((tokenize source).get j).location.stop⟩) := by
  refine ⟨⟨?_, ?_⟩, ⟨?_, ?_⟩, ?_⟩
  · exact List.mem_map.2 ⟨_, List.mem_map_of_mem hi, rfl⟩
  · simp only [List.forall_mem_map]
    intro k hk
    exact (offset_le_of_le (hall k hk).1).1
  · exact List.mem_map.2 ⟨_, List.mem_map_of_mem hj, rfl⟩
  · simp only [List.forall_mem_map]
    intro k hk
    exact (offset_le_of_le (hall k hk).2).2
  · intro p
    refine iff_of_false Location.noConfusion ?_
    simp only [List.forall_mem_map]
    intro hpoint
    have hoffset := (precedes_get hlt).offset_lt_and_le.1
    rw [hpoint i hi, hpoint j hj] at hoffset
    exact Nat.lt_irrefl _ hoffset

end

/-- Merging the locations of visited tokens does not fail, whatever the order of the visits and
however often a token is visited. It gives the location of the only token visited, or the span from
the start of the token with the smallest index to the end of that with the largest one. That span
begins with the lexeme of the first of these two tokens; it goes on to the end of the lexeme of the
second, or stops in front of it if that is a single character. -/
theorem mergeAll_visited (source : String) (first : Fin (tokenize source).length)
    (rest : List (Fin (tokenize source).length)) :
    let token := (tokenize source).get
    let lo := (first :: rest).min (List.cons_ne_nil _ _)
    let hi := (first :: rest).max (List.cons_ne_nil _ _)
    let merged := Location.mergeAll (token first).location (rest.map fun i => (token i).location)
    lo = hi ∧ merged = .ok (token lo).location ∨
      lo < hi ∧ merged = .ok (.range ⟨(token lo).location.start, (token hi).location.stop⟩) ∧
        (token lo).SpanReads source.toList (token hi) := by
  intro token lo hi merged
  have hall : ∀ i ∈ first :: rest, lo ≤ i ∧ i ≤ hi := by
    intro i hmem
    exact ⟨List.min_le_of_mem hmem, List.le_max_of_mem hmem⟩
  have hlo : lo ∈ first :: rest := List.min_mem _
  have hhi : hi ∈ first :: rest := List.max_mem _
  have hcoherent : Coherent ((first :: rest).map fun i => (token i).location) := by
    have htokens : ∀ t ∈ (first :: rest).map token, t ∈ tokenize source := by
      simp only [List.forall_mem_map]
      intro i _
      exact List.get_mem _ _
    have hmap := coherent_of_mem_tokenize htokens
    rwa [List.map_map] at hmap
  obtain ⟨location, hmerged, hhull⟩ := Location.exists_mergeAll_eq hcoherent.ordered
  change IsHull ((first :: rest).map fun i => (token i).location) location at hhull
  rcases eq_or_lt_of_le (hall lo hlo).2 with heq | hlt
  · refine .inl ⟨heq, hmerged.trans (congrArg Except.ok (hhull.eq_of_forall_eq ?_))⟩
    intro l hl
    obtain ⟨i, hmem, rfl⟩ := List.mem_map.1 hl
    have hbounds := hall i hmem
    have hilo : i = lo := le_antisymm (heq ▸ hbounds.2) hbounds.1
    rw [hilo]
  · have hspan := hhull.unique (isHull_visited hlo hhi hlt hall) hcoherent
    exact .inr ⟨hlt, hmerged.trans (congrArg Except.ok hspan), (precedes_get hlt).spanReads⟩

-- Going back from the comma to the word: the span stops in front of the comma.
example : let token := (tokenize "é\nab ,").get
    Location.mergeAll (token ⟨2, by decide +kernel⟩).location
        [(token ⟨1, by decide +kernel⟩).location, (token ⟨2, by decide +kernel⟩).location] =
      .ok (.range ⟨⟨2, 1, 2⟩, ⟨2, 4, 5⟩⟩) := by
  decide +kernel

end Lexis
