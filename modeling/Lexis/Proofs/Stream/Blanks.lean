import Lexis.Proofs.Cursor.Reading
import Lexis.Proofs.Position.LineFeeds

/-!
# What a token stream forgets

A stream keeps the lexemes of its text and where they stand, and it does not keep the white space
between them. `tokenize_eq_tokenize_iff` says what that comes to: two texts have the same stream
exactly when they have the same characters apart from white space, white space at the same indices,
and in every gap equally many line feeds and the last of them at the same index (`AgreeUpToBlanks`).
Both sides of the equivalence come apart in the same way at a cut, a gap and a lexeme in front of
the rest (`Cursor.tokens_munch_eq_iff`, `agreeUpToBlanks_append_iff`), so they are compared by
induction along the cuts of one of the texts.
-/

namespace Lexis

/-- White space stands at index `i`. -/
def BlankAt (text : List Char) (i : Nat) : Prop := ∃ c ∈ text[i]?, c ∈ whiteSpace

/-- From index `i` up to and without `j` the text is white space, and no more of it stands on either
side. -/
structure IsGap (text : List Char) (i j : Nat) : Prop where
  lt : i < j
  blank : ∀ k, i ≤ k → k < j → BlankAt text k
  starts : i = 0 ∨ ¬ BlankAt text (i - 1)
  stops : ¬ BlankAt text j

/-- The texts differ in nothing but white space, which is at the same indices, and in no gap do they
differ in the number of line feeds or in the index of the last one. -/
structure AgreeUpToBlanks (as bs : List Char) : Prop where
  length_eq : as.length = bs.length
  blank_iff : ∀ i, BlankAt as i ↔ BlankAt bs i
  char_eq : ∀ i, ¬ BlankAt as i → as[i]? = bs[i]?
  count_eq : ∀ i j, IsGap as i j → (as.extract i j).count '\n' = (bs.extract i j).count '\n'
  last_iff : ∀ i j, IsGap as i j →
    ∀ k, LastLineFeed (as.extract i j) k ↔ LastLineFeed (bs.extract i j) k

/-! ## Gaps -/

section
variable {gap word rest : List Char}

/-- What stands behind a text does not change what is blank in it. -/
theorem blankAt_append_left {as : List Char} (bs : List Char) {i : Nat} (h : i < as.length) :
    BlankAt (as ++ bs) i ↔ BlankAt as i := by
  rw [BlankAt, List.getElem?_append_left h, BlankAt]

/-- What stands in front of a text moves its blanks. -/
theorem blankAt_append_right (as bs : List Char) (i : Nat) :
    BlankAt (as ++ bs) (as.length + i) ↔ BlankAt bs i := by
  rw [BlankAt, List.getElem?_append_right (Nat.le_add_right _ _), Nat.add_sub_cancel_left, BlankAt]

/-- Inside a text a place is blank if its character is white space. -/
theorem blankAt_iff_getElem {text : List Char} {i : Nat} (h : i < text.length) :
    BlankAt text i ↔ text[i] ∈ whiteSpace := by
  simp [BlankAt, List.getElem?_eq_getElem h]

/-- Only places inside a text are blank. -/
theorem lt_length_of_blankAt {text : List Char} {i : Nat} (h : BlankAt text i) :
    i < text.length := by
  obtain ⟨c, hc, -⟩ := h
  exact (List.getElem?_eq_some_iff.1 hc).1

/-- A text is blank all through its first gap. -/
theorem blankAt_of_lt_gap (hgap : gap ⊆ whiteSpace) (cs : List Char) {k : Nat}
    (hk : k < gap.length) : BlankAt (gap ++ cs) k := by
  rw [blankAt_append_left cs hk, blankAt_iff_getElem hk]
  exact hgap (List.getElem_mem hk)

/-- A text is not blank in the word behind its first gap. -/
theorem not_blankAt_of_lt_word (hword : ∀ c ∈ word, c ∉ whiteSpace) {k : Nat}
    (hle : gap.length ≤ k) (hlt : k < (gap ++ word).length) :
    ¬ BlankAt (gap ++ word ++ rest) k := by
  obtain ⟨m, rfl⟩ := Nat.exists_eq_add_of_le hle
  have hm : m < word.length := by
    rw [List.length_append] at hlt
    omega
  rw [blankAt_append_left rest hlt, blankAt_append_right, blankAt_iff_getElem hm]
  exact hword _ (List.getElem_mem hm)

/-- A gap that begins in white space with which the text begins is all of that white space. -/
theorem IsGap.eq_of_lt {cs : List Char} (hgap : gap ⊆ whiteSpace) {i j : Nat}
    (h : IsGap (gap ++ cs) i j) (hi : i < gap.length) (hcs : ¬ BlankAt cs 0) :
    i = 0 ∧ j = gap.length := by
  have hzero : i = 0 :=
    h.starts.resolve_right (not_not_intro (blankAt_of_lt_gap hgap cs (by omega)))
  have hge : ¬ j < gap.length := fun hj => h.stops (blankAt_of_lt_gap hgap cs hj)
  have hle : ¬ gap.length < j := by
    intro hj
    have hblank := h.blank gap.length (by omega) hj
    exact hcs ((blankAt_append_right gap cs 0).1 hblank)
  exact ⟨hzero, by omega⟩

/-- White space with which a text begins is a gap. -/
theorem isGap_of_not_blankAt {cs : List Char} (hgap : gap ⊆ whiteSpace) (hne : gap ≠ [])
    (hcs : ¬ BlankAt cs 0) : IsGap (gap ++ cs) 0 gap.length where
  lt := List.length_pos_iff.2 hne
  blank _ _ hk := blankAt_of_lt_gap hgap cs hk
  starts := .inl rfl
  stops h := hcs ((blankAt_append_right gap cs 0).1 h)

/-- The gaps of what stands behind a word are gaps of the whole text. -/
theorem IsGap.append_left (hword : ∀ c ∈ word, c ∉ whiteSpace) (hne : word ≠ []) {i j : Nat}
    (h : IsGap rest i j) :
    IsGap (gap ++ word ++ rest) ((gap ++ word).length + i) ((gap ++ word).length + j) := by
  have hpos := List.length_pos_iff.2 hne
  have hlength : (gap ++ word).length = gap.length + word.length := List.length_append
  have hlt := h.lt
  refine ⟨by omega, ?_, .inr ?_, ?_⟩
  · intro k hk hk'
    obtain ⟨m, rfl⟩ := Nat.exists_eq_add_of_le (Nat.le_trans (Nat.le_add_right _ _) hk)
    rw [blankAt_append_right]
    exact h.blank m (by omega) (by omega)
  · by_cases hi : i = 0
    · exact not_blankAt_of_lt_word hword (by omega) (by omega)
    · rw [Nat.add_sub_assoc (by omega), blankAt_append_right]
      exact h.starts.resolve_left hi
  · rw [blankAt_append_right]
    exact h.stops

/-- A gap that does not begin in front of a word stands behind it. -/
theorem IsGap.exists_of_le (hword : ∀ c ∈ word, c ∉ whiteSpace) {i j : Nat}
    (h : IsGap (gap ++ word ++ rest) i j) (hi : gap.length ≤ i) :
    ∃ i' j', i = (gap ++ word).length + i' ∧ j = (gap ++ word).length + j' ∧ IsGap rest i' j' := by
  have hlt := h.lt
  have hle : (gap ++ word).length ≤ i := by
    refine Nat.le_of_not_lt fun hi' => ?_
    exact not_blankAt_of_lt_word hword hi hi' (h.blank i (Nat.le_refl _) hlt)
  obtain ⟨i', rfl⟩ := Nat.exists_eq_add_of_le hle
  obtain ⟨j', rfl⟩ := Nat.exists_eq_add_of_le (Nat.le_trans hle (Nat.le_of_lt hlt))
  refine ⟨i', j', rfl, rfl, by omega, ?_, ?_, ?_⟩
  · intro k hk hk'
    rw [← blankAt_append_right (gap ++ word)]
    exact h.blank _ (by omega) (by omega)
  · by_cases hi' : i' = 0
    · exact .inl hi'
    · have hbefore := h.starts.resolve_left (by omega)
      rw [Nat.add_sub_assoc (by omega), blankAt_append_right] at hbefore
      exact .inr hbefore
  · rw [← blankAt_append_right (gap ++ word)]
    exact h.stops

/-! ## Agreement at a cut -/

/-- What is seen of a character: nothing if it is white space. -/
def visible (c : Char) : Option Char := if c ∈ whiteSpace then none else some c

/-- White space is not visible. -/
theorem visible_eq_none_iff {c : Char} : visible c = none ↔ c ∈ whiteSpace := by
  simp [visible]

/-- Texts look alike when they are blank at the same places and equal at all others. -/
theorem map_visible_eq_iff {as bs : List Char} : as.map visible = bs.map visible ↔
    ∀ i, (BlankAt as i ↔ BlankAt bs i) ∧ (¬ BlankAt as i → as[i]? = bs[i]?) := by
  rw [List.ext_getElem?_iff]
  refine forall_congr' fun i => ?_
  simp only [List.getElem?_map, BlankAt]
  cases as[i]? with
  | none => cases bs[i]? <;> simp
  | some c =>
    cases bs[i]? with
    | none => simp
    | some d =>
      by_cases hc : c ∈ whiteSpace <;> by_cases hd : d ∈ whiteSpace <;> simp [visible, hc, hd]

/-- White space shows as white space of the same length. -/
theorem map_visible_gap_eq_iff (hgap : gap ⊆ whiteSpace) {cs : List Char} :
    cs.map visible = gap.map visible ↔ cs ⊆ whiteSpace ∧ gap.length = cs.length := by
  have hnone : gap.map visible = List.replicate gap.length none := by
    rw [List.map_eq_replicate_iff]
    intro c hc
    exact visible_eq_none_iff.2 (hgap hc)
  rw [hnone, List.eq_replicate_iff, List.length_map, and_comm, eq_comm (a := cs.length)]
  simp [visible_eq_none_iff, List.subset_def]

/-- Text without white space shows as itself. -/
theorem map_visible_word_eq_iff (hword : ∀ c ∈ word, c ∉ whiteSpace) {cs : List Char} :
    cs.map visible = word.map visible ↔ cs = word := by
  constructor
  · intro h
    refine List.ext_getElem? fun i => ?_
    have hblank : ¬ BlankAt word i := by
      rintro ⟨c, hc, hmem⟩
      exact hword c (List.mem_of_getElem? hc) hmem
    exact ((map_visible_eq_iff.1 h.symm i).2 hblank).symm
  · rintro rfl
    rfl

/-- Agreement up to blanks in two parts: the visible characters, and the line feeds of each gap. -/
theorem agreeUpToBlanks_iff {as bs : List Char} : AgreeUpToBlanks as bs ↔
    as.map visible = bs.map visible ∧
      ∀ i j, IsGap as i j → SameLineFeeds (as.extract i j) (bs.extract i j) := by
  rw [map_visible_eq_iff]
  constructor
  · intro h
    refine ⟨fun i => ⟨h.blank_iff i, h.char_eq i⟩, ?_⟩
    intro i j hij
    refine ⟨?_, h.count_eq i j hij, h.last_iff i j hij⟩
    simp [h.length_eq]
  · rintro ⟨hall, hgaps⟩
    have hlength := congrArg List.length (map_visible_eq_iff.2 hall)
    rw [List.length_map, List.length_map] at hlength
    exact ⟨hlength, fun i => (hall i).1, fun i => (hall i).2,
      fun i j hij => (hgaps i j hij).count_eq, fun i j hij => (hgaps i j hij).last_iff⟩

/-- The part of a text up to the end of its front is the front. -/
theorem extract_append_left (front cs : List Char) :
    (front ++ cs).extract 0 front.length = front := by
  simp

/-- A part of a text that lies behind its front. -/
theorem extract_append_right (front cs : List Char) (i j : Nat) :
    (front ++ cs).extract (front.length + i) (front.length + j) = cs.extract i j := by
  have hdrop : (front ++ cs).drop (front.length + i) = cs.drop i := by
    rw [← List.drop_drop, List.drop_left]
  rw [List.extract_eq_take_drop, List.extract_eq_take_drop, hdrop, Nat.add_sub_add_left]

/-- Texts that agree in their gaps agree in the white space with which they begin. -/
theorem sameLineFeeds_of_gaps (hgap : gap ⊆ whiteSpace) {gap' cs cs' : List Char}
    (hlength : gap.length = gap'.length) (hcs : ¬ BlankAt cs 0)
    (h : ∀ i j, IsGap (gap ++ cs) i j →
      SameLineFeeds ((gap ++ cs).extract i j) ((gap' ++ cs').extract i j)) :
    SameLineFeeds gap gap' := by
  by_cases hne : gap = []
  · subst hne
    obtain rfl := List.length_eq_zero_iff.1 hlength.symm
    exact ⟨rfl, rfl, fun _ => Iff.rfl⟩
  · have hfirst := h 0 gap.length (isGap_of_not_blankAt hgap hne hcs)
    rwa [extract_append_left, hlength, extract_append_left] at hfirst

/-- Texts that agree in the white space with which they begin agree in a gap there. -/
theorem SameLineFeeds.extract {gap' : List Char} (h : SameLineFeeds gap gap')
    (hgap : gap ⊆ whiteSpace) {cs : List Char} (cs' : List Char) (hcs : ¬ BlankAt cs 0) {i j : Nat}
    (hij : IsGap (gap ++ cs) i j) (hi : i < gap.length) :
    SameLineFeeds ((gap ++ cs).extract i j) ((gap' ++ cs').extract i j) := by
  obtain ⟨rfl, rfl⟩ := hij.eq_of_lt hgap hi hcs
  rw [extract_append_left, h.length_eq, extract_append_left]
  exact h

/-- White space agrees with white space that has the same line feeds. -/
theorem agreeUpToBlanks_gap_iff (hgap : gap ⊆ whiteSpace) {bs : List Char} :
    AgreeUpToBlanks gap bs ↔ bs ⊆ whiteSpace ∧ SameLineFeeds gap bs := by
  have hnone : ¬ BlankAt ([] : List Char) 0 := by simp [BlankAt]
  rw [agreeUpToBlanks_iff, eq_comm, map_visible_gap_eq_iff hgap]
  constructor
  · rintro ⟨⟨hbs, hlength⟩, hgaps⟩
    have hgaps' : ∀ i j, IsGap (gap ++ []) i j →
        SameLineFeeds ((gap ++ []).extract i j) ((bs ++ []).extract i j) := by
      rw [List.append_nil, List.append_nil]
      exact hgaps
    exact ⟨hbs, sameLineFeeds_of_gaps hgap hlength hnone hgaps'⟩
  · rintro ⟨hbs, hfeeds⟩
    refine ⟨⟨hbs, hfeeds.length_eq⟩, ?_⟩
    intro i j hij
    have hlast := lt_length_of_blankAt (hij.blank i (Nat.le_refl _) hij.lt)
    rw [← List.append_nil gap] at hij ⊢
    rw [← List.append_nil bs]
    exact hfeeds.extract hgap [] hnone hij hlast

/-- A text that begins with a gap and a word agrees with the texts that begin with a gap of the same
line feeds and the same word, and go on in agreement. -/
theorem agreeUpToBlanks_append_iff (hgap : gap ⊆ whiteSpace) (hword : ∀ c ∈ word, c ∉ whiteSpace)
    (hne : word ≠ []) {bs : List Char} : AgreeUpToBlanks (gap ++ word ++ rest) bs ↔
      ∃ gap' rest', bs = gap' ++ word ++ rest' ∧ gap' ⊆ whiteSpace ∧ SameLineFeeds gap gap' ∧
        AgreeUpToBlanks rest rest' := by
  have hstart : ¬ BlankAt (word ++ rest) 0 := by
    have hpos := List.length_pos_iff.2 hne
    rw [blankAt_append_left rest hpos, blankAt_iff_getElem hpos]
    exact hword _ (List.getElem_mem hpos)
  constructor
  · intro h
    obtain ⟨hmap, hgaps⟩ := agreeUpToBlanks_iff.1 h
    rw [List.map_append, List.map_append, eq_comm] at hmap
    obtain ⟨front, rest', rfl, hfront, hrest'⟩ := List.map_eq_append_iff.1 hmap
    obtain ⟨gap', word', rfl, hgap', hword'⟩ := List.map_eq_append_iff.1 hfront
    obtain ⟨hblank, hlength⟩ := (map_visible_gap_eq_iff hgap).1 hgap'
    obtain rfl := (map_visible_word_eq_iff hword).1 hword'
    refine ⟨gap', rest', rfl, hblank, ?_, agreeUpToBlanks_iff.2 ⟨hrest'.symm, ?_⟩⟩
    · rw [List.append_assoc, List.append_assoc] at hgaps
      exact sameLineFeeds_of_gaps hgap hlength hstart hgaps
    · intro i j hij
      have hfeeds := hgaps _ _ (hij.append_left hword hne)
      rw [extract_append_right] at hfeeds
      have hfront' : (gap ++ word').length = (gap' ++ word').length := by simp [hlength]
      rwa [hfront', extract_append_right] at hfeeds
  · rintro ⟨gap', rest', rfl, hgap', hfeeds, hagree⟩
    obtain ⟨hmap, hgaps⟩ := agreeUpToBlanks_iff.1 hagree
    have hblank := (map_visible_gap_eq_iff hgap).2 ⟨hgap', hfeeds.length_eq⟩
    refine agreeUpToBlanks_iff.2 ⟨?_, ?_⟩
    · rw [List.map_append, List.map_append, List.map_append, List.map_append, hblank, hmap]
    · intro i j hij
      by_cases hi : i < gap.length
      · rw [List.append_assoc] at hij
        rw [List.append_assoc, List.append_assoc]
        exact hfeeds.extract hgap _ hstart hij hi
      · obtain ⟨i', j', rfl, rfl, hij'⟩ := hij.exists_of_le hword (Nat.le_of_not_lt hi)
        have hfront : (gap ++ word).length = (gap' ++ word).length := by simp [hfeeds.length_eq]
        rw [extract_append_right, hfront, extract_append_right]
        exact hgaps i' j' hij'

/-! ## Streams at a cut -/

/-- A token tells where its lexeme begins and what the lexeme is. -/
theorem Token.ofLexeme_inj {p q : Position} {as bs : List Char} :
    ofLexeme p as = ofLexeme q bs ↔ p = q ∧ as = bs := by
  constructor
  · intro h
    have hstart := congrArg (·.location.start) h
    simp only [start_location_ofLexeme] at hstart
    exact ⟨hstart, String.ofList_inj.1 (congrArg Token.lexeme h)⟩
  · rintro ⟨rfl, rfl⟩
    rfl

namespace Cursor

/-- White space is read like white space that has the same line feeds. -/
theorem tokens_gap_eq_iff (p : Position) (hgap : gap ⊆ whiteSpace) {bs : List Char} :
    tokens ⟨p, gap⟩ = tokens ⟨p, bs⟩ ↔ bs ⊆ whiteSpace ∧ SameLineFeeds gap bs := by
  rw [tokens_gap p hgap, ← Position.after_eq_after_iff p]
  rcases exists_gap bs with hbs | ⟨gap', first, behind, rfl, hgap', hfirst⟩
  · rw [tokens_gap p hbs, List.singleton_inj, Token.ofLexeme_inj]
    simp [hbs]
  · obtain ⟨tail, rest, rfl, hmunch⟩ := exists_munch hfirst behind
    refine iff_of_false ?_ ?_
    · rw [tokens_munch p hgap' hmunch]
      intro h
      exact tokens_ne_nil _ (List.cons.inj h).2.symm
    · rintro ⟨hbs, -⟩
      have hmem := hbs (List.mem_append_right gap' List.mem_cons_self)
      exact not_mem_whiteSpace_of_isSpace hfirst hmem

/-- A text that begins with a gap and a lexeme is read like the texts that begin with a gap of the
same line feeds and the same lexeme, and are read alike behind it. -/
theorem tokens_munch_eq_iff (p : Position) (hgap : gap ⊆ whiteSpace) {first : Char}
    {tail : List Char} (h : Munch first tail rest) {bs : List Char} :
    tokens ⟨p, gap ++ first :: (tail ++ rest)⟩ = tokens ⟨p, bs⟩ ↔
      ∃ gap' rest', bs = gap' ++ first :: (tail ++ rest') ∧ gap' ⊆ whiteSpace ∧
        SameLineFeeds gap gap' ∧ Munch first tail rest' ∧
        tokens ⟨p.after (gap ++ first :: tail), rest⟩ =
          tokens ⟨p.after (gap ++ first :: tail), rest'⟩ := by
  have hbehind : ∀ gap', SameLineFeeds gap gap' →
      p.after (gap' ++ first :: tail) = p.after (gap ++ first :: tail) := by
    intro gap' hfeeds
    rw [Position.after_append, Position.after_append, (Position.after_eq_after_iff p).2 hfeeds]
  rw [tokens_munch p hgap h]
  constructor
  · intro heq
    rcases exists_gap bs with hbs | ⟨gap', first', behind, rfl, hgap', hfirst⟩
    · rw [tokens_gap p hbs] at heq
      exact absurd (List.cons.inj heq).2 (tokens_ne_nil _)
    · obtain ⟨tail', rest', rfl, hmunch⟩ := exists_munch hfirst behind
      rw [tokens_munch p hgap' hmunch] at heq
      obtain ⟨htoken, hrest⟩ := List.cons.inj heq
      obtain ⟨hplace, hlexeme⟩ := Token.ofLexeme_inj.1 htoken
      obtain ⟨rfl, rfl⟩ := List.cons.inj hlexeme
      have hfeeds := (Position.after_eq_after_iff p).1 hplace
      rw [hbehind gap' hfeeds] at hrest
      exact ⟨gap', rest', rfl, hgap', hfeeds, hmunch, hrest⟩
  · rintro ⟨gap', rest', rfl, hgap', hfeeds, hmunch, hrest⟩
    rw [tokens_munch p hgap' hmunch, hbehind gap' hfeeds, hrest,
      (Position.after_eq_after_iff p).2 hfeeds]

end Cursor

end

/-! ## Equal streams -/

/-- Texts that agree begin alike, as far as a lexeme is concerned. -/
theorem Munch.of_agreeUpToBlanks {first : Char} {tail rest rest' : List Char}
    (h : Munch first tail rest) (hagree : AgreeUpToBlanks rest rest') : Munch first tail rest' := by
  refine ⟨h.start, h.run, ?_⟩
  intro c hc
  by_cases hspace : c ∈ whiteSpace
  · exact isContinuedBy_eq_false_of_isSpace (isSpace_iff_mem.2 hspace)
  · have hblank : ¬ BlankAt rest 0 := by
      rw [hagree.blank_iff]
      rintro ⟨d, hd, hmem⟩
      rw [← List.head?_eq_getElem?] at hd
      cases Option.mem_unique hc hd
      exact hspace hmem
    have hhead := hagree.char_eq 0 hblank
    rw [← List.head?_eq_getElem?, ← List.head?_eq_getElem?] at hhead
    exact h.stop c (hhead ▸ hc)

/-- From one position on, two texts have the same tokens exactly when they agree up to blanks. -/
theorem tokens_eq_tokens_iff (p : Position) (as bs : List Char) :
    Cursor.tokens ⟨p, as⟩ = Cursor.tokens ⟨p, bs⟩ ↔ AgreeUpToBlanks as bs := by
  induction as using reading_induction generalizing p bs with
  | gap gap hgap => rw [Cursor.tokens_gap_eq_iff p hgap, agreeUpToBlanks_gap_iff hgap]
  | lexeme gap first tail rest hgap hmunch ih =>
    have htext : ∀ gap rest, gap ++ first :: (tail ++ rest) = gap ++ (first :: tail) ++ rest := by
      simp
    rw [Cursor.tokens_munch_eq_iff p hgap hmunch, htext,
      agreeUpToBlanks_append_iff hgap hmunch.not_mem_whiteSpace (List.cons_ne_nil _ _)]
    constructor
    · rintro ⟨gap', rest', rfl, hgap', hfeeds, -, heq⟩
      exact ⟨gap', rest', htext gap' rest', hgap', hfeeds, (ih _ _).1 heq⟩
    · rintro ⟨gap', rest', rfl, hgap', hfeeds, hagree⟩
      exact ⟨gap', rest', (htext gap' rest').symm, hgap', hfeeds,
        hmunch.of_agreeUpToBlanks hagree, (ih _ _).2 hagree⟩

/-- Two texts have the same tokens, locations included, exactly when they are equally long, have
white space at the same indices and the same characters elsewhere, and in each gap the same number
of line feeds and, if there are any, the last one at the same index. -/
theorem tokenize_eq_tokenize_iff (s t : String) :
    tokenize s = tokenize t ↔ AgreeUpToBlanks s.toList t.toList :=
  tokens_eq_tokens_iff .origin s.toList t.toList

-- A gap forgets its blanks, but not how far behind its last line feed the next lexeme stands.
example : tokenize "a \r\n b" = tokenize "a\t \n\tb" ∧ tokenize "a \n b" ≠ tokenize "a\n  b" := by
  decide +kernel

end Lexis
