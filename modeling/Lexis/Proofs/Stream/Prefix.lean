import Lexis.Proofs.Stream.Concatenation

/-!
# How far reading looks ahead

Where a lexeme ends is decided by the one character behind it, so a token depends on no more of the
text than that. `tokenize_prefix_stable` says it of two texts with a common beginning. They have the
same tokens that end inside of it. At most one more token begins there, and it reaches the place
where the texts part: it may go on differently behind it, but it is in both streams or in neither,
and begins at the same place. The streams are compared along the cuts of the common beginning
(`agreeBefore_tokens`). A lexeme that has more of it behind it ends where it ends in both texts, and
one that has nothing of it behind it is the last to begin there.
-/

namespace Lexis

/-- Two streams agree in front of offset `n`: they have the same tokens as long as these end in
front of `n`; behind them there is one token in each stream that begins at the same place in front
of `n` and does not end there, or no such token in either. -/
inductive AgreeBefore (n : Nat) : List Token → List Token → Prop
  /-- No token begins in front of `n`. -/
  | beyond {ts us : List Token} (hts : ∀ t ∈ ts, n ≤ t.begins) (hus : ∀ u ∈ us, n ≤ u.begins) :
      AgreeBefore n ts us
  /-- One token of each stream reaches `n` from the same place. -/
  | reaching {t u : Token} {ts us : List Token} (hstart : t.location.start = u.location.start)
      (hbegins : t.begins < n) (ht : n ≤ t.ends) (hu : n ≤ u.ends)
      (hts : ∀ t ∈ ts, n ≤ t.begins) (hus : ∀ u ∈ us, n ≤ u.begins) :
      AgreeBefore n (t :: ts) (u :: us)
  /-- The streams begin with the same token, which ends in front of `n`. -/
  | settled {t : Token} {ts us : List Token} (ht : t.ends < n) (rest : AgreeBefore n ts us) :
      AgreeBefore n (t :: ts) (t :: us)

/-! ## Streams with a common beginning -/

/-- A lexeme is the beginning of one when another text stands behind it. -/
theorem Munch.exists_append {first : Char} {tail rest : List Char} (h : Munch first tail rest)
    (cs : List Char) : ∃ more rest, cs = more ++ rest ∧ Munch first (tail ++ more) rest := by
  obtain ⟨more, rest, rfl, hmunch⟩ := exists_munch h.start cs
  refine ⟨more, rest, rfl, h.start, ?_, hmunch.stop⟩
  intro c hc
  rcases List.mem_append.1 hc with hc | hc
  · exact h.run c hc
  · exact hmunch.run c hc

/-- What stands behind the rest of a text does not change where the lexeme in front of it ends. -/
theorem Munch.append {first : Char} {tail rest : List Char} (h : Munch first tail rest)
    (hrest : rest ≠ []) (cs : List Char) : Munch first tail (rest ++ cs) := by
  refine ⟨h.start, h.run, ?_⟩
  rw [List.head?_append_of_ne_nil _ hrest]
  exact h.stop

open Cursor

section
variable {gap tail : List Char} {first : Char}

/-- A lexeme with which a text ends reaches as far when the text goes on, and the tokens behind it
begin no earlier than where the text ended. -/
theorem exists_tokens_eq_cons (p : Position) (hgap : gap ⊆ whiteSpace) (h : Munch first tail [])
    (cs : List Char) : ∃ t ts, tokens ⟨p, gap ++ first :: (tail ++ cs)⟩ = t :: ts ∧
      t.location.start = p.after gap ∧ (p.after (gap ++ first :: tail)).offset ≤ t.ends ∧
      ∀ u ∈ ts, (p.after (gap ++ first :: tail)).offset ≤ u.begins := by
  obtain ⟨more, rest, rfl, hlonger⟩ := h.exists_append cs
  rw [← List.append_assoc tail]
  refine ⟨_, _, tokens_munch p hgap hlonger, Token.start_location_ofLexeme _ _, ?_, ?_⟩
  · rw [Token.ends_ofLexeme]
    simp
    omega
  · intro u hu
    have hbegins := offset_le_begins_of_mem hu
    simp at hbegins ⊢
    omega

/-- Texts that begin alike have streams that agree in front of where they part. -/
theorem agreeBefore_tokens (p : Position) (as bs cs : List Char) :
    AgreeBefore (p.after as).offset (tokens ⟨p, as ++ bs⟩) (tokens ⟨p, as ++ cs⟩) := by
  induction as using reading_induction generalizing p with
  | gap gap hgap =>
    rw [tokens_gap_append p hgap, tokens_gap_append p hgap]
    exact .beyond (fun _ => offset_le_begins_of_mem) (fun _ => offset_le_begins_of_mem)
  | lexeme gap first tail rest hgap hmunch ih =>
    have htext : ∀ ds, gap ++ first :: (tail ++ rest) ++ ds =
        gap ++ first :: (tail ++ (rest ++ ds)) := by simp
    rw [htext, htext]
    by_cases hrest : rest = []
    · subst hrest
      obtain ⟨t, ts, hbs, htstart, htends, hts⟩ := exists_tokens_eq_cons p hgap hmunch bs
      obtain ⟨u, us, hcs, hustart, huends, hus⟩ := exists_tokens_eq_cons p hgap hmunch cs
      rw [List.nil_append, List.nil_append, hbs, hcs, List.append_nil]
      refine .reaching (htstart.trans hustart.symm) ?_ htends huends hts hus
      rw [Token.begins, htstart]
      simp
    · have hafter : p.after (gap ++ first :: (tail ++ rest)) =
          (p.after (gap ++ first :: tail)).after rest := by
        rw [← Position.after_append, List.append_assoc, List.cons_append]
      have hpos := List.length_pos_iff.2 hrest
      rw [tokens_munch p hgap (hmunch.append hrest bs),
        tokens_munch p hgap (hmunch.append hrest cs), hafter]
      refine .settled ?_ (ih _)
      rw [Token.ends_ofLexeme]
      simp
      omega

end

/-- Texts with the same first `n` characters have streams that agree in front of `n`. -/
theorem agreeBefore_tokenize {s s' : String} {n : Nat} (hs : n ≤ s.length)
    (h : s.toList.take n = s'.toList.take n) : AgreeBefore n (tokenize s) (tokenize s') := by
  have hoffset : (Position.origin.after (s.toList.take n)).offset = n := by
    rw [Position.offset_after_origin, List.length_take, String.length_toList, Nat.min_eq_left hs]
  have hagree := agreeBefore_tokens .origin (s.toList.take n) (s.toList.drop n) (s'.toList.drop n)
  rwa [hoffset, List.take_append_drop, h, List.take_append_drop] at hagree

/-! ## Tokens in front of an offset -/

/-- Where no token begins, none ends. -/
theorem filter_ends_eq_nil {n : Nat} {ts : List Token} (h : ∀ t ∈ ts, n ≤ t.begins) :
    ts.filter (fun t => t.ends < n) = [] := by
  rw [List.filter_eq_nil_iff]
  intro t ht hends
  exact Nat.not_lt_of_le (Nat.le_trans (h t ht) t.begins_le_ends) (of_decide_eq_true hends)

/-- Of tokens that begin at `n` or later none begins before `n`. -/
theorem filter_begins_eq_nil {n : Nat} {ts : List Token} (h : ∀ t ∈ ts, n ≤ t.begins) :
    ts.filter (fun t => t.begins < n) = [] := by
  rw [List.filter_eq_nil_iff]
  intro t ht hbegins
  exact Nat.not_lt_of_le (h t ht) (of_decide_eq_true hbegins)

/-- Streams that agree in front of `n` have the same tokens that end there. Besides these, at most
one token of each begins in front of `n`: in both streams, at the same place, or in neither. -/
theorem AgreeBefore.filter_eq {n : Nat} {ts us : List Token} (h : AgreeBefore n ts us) :
    ts.filter (fun t => t.ends < n) = us.filter (fun t => t.ends < n) ∧
      ∃ more more', ts.filter (fun t => t.begins < n) = ts.filter (fun t => t.ends < n) ++ more ∧
        us.filter (fun t => t.begins < n) = us.filter (fun t => t.ends < n) ++ more' ∧
        more.length ≤ 1 ∧ more.map (·.location.start) = more'.map (·.location.start) := by
  induction h with
  | beyond hts hus =>
    rw [filter_ends_eq_nil hts, filter_ends_eq_nil hus, filter_begins_eq_nil hts,
      filter_begins_eq_nil hus]
    exact ⟨rfl, [], [], rfl, rfl, Nat.zero_le _, rfl⟩
  | @reaching t u ts us hstart hbegins ht hu hts hus =>
    have hbegins' : u.begins < n := by rwa [Token.begins, ← hstart]
    simp only [List.filter_cons, hbegins, hbegins', Nat.not_lt_of_le ht, Nat.not_lt_of_le hu,
      decide_true, decide_false, if_true, Bool.false_eq_true, if_false, filter_ends_eq_nil hts,
      filter_ends_eq_nil hus, filter_begins_eq_nil hts, filter_begins_eq_nil hus]
    exact ⟨trivial, [t], [u], rfl, rfl, Nat.le_refl _, congrArg ([·]) hstart⟩
  | @settled t ts us ht _ ih =>
    obtain ⟨heq, more, more', hts, hus, hlength, hstarts⟩ := ih
    have hbegins : t.begins < n := Nat.lt_of_le_of_lt t.begins_le_ends ht
    simp only [List.filter_cons, ht, hbegins, decide_true, if_true, List.cons_append, hts, hus]
    exact ⟨congrArg (t :: ·) heq, more, more', rfl, rfl, hlength, hstarts⟩

/-! ## Stability -/

/-- The tokens of a text that have lexemes: all but the mark of its end. -/
def lexemeTokens (source : String) : List Token := (tokenize source).filter fun t => !t.isEnd

/-- The tokens of a text whose lexemes end in front of offset `n`. -/
def endedBefore (n : Nat) (source : String) : List Token :=
  (lexemeTokens source).filter fun t => t.ends < n

/-- The tokens of a text whose lexemes begin in front of offset `n`. -/
def begunBefore (n : Nat) (source : String) : List Token :=
  (lexemeTokens source).filter fun t => t.begins < n

/-- What begins in front of the end of a text is not the mark of its end. -/
theorem isEnd_eq_false_of_begins_lt {source : String} {t : Token} (ht : t ∈ tokenize source)
    (hlt : t.begins < source.length) : t.isEnd = false := by
  rw [tokenize, ofString, tokens_eq_body_append] at ht
  rcases List.mem_append.1 ht with ht | ht
  · exact decide_eq_false (kind_ne_of_mem_body ht)
  · rw [List.mem_singleton.1 ht, Token.begins_ofLexeme, Position.offset_after_origin,
      String.length_toList] at hlt
    exact absurd hlt (Nat.lt_irrefl _)

/-- In front of the end of a text all tokens have lexemes. -/
theorem filter_lexemeTokens {source : String} {n : Nat} (hn : n ≤ source.length)
    {q : Token → Bool} (hq : ∀ t, q t → t.begins < n) :
    (lexemeTokens source).filter q = (tokenize source).filter q := by
  rw [lexemeTokens, List.filter_filter]
  refine List.filter_congr ?_
  intro t ht
  cases hqt : q t with
  | false => rfl
  | true =>
    have hend := isEnd_eq_false_of_begins_lt ht (Nat.lt_of_lt_of_le (hq t hqt) hn)
    rw [hend]
    rfl

/-- At an index of the text the mark of the end need not be left out of the tokens that end before
it. -/
theorem endedBefore_eq {source : String} {n : Nat} (hn : n ≤ source.length) :
    endedBefore n source = (tokenize source).filter fun t => t.ends < n := by
  refine filter_lexemeTokens hn ?_
  intro t ht
  exact Nat.lt_of_le_of_lt t.begins_le_ends (of_decide_eq_true ht)

/-- Nor need it be left out of the tokens that begin before such an index. -/
theorem begunBefore_eq {source : String} {n : Nat} (hn : n ≤ source.length) :
    begunBefore n source = (tokenize source).filter fun t => t.begins < n :=
  filter_lexemeTokens hn fun _ => of_decide_eq_true

/-- Two texts with the same first `n` characters have the same tokens that end in front of offset
`n`, with the same locations and in the same order. As many tokens of the one begin in front of `n`
as of the other: at most one more, in both texts or in neither, and then at the same place. -/
theorem tokenize_prefix_stable {s s' : String} {n : Nat} (hs : n ≤ s.length) (hs' : n ≤ s'.length)
    (h : s.toList.take n = s'.toList.take n) :
    endedBefore n s = endedBefore n s' ∧ (begunBefore n s).length = (begunBefore n s').length ∧
      ∃ more more', begunBefore n s = endedBefore n s ++ more ∧
        begunBefore n s' = endedBefore n s' ++ more' ∧ more.length ≤ 1 ∧
        more.map (·.location.start) = more'.map (·.location.start) := by
  rw [endedBefore_eq hs, endedBefore_eq hs', begunBefore_eq hs, begunBefore_eq hs']
  obtain ⟨hended, more, more', hmore, hmore', hlength, hstarts⟩ :=
    (agreeBefore_tokenize hs h).filter_eq
  have hmap := congrArg List.length hstarts
  rw [List.length_map, List.length_map] at hmap
  refine ⟨hended, ?_, more, more', hmore, hmore', hlength, hstarts⟩
  rw [hmore, hmore', List.length_append, List.length_append, hended, hmap]

/-- Behind the sign the first text goes on with a digit and the second with a letter: the word in
front of it stays, and a token begins with the sign in both. -/
theorem prefix_stable_sign :
    4 ≤ "ab -1".length ∧ 4 ≤ "ab -c d".length ∧
      "ab -1".toList.take 4 = "ab -c d".toList.take 4 ∧
      endedBefore 4 "ab -1" = endedBefore 4 "ab -c d" ∧
      (begunBefore 4 "ab -1").length = (begunBefore 4 "ab -c d").length ∧
      (begunBefore 4 "ab -1").map (·.kind) = [.lowerIdentifier, .literalInt] ∧
      (begunBefore 4 "ab -c d").map (·.kind) = [.lowerIdentifier, .minus] := by
  have hs : 4 ≤ "ab -1".length := by decide
  have hs' : 4 ≤ "ab -c d".length := by decide
  have h : "ab -1".toList.take 4 = "ab -c d".toList.take 4 := by decide
  obtain ⟨hended, hbegun, -⟩ := tokenize_prefix_stable hs hs' h
  exact ⟨hs, hs', h, hended, hbegun, by decide +kernel, by decide +kernel⟩

end Lexis
