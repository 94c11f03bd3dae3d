import Lexis.Proofs.Machine.Moves

/-!
# What a machine reads

A machine is on the way to a token, its `goal`: the first one at its cursor, the one that begins
where a number or a word began, or the one that it already holds. `Inv` says what the machine has
read of that token in each phase, and `Inv.exists_leads` that each step before the token is complete
succeeds and gets nearer to the same goal. There is one lemma for each phase; in the phases that go
over a run of characters, the run is a legal lexeme when it stops, so it is what reading the text as
a list takes for the lexeme.
-/

namespace Lexis

/-- The character begins a word which is of the kind unless it is reserved. -/
def TokenKind.Begins : TokenKind → Char → Prop
  | .lowerIdentifier, c => c.isLower
  | .upperIdentifier, c => c.isUpper
  | _, _ => False

namespace TokenKind

variable {kind : TokenKind} {first : Char}

/-- Words begin with a letter. -/
theorem Begins.isAlpha (h : kind.Begins first) : first.isAlpha := by
  cases kind with
  | lowerIdentifier => exact isAlpha_of_isLower h
  | upperIdentifier => exact isAlpha_of_isUpper h
  | _ => cases h

/-- A word is of its kind unless it is reserved. -/
theorem Begins.kind_eq (h : kind.Begins first) (tail : List Char) :
    Lexeme.kind (first :: tail) = (keyword? (String.ofList (first :: tail))).getD kind := by
  cases kind with
  | lowerIdentifier => exact Lexeme.kind_of_isLower h
  | upperIdentifier => exact Lexeme.kind_of_isUpper h
  | _ => cases h

/-- Words are located by spans, reserved or not. -/
theorem Begins.isSpanned_kind (h : kind.Begins first) (tail : List Char) :
    (Lexeme.kind (first :: tail)).isSpanned := by
  rw [h.kind_eq]
  cases hword : keyword? (String.ofList (first :: tail)) with
  | none =>
    cases kind with
    | lowerIdentifier | upperIdentifier => rfl
    | _ => cases h
  | some reserved =>
    have hreserved := (Lexeme.keyword?_eq_some_iff.1 hword).1
    cases reserved with
    | keywordAs | keywordTrue | keywordFalse => rfl
    | _ => cases hreserved

end TokenKind

/-- The token of a word or an integer, located by the span it covers. -/
theorem Token.ofLexeme_of_isSpanned {lexeme : List Char} (h : (Lexeme.kind lexeme).isSpanned)
    (p : Position) : ofLexeme p lexeme =
      ⟨Lexeme.kind lexeme, String.ofList lexeme, .range ⟨p, p.after lexeme⟩⟩ := by
  rw [ofLexeme, if_pos h]

/-- A character of white space in front of a text is gone over before its first token. -/
theorem Cursor.next_space {c : Char} (hc : isSpace c) (p : Position) (cs : List Char) :
    next ⟨p, c :: cs⟩ = next ⟨p.next c, cs⟩ := by
  have hskip : skipSpace ⟨p, c :: cs⟩ = skipSpace ⟨p.next c, cs⟩ := by
    simp [skipSpace, skip, hc]
  rw [next, next, hskip]

/-- A single character is a lexeme if what stands behind it does not continue it. -/
theorem Munch.single {c : Char} {rest : List Char} (hc : isSpace c = false)
    (hstop : ∀ d ∈ rest.head?, isContinuedBy c d = false) : Munch c [] rest :=
  ⟨hc, nofun, hstop⟩

namespace Machine

variable {source : String} {m m' : Machine} {start : Position} {read rest tail : List Char}
  {c first : Char}

/-! ## What has been read -/

/-- The machine has read `read` from `start` on. -/
structure HasRead (m : Machine) (start : Position) (read : List Char) : Prop where
  drop_eq : m.text.toList.drop start.offset = read ++ m.cursor.rest
  after_eq : start.after read = m.position

/-- Nothing has been read from the cursor on. -/
theorem hasRead_nil (m : Machine) : m.HasRead m.position [] := ⟨rfl, rfl⟩

/-- A character that is gone over has been read. -/
theorem HasRead.goesOver (h : m.HasRead start read) (hrest : m.cursor.rest = c :: rest)
    (hover : m.GoesOver m' c rest) : m'.HasRead start (read ++ [c]) := by
  refine ⟨?_, ?_⟩
  · rw [hover.text_eq, h.drop_eq, hrest, hover.cursor_eq, List.append_assoc]
    rfl
  · rw [Position.after_append, h.after_eq]
    exact (congrArg Cursor.position hover.cursor_eq).symm

/-- What has been read can be cut out of the text, unless it is empty. -/
theorem HasRead.spanToken_eq (h : m.HasRead start read) (hplaced : m.Placed source)
    (hne : read ≠ []) (kind : TokenKind) : m.spanToken kind start =
      .ok ⟨kind, String.ofList read, .range ⟨start, start.after read⟩⟩ := by
  have hoffset : m.offset.toNat = start.offset + read.length := by
    rw [← Position.offset_after, h.after_eq]
    rfl
  have hpos := List.length_pos_iff.2 hne
  have hsize : m.offset.toNat ≤ m.text.size := by
    rw [← Array.length_toList, hplaced.text_eq]
    exact hplaced.counts.offset_le
  have hcut : (m.text.extract start.offset m.offset.toNat).toList = read := by
    rw [Array.toList_extract, List.extract_eq_take_drop, h.drop_eq, hoffset,
      Nat.add_sub_cancel_left, List.take_left]
  have hslice : m.slice start.offset m.offset.toNat = .ok (String.ofList read) := by
    rw [slice, if_pos ⟨by omega, hsize⟩, hcut]
  have hspan : Span.between start m.position = .ok ⟨start, start.after read⟩ := by
    rw [← h.after_eq, Span.between_after]
  simp [spanToken, hslice, hspan, bind, Except.bind, pure, Except.pure]

/-! ## The goal -/

/-- A scanner that holds the token to which the machine is on the way. -/
def goal (m : Machine) : Scanner :=
  match m.phase with
  | .skipping | .starting => .ofCursor m.cursor
  | .number start | .word start _ => .ofCursor ⟨start, m.text.toList.drop start.offset⟩
  | .resting => ⟨m.token, m.cursor⟩

/-- A bound on the number of steps until the token is complete. -/
def pending (m : Machine) : Nat :=
  m.cursor.rest.length +
    match m.phase with
    | .skipping => 3
    | .starting => 2
    | .number _ | .word .. => 1
    | .resting => 0

/-- A machine that has read a lexeme is at its goal with the token of the lexeme. -/
theorem HasRead.goal_rest (h : m.HasRead start (first :: tail))
    (hmunch : Munch first tail m.cursor.rest) : (m.rest (.ofLexeme start (first :: tail))).goal =
      .ofCursor ⟨start, m.text.toList.drop start.offset⟩ := by
  have hnext := Cursor.next_munch start (List.nil_subset _) hmunch
  rw [List.nil_append, List.nil_append, Position.after_nil, h.after_eq] at hnext
  rw [h.drop_eq, List.cons_append, Scanner.ofCursor, hnext]
  rfl

/-! ## Invariant -/

/-- The machine is in a number that began at `start`: it has read a sign, if there is one, and some
digits. A sign without digits stands in front of one. -/
def InNumber (m : Machine) (start : Position) : Prop :=
  ∃ sign digits, m.HasRead start (sign ++ digits) ∧ (sign = [] ∨ sign = ['-']) ∧
    (∀ c ∈ digits, c.isDigit) ∧ (digits = [] → ∃ c ∈ m.cursor.rest.head?, c.isDigit)

/-- The machine is in a word that began at `start`: it has read its first letter, at least. -/
def InWord (m : Machine) (start : Position) (fallback : TokenKind) : Prop :=
  ∃ first tail, m.HasRead start (first :: tail) ∧ fallback.Begins first ∧
    ∀ c ∈ tail, c.isAlphanum

/-- A digit goes on with a number. -/
theorem InNumber.goesOver (h : m.InNumber start) (hrest : m.cursor.rest = c :: rest)
    (hc : c.isDigit) (hover : m.GoesOver m' c rest) : m'.InNumber start := by
  obtain ⟨sign, digits, hread, hsign, hdigits, -⟩ := h
  have hread' := hread.goesOver hrest hover
  rw [List.append_assoc] at hread'
  have hdigits' : ∀ d ∈ digits ++ [c], d.isDigit :=
    List.forall_mem_append.2 ⟨hdigits, List.forall_mem_singleton.2 hc⟩
  exact ⟨sign, digits ++ [c], hread', hsign, hdigits', by simp⟩

/-- Where no digit follows, what has been read of a number is a lexeme. -/
theorem InNumber.exists_munch (h : m.InNumber start)
    (hstop : ∀ c ∈ m.cursor.rest.head?, c.isDigit = false) :
    ∃ first tail, m.HasRead start (first :: tail) ∧ Munch first tail m.cursor.rest ∧
      Lexeme.kind (first :: tail) = .literalInt := by
  obtain ⟨sign, digits, hread, hsign, hdigits, hahead⟩ := h
  have hne : digits ≠ [] := by
    intro hnil
    obtain ⟨d, hd, hdigit⟩ := hahead hnil
    rw [hstop d hd] at hdigit
    cases hdigit
  have hlegal : Lexeme.Legal .literalInt (sign ++ digits) :=
    ⟨sign, digits, rfl, hsign, hne, hdigits⟩
  obtain ⟨first, tail, heq⟩ := hlegal.exists_cons
  rw [heq] at hlegal hread
  obtain ⟨hspace, hrun, hkind⟩ := hlegal.read
  refine ⟨first, tail, hread, ⟨hspace, hrun, ?_⟩, hkind⟩
  intro d hd
  rw [← hlegal.takesIn_eq]
  exact hstop d hd

/-- A letter or a digit goes on with a word. -/
theorem InWord.goesOver {fallback : TokenKind} (h : m.InWord start fallback)
    (hrest : m.cursor.rest = c :: rest) (hc : c.isAlphanum) (hover : m.GoesOver m' c rest) :
    m'.InWord start fallback := by
  obtain ⟨first, tail, hread, hfirst, htail⟩ := h
  have htail' : ∀ d ∈ tail ++ [c], d.isAlphanum :=
    List.forall_mem_append.2 ⟨htail, List.forall_mem_singleton.2 hc⟩
  exact ⟨first, tail ++ [c], hread.goesOver hrest hover, hfirst, htail'⟩

/-- Where neither a letter nor a digit follows, what has been read of a word is a lexeme. -/
theorem InWord.exists_munch {fallback : TokenKind} (h : m.InWord start fallback)
    (hstop : ∀ c ∈ m.cursor.rest.head?, c.isAlphanum = false) :
    ∃ first tail, m.HasRead start (first :: tail) ∧ Munch first tail m.cursor.rest ∧
      fallback.Begins first := by
  obtain ⟨first, tail, hread, hfirst, htail⟩ := h
  have halpha := hfirst.isAlpha
  have hspace := Lexeme.isSpace_eq_false_of_isAlphanum (isAlphanum_of_isAlpha halpha)
  refine ⟨first, tail, hread, ⟨hspace, ?_, ?_⟩, hfirst⟩
  · intro d hd
    rw [isContinuedBy_of_isAlpha halpha]
    exact htail d hd
  · intro d hd
    rw [isContinuedBy_of_isAlpha halpha]
    exact hstop d hd

/-- What is known of a machine in its phase. -/
def InPhase (m : Machine) : Prop :=
  match m.phase with
  | .starting => ∀ c ∈ m.cursor.rest.head?, isSpace c = false
  | .number start => m.InNumber start
  | .word start fallback => m.InWord start fallback
  | .skipping | .resting => True

/-- The invariant of the machines on a text. -/
structure Inv (m : Machine) (source : String) : Prop where
  placed : m.Placed source
  phase : m.InPhase

/-- The machine `m'` is nearer to the goal of `m`. -/
structure Leads (m m' : Machine) (source : String) : Prop where
  inv : m'.Inv source
  goal_eq : m'.goal = m.goal
  pending_lt : m'.pending < m.pending

/-- Either a character at the cursor passes a test, or what is seen there does not, because it is
another character or the null character that stands for the end of the text. -/
theorem peek_cases (m : Machine) {p : Char → Bool} (hnull : p '\x00' = false) :
    (∃ c rest, m.cursor.rest = c :: rest ∧ p c ∧ m.peek = .ok c) ∨
      (∀ c ∈ m.cursor.rest.head?, p c = false) ∧ ∃ c, p c = false ∧ m.peek = .ok c := by
  have hpeek := m.peek_eq
  cases hrest : m.cursor.rest with
  | nil =>
    rw [hrest] at hpeek
    exact .inr ⟨nofun, _, hnull, hpeek⟩
  | cons c rest =>
    rw [hrest] at hpeek
    cases hc : p c with
    | true => exact .inl ⟨c, rest, rfl, hc, hpeek⟩
    | false => exact .inr ⟨by rintro _ ⟨⟩; exact hc, c, hc, hpeek⟩

/-! ## Steps that lead on -/

/-- What the machine has got as text and counted is all that tells its place. -/
theorem Placed.congr (h : m.Placed source) (htext : m'.text = m.text)
    (hposition : m'.position = m.position) : m'.Placed source :=
  ⟨h.length_le, htext ▸ h.text_eq, hposition ▸ h.counts⟩

/-- Going over a character leads on if the machine has still the same goal. -/
theorem GoesOver.leads (hover : m.GoesOver m' c rest) (hrest : m.cursor.rest = c :: rest)
    (hplaced : m'.Placed source) (hin : m'.InPhase) (hgoal : m'.goal = m.goal) :
    m.Leads m' source := by
  refine ⟨⟨hplaced, hin⟩, hgoal, ?_⟩
  simp only [pending, hover.phase_eq, hover.cursor_eq, hrest, List.length_cons]
  exact Nat.add_lt_add_right (Nat.lt_succ_self _) _

/-- Completing the token leads on if what has been read is the lexeme of the goal. -/
theorem HasRead.leads_rest (hread : m'.HasRead start (first :: tail)) (hplaced : m'.Placed source)
    (hmunch : Munch first tail m'.cursor.rest)
    (hgoal : .ofCursor ⟨start, m'.text.toList.drop start.offset⟩ = m.goal)
    (hlt : m'.cursor.rest.length < m.pending) :
    m.Leads (m'.rest (.ofLexeme start (first :: tail))) source :=
  ⟨⟨hplaced.congr rfl rfl, trivial⟩, (hread.goal_rest hmunch).trans hgoal, hlt⟩

/-- Beginning a number or a word leads on. -/
theorem leads_run (hphase : m.phase = .starting) (hplaced : m'.Placed source) (hin : m'.InPhase)
    (htext : m'.text = m.text) (hlength : m'.cursor.rest.length ≤ m.cursor.rest.length)
    (hrun : m'.phase = .number m.position ∨ ∃ fallback, m'.phase = .word m.position fallback) :
    m.Leads m' source := by
  have hcursor : m.cursor = ⟨m.position, m'.text.toList.drop m.position.offset⟩ := by
    rw [htext]
    rfl
  refine ⟨⟨hplaced, hin⟩, ?_, ?_⟩
  · rcases hrun with hphase' | ⟨fallback, hphase'⟩
    · simp only [goal, hphase, hphase', hcursor]
    · simp only [goal, hphase, hphase', hcursor]
  · rcases hrun with hphase' | ⟨fallback, hphase'⟩
    · simp only [pending, hphase, hphase']
      omega
    · simp only [pending, hphase, hphase']
      omega

/-! ## One step in each phase -/

/-- Over white space the machine goes on, and elsewhere it begins a token. -/
theorem Inv.step_skipping (h : m.Inv source) (hphase : m.phase = .skipping) :
    ∃ m', m.step = .ok m' ∧ m.Leads m' source := by
  rcases m.peek_cases (p := isSpace) rfl with ⟨c, rest, hrest, hc, hpeek⟩ | ⟨hstop, c, hc, hpeek⟩
  · obtain ⟨m', hbump, hplaced, hover⟩ := h.placed.exists_bump hrest
    have hphase' : m'.phase = .skipping := hover.phase_eq.trans hphase
    have hcursor : m.cursor = ⟨m.position, c :: rest⟩ := by rw [← hrest]; rfl
    refine ⟨m', ?_, hover.leads hrest hplaced ?_ ?_⟩
    · simp [step, hphase, hpeek, hc, hbump, bind, Except.bind]
    · simp only [InPhase, hphase']
    · simp only [goal, hphase, hphase', hover.cursor_eq, hcursor, Scanner.ofCursor,
        Cursor.next_space hc]
  · refine ⟨{ m with phase := .starting }, ?_, ⟨h.placed.congr rfl rfl, hstop⟩, ?_, ?_⟩
    · simp [step, hphase, hpeek, hc, bind, Except.bind, pure, Except.pure]
    · simp only [goal, hphase]
      rfl
    · simp only [pending, hphase]
      exact Nat.lt_succ_self _

/-- A number is over where no digit follows. -/
theorem Inv.step_number (h : m.Inv source) (hphase : m.phase = .number start) :
    ∃ m', m.step = .ok m' ∧ m.Leads m' source := by
  have hin : m.InNumber start := by simpa only [InPhase, hphase] using h.phase
  rcases m.peek_cases (p := Char.isDigit) rfl with
    ⟨c, rest, hrest, hc, hpeek⟩ | ⟨hstop, c, hc, hpeek⟩
  · obtain ⟨m', hbump, hplaced, hover⟩ := h.placed.exists_bump hrest
    have hphase' : m'.phase = .number start := hover.phase_eq.trans hphase
    refine ⟨m', ?_, hover.leads hrest hplaced ?_ ?_⟩
    · simp [step, hphase, hpeek, hc, hbump, bind, Except.bind]
    · simp only [InPhase, hphase']
      exact hin.goesOver hrest hc hover
    · simp only [goal, hphase, hphase', hover.text_eq]
  · obtain ⟨first, tail, hread, hmunch, hkind⟩ := hin.exists_munch hstop
    have htoken := hread.spanToken_eq h.placed (List.cons_ne_nil _ _) .literalInt
    refine ⟨m.rest (.ofLexeme start (first :: tail)), ?_, hread.leads_rest h.placed hmunch ?_ ?_⟩
    · rw [Token.ofLexeme_of_isSpanned (by rw [hkind]; rfl), hkind]
      simp [step, hphase, hpeek, hc, htoken, bind, Except.bind, pure, Except.pure]
    · simp only [goal, hphase]
    · simp only [pending, hphase]
      exact Nat.lt_succ_self _

/-- A word is over where neither a letter nor a digit follows. -/
theorem Inv.step_word {fallback : TokenKind} (h : m.Inv source)
    (hphase : m.phase = .word start fallback) : ∃ m', m.step = .ok m' ∧ m.Leads m' source := by
  have hin : m.InWord start fallback := by simpa only [InPhase, hphase] using h.phase
  rcases m.peek_cases (p := Char.isAlphanum) rfl with
    ⟨c, rest, hrest, hc, hpeek⟩ | ⟨hstop, c, hc, hpeek⟩
  · obtain ⟨m', hbump, hplaced, hover⟩ := h.placed.exists_bump hrest
    have hphase' : m'.phase = .word start fallback := hover.phase_eq.trans hphase
    refine ⟨m', ?_, hover.leads hrest hplaced ?_ ?_⟩
    · simp [step, hphase, hpeek, hc, hbump, bind, Except.bind]
    · simp only [InPhase, hphase']
      exact hin.goesOver hrest hc hover
    · simp only [goal, hphase, hphase', hover.text_eq]
  · obtain ⟨first, tail, hread, hmunch, hfirst⟩ := hin.exists_munch hstop
    have htoken := hread.spanToken_eq h.placed (List.cons_ne_nil _ _) fallback
    refine ⟨m.rest (.ofLexeme start (first :: tail)), ?_, hread.leads_rest h.placed hmunch ?_ ?_⟩
    · rw [Token.ofLexeme_of_isSpanned (hfirst.isSpanned_kind tail), hfirst.kind_eq]
      simp [step, hphase, hpeek, hc, htoken, bind, Except.bind, pure, Except.pure]
    · simp only [goal, hphase]
    · simp only [pending, hphase]
      exact Nat.lt_succ_self _

/-- A character that is a lexeme alone is gone over, and its token is complete. -/
theorem Placed.exists_single {kind : TokenKind} (h : m.Placed source) (hphase : m.phase = .starting)
    (hrest : m.cursor.rest = c :: rest) (hmunch : Munch c [] rest) (hkind : Lexeme.kind [c] = kind)
    (hpoint : kind.isSpanned = false) : ∃ m', m.single kind c = .ok m' ∧ m.Leads m' source := by
  obtain ⟨m', hbump, hplaced, hover⟩ := h.exists_bump hrest
  have hread : m'.HasRead m.position [c] := m.hasRead_nil.goesOver hrest hover
  have hrest' : m'.cursor.rest = rest := congrArg Cursor.rest hover.cursor_eq
  have htoken : Token.ofLexeme m.position [c] = ⟨kind, String.ofList [c], .point m.position⟩ := by
    rw [Token.ofLexeme, hkind, hpoint]
    rfl
  refine ⟨m'.rest (.ofLexeme m.position [c]), ?_, hread.leads_rest hplaced (hrest' ▸ hmunch) ?_ ?_⟩
  · simp [single, hbump, htoken, bind, Except.bind, pure, Except.pure]
  · simp only [goal, hphase, hover.text_eq]
    rfl
  · simp only [pending, hphase, hrest', hrest, List.length_cons]
    omega

/-- Behind its sign the machine is in a number, if a digit follows. -/
theorem Placed.exists_sign (h : m.Placed source) (hphase : m.phase = .starting)
    (hrest : m.cursor.rest = '-' :: rest) (hdigit : ∃ d ∈ rest.head?, d.isDigit) :
    ∃ m', m.bump = .ok m' ∧ m.Leads { m' with phase := .number m.position } source := by
  obtain ⟨m', hbump, hplaced, hover⟩ := h.exists_bump hrest
  have hread : m'.HasRead m.position ['-'] := m.hasRead_nil.goesOver hrest hover
  have hrest' : m'.cursor.rest = rest := congrArg Cursor.rest hover.cursor_eq
  refine ⟨m', hbump, leads_run hphase (hplaced.congr rfl rfl) ?_ hover.text_eq ?_ (.inl rfl)⟩
  · exact ⟨['-'], [], ⟨hread.drop_eq, hread.after_eq⟩, .inr rfl, nofun, fun _ => hrest' ▸ hdigit⟩
  · show m'.cursor.rest.length ≤ _
    rw [hrest', hrest]
    exact Nat.le_succ _

/-- Behind its first letter the machine is in a word. -/
theorem Placed.exists_word {kind : TokenKind} (h : m.Placed source) (hphase : m.phase = .starting)
    (hrest : m.cursor.rest = c :: rest) (hc : kind.Begins c) :
    ∃ m', m.bump = .ok m' ∧ m.Leads { m' with phase := .word m.position kind } source := by
  obtain ⟨m', hbump, hplaced, hover⟩ := h.exists_bump hrest
  have hread : m'.HasRead m.position [c] := m.hasRead_nil.goesOver hrest hover
  have hrest' : m'.cursor.rest = rest := congrArg Cursor.rest hover.cursor_eq
  refine ⟨m', hbump, leads_run hphase (hplaced.congr rfl rfl) ?_ hover.text_eq ?_
    (.inr ⟨kind, rfl⟩)⟩
  · exact ⟨c, [], ⟨hread.drop_eq, hread.after_eq⟩, hc, nofun⟩
  · show m'.cursor.rest.length ≤ _
    rw [hrest', hrest]
    exact Nat.le_succ _

/-- At the end of the text its mark is the token. -/
theorem Inv.start_end (h : m.Inv source) (hphase : m.phase = .starting)
    (hrest : m.cursor.rest = []) : ∃ m', m.start = .ok m' ∧ m.Leads m' source := by
  have hend : m.atEnd := atEnd_iff.2 hrest
  have hcursor : m.cursor = ⟨m.position, []⟩ := by rw [← hrest]; rfl
  refine ⟨m.rest ⟨.endOfStream, "", .point m.position⟩, ?_,
    ⟨h.placed.congr rfl rfl, trivial⟩, ?_, ?_⟩
  · simp [start, hend, pure, Except.pure]
  · simp only [goal, hphase, hcursor, Scanner.ofCursor, Cursor.next_gap _ (List.nil_subset _)]
    show Scanner.mk _ m.cursor = _
    rw [hcursor]
    rfl
  · simp only [pending, hphase]
    exact Nat.lt_add_of_pos_right (by decide)

/-- A minus sign is the sign of a number in front of a digit, and a token alone elsewhere. -/
theorem Placed.start_minus (h : m.Placed source) (hphase : m.phase = .starting)
    (hrest : m.cursor.rest = '-' :: rest) : ∃ m', m.start = .ok m' ∧ m.Leads m' source := by
  have hend := not_atEnd hrest
  have hpeek := peek_of_rest_eq_cons hrest
  have hnext := h.peekNext_eq hrest
  have hlook : (rest.head?.getD '\x00').isDigit ↔ ∃ d ∈ rest.head?, d.isDigit := by
    cases rest with
    | nil => exact ⟨nofun, nofun⟩
    | cons d rest => simp
  by_cases hdigit : (rest.head?.getD '\x00').isDigit
  · obtain ⟨m', hbump, hleads⟩ := h.exists_sign hphase hrest (hlook.1 hdigit)
    refine ⟨_, ?_, hleads⟩
    simp [start, hend, hpeek, hnext, hdigit, hbump, bind, Except.bind, pure, Except.pure]
  · have hstop : ∀ d ∈ rest.head?, isContinuedBy '-' d = false := by
      intro d hd
      rw [isContinuedBy_minus, Bool.eq_false_iff]
      exact fun hd' => hdigit (hlook.2 ⟨d, hd, hd'⟩)
    have hkind : Lexeme.kind ['-'] = .minus := rfl
    obtain ⟨m', hsingle, hleads⟩ := h.exists_single hphase hrest (.single rfl hstop) hkind rfl
    refine ⟨m', ?_, hleads⟩
    simp [start, hend, hpeek, hnext, hdigit, hsingle, bind, Except.bind]

/-- In front of the end of the text a token begins with the character at the cursor. -/
theorem Inv.start_cons (h : m.Inv source) (hphase : m.phase = .starting)
    (hrest : m.cursor.rest = c :: rest) : ∃ m', m.start = .ok m' ∧ m.Leads m' source := by
  have hend := not_atEnd hrest
  have hpeek := peek_of_rest_eq_cons hrest
  have hin : ∀ d ∈ m.cursor.rest.head?, isSpace d = false := by
    simpa only [InPhase, hphase] using h.phase
  have hspace : isSpace c = false := hin c (by rw [hrest]; rfl)
  -- The tests are the machine's, in its order.
  by_cases hcomma : c = ','
  · subst hcomma
    have hkind : Lexeme.kind [','] = .comma := rfl
    obtain ⟨m', hsingle, hleads⟩ := h.placed.exists_single hphase hrest
      (.single hspace fun _ _ => rfl) hkind rfl
    refine ⟨m', ?_, hleads⟩
    simp [start, hend, hpeek, hsingle, bind, Except.bind]
  by_cases hminus : c = '-'
  · exact h.placed.start_minus hphase (hminus ▸ hrest)
  by_cases hdigit : c.isDigit
  · have hread : HasRead { m with phase := .number m.position } m.position [] := ⟨rfl, rfl⟩
    refine ⟨{ m with phase := .number m.position }, ?_, leads_run hphase (h.placed.congr rfl rfl)
      ⟨[], [], hread, .inl rfl, nofun, fun _ => ⟨c, ?_, hdigit⟩⟩ rfl (Nat.le_refl _) (.inl rfl)⟩
    · simp [start, hend, hpeek, hcomma, hminus, hdigit, bind, Except.bind, pure, Except.pure]
    · show c ∈ m.cursor.rest.head?
      rw [hrest]
      rfl
  by_cases hlower : c.isLower
  · have hbegins : TokenKind.Begins .lowerIdentifier c := hlower
    obtain ⟨m', hbump, hleads⟩ := h.placed.exists_word hphase hrest hbegins
    refine ⟨_, ?_, hleads⟩
    simp [start, hend, hpeek, hcomma, hminus, hdigit, hlower, hbump, bind, Except.bind,
      pure, Except.pure]
  by_cases hupper : c.isUpper
  · have hbegins : TokenKind.Begins .upperIdentifier c := hupper
    obtain ⟨m', hbump, hleads⟩ := h.placed.exists_word hphase hrest hbegins
    refine ⟨_, ?_, hleads⟩
    simp [start, hend, hpeek, hcomma, hminus, hdigit, hlower, hupper, hbump, bind, Except.bind,
      pure, Except.pure]
  have hother : Unsupported c := by
    refine ⟨not_mem_whiteSpace_of_isSpace hspace, hcomma, hminus, ?_⟩
    simp [Char.isAlphanum, isAlpha_eq, hdigit, hlower, hupper]
  obtain ⟨m', hsingle, hleads⟩ := h.placed.exists_single hphase hrest
    (.single hspace fun d _ => isContinuedBy_of_unsupported hother d)
    (Lexeme.kind_of_unsupported hother) rfl
  refine ⟨m', ?_, hleads⟩
  simp [start, hend, hpeek, hcomma, hminus, hdigit, hlower, hupper, hsingle, bind, Except.bind]

/-! ## One step -/

/-- Each step before the token is complete succeeds and leads on. -/
theorem Inv.exists_leads (h : m.Inv source) (hphase : m.phase ≠ .resting) :
    ∃ m', m.step = .ok m' ∧ m.Leads m' source := by
  cases hm : m.phase with
  | skipping => exact h.step_skipping hm
  | starting =>
    have hstep : m.step = m.start := by simp only [step, hm]
    rw [hstep]
    cases hrest : m.cursor.rest with
    | nil => exact h.start_end hm hrest
    | cons c rest => exact h.start_cons hm hrest
  | number start => exact h.step_number hm
  | word start fallback => exact h.step_word hm
  | resting => exact absurd hm hphase

/-- The step of a machine that rests succeeds, and its goal is the next token. -/
theorem Inv.step_resting (h : m.Inv source) (hphase : m.phase = .resting) :
    ∃ m', m.step = .ok m' ∧ m'.Inv source ∧ m'.goal = m.goal.advance := by
  refine ⟨{ m with phase := .skipping }, ?_, ⟨h.placed.congr rfl rfl, trivial⟩, ?_⟩
  · simp [step, hphase, pure, Except.pure]
  · simp only [goal, hphase]
    rfl

end Machine

end Lexis
