import Lexis.Log
import Lexis.Proofs.Scanner.Bookmark

/-!
# The log is a transcript of the token stream

A log is written while a text is read, one event at each advance and one when the scanner is at the
end; it is not made from the finished stream. `log_transcribes` says that it tells the stream all
the same: at the lowest level there is one record for each token, in their order, and then a summary
that counts them; a higher level keeps the summary alone or nothing. A run takes the scanner on by
one token and records one event at each step, so the tokens of a run are those of the stream
(`Scanner.tokens_run`), and its events are those of the tokens behind the first one
(`Scanner.ofToken_cons_events_run`), whose event comes from setting the scanner up.
-/

namespace Lexis

/-! ## Runs -/

namespace Scanner

/-- A run from the first token at or behind `c` gives the tokens from `c` on. -/
theorem tokens_run (c : Cursor) : (ofCursor c).run.1 = c.tokens := by
  generalize hs : ofCursor c = s
  fun_induction run s generalizing c with
  | case1 s hend =>
    subst hs
    rw [tokens_of_atEnd hend]
  | case2 s hend next tokens events hrun ih =>
    subst hs
    have hnext : tokens = (ofCursor c).cursor.tokens := by rw [← ih _ rfl, hrun]
    rw [tokens_of_not_atEnd hend, hnext]

/-- The events of a run, behind that of the current token, are the events of its tokens. -/
theorem ofToken_cons_events_run (s : Scanner) :
    Event.ofToken s.token :: s.run.2 = s.run.1.map Event.ofToken := by
  fun_induction run s with
  | case1 s hend => rfl
  | case2 s hend next tokens events hrun ih =>
    rw [hrun] at ih
    rw [List.map_cons, ← ih]

end Scanner

/-! ## Events and levels -/

/-- The event that ends the log of a stream: how many tokens there are, and how many errors. -/
def Event.summary (tokens : List Token) : Event :=
  .tokenized tokens.length (tokens.countP Token.isError)

/-- What happens while a text is read is that the scanner comes to each token of its stream, and
then that the stream is complete. -/
theorem events_eq (source : String) :
    events source = (tokenize source).map Event.ofToken ++ [.summary (tokenize source)] := by
  have htokens : (Scanner.ofString source).run.1 = tokenize source := Scanner.tokens_run _
  rw [events]
  dsimp only
  rw [Scanner.ofToken_cons_events_run, htokens, Event.summary]

/-- The lowest level leaves out nothing. -/
theorem eventsFrom_trace (source : String) : eventsFrom .trace source = events source := by
  rw [eventsFrom, List.filter_eq_self]
  intro e _
  exact decide_eq_true (Nat.zero_le _)

/-- The other levels leave out the single tokens, and keep the summary if it is severe enough. -/
theorem eventsFrom_of_ne_trace {threshold : Level} (h : threshold ≠ .trace) (source : String) :
    eventsFrom threshold source =
      [Event.summary (tokenize source)].filter fun e => threshold.rank ≤ e.level.rank := by
  have htokens : ((tokenize source).map Event.ofToken).filter
      (fun e => threshold.rank ≤ e.level.rank) = [] := by
    rw [List.filter_eq_nil_iff]
    simp only [List.forall_mem_map]
    intro t _
    cases threshold with
    | trace => exact absurd rfl h
    | debug | info => exact Bool.false_ne_true
  rw [eventsFrom, events_eq, List.filter_append, htokens, List.nil_append]

/-! ## Errors in the log -/

/-- Of all kinds only that of errors is shown by its name. -/
theorem TokenKind.displayName_eq_error_iff {kind : TokenKind} :
    kind.displayName = "Error" ↔ kind = .error := by
  cases kind <;> decide

/-- The event says that the scanner came to an error token. -/
def Event.tellsError (e : Event) : Bool := ("kind", .text "Error") ∈ e.fields

/-- The event of a token tells an error exactly when the token is an error. -/
theorem Event.tellsError_ofToken (t : Token) : (ofToken t).tellsError = t.isError := by
  simp [tellsError, ofToken, fields, Token.isError, eq_comm (a := "Error"),
    TokenKind.displayName_eq_error_iff]

/-- The summary tells how many errors there are, and is none itself. -/
theorem Event.tellsError_summary (tokens : List Token) : (summary tokens).tellsError = false := by
  simp [tellsError, summary, fields]

/-- As many events tell of an error as there are error tokens. -/
theorem countP_tellsError_events (source : String) :
    (events source).countP Event.tellsError = (tokenize source).countP Token.isError := by
  have htokens : Event.tellsError ∘ Event.ofToken = Token.isError :=
    funext Event.tellsError_ofToken
  rw [events_eq, List.countP_append, List.countP_map, htokens, List.countP_singleton,
    Event.tellsError_summary]
  rfl

/-! ## The log -/

/-- The log of reading a text tells its token stream. At the lowest level it has a record for each
token, in their order, with the display name of the kind, the lexeme, and where the token begins;
behind them stands one that tells how many tokens and how many error tokens there are, which is how
many of the records before it are about errors. At the next level it has the last of these records
alone, and at the highest one none. -/
theorem log_transcribes (source : String) :
    let tokens := tokenize source
    let summary : Record := ⟨.debug, "tokenized input",
      [("tokens", .number tokens.length), ("errors", .number (tokens.countP Token.isError))]⟩
    (Scanner.ofString source).run.1 = tokens ∧
      (eventsFrom .trace source).map Event.record =
        tokens.map (fun t => ⟨.trace, "advance",
          [("kind", .text t.kind.displayName), ("lexeme", .text t.lexeme),
            ("offset", .number t.location.start.offset), ("line", .number t.location.start.line),
            ("column", .number t.location.start.column)]⟩) ++ [summary] ∧
      (eventsFrom .debug source).map Event.record = [summary] ∧
      eventsFrom .info source = [] ∧
      (eventsFrom .trace source).countP Event.tellsError = tokens.countP Token.isError := by
  intro tokens summary
  refine ⟨Scanner.tokens_run _, ?_, ?_, ?_, ?_⟩
  · rw [eventsFrom_trace, events_eq, List.map_append, List.map_map]
    rfl
  · rw [eventsFrom_of_ne_trace Level.noConfusion]
    rfl
  · rw [eventsFrom_of_ne_trace Level.noConfusion]
    rfl
  · rw [eventsFrom_trace]
    exact countP_tellsError_events source

-- The first record is that of the token on which the scanner is set up.
example : (eventsFrom .trace "\n?a").map (fun e => (e.level.name, e.fields)) =
    [("TRACE", [("kind", .text "Error"), ("lexeme", .text "?"), ("offset", .number 1),
        ("line", .number 2), ("column", .number 1)]),
      ("TRACE", [("kind", .text "LowerIdentifier"), ("lexeme", .text "a"), ("offset", .number 2),
        ("line", .number 2), ("column", .number 2)]),
      ("TRACE", [("kind", .text "EndOfStream"), ("lexeme", .text ""), ("offset", .number 3),
        ("line", .number 2), ("column", .number 3)]),
      ("DEBUG", [("tokens", .number 3), ("errors", .number 1)])] := by
  decide +kernel

end Lexis
