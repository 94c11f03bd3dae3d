import Mathlib.Data.List.Forall2
import Lexis.Proofs.Cursor.Reading

/-!
# The token stream tiles the text

`tokenize_tiles`: the lexemes of a stream are stretches of the text in their order, each is legal
for its kind and as long as it can be, the gaps in front of them and behind the last one are white
space, and one token more marks the end. Nothing of the text is lost, and nothing is read twice.
-/

namespace Lexis

/-- The offset at which the lexeme of a token begins. -/
def Token.begins (t : Token) : Nat := t.location.start.offset

/-- The offset behind the lexeme of a token. -/
def Token.ends (t : Token) : Nat := t.begins + t.lexeme.length

/-- A token of the text, the end of the text apart: it has the stretch of the text where it stands
for its lexeme, which is legal for its kind and is not followed by a character that a token of its
kind takes in. -/
structure Token.Fits (t : Token) (text : List Char) : Prop where
  not_end : t.kind ≠ .endOfStream
  lexeme_ne : t.lexeme ≠ ""
  lexeme_eq : t.lexeme.toList = text.extract t.begins t.ends
  legal : Lexeme.Legal t.kind t.lexeme.toList
  maximal : ∀ c ∈ text[t.ends]?, t.kind.takesIn c = false

/-- The token that marks the end of the text. -/
structure Token.MarksEnd (t : Token) (text : List Char) : Prop where
  kind_eq : t.kind = .endOfStream
  lexeme_eq : t.lexeme = ""
  location_eq : ∃ p, t.location = .point p ∧ p.offset = text.length

/-- The tokens and the mark of the end tile the text from offset `i` on: each begins where the one
before ends, or behind white space. -/
structure Tiles (text : List Char) (i : Nat) (tokens : List Token) (last : Token) : Prop where
  fits : ∀ t ∈ tokens, t.Fits text
  marks_end : last.MarksEnd text
  gaps : List.Forall₂ (fun j t => j ≤ t.begins ∧ text.extract j t.begins ⊆ whiteSpace)
    (i :: tokens.map Token.ends) (tokens ++ [last])

/-- A token of the text that stands behind white space goes in front of a tiling from its end on. -/
theorem Tiles.cons {text : List Char} {i : Nat} {t last : Token} {tokens : List Token}
    (hle : i ≤ t.begins) (hgap : text.extract i t.begins ⊆ whiteSpace) (ht : t.Fits text)
    (h : Tiles text t.ends tokens last) : Tiles text i (t :: tokens) last := by
  refine ⟨?_, h.marks_end, .cons ⟨hle, hgap⟩ h.gaps⟩
  intro u hu
  rcases List.mem_cons.1 hu with rfl | hu
  · exact ht
  · exact h.fits u hu

/-- The index where the token of a lexeme begins. -/
theorem Token.begins_ofLexeme (p : Position) (lexeme : List Char) :
    (ofLexeme p lexeme).begins = p.offset := by
  simp [begins]

/-- The index behind the token of a lexeme. -/
theorem Token.ends_ofLexeme (p : Position) (lexeme : List Char) :
    (ofLexeme p lexeme).ends = p.offset + lexeme.length := by
  simp [ends, begins]

section
variable {front gap : List Char} {p : Position}

/-- The lexeme that is cut behind `front` makes a token of the text. -/
theorem fits_ofLexeme {first : Char} {tail rest : List Char} (hp : p.offset = front.length)
    (h : Munch first tail rest) :
    (Token.ofLexeme p (first :: tail)).Fits (front ++ first :: (tail ++ rest)) := by
  have hlegal := Lexeme.legal_kind h.start h.run
  have hbegins : (Token.ofLexeme p (first :: tail)).begins = front.length := by
    rw [Token.begins_ofLexeme, hp]
  have hends : (Token.ofLexeme p (first :: tail)).ends = front.length + (first :: tail).length := by
    rw [Token.ends_ofLexeme, hp]
  have hnext : (front ++ first :: (tail ++ rest))[front.length + (first :: tail).length]? =
      rest.head? := by
    rw [← List.cons_append, ← List.append_assoc, ← List.length_append,
      List.getElem?_append_right (Nat.le_refl _), Nat.sub_self, List.head?_eq_getElem?]
  refine ⟨?_, ?_, ?_, ?_, ?_⟩
  · exact h.kind_ne_endOfStream
  · simp
  · rw [hbegins, hends]
    simp
  · rw [Token.kind_ofLexeme, Token.lexeme_ofLexeme, String.toList_ofList]
    exact hlegal
  · intro c hc
    rw [hends, hnext] at hc
    rw [Token.kind_ofLexeme, hlegal.takesIn_eq]
    exact h.stop c hc

/-- Between `front` and the token that is cut behind it stands the gap that was skipped. -/
theorem gap_ofLexeme (hp : p.offset = front.length) (hgap : gap ⊆ whiteSpace)
    (lexeme rest : List Char) :
    front.length ≤ (Token.ofLexeme (p.after gap) lexeme).begins ∧
      (front ++ (gap ++ rest)).extract front.length
        (Token.ofLexeme (p.after gap) lexeme).begins ⊆ whiteSpace := by
  rw [Token.begins_ofLexeme, Position.offset_after, hp]
  refine ⟨Nat.le_add_right _ _, ?_⟩
  simpa using hgap

/-- What is left of a text is tiled by its tokens. -/
theorem tiles_tokens (cs : List Char) (hp : p.offset = front.length) :
    ∃ tokens last, Cursor.tokens ⟨p, cs⟩ = tokens ++ [last] ∧
      Tiles (front ++ cs) front.length tokens last := by
  induction cs using reading_induction generalizing front p with
  | gap gap hgap =>
    have hoffset : (p.after gap).offset = (front ++ gap).length := by simp [hp]
    have hbefore := gap_ofLexeme hp hgap [] []
    rw [List.append_nil] at hbefore
    exact ⟨[], _, Cursor.tokens_gap p hgap, nofun, ⟨rfl, rfl, p.after gap, rfl, hoffset⟩,
      .cons hbefore .nil⟩
  | lexeme gap first tail rest hgap hmunch ih =>
    have hoffset : (p.after gap).offset = (front ++ gap).length := by simp [hp]
    have hbehind : (p.after (gap ++ first :: tail)).offset =
        (front ++ (gap ++ first :: tail)).length := by simp [hp]
    have hends : (Token.ofLexeme (p.after gap) (first :: tail)).ends =
        (front ++ (gap ++ first :: tail)).length := by
      rw [Token.ends_ofLexeme, ← Position.offset_after, ← Position.after_append, hbehind]
    have htext : front ++ (gap ++ first :: tail) ++ rest =
        front ++ (gap ++ first :: (tail ++ rest)) := by simp
    obtain ⟨hle, hbefore⟩ := gap_ofLexeme hp hgap (first :: tail) (first :: (tail ++ rest))
    have hfits := fits_ofLexeme hoffset hmunch
    rw [List.append_assoc] at hfits
    obtain ⟨tokens, last, htokens, htiles⟩ := ih hbehind
    rw [htext, ← hends] at htiles
    refine ⟨_ :: tokens, last, ?_, htiles.cons hle hbefore hfits⟩
    rw [Cursor.tokens_munch p hgap hmunch, htokens]
    rfl

end

/-- The tokens of a text, and behind them the mark of its end, tile it from its beginning. -/
theorem tokenize_tiles (source : String) :
    ∃ tokens last, tokenize source = tokens ++ [last] ∧ Tiles source.toList 0 tokens last := by
  have horigin : Position.origin.offset = ([] : List Char).length := rfl
  exact tiles_tokens source.toList horigin

end Lexis
