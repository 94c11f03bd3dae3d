import Mathlib.Data.List.Chain
import Lexis.Proofs.Cursor.Reading

/-!
# Printing tokens and reading them back

A layout is a list of lexemes, each legal for its kind and each behind a gap that may be empty, with
a gap behind them all. `tokenize_print_iff` says which layouts read back as the tokens they were
made of: those in which no lexeme stands directly behind one that takes in its first character
(`Item.MergesWith`). The two directions are one induction along the layout. Where the next item
does not merge, the cut is where it was (`Item.munch_iff`) and reading goes on behind it; where it
does, the lexeme that is read is longer than the one that was printed.
-/

namespace Lexis

/-- White space that is printed between tokens, at the beginning and at the end. -/
structure Gap where
  text : String
  blank : text.toList ⊆ whiteSpace

/-- A lexeme to be printed, and the gap in front of it. -/
structure Item where
  gap : Gap
  kind : TokenKind
  lexeme : String
  legal : Lexeme.Legal kind lexeme.toList

/-- The text of a layout: the items in order, and `trailing` behind them. -/
def Item.print : List Item → Gap → String
  | [], trailing => trailing.text
  | item :: items, trailing => item.gap.text ++ item.lexeme ++ print items trailing

/-- Nothing stands between two items, and a token of the first one's kind takes in the first
character of the second. -/
def Item.MergesWith (left right : Item) : Prop :=
  right.gap.text = "" ∧ ∃ c ∈ right.lexeme.toList.head?, left.kind.takesIn c

/-- The kind and the lexeme of a token, without its location. -/
def Token.content (t : Token) : TokenKind × String := (t.kind, t.lexeme)

/-- What an item is to be read back as. -/
def Item.content (item : Item) : TokenKind × String := (item.kind, item.lexeme)

namespace Item

/-- A layout begins with a gap and a lexeme. -/
theorem exists_print_cons (item : Item) (items : List Item) (trailing : Gap) :
    ∃ first tail, item.lexeme.toList = first :: tail ∧
      (print (item :: items) trailing).toList =
        item.gap.text.toList ++ first :: (tail ++ (print items trailing).toList) := by
  obtain ⟨first, tail, heq⟩ := item.legal.exists_cons
  refine ⟨first, tail, heq, ?_⟩
  simp [print, heq]

/-- The first character of white space is white space. -/
theorem isContinuedBy_head?_gap (first : Char) {gap : List Char} (hgap : gap ⊆ whiteSpace) :
    ∀ c ∈ gap.head?, isContinuedBy first c = false := by
  intro c hc
  have hmem : c ∈ whiteSpace := hgap (List.mem_of_mem_head? hc)
  exact isContinuedBy_eq_false_of_isSpace (isSpace_iff_mem.2 hmem)

/-- A lexeme ends in front of the rest of the layout unless the next item merges with it. -/
theorem stop_iff {item : Item} {first : Char} {tail : List Char}
    (heq : item.lexeme.toList = first :: tail) (items : List Item) (trailing : Gap) :
    (∀ c ∈ (print items trailing).toList.head?, isContinuedBy first c = false) ↔
      ∀ next ∈ items.head?, ¬ item.MergesWith next := by
  have hlegal := item.legal
  rw [heq] at hlegal
  cases items with
  | nil => exact iff_of_true (isContinuedBy_head?_gap first trailing.blank) nofun
  | cons next items =>
    obtain ⟨first', tail', heq', hprint⟩ := exists_print_cons next items trailing
    rw [hprint]
    cases hgap : next.gap.text.toList with
    | nil =>
      have hempty : next.gap.text = "" := String.toList_eq_nil_iff.1 hgap
      simp [MergesWith, hempty, heq', hlegal.takesIn_eq]
    | cons c cs =>
      have hne : next.gap.text ≠ "" := by
        intro h
        rw [h] at hgap
        cases hgap
      have hstop := isContinuedBy_head?_gap first next.gap.blank
      rw [hgap] at hstop
      refine iff_of_true hstop ?_
      intro right hright
      cases hright
      intro hmerges
      exact hne hmerges.1

end Item

open Item in
/-- What is read of a layout is what was printed, exactly when no item merges with the next. -/
theorem tokens_print_iff (items : List Item) (trailing : Gap) (p : Position) :
    (Cursor.tokens ⟨p, (print items trailing).toList⟩).map Token.content =
        items.map Item.content ++ [(.endOfStream, "")] ↔
      items.IsChain fun left right => ¬ left.MergesWith right := by
  induction items generalizing p with
  | nil =>
    rw [print, Cursor.tokens_gap p trailing.blank]
    exact iff_of_true rfl .nil
  | cons item items ih =>
    obtain ⟨first, tail, heq, hprint⟩ := exists_print_cons item items trailing
    have hlegal := item.legal
    rw [heq] at hlegal
    obtain ⟨hspace, hrun, hkind⟩ := hlegal.read
    rw [List.isChain_cons, ← stop_iff heq items trailing, hprint]
    by_cases hstop : ∀ c ∈ (print items trailing).toList.head?, isContinuedBy first c = false
    · have hcontent : (Token.ofLexeme (p.after item.gap.text.toList) (first :: tail)).content =
          item.content := by
        rw [Token.content, Item.content, Token.kind_ofLexeme, Token.lexeme_ofLexeme, hkind, ← heq,
          String.ofList_toList]
      rw [Cursor.tokens_munch p item.gap.blank ⟨hspace, hrun, hstop⟩, List.map_cons, List.map_cons,
        List.cons_append, hcontent, List.cons_inj_right, ih]
      exact (and_iff_right hstop).symm
    · refine iff_of_false (fun h => hstop ?_) (fun h => hstop h.1)
      -- The lexeme that is read would have to be the printed one, and would end where it ends.
      obtain ⟨tail', rest, hcut, hmunch⟩ :=
        exists_munch hspace (tail ++ (print items trailing).toList)
      rw [hcut, Cursor.tokens_munch p item.gap.blank hmunch] at h
      have hlexeme : String.ofList (first :: tail') = item.lexeme :=
        congrArg Prod.snd (List.cons.inj h).1
      rw [← String.toList_inj, String.toList_ofList, heq] at hlexeme
      obtain rfl := (List.cons.inj hlexeme).2
      rw [List.append_cancel_left hcut]
      exact hmunch.stop

/-- A layout reads back as the tokens it was made of, and the end of the text, exactly when there
are no two neighbours of which the second merges with the first. -/
theorem tokenize_print_iff (items : List Item) (trailing : Gap) :
    (tokenize (Item.print items trailing)).map Token.content =
        items.map Item.content ++ [(.endOfStream, "")] ↔
      ¬ ∃ before left right after, items = before ++ left :: right :: after ∧
        left.MergesWith right := by
  rw [tokenize, Cursor.ofString, tokens_print_iff,
    List.isChain_iff_forall_rel_of_append_cons_cons]
  constructor
  · rintro h ⟨before, left, right, after, heq, hmerges⟩
    exact h heq hmerges
  · intro h left right before after heq hmerges
    exact h ⟨before, left, right, after, heq, hmerges⟩

-- An integer in front of a letter, a letter in front of a sign and a sign in front of a sign need
-- no gap between them.
example : (tokenize "12ab--2").map Token.content = [(.literalInt, "12"), (.lowerIdentifier, "ab"),
    (.minus, "-"), (.literalInt, "-2"), (.endOfStream, "")] := by decide +kernel

end Lexis
