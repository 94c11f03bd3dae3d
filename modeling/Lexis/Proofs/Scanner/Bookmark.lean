import Mathlib.Logic.Function.Iterate
import Lexis.Session
import Lexis.Proofs.Cursor.Reading

/-!
# Reading with backtracking is moving an index

A reader that backtracks keeps scanners, which carry a token and a cursor. `Bookmarks` keeps nothing
but indices into the token stream and moves them by arithmetic. `run_refines_bookmarks` says that
the two are the same in every run: the scanners are those at the indices (`Scanner.nth`), the tokens
they show are those of the stream, and they advance as often. It rests on one move
(`Bookmarks.move_place`), and that on what is known of the scanner at an index: which token it is
on (`getElem?_tokens`), that it is at the end exactly at the last index (`atEnd_nth_iff`), and that
it stays there (`advance_of_atEnd`).
-/

namespace Lexis

/-- An index into a token stream, and the indices saved to come back to, the last saved one
first. -/
structure Bookmarks where
  index : Nat
  saved : List Nat
  deriving DecidableEq, Repr

namespace Bookmarks

/-- The first token, with nothing saved. -/
def start : Bookmarks := ⟨0, []⟩

/-- Makes a move in a stream whose last index is `last`. -/
def move (last : Nat) (b : Bookmarks) : Move → Bookmarks
  | .current => b
  | .advance => { b with index := min (b.index + 1) last }
  | .drain => { b with index := last }
  | .save => { b with saved := b.index :: b.saved }
  | .restore =>
    match b.saved with
    | [] => b
    | i :: saved => ⟨i, saved⟩
  | .swap =>
    match b.saved with
    | [] => b
    | i :: saved => ⟨i, b.index :: saved⟩

/-- How many times a move advances. -/
def advances (last : Nat) (b : Bookmarks) : Move → Nat
  | .advance => 1
  | .drain => last - b.index
  | .current | .save | .restore | .swap => 0

/-- All indices are indices of the stream. -/
structure Within (b : Bookmarks) (last : Nat) : Prop where
  index_le : b.index ≤ last
  saved_le : ∀ i ∈ b.saved, i ≤ last

/-- At the start the index is in the stream, and none is saved. -/
theorem within_start (last : Nat) : start.Within last := ⟨Nat.zero_le _, nofun⟩

/-- No move leaves the stream. -/
theorem Within.move {b : Bookmarks} {last : Nat} (h : b.Within last) (m : Move) :
    (b.move last m).Within last := by
  obtain ⟨index, saved⟩ := b
  obtain ⟨hindex, hsaved⟩ := h
  cases m with
  | current => exact ⟨hindex, hsaved⟩
  | advance => exact ⟨Nat.min_le_right _ _, hsaved⟩
  | drain => exact ⟨Nat.le_refl _, hsaved⟩
  | save => exact ⟨hindex, List.forall_mem_cons.2 ⟨hindex, hsaved⟩⟩
  | restore =>
    cases saved with
    | nil => exact ⟨hindex, hsaved⟩
    | cons i saved =>
      obtain ⟨hi, hsaved⟩ := List.forall_mem_cons.1 hsaved
      exact ⟨hi, hsaved⟩
  | swap =>
    cases saved with
    | nil => exact ⟨hindex, hsaved⟩
    | cons i saved =>
      obtain ⟨hi, hsaved⟩ := List.forall_mem_cons.1 hsaved
      exact ⟨hi, List.forall_mem_cons.2 ⟨hindex, hsaved⟩⟩

end Bookmarks

/-! ## The scanner at an index -/

namespace Scanner

/-- A scanner is at the end exactly when nothing but white space was left to be read. -/
theorem atEnd_ofCursor_iff {c : Cursor} : (ofCursor c).atEnd ↔ c.rest ⊆ whiteSpace := by
  obtain ⟨p, cs⟩ := c
  rcases exists_gap cs with hgap | ⟨gap, first, behind, rfl, hgap, hfirst⟩
  · refine iff_of_true ?_ hgap
    rw [ofCursor, Cursor.next_gap p hgap]
    rfl
  · obtain ⟨tail, rest, rfl, hmunch⟩ := exists_munch hfirst behind
    refine iff_of_false ?_ ?_
    · rw [ofCursor, Cursor.next_munch p hgap hmunch]
      exact fun hend => hmunch.kind_ne_endOfStream (of_decide_eq_true hend)
    · intro hall
      have hmem := hall (List.mem_append_right gap List.mem_cons_self)
      exact not_mem_whiteSpace_of_isSpace hfirst hmem

/-- At the end of the text a scanner stays as it is. -/
theorem advance_of_atEnd {c : Cursor} (h : (ofCursor c).atEnd) :
    (ofCursor c).advance = ofCursor c := by
  obtain ⟨p, cs⟩ := c
  rw [ofCursor, Cursor.next_gap p (atEnd_ofCursor_iff.1 h), advance, ofCursor,
    Cursor.next_gap _ (List.nil_subset _)]
  rfl

/-- The scanner after `k` advances from the first token at or behind `c`. -/
def nth (c : Cursor) (k : Nat) : Scanner := advance^[k] (ofCursor c)

/-- The scanner after one advance more. -/
theorem nth_succ (c : Cursor) (k : Nat) : nth c (k + 1) = (nth c k).advance :=
  Function.iterate_succ_apply' _ _ _

/-- Going on from the first token is going on from the cursor behind it. -/
theorem nth_cursor (c : Cursor) (k : Nat) : nth (ofCursor c).cursor k = nth c (k + 1) := rfl

/-- After any number of advances a scanner is at the first token of some cursor. -/
theorem exists_nth_eq_ofCursor (c : Cursor) (k : Nat) : ∃ c', nth c k = ofCursor c' := by
  cases k with
  | zero => exact ⟨c, rfl⟩
  | succ k => exact ⟨(nth c k).cursor, nth_succ c k⟩

end Scanner

/-- The last index of the token stream from `c` on. -/
def Cursor.last (c : Cursor) : Nat := c.tokens.length - 1

/-- The indices of the stream begin at zero, so there is one token more than the last one. -/
theorem Cursor.length_tokens (c : Cursor) : c.tokens.length = c.last + 1 := by
  have hpos := List.length_pos_iff.2 c.tokens_ne_nil
  rw [last]
  omega

namespace Scanner

/-- A scanner at the end has read the last token. -/
theorem tokens_of_atEnd {c : Cursor} (h : (ofCursor c).atEnd) :
    c.tokens = [(ofCursor c).token] := by
  obtain ⟨p, cs⟩ := c
  have hgap := atEnd_ofCursor_iff.1 h
  rw [Cursor.tokens_gap p hgap, ofCursor, Cursor.next_gap p hgap]

/-- A scanner that is not at the end has read the first token, and its cursor is in front of the
others. -/
theorem tokens_of_not_atEnd {c : Cursor} (h : ¬ (ofCursor c).atEnd) :
    c.tokens = (ofCursor c).token :: (ofCursor c).cursor.tokens := by
  have hrest : c.skipSpace.rest ≠ [] := mt atEnd_ofCursor_of_rest h
  rw [Cursor.tokens, if_neg hrest]
  rfl

/-- At the end of the text there is one token left. -/
theorem last_of_atEnd {c : Cursor} (h : (ofCursor c).atEnd) : c.last = 0 := by
  rw [Cursor.last, tokens_of_atEnd h]
  rfl

/-- In front of the end of the text there is one token more than behind the first one. -/
theorem last_of_not_atEnd {c : Cursor} (h : ¬ (ofCursor c).atEnd) :
    c.last = (ofCursor c).cursor.last + 1 := by
  rw [Cursor.last, tokens_of_not_atEnd h, List.length_cons, Cursor.length_tokens]
  rfl

/-- The scanner at an index is on the token at that index. -/
theorem getElem?_tokens {c : Cursor} {k : Nat} (h : k ≤ c.last) :
    c.tokens[k]? = some (nth c k).token := by
  induction k generalizing c with
  | zero =>
    by_cases hend : (ofCursor c).atEnd
    · rw [tokens_of_atEnd hend]
      rfl
    · rw [tokens_of_not_atEnd hend]
      rfl
  | succ k ih =>
    by_cases hend : (ofCursor c).atEnd
    · rw [last_of_atEnd hend] at h
      omega
    · rw [last_of_not_atEnd hend] at h
      rw [tokens_of_not_atEnd hend, List.getElem?_cons_succ, ih (by omega), nth_cursor]

/-- Of the scanners at the indices, that at the last index is at the end, and no other. -/
theorem atEnd_nth_iff {c : Cursor} {k : Nat} (h : k ≤ c.last) : (nth c k).atEnd ↔ k = c.last := by
  induction k generalizing c with
  | zero =>
    by_cases hend : (ofCursor c).atEnd
    · exact iff_of_true hend (last_of_atEnd hend).symm
    · have hlast := last_of_not_atEnd hend
      exact iff_of_false hend (by omega)
  | succ k ih =>
    by_cases hend : (ofCursor c).atEnd
    · rw [last_of_atEnd hend] at h
      omega
    · have hlast := last_of_not_atEnd hend
      rw [← nth_cursor, ih (by omega)]
      omega

/-- Advancing moves the index on by one, but not past the last one. -/
theorem advance_nth {c : Cursor} {k : Nat} (h : k ≤ c.last) :
    (nth c k).advance = nth c (min (k + 1) c.last) := by
  by_cases hk : k = c.last
  · have hend := (atEnd_nth_iff h).2 hk
    obtain ⟨c', hc'⟩ := exists_nth_eq_ofCursor c k
    have hmin : min (k + 1) c.last = k := by omega
    rw [hmin, hc']
    rw [hc'] at hend
    exact advance_of_atEnd hend
  · have hmin : min (k + 1) c.last = k + 1 := by omega
    rw [hmin, nth_succ]

/-- Draining moves the index to the last one, by one advance for each index on the way. -/
theorem drain_nth {c : Cursor} {k : Nat} (h : k ≤ c.last) :
    (nth c k).drain = (nth c c.last, c.last - k) := by
  obtain ⟨n, hn⟩ := Nat.exists_eq_add_of_le h
  induction n generalizing k with
  | zero =>
    have hk : k = c.last := hn.symm
    rw [drain, if_pos ((atEnd_nth_iff h).2 hk), hk, Nat.sub_self]
  | succ n ih =>
    have hk : k ≠ c.last := by omega
    have hadvance : (nth c k).advance = nth c (k + 1) := (nth_succ c k).symm
    rw [drain, if_neg (mt (atEnd_nth_iff h).1 hk), hadvance, ih (by omega) (by omega)]
    have hcount : c.last - (k + 1) + 1 = c.last - k := by omega
    simp only [hcount]

end Scanner

/-! ## One move, and a run of moves -/

namespace Bookmarks

/-- The reader whose scanners are at the indices. -/
def place (c : Cursor) (b : Bookmarks) : Backtracker :=
  ⟨Scanner.nth c b.index, b.saved.map (Scanner.nth c)⟩

/-- A move of the reader is the move of its indices. -/
theorem move_place {c : Cursor} {b : Bookmarks} (h : b.Within c.last) (m : Move) :
    (b.place c).move m = (b.move c.last m).place c := by
  obtain ⟨index, saved⟩ := b
  cases m with
  | current | save => rfl
  | advance =>
    rw [place, Backtracker.move, Scanner.advance_nth h.index_le]
    rfl
  | drain =>
    rw [place, Backtracker.move, Scanner.drain_nth h.index_le]
    rfl
  | restore | swap => cases saved <;> rfl

/-- A reader advances as often as its indices say. -/
theorem advances_place {c : Cursor} {b : Bookmarks} (h : b.Within c.last) (m : Move) :
    (b.place c).advances m = b.advances c.last m := by
  cases m with
  | drain =>
    rw [place, Backtracker.advances, Scanner.drain_nth h.index_le]
    rfl
  | current | advance | save | restore | swap => rfl

/-- The indices after a run of moves. -/
def run (last : Nat) (moves : List Move) : Bookmarks := moves.foldl (move last) start

/-- No run of moves leaves the stream. -/
theorem Within.foldl {b : Bookmarks} {last : Nat} (h : b.Within last) (moves : List Move) :
    (moves.foldl (Bookmarks.move last) b).Within last := by
  induction moves generalizing b with
  | nil => exact h
  | cons m moves ih => exact ih (h.move m)

/-- A run of moves of the reader is the run of its indices. -/
theorem foldl_place {c : Cursor} {b : Bookmarks} (h : b.Within c.last) (moves : List Move) :
    moves.foldl Backtracker.move (b.place c) = (moves.foldl (move c.last) b).place c := by
  induction moves generalizing b with
  | nil => rfl
  | cons m moves ih => rw [List.foldl_cons, List.foldl_cons, move_place h, ih (h.move m)]

end Bookmarks

/-- The reader of a text after a run of moves. -/
def Backtracker.run (source : String) (moves : List Move) : Backtracker :=
  moves.foldl move (ofString source)

/-- In every run of moves a reader that backtracks is an index into the token stream with a stack of
indices: its scanners are those at the indices, the current token is the one at the index, which is
the last exactly at the end of the text, there are as many saved scanners as saved indices, and the
next move advances as often as the index says. -/
theorem run_refines_bookmarks (source : String) (moves : List Move) :
    let tokens := tokenize source
    let last := tokens.length - 1
    let reader := Backtracker.run source moves
    let bookmarks := Bookmarks.run last moves
    reader = bookmarks.place (.ofString source) ∧
      tokens[bookmarks.index]? = some reader.scanner.token ∧
      (reader.scanner.atEnd ↔ bookmarks.index = last) ∧
      reader.saved.length = bookmarks.saved.length ∧
      ∀ m, reader.advances m = bookmarks.advances last m := by
  intro tokens last reader bookmarks
  have hstart := Bookmarks.within_start last
  have hwithin : bookmarks.Within last := hstart.foldl moves
  have hreader : reader = bookmarks.place (.ofString source) := Bookmarks.foldl_place hstart moves
  refine ⟨hreader, ?_, ?_, ?_, ?_⟩
  · rw [hreader]
    exact Scanner.getElem?_tokens hwithin.index_le
  · rw [hreader]
    exact Scanner.atEnd_nth_iff hwithin.index_le
  · rw [hreader]
    exact List.length_map _
  · intro m
    rw [hreader]
    exact Bookmarks.advances_place hwithin m

-- A clone that is gone back to after the scanner was drained, and swapped with one further on.
example : let reader := Backtracker.run "a,-1" [.advance, .save, .drain, .advance, .swap]
    (reader.scanner.token.lexeme, reader.saved.map (·.token.kind), reader.advances .drain) =
      (",", [.endOfStream], 2) := by
  decide +kernel

end Lexis
