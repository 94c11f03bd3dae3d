import Lexis.Location

/-!
# Merging any two locations

Locations need not come from a text: a span may end before it begins, and positions may share an
offset but not a line or a column. `merge_outcome` says what merging does with any two of them. It
fails exactly for two different spans that both end in front of both of their starts
(`Location.Inverts`), in either order, and tells the two offsets that are in the wrong order;
otherwise it gives the location itself or a span made of positions of the two.
`merge_ties` says which of these positions it takes where two have the same offset, in the two
cases where this can be seen: when the second location absorbs the first, and when the order of the
two makes no difference.
-/

namespace Lexis

namespace Location

/-- The locations are different spans, and both of them end in front of where either begins. -/
def Inverts (a b : Location) : Prop :=
  ∃ s t, a = .range s ∧ b = .range t ∧ s ≠ t ∧
    max s.stop.offset t.stop.offset < min s.start.offset t.start.offset

/-- A point, or a span that does not end before it begins. -/
def WellFormed : Location → Prop
  | .point _ => True
  | .range s => s.start.offset ≤ s.stop.offset

/-- Both locations are points, or both are spans. -/
def SameShape : Location → Location → Prop
  | .point _, .point _ | .range _, .range _ => True
  | .point _, .range _ | .range _, .point _ => False

end Location

/-- The span goes from one of the starts of the locations, that with the smaller offset, to one of
their ends, that with the larger offset, and does not end before it begins. -/
structure Span.Covers (span : Span) (a b : Location) : Prop where
  start_le_stop : span.start.offset ≤ span.stop.offset
  start_eq : span.start = a.start ∨ span.start = b.start
  offset_start : span.start.offset = min a.start.offset b.start.offset
  stop_eq : span.stop = a.stop ∨ span.stop = b.stop
  offset_stop : span.stop.offset = max a.stop.offset b.stop.offset

/-! ## Between two positions -/

namespace Position

/-- The earlier of two positions is one of them. -/
theorem earlier_eq_or (a b : Position) : a.earlier b = a ∨ a.earlier b = b := by
  unfold earlier
  split
  · exact .inl rfl
  · exact .inr rfl

/-- The later of two positions is one of them. -/
theorem later_eq_or (a b : Position) : a.later b = a ∨ a.later b = b := by
  unfold later
  split
  · exact .inl rfl
  · exact .inr rfl

/-- The earlier position has the smaller offset. -/
theorem offset_earlier (a b : Position) : (a.earlier b).offset = min a.offset b.offset := by
  unfold earlier
  split <;> omega

/-- The later position has the larger offset. -/
theorem offset_later (a b : Position) : (a.later b).offset = max a.offset b.offset := by
  unfold later
  split <;> omega

end Position

section
variable {start stop : Position}

/-- A range between two positions is made exactly when they are in the right order. -/
theorem Location.range_between_eq_ok_iff {l : Location} :
    Location.range <$> Span.between start stop = .ok l ↔
      start.offset ≤ stop.offset ∧ l = .range ⟨start, stop⟩ := by
  rw [Span.between]
  split
  · next hle =>
    constructor
    · intro h
      cases h
      exact ⟨hle, rfl⟩
    · rintro ⟨-, rfl⟩
      rfl
  · next hlt =>
    refine iff_of_false ?_ fun h => hlt h.1
    intro h
    cases h

/-- A range between two positions fails exactly when they are in the wrong order, and tells both
offsets. -/
theorem Location.range_between_eq_error_iff {e : InvertedSpan} :
    Location.range <$> Span.between start stop = .error e ↔
      stop.offset < start.offset ∧ e = ⟨start.offset, stop.offset⟩ := by
  rw [Span.between]
  split
  · next hle =>
    refine iff_of_false ?_ fun h => Nat.not_lt_of_le hle h.1
    intro h
    cases h
  · next hlt =>
    constructor
    · intro h
      cases h
      exact ⟨Nat.lt_of_not_le hlt, rfl⟩
    · rintro ⟨-, rfl⟩
      rfl

end

namespace Location

variable {a b : Location}

/-! ## What merging gives -/

/-- Equal locations are merged before any offset is looked at. -/
theorem merge_self (a : Location) : a.merge a = .ok a := if_pos rfl

/-- The merge of two different locations is the span from one of their starts, that with the smaller
offset, to one of their ends, that with the larger offset. -/
theorem merge_of_ne (h : a ≠ b) :
    ∃ start stop, a.merge b = Location.range <$> Span.between start stop ∧
      (start = a.start ∨ start = b.start) ∧ start.offset = min a.start.offset b.start.offset ∧
      (stop = a.stop ∨ stop = b.stop) ∧ stop.offset = max a.stop.offset b.stop.offset := by
  cases a with
  | point p =>
    cases b with
    | point q | range s =>
      exact ⟨_, _, if_neg h, Position.earlier_eq_or _ _, Position.offset_earlier _ _,
        Position.later_eq_or _ _, Position.offset_later _ _⟩
  | range s =>
    cases b with
    | point q =>
      -- The point is asked first, on whichever side it stands.
      refine ⟨_, _, if_neg h, (Position.earlier_eq_or _ _).symm, ?_,
        (Position.later_eq_or _ _).symm, ?_⟩
      · rw [Position.offset_earlier, Nat.min_comm]
        rfl
      · rw [Position.offset_later, Nat.max_comm]
        rfl
    | range t =>
      exact ⟨_, _, if_neg h, Position.earlier_eq_or _ _, Position.offset_earlier _ _,
        Position.later_eq_or _ _, Position.offset_later _ _⟩

/-- A location is well-formed exactly when it ends no earlier than it begins, as every point does.
-/
theorem wellFormed_iff : a.WellFormed ↔ a.start.offset ≤ a.stop.offset := by
  cases a with
  | point p => exact iff_of_true trivial (Nat.le_refl _)
  | range s => exact Iff.rfl

/-- Only spans end before they begin, so the shapes need not be asked for. -/
theorem inverts_iff : Inverts a b ↔
    a ≠ b ∧ max a.stop.offset b.stop.offset < min a.start.offset b.start.offset := by
  constructor
  · rintro ⟨s, t, rfl, rfl, hne, hlt⟩
    exact ⟨fun h => hne (Location.range.inj h), hlt⟩
  · rintro ⟨hne, hlt⟩
    cases a with
    | point p =>
      simp only [start, stop] at hlt
      omega
    | range s =>
      cases b with
      | point q =>
        simp only [start, stop] at hlt
        omega
      | range t => exact ⟨s, t, rfl, rfl, fun h => hne (congrArg range h), hlt⟩

/-- Whether two locations invert does not depend on their order. -/
theorem inverts_comm : Inverts a b ↔ Inverts b a := by
  rw [inverts_iff, inverts_iff, ne_comm, Nat.max_comm, Nat.min_comm]

/-- Merging fails for spans that end in front of where they begin, and for nothing else. -/
theorem merge_eq_error_iff {e : InvertedSpan} : a.merge b = .error e ↔ Inverts a b ∧
    e = ⟨min a.start.offset b.start.offset, max a.stop.offset b.stop.offset⟩ := by
  rw [inverts_iff]
  by_cases hne : a = b
  · subst hne
    rw [merge_self]
    exact iff_of_false nofun fun h => h.1.1 rfl
  · obtain ⟨start, stop, hmerge, -, hmin, -, hmax⟩ := merge_of_ne hne
    rw [hmerge, range_between_eq_error_iff, hmin, hmax]
    rw [and_iff_right hne]

/-- Merging different locations otherwise gives a span made of their positions. -/
theorem exists_merge_eq_range (hne : a ≠ b) (h : ¬ Inverts a b) :
    ∃ span, a.merge b = .ok (.range span) ∧ span.Covers a b := by
  obtain ⟨start, stop, hmerge, hstart, hmin, hstop, hmax⟩ := merge_of_ne hne
  have hle : start.offset ≤ stop.offset := by
    rw [hmin, hmax]
    exact Nat.le_of_not_lt fun hlt => h (inverts_iff.2 ⟨hne, hlt⟩)
  refine ⟨⟨start, stop⟩, ?_, hle, hstart, hmin, hstop, hmax⟩
  rw [hmerge]
  exact range_between_eq_ok_iff.2 ⟨hle, rfl⟩

/-- One location that does not end before it begins is enough for merging. -/
theorem not_inverts_of_wellFormed (h : a.WellFormed ∨ b.WellFormed) : ¬ Inverts a b := by
  rw [wellFormed_iff, wellFormed_iff] at h
  intro hinverts
  have hlt := (inverts_iff.1 hinverts).2
  omega

/-- Locations that do not invert are merged. -/
theorem exists_merge_eq_ok (h : ¬ Inverts a b) : ∃ merged, a.merge b = .ok merged := by
  cases hmerge : a.merge b with
  | ok merged => exact ⟨merged, rfl⟩
  | error e => exact absurd (merge_eq_error_iff.1 hmerge).1 h

end Location

open Location in
/-- Merging two locations fails exactly when they are different spans that both end in front of both
of their starts, in one order as in the other, and then tells the smaller start and the larger end.
Otherwise it gives the location itself if the two are equal, and if not a span that covers them: it
goes from one of their starts to one of their ends. So it never fails when one of the two is a point
or a span that does not end before it begins. -/
theorem merge_outcome (a b : Location) :
    let first := min a.start.offset b.start.offset
    let last := max a.stop.offset b.stop.offset
    (∀ e, a.merge b = .error e ↔ a.Inverts b ∧ e = ⟨first, last⟩) ∧
      (∀ e, a.merge b = .error e ↔ b.merge a = .error e) ∧
      (∀ e, a.merge b = .error e →
        e.message = "range start " ++ toString first ++ " is past its end " ++ toString last) ∧
      (a = b → a.merge b = .ok a) ∧
      (a ≠ b → ¬ a.Inverts b → ∃ span, a.merge b = .ok (.range span) ∧ span.Covers a b) ∧
      (a.WellFormed ∨ b.WellFormed → ∃ merged, a.merge b = .ok merged) := by
  intro first last
  refine ⟨fun e => merge_eq_error_iff, ?_, ?_, ?_, exists_merge_eq_range, ?_⟩
  · intro e
    rw [merge_eq_error_iff, merge_eq_error_iff, inverts_comm, Nat.max_comm, Nat.min_comm]
  · intro e he
    rw [(merge_eq_error_iff.1 he).2]
    rfl
  · rintro rfl
    exact merge_self a
  · intro h
    exact exists_merge_eq_ok (not_inverts_of_wellFormed h)

/-- Two inverted spans in both orders; the one of them with itself, and with a point. -/
theorem merge_outcome_inverted :
    let a : Location := .range ⟨⟨1, 10, 9⟩, ⟨1, 3, 2⟩⟩
    let b : Location := .range ⟨⟨1, 8, 7⟩, ⟨1, 5, 4⟩⟩
    let p : Location := .point ⟨1, 6, 5⟩
    a.Inverts b ∧ a.merge b = .error ⟨7, 4⟩ ∧ b.merge a = .error ⟨7, 4⟩ ∧ a.merge a = .ok a ∧
      p.WellFormed ∧ ∃ merged, a.merge p = .ok merged := by
  intro a b p
  have hinverts : a.Inverts b := ⟨_, _, rfl, rfl, by decide, by decide⟩
  have herror := ((merge_outcome a b).1 ⟨7, 4⟩).2 ⟨hinverts, rfl⟩
  obtain ⟨-, -, -, hself, -, -⟩ := merge_outcome a a
  obtain ⟨-, -, -, -, -, hok⟩ := merge_outcome a p
  exact ⟨hinverts, herror, ((merge_outcome a b).2.1 _).1 herror, hself rfl, trivial,
    hok (.inr trivial)⟩

/-! ## Equal offsets -/

namespace Position

variable {p q : Position}

/-- The second position is chosen as the earlier one exactly when the first has no smaller offset.
-/
theorem earlier_eq_right_iff : p.earlier q = q ↔ q.offset ≤ p.offset := by
  unfold earlier
  split
  · next hlt =>
    exact iff_of_false (fun h => absurd hlt (h ▸ Nat.lt_irrefl _)) (Nat.not_le_of_lt hlt)
  · next hge => exact iff_of_true rfl (Nat.le_of_not_lt hge)

/-- The second position is chosen as the later one exactly when the first has no larger offset. -/
theorem later_eq_right_iff : p.later q = q ↔ p.offset ≤ q.offset := by
  unfold later
  split
  · next hlt =>
    exact iff_of_false (fun h => absurd hlt (h ▸ Nat.lt_irrefl _)) (Nat.not_le_of_lt hlt)
  · next hge => exact iff_of_true rfl (Nat.le_of_not_lt hge)

/-- Of two positions with one offset the second is taken, so their order can be seen. -/
theorem earlier_comm_iff : p.earlier q = q.earlier p ↔ p = q ∨ p.offset ≠ q.offset := by
  by_cases heq : p.offset = q.offset
  · rw [earlier_eq_right_iff.2 (Nat.le_of_eq heq.symm), earlier_eq_right_iff.2 (Nat.le_of_eq heq),
      or_iff_left (not_not_intro heq), eq_comm]
  · refine iff_of_true ?_ (.inr heq)
    rcases Nat.lt_or_gt_of_ne heq with hlt | hgt
    · rw [earlier_eq_right_iff.2 (Nat.le_of_lt hlt)]
      exact if_pos hlt
    · rw [earlier_eq_right_iff.2 (Nat.le_of_lt hgt)]
      exact (if_pos hgt).symm

/-- The order of the two can be seen in the later one, too, and in the same cases. -/
theorem later_comm_iff : p.later q = q.later p ↔ p = q ∨ p.offset ≠ q.offset := by
  by_cases heq : p.offset = q.offset
  · rw [later_eq_right_iff.2 (Nat.le_of_eq heq), later_eq_right_iff.2 (Nat.le_of_eq heq.symm),
      or_iff_left (not_not_intro heq), eq_comm]
  · refine iff_of_true ?_ (.inr heq)
    rcases Nat.lt_or_gt_of_ne heq with hlt | hgt
    · rw [later_eq_right_iff.2 (Nat.le_of_lt hlt)]
      exact (if_pos hlt).symm
    · rw [later_eq_right_iff.2 (Nat.le_of_lt hgt)]
      exact if_pos hgt

end Position

namespace Location

variable {a b merged : Location}

/-- To have the same shape is symmetric. -/
theorem SameShape.symm (h : SameShape a b) : SameShape b a := by
  cases a <;> cases b <;> exact h

/-- Of two starts or ends with one offset that of the second location is taken, unless a span is
merged with a point. -/
theorem merge_eq_between (hne : a ≠ b) (h : SameShape a b ∨ ∃ t, b = .range t) :
    a.merge b =
      Location.range <$> Span.between (a.start.earlier b.start) (a.stop.later b.stop) := by
  cases a with
  | point p => cases b <;> exact if_neg hne
  | range s =>
    cases b with
    | point q =>
      rcases h with h | ⟨t, h⟩
      · cases h
      · cases h
    | range t => exact if_neg hne

/-- A point and a span are merged alike in both orders. -/
theorem merge_comm_of_not_sameShape (h : ¬ SameShape a b) : a.merge b = b.merge a := by
  cases a with
  | point p =>
    cases b with
    | point q => exact absurd trivial h
    | range t => rw [merge, merge, if_neg nofun, if_neg nofun]
  | range s =>
    cases b with
    | point q => rw [merge, merge, if_neg nofun, if_neg nofun]
    | range t => exact absurd trivial h

/-- The merge is the second location when that is a span which contains the first by offsets,
whatever the lines and columns are. -/
theorem merge_eq_right_iff (h : a.merge b = .ok merged) : a.merge b = .ok b ↔
    a = b ∨ ∃ t, b = .range t ∧ t.start.offset ≤ a.start.offset ∧
      a.stop.offset ≤ t.stop.offset := by
  by_cases hne : a = b
  · subst hne
    exact iff_of_true (merge_self a) (.inl rfl)
  rw [or_iff_right hne]
  cases b with
  | point q =>
    obtain ⟨start, stop, hmerge, -⟩ := merge_of_ne hne
    rw [hmerge, range_between_eq_ok_iff]
    exact iff_of_false (fun h => Location.noConfusion h.2) nofun
  | range t =>
    have hmerge := merge_eq_between hne (.inr ⟨t, rfl⟩)
    rw [hmerge, range_between_eq_ok_iff] at h
    have hstart : a.start.earlier t.start = t.start ↔ t.start.offset ≤ a.start.offset :=
      Position.earlier_eq_right_iff
    have hstop : a.stop.later t.stop = t.stop ↔ a.stop.offset ≤ t.stop.offset :=
      Position.later_eq_right_iff
    have hspan : (⟨a.start.earlier t.start, a.stop.later t.stop⟩ : Span) = t ↔
        a.start.earlier t.start = t.start ∧ a.stop.later t.stop = t.stop := by
      cases t
      rw [Span.mk.injEq]
    rw [hmerge, range_between_eq_ok_iff, and_iff_right h.1, range.injEq, eq_comm]
    simp only [range.injEq, exists_eq_left']
    exact hspan.trans (and_congr hstart hstop)

/-- The order of two locations of one shape can be seen where their starts or their ends are
different but have the same offset. -/
theorem merge_comm_iff (h : a.merge b = .ok merged) : a.merge b = b.merge a ↔ ¬ SameShape a b ∨
    (a.start = b.start ∨ a.start.offset ≠ b.start.offset) ∧
      (a.stop = b.stop ∨ a.stop.offset ≠ b.stop.offset) := by
  by_cases hne : a = b
  · subst hne
    exact iff_of_true rfl (.inr ⟨.inl rfl, .inl rfl⟩)
  by_cases hshape : SameShape a b
  · have hab := merge_eq_between hne (.inl hshape)
    have hba := merge_eq_between (Ne.symm hne) (.inl hshape.symm)
    rw [hab, range_between_eq_ok_iff] at h
    have hle := h.1
    rw [Position.offset_earlier, Position.offset_later] at hle
    have hle' : (b.start.earlier a.start).offset ≤ (b.stop.later a.stop).offset := by
      rw [Position.offset_earlier, Position.offset_later]
      omega
    rw [hab, hba, range_between_eq_ok_iff.2 ⟨h.1, rfl⟩, range_between_eq_ok_iff.2 ⟨hle', rfl⟩,
      or_iff_right (not_not_intro hshape), Except.ok.injEq, range.injEq, Span.mk.injEq,
      Position.earlier_comm_iff, Position.later_comm_iff]
  · exact iff_of_true (merge_comm_of_not_sameShape hshape) (.inl hshape)

end Location

/-- Where merging does not fail, it gives the second location exactly when the two are equal or the
second is a span which contains the first by offsets. The order of the two makes no difference
exactly when one is a point and the other a span, or both the two starts and the two ends are equal
or have different offsets. Lines and columns play no part in either. -/
theorem merge_ties {a b merged : Location} (h : a.merge b = .ok merged) :
    (a.merge b = .ok b ↔ a = b ∨ ∃ t, b = .range t ∧ t.start.offset ≤ a.start.offset ∧
        a.stop.offset ≤ t.stop.offset) ∧
      (a.merge b = b.merge a ↔ ¬ a.SameShape b ∨
        (a.start = b.start ∨ a.start.offset ≠ b.start.offset) ∧
          (a.stop = b.stop ∨ a.stop.offset ≠ b.stop.offset)) :=
  ⟨Location.merge_eq_right_iff h, Location.merge_comm_iff h⟩

/-- Two spans whose starts have one offset on different lines: each absorbs the other. -/
theorem merge_ties_other_line :
    let a : Location := .range ⟨⟨1, 3, 2⟩, ⟨1, 5, 4⟩⟩
    let b : Location := .range ⟨⟨2, 1, 2⟩, ⟨1, 5, 4⟩⟩
    a.merge b = .ok b ∧ b.merge a = .ok a ∧ a.merge b ≠ b.merge a := by
  intro a b
  have hab : a.merge b = .ok b := rfl
  have hba : b.merge a = .ok a := rfl
  have habsorbs := (merge_ties hab).1.2 (.inr ⟨_, rfl, by decide, by decide⟩)
  have habsorbs' := (merge_ties hba).1.2 (.inr ⟨_, rfl, by decide, by decide⟩)
  refine ⟨habsorbs, habsorbs', mt (merge_ties hab).2.1 ?_⟩
  rintro (hshape | ⟨hstart | hstart, -⟩)
  · exact hshape trivial
  · cases hstart
  · exact hstart rfl

end Lexis
