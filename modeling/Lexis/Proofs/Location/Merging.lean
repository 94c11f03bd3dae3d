import Lexis.Proofs.Location.Pairs

/-!
# Merging many locations

Locations are merged two at a time, so several of them can be merged in many ways: a `MergeTree` is
one of them. `exists_mergesTo` says that for locations of one text the way makes no difference.
Merging never fails and gives the location that covers them all, which their order, their grouping
and their repetition do not change. What a tree comes to is the hull of its leaves
(`MergeTree.exists_eval_eq`), since the merge of two hulls is a hull (`IsHull.merge`), and where a
place is told by its offset there is only one hull (`IsHull.unique`).
-/

namespace Lexis

/-! ## First and last positions -/

/-- The position is one of the given ones, and its offset is related to those of all of them. -/
structure IsExtreme (rel : Nat → Nat → Prop) (positions : List Position) (p : Position) : Prop where
  mem : p ∈ positions
  rel_of_mem : ∀ q ∈ positions, rel p.offset q.offset

/-- None of the positions has a smaller offset. -/
abbrev IsFirst : List Position → Position → Prop := IsExtreme (· ≤ ·)

/-- None of the positions has a larger offset. -/
abbrev IsLast : List Position → Position → Prop := IsExtreme (· ≥ ·)

namespace IsExtreme

variable {rel : Nat → Nat → Prop} {ps qs : List Position} {p q r : Position}

/-- Of the extremes of two lists, the one that is related to both is that of the lists together. -/
theorem append (htrans : ∀ {i j k : Nat}, rel i j → rel j k → rel i k) (hp : IsExtreme rel ps p)
    (hq : IsExtreme rel qs q) (hr : r = p ∨ r = q) (hrp : rel r.offset p.offset)
    (hrq : rel r.offset q.offset) : IsExtreme rel (ps ++ qs) r := by
  refine ⟨?_, List.forall_mem_append.2 ⟨?_, ?_⟩⟩
  · rcases hr with rfl | rfl
    · exact List.mem_append_left _ hp.mem
    · exact List.mem_append_right _ hq.mem
  · intro s hs
    exact htrans hrp (hp.rel_of_mem s hs)
  · intro s hs
    exact htrans hrq (hq.rel_of_mem s hs)

/-- Which positions there are decides the extreme one, whatever their order and number. -/
theorem congr (h : IsExtreme rel ps p) (hmem : ∀ q, q ∈ ps ↔ q ∈ qs) : IsExtreme rel qs p :=
  ⟨(hmem p).1 h.mem, fun q hq => h.rel_of_mem q ((hmem q).2 hq)⟩

end IsExtreme

/-! ## Hulls -/

/-- The locations stand in one text: none ends before it begins, and where any of them begins or
ends the offset tells the position. -/
structure Coherent (locations : List Location) : Prop where
  ordered : ∀ l ∈ locations, l.start.offset ≤ l.stop.offset
  position_eq : ∀ p ∈ locations.map Location.start ++ locations.map Location.stop,
    ∀ q ∈ locations.map Location.start ++ locations.map Location.stop, p.offset = q.offset → p = q

/-- The location covers the given ones and no more: it begins with the first of them and ends with
the last of them, and it is a point only when they are all that point. -/
structure IsHull (locations : List Location) (hull : Location) : Prop where
  start : IsFirst (locations.map Location.start) hull.start
  stop : IsLast (locations.map Location.stop) hull.stop
  point_iff : ∀ p, hull = .point p ↔ ∀ l ∈ locations, l = .point p

namespace IsHull

variable {as bs : List Location} {a b : Location}

/-- A single location is its own hull. -/
theorem singleton (l : Location) : IsHull [l] l where
  start := ⟨List.mem_singleton_self _, by simp⟩
  stop := ⟨List.mem_singleton_self _, by simp⟩
  point_iff := by simp

/-- The hull depends on which locations there are, not on their order and number. -/
theorem congr (h : IsHull as a) (hmem : ∀ l, l ∈ as ↔ l ∈ bs) : IsHull bs a := by
  refine ⟨h.start.congr ?_, h.stop.congr ?_, ?_⟩
  · intro p
    simp only [List.mem_map, hmem]
  · intro p
    simp only [List.mem_map, hmem]
  · intro p
    simp only [h.point_iff, hmem]

/-- The hull of locations that do not end before they begin does not either. -/
theorem start_le_stop (h : IsHull as a) (hordered : ∀ l ∈ as, l.start.offset ≤ l.stop.offset) :
    a.start.offset ≤ a.stop.offset := by
  obtain ⟨l, hl, hstart⟩ := List.mem_map.1 h.start.mem
  have hle := hordered l hl
  have hstop := h.stop.rel_of_mem l.stop (List.mem_map_of_mem hl)
  rw [← hstart]
  omega

/-- The merge of two hulls does not fail, and is the hull of all that they cover. -/
theorem merge (ha : IsHull as a) (hb : IsHull bs b) (hordered : a.start.offset ≤ a.stop.offset) :
    ∃ merged, a.merge b = .ok merged ∧ IsHull (as ++ bs) merged := by
  by_cases hab : a = b
  · subst hab
    refine ⟨a, if_pos rfl, ?_, ?_, ?_⟩
    · rw [List.map_append]
      exact ha.start.append Nat.le_trans hb.start (.inl rfl) (Nat.le_refl _) (Nat.le_refl _)
    · rw [List.map_append]
      exact ha.stop.append (flip Nat.le_trans) hb.stop (.inl rfl) (Nat.le_refl _) (Nat.le_refl _)
    · intro p
      rw [List.forall_mem_append, ← ha.point_iff, ← hb.point_iff, and_self]
  · have hinverts := Location.not_inverts_of_wellFormed (b := b)
      (.inl (Location.wellFormed_iff.2 hordered))
    obtain ⟨span, hmerge, hcovers⟩ := Location.exists_merge_eq_range hab hinverts
    have hmin := hcovers.offset_start
    have hmax := hcovers.offset_stop
    have hle : span.start.offset ≤ a.start.offset ∧ span.start.offset ≤ b.start.offset := by omega
    have hge : a.stop.offset ≤ span.stop.offset ∧ b.stop.offset ≤ span.stop.offset := by omega
    refine ⟨.range span, hmerge, ?_, ?_, ?_⟩
    · rw [List.map_append]
      exact ha.start.append Nat.le_trans hb.start hcovers.start_eq hle.1 hle.2
    · rw [List.map_append]
      exact ha.stop.append (flip Nat.le_trans) hb.stop hcovers.stop_eq hge.1 hge.2
    · intro p
      refine iff_of_false (Location.noConfusion) ?_
      -- Locations that are all one point have that point for their hulls, which then do not differ.
      rw [List.forall_mem_append, ← ha.point_iff, ← hb.point_iff]
      rintro ⟨rfl, rfl⟩
      exact hab rfl

/-- Where the offset tells the position, there is only one hull. -/
theorem unique (h : IsHull as a) (h' : IsHull as b) (hcoherent : Coherent as) : a = b := by
  have hstart : a.start = b.start :=
    hcoherent.position_eq _ (List.mem_append_left _ h.start.mem) _
      (List.mem_append_left _ h'.start.mem)
      (Nat.le_antisymm (h.start.rel_of_mem _ h'.start.mem) (h'.start.rel_of_mem _ h.start.mem))
  have hstop : a.stop = b.stop :=
    hcoherent.position_eq _ (List.mem_append_right _ h.stop.mem) _
      (List.mem_append_right _ h'.stop.mem)
      (Nat.le_antisymm (h'.stop.rel_of_mem _ h.stop.mem) (h.stop.rel_of_mem _ h'.stop.mem))
  cases a with
  | point p => exact ((h'.point_iff p).2 ((h.point_iff p).1 rfl)).symm
  | range s =>
    cases b with
    | point q => exact (h.point_iff q).2 ((h'.point_iff q).1 rfl)
    | range t =>
      obtain ⟨start, stop⟩ := s
      obtain rfl : start = t.start := hstart
      obtain rfl : stop = t.stop := hstop
      rfl

/-- The hull of one location, however often it is listed, is that location. -/
theorem eq_of_forall_eq (h : IsHull as a) (hall : ∀ l ∈ as, l = b) : a = b := by
  obtain ⟨l, hl, hstart⟩ := List.mem_map.1 h.start.mem
  obtain ⟨l', hl', hstop⟩ := List.mem_map.1 h.stop.mem
  obtain rfl := hall l hl
  obtain rfl := hall l' hl'
  cases l' with
  | point p => exact (h.point_iff p).2 hall
  | range s =>
    cases a with
    | point q => exact absurd ((h.point_iff q).1 rfl _ hl) nofun
    | range t =>
      obtain ⟨start, stop⟩ := t
      obtain rfl : s.start = start := hstart
      obtain rfl : s.stop = stop := hstop
      rfl

/-- The hull of locations that are not all the same is a span. -/
theorem exists_eq_range (h : IsHull as a) (hne : ∃ l ∈ as, ∃ l' ∈ as, l ≠ l') :
    ∃ first ∈ as, ∃ last ∈ as, a = .range ⟨first.start, last.stop⟩ ∧
      ∀ l ∈ as, first.start.offset ≤ l.start.offset ∧ l.stop.offset ≤ last.stop.offset := by
  obtain ⟨first, hfirst, hstart⟩ := List.mem_map.1 h.start.mem
  obtain ⟨last, hlast, hstop⟩ := List.mem_map.1 h.stop.mem
  refine ⟨first, hfirst, last, hlast, ?_, ?_⟩
  · cases a with
    | point p =>
      obtain ⟨l, hl, l', hl', hne⟩ := hne
      have hall := (h.point_iff p).1 rfl
      exact absurd ((hall l hl).trans (hall l' hl').symm) hne
    | range s =>
      rw [hstart, hstop]
      rfl
  · intro l hl
    rw [hstart, hstop]
    exact ⟨h.start.rel_of_mem _ (List.mem_map_of_mem hl),
      h.stop.rel_of_mem _ (List.mem_map_of_mem hl)⟩

end IsHull

/-! ## Ways of merging -/

/-- A way of merging locations two at a time. -/
inductive MergeTree where
  | leaf (location : Location)
  | node (left right : MergeTree)
  deriving DecidableEq, Repr

namespace MergeTree

/-- The locations that are merged, from left to right. -/
def leaves : MergeTree → List Location
  | leaf l => [l]
  | node left right => left.leaves ++ right.leaves

/-- What merging gives. -/
def eval : MergeTree → Except InvertedSpan Location
  | leaf l => .ok l
  | node left right => do (← left.eval).merge (← right.eval)

/-- Merging locations that do not end before they begin does not fail, and gives their hull. -/
theorem exists_eval_eq (tree : MergeTree)
    (hordered : ∀ l ∈ tree.leaves, l.start.offset ≤ l.stop.offset) :
    ∃ merged, tree.eval = .ok merged ∧ IsHull tree.leaves merged := by
  induction tree with
  | leaf l => exact ⟨l, rfl, .singleton l⟩
  | node left right ihleft ihright =>
    rw [leaves] at hordered
    obtain ⟨hordered, hordered'⟩ := List.forall_mem_append.1 hordered
    obtain ⟨a, ha, hhull⟩ := ihleft hordered
    obtain ⟨b, hb, hhull'⟩ := ihright hordered'
    obtain ⟨merged, hmerged, hwhole⟩ := hhull.merge hhull' (hhull.start_le_stop hordered)
    refine ⟨merged, ?_, hwhole⟩
    rw [eval, ha, hb]
    exact hmerged

/-- Merging more locations into what a tree gives, one after another. -/
def comb (tree : MergeTree) (locations : List Location) : MergeTree :=
  locations.foldl (fun tree l => node tree (leaf l)) tree

/-- A comb has the leaves of its tree and one for each location. -/
theorem leaves_comb (tree : MergeTree) (locations : List Location) :
    (tree.comb locations).leaves = tree.leaves ++ locations := by
  induction locations generalizing tree with
  | nil => exact (List.append_nil _).symm
  | cons l locations ih =>
    have hcons : tree.comb (l :: locations) = (node tree (leaf l)).comb locations := rfl
    rw [hcons, ih, leaves, leaves, List.append_assoc, List.singleton_append]

/-- Merging from left to right is one of the ways. -/
theorem eval_comb (tree : MergeTree) (locations : List Location) :
    (tree.comb locations).eval = tree.eval >>= fun first => Location.mergeAll first locations := by
  induction locations generalizing tree with
  | nil => exact (bind_pure _).symm
  | cons l locations ih =>
    have hcons : tree.comb (l :: locations) = (node tree (leaf l)).comb locations := rfl
    rw [hcons, ih, eval]
    cases tree.eval <;> rfl

end MergeTree

/-- Merging locations that do not end before they begin from left to right does not fail, and gives
their hull. -/
theorem Location.exists_mergeAll_eq {first : Location} {rest : List Location}
    (hordered : ∀ l ∈ first :: rest, l.start.offset ≤ l.stop.offset) :
    ∃ merged, mergeAll first rest = .ok merged ∧ IsHull (first :: rest) merged := by
  have hleaves := MergeTree.leaves_comb (.leaf first) rest
  obtain ⟨merged, heval, hhull⟩ := MergeTree.exists_eval_eq (.comb (.leaf first) rest) (by
    rw [hleaves]
    exact hordered)
  rw [hleaves] at hhull
  rw [MergeTree.eval_comb] at heval
  exact ⟨merged, heval, hhull⟩

/-- Merging the locations gives `merged`, in whichever order, grouping and number they are taken:
their common value, or the span from the first start to the last end. -/
structure MergesTo (locations : List Location) (merged : Location) : Prop where
  eval_eq : ∀ tree : MergeTree, (∀ l, l ∈ tree.leaves ↔ l ∈ locations) → tree.eval = .ok merged
  mergeAll_eq : ∀ first rest, (∀ l, l ∈ first :: rest ↔ l ∈ locations) →
    Location.mergeAll first rest = .ok merged
  eq_of_forall_eq : ∀ common, (∀ l ∈ locations, l = common) → merged = common
  eq_range_of_ne : (∃ l ∈ locations, ∃ l' ∈ locations, l ≠ l') →
    ∃ first ∈ locations, ∃ last ∈ locations, merged = .range ⟨first.start, last.stop⟩ ∧
      ∀ l ∈ locations, first.start.offset ≤ l.start.offset ∧ l.stop.offset ≤ last.stop.offset
  eq_of_point : ∀ p, merged = .point p → ∀ l ∈ locations, l = .point p

/-- Locations of one text merge to one location, in whichever order they are merged, however they
are grouped, and however often each of them is taken. -/
theorem exists_mergesTo {locations : List Location} (hne : locations ≠ [])
    (h : Coherent locations) : ∃ merged, MergesTo locations merged := by
  obtain ⟨head, tail, rfl⟩ := List.exists_cons_of_ne_nil hne
  have hleaves : ∀ first rest, (MergeTree.comb (.leaf first) rest).leaves = first :: rest :=
    fun first rest => MergeTree.leaves_comb (.leaf first) rest
  have hordered : ∀ l ∈ (MergeTree.comb (.leaf head) tail).leaves,
      l.start.offset ≤ l.stop.offset := by
    rw [hleaves]
    exact h.ordered
  obtain ⟨merged, -, hhull⟩ := MergeTree.exists_eval_eq _ hordered
  rw [hleaves] at hhull
  have heval : ∀ tree : MergeTree, (∀ l, l ∈ tree.leaves ↔ l ∈ head :: tail) →
      tree.eval = .ok merged := by
    intro tree hmem
    obtain ⟨merged', hmerged', hhull'⟩ :=
      tree.exists_eval_eq fun l hl => h.ordered l ((hmem l).1 hl)
    rw [hmerged', hhull.unique (hhull'.congr hmem) h]
  refine ⟨merged, heval, ?_, fun _ => hhull.eq_of_forall_eq, hhull.exists_eq_range,
    fun p => (hhull.point_iff p).1⟩
  intro first rest hmem
  rw [← hleaves first rest] at hmem
  have hcomb := heval _ hmem
  rw [MergeTree.eval_comb] at hcomb
  exact hcomb

/-- A point inside a span, the span, and another span on the next line that begins where it ends. -/
theorem mergesTo_point_and_spans :
    let locations :=
      [.point ⟨1, 2, 1⟩, .range ⟨⟨1, 1, 0⟩, ⟨1, 3, 2⟩⟩, .range ⟨⟨1, 3, 2⟩, ⟨2, 2, 5⟩⟩]
    locations ≠ [] ∧ Coherent locations ∧ MergesTo locations (.range ⟨⟨1, 1, 0⟩, ⟨2, 2, 5⟩⟩) := by
  intro locations
  have hne : locations ≠ [] := List.cons_ne_nil _ _
  have hcoherent : Coherent locations := ⟨by decide, by decide⟩
  obtain ⟨merged, hmerged⟩ := exists_mergesTo hne hcoherent
  have hvalue : Except.ok merged = Except.ok (.range ⟨⟨1, 1, 0⟩, ⟨2, 2, 5⟩⟩) :=
    (hmerged.mergeAll_eq _ _ fun _ => Iff.rfl).symm
  cases hvalue
  exact ⟨hne, hcoherent, hmerged⟩

end Lexis
