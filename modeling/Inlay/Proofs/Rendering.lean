import Mathlib.Data.List.Forall2
import Inlay.Proofs.Offset
import Inlay.Render.Inline

/-!
Labels in a shown text.

A text with its hints is cut into pieces of the source and labels. Each label of a hint that is not
empty stands there once, behind as much of the source as its position says, and the source is kept
whole. The same can be read off what is shown: the coloured stretches are the labels, and what they
leave is the source, without the characters that are never shown.
-/

namespace Inlay.Render

open Inlay.Text

/-! ## The labels of hints -/

/-- What a hint shows on a side of its range. -/
def textOn (side : Side) (hint : Hint) : String :=
  match side with
  | .before => hint.before
  | .after => hint.after

/-- The end of its range at which a hint shows what it has on a side. -/
def endOn (side : Side) (hint : Hint) : Position :=
  match side with
  | .before => hint.start
  | .after => hint.stop

def labelOn (text : List Char) (side : Side) (hint : Hint) : Label :=
  ⟨offsetAt text (endOn side hint), side, (textOn side hint).toList, hint.warning⟩

/-- The labels that hints have on a side at an offset, in the order of the hints. -/
def standing (text : List Char) (hints : List Hint) (side : Side) (offset : Nat) : List Label :=
  (hints.filter fun hint => textOn side hint ≠ "" ∧ offsetAt text (endOn side hint) = offset).map
    (labelOn text side)

def Label.isAt (side : Side) (offset : Nat) (label : Label) : Bool :=
  label.side = side ∧ label.offset = offset

theorem labelsOf_eq (text : List Char) (hint : Hint) :
    labelsOf text hint =
      ([Side.before, .after].filter (textOn · hint ≠ "")).map (labelOn text · hint) := by
  by_cases before : hint.before = "" <;> by_cases after : hint.after = "" <;>
    simp [labelsOf, labelOn, textOn, endOn, before, after]

theorem filter_labelsOf (text : List Char) (hint : Hint) (side : Side) (offset : Nat) :
    (labelsOf text hint).filter (Label.isAt side offset) = standing text [hint] side offset := by
  rw [labelsOf_eq]
  cases side <;> by_cases before : hint.before = "" <;> by_cases after : hint.after = "" <;>
    simp [standing, labelOn, textOn, endOn, Label.isAt, List.filter_cons, before, after] <;>
    split <;> rfl

theorem filter_flatMap_labelsOf (text : List Char) (hints : List Hint) (side : Side)
    (offset : Nat) :
    (hints.flatMap (labelsOf text)).filter (Label.isAt side offset) =
      standing text hints side offset := by
  induction hints with
  | nil => rfl
  | cons hint rest ih =>
    rw [List.flatMap_cons, List.filter_append, ih, filter_labelsOf, standing, standing,
      ← List.map_append, ← List.filter_append]
    rfl

theorem offset_le_length {text : List Char} {hints : List Hint} {label : Label}
    (isLabel : label ∈ labels text hints) : label.offset ≤ text.length := by
  obtain ⟨hint, -, isLabel⟩ := List.mem_flatMap.mp (List.mem_mergeSort.mp isLabel)
  rw [labelsOf_eq] at isLabel
  obtain ⟨side, -, rfl⟩ := List.mem_map.mp isLabel
  exact offsetAt_le_length text _

/-! ## Their order -/

theorem Label.precedes_iff {a b : Label} :
    a.precedes b = true ↔
      a.offset < b.offset ∨ a.offset = b.offset ∧ (a.side = .after ∨ b.side = .before) := by
  simp [Label.precedes]

theorem Label.precedes_trans (a b c : Label) (first : a.precedes b = true)
    (second : b.precedes c = true) : a.precedes c = true := by
  rw [Label.precedes_iff] at *
  rcases first with first | ⟨same, side⟩ <;> rcases second with second | ⟨same', side'⟩
  · exact .inl (first.trans second)
  · exact .inl (same' ▸ first)
  · exact .inl (same ▸ second)
  · refine .inr ⟨same.trans same', ?_⟩
    rcases side with isAfter | isBefore
    · exact .inl isAfter
    · exact .inr (side'.resolve_left (by simp [isBefore]))

theorem Label.precedes_total (a b : Label) : (a.precedes b || b.precedes a) = true := by
  rw [Bool.or_eq_true, Label.precedes_iff, Label.precedes_iff]
  rcases Nat.lt_trichotomy a.offset b.offset with earlier | same | later
  · exact .inl (.inl earlier)
  · cases side : a.side with
    | after => exact .inl (.inr ⟨same, .inl rfl⟩)
    | before => exact .inr (.inr ⟨same.symm, .inr rfl⟩)
  · exact .inr (.inl later)

theorem labels_pairwise (text : List Char) (hints : List Hint) :
    (labels text hints).Pairwise fun a b => a.precedes b = true :=
  List.pairwise_mergeSort Label.precedes_trans Label.precedes_total _

/-- Sorting moves no label past another on the same side at the same offset. -/
theorem filter_labels (text : List Char) (hints : List Hint) (side : Side) (offset : Nat) :
    (labels text hints).filter (Label.isAt side offset) = standing text hints side offset := by
  rw [← filter_flatMap_labelsOf]
  let given := hints.flatMap (labelsOf text)
  have tied : (given.filter (Label.isAt side offset)).Pairwise fun a b => a.precedes b = true := by
    apply List.pairwise_of_forall_mem_list
    intro a isFirst b isSecond
    simp only [List.mem_filter, Label.isAt, decide_eq_true_eq] at isFirst isSecond
    rw [Label.precedes_iff]
    refine .inr ⟨isFirst.2.2.trans isSecond.2.2.symm, ?_⟩
    rw [isFirst.2.1, isSecond.2.1]
    cases side <;> simp
  have kept := (List.sublist_mergeSort Label.precedes_trans Label.precedes_total tied
    List.filter_sublist).filter (Label.isAt side offset)
  simp only [List.filter_filter, Bool.and_self] at kept
  refine (kept.eq_of_length ?_).symm
  exact (((List.mergeSort_perm given Label.precedes).filter _).length_eq).symm

/-! ## Pieces of a text -/

def Piece.sourceText : Piece → List Char
  | .source chars => chars
  | .label _ => []

def Piece.label? : Piece → Option Label
  | .source _ => none
  | .label mark => some mark

/-- The source among pieces. -/
def sourceOf (pieces : List Piece) : List Char := pieces.flatMap Piece.sourceText

/-- The labels among pieces. -/
def marks (pieces : List Piece) : List Label := pieces.filterMap Piece.label?

@[simp]
theorem sourceOf_source (chars : List Char) (rest : List Piece) :
    sourceOf (.source chars :: rest) = chars ++ sourceOf rest := rfl

@[simp]
theorem sourceOf_label (label : Label) (rest : List Piece) :
    sourceOf (.label label :: rest) = sourceOf rest := rfl

@[simp]
theorem marks_source (chars : List Char) (rest : List Piece) :
    marks (.source chars :: rest) = marks rest := rfl

@[simp]
theorem marks_label (label : Label) (rest : List Piece) :
    marks (.label label :: rest) = label :: marks rest := rfl

theorem mem_marks {front back pieces : List Piece} {label : Label}
    (cut : pieces = front ++ .label label :: back) : label ∈ marks pieces :=
  List.mem_filterMap.mpr ⟨.label label, by simp [cut], rfl⟩

theorem marks_splice (cursor : Nat) (rest : List Char) (labels : List Label) :
    marks (splice cursor rest labels) = labels := by
  induction labels generalizing cursor rest with
  | nil => rfl
  | cons label labels ih => simp [splice, ih]

theorem sourceOf_splice (cursor : Nat) (rest : List Char) (labels : List Label) :
    sourceOf (splice cursor rest labels) = rest := by
  induction labels generalizing cursor rest with
  | nil => simp [splice, sourceOf, Piece.sourceText]
  | cons label labels ih => simp [splice, ih]

/-- The cursor never moves back, so a label stands behind what lies between the cursor and it. -/
theorem sourceOf_front {cursor : Nat} {rest : List Char} {labels : List Label}
    (ascending : labels.Pairwise (·.offset ≤ ·.offset))
    (ahead : ∀ label ∈ labels, cursor ≤ label.offset) {front back : List Piece} {label : Label}
    (cut : splice cursor rest labels = front ++ .label label :: back) :
    sourceOf front = rest.take (label.offset - cursor) := by
  induction labels generalizing cursor rest front with
  | nil => simp [splice, List.cons_eq_append_iff] at cut
  | cons first later ih =>
    obtain ⟨isFirst, ascending⟩ := List.pairwise_cons.mp ascending
    rw [splice] at cut
    obtain ⟨-, isSource⟩ | ⟨front, rfl, behind⟩ := List.cons_eq_append_iff.mp cut
    · cases isSource
    obtain ⟨rfl, isLabel⟩ | ⟨front, rfl, further⟩ := List.cons_eq_append_iff.mp behind
    · obtain ⟨rfl, -⟩ : label = first ∧ _ := by simpa using isLabel
      simp [sourceOf, Piece.sourceText]
    have isLater : label ∈ later := by
      rw [← marks_splice first.offset (rest.drop (first.offset - cursor)) later]
      exact mem_marks further
    have widths : label.offset - cursor =
        (first.offset - cursor) + (label.offset - first.offset) := by
      have := isFirst label isLater
      have := ahead first List.mem_cons_self
      omega
    rw [sourceOf_source, sourceOf_label, ih ascending isFirst further, widths, List.take_add]

/-- Labels and source stand as hints of a text say. -/
structure Arranged (text : List Char) (hints : List Hint) (pieces : List Piece) : Prop where
  /-- On each side of each offset the labels of the hints stand once and in their order. -/
  once : ∀ side offset,
    (marks pieces).filter (Label.isAt side offset) = standing text hints side offset
  /-- At one offset labels that follow a range come before those that precede one. -/
  ordered : (marks pieces).Pairwise fun a b =>
    a.offset < b.offset ∨ a.offset = b.offset ∧ (a.side = .after ∨ b.side = .before)
  /-- A label stands behind as much of the text as its offset says. -/
  preceded : ∀ front label back, pieces = front ++ .label label :: back →
    sourceOf front = text.take label.offset ∧ label.offset ≤ text.length
  whole : sourceOf pieces = text

theorem arranged_pieces (text : List Char) (hints : List Hint) :
    Arranged text hints (pieces text hints) where
  once side offset := by rw [pieces, marks_splice, filter_labels]
  ordered := by
    rw [pieces, marks_splice]
    exact (labels_pairwise text hints).imp Label.precedes_iff.mp
  preceded front label back cut := by
    have isLabel : label ∈ labels text hints := by
      rw [← marks_splice 0 text (labels text hints)]
      exact mem_marks cut
    have ascending : (labels text hints).Pairwise (·.offset ≤ ·.offset) :=
      (labels_pairwise text hints).imp fun precedes => by
        rcases Label.precedes_iff.mp precedes with earlier | ⟨same, -⟩
        · exact Nat.le_of_lt earlier
        · exact Nat.le_of_eq same
    exact ⟨sourceOf_front ascending (fun label _ => Nat.zero_le label.offset) cut,
      offset_le_length isLabel⟩
  whole := sourceOf_splice 0 text _

/-! ## Coloured stretches -/

def Span.covers (span : Span) (place : Nat) : Bool := span.start ≤ place && place < span.stop

/-- The characters of a shown text, the first of them at the given place, that no span covers. -/
def uncovered (spans : List Span) (first : Nat) (shown : List Char) : List Char :=
  ((shown.zipIdx first).filter fun c => !spans.any (·.covers c.2)).map (·.1)

theorem uncovered_append (spans : List Span) (first : Nat) (a b : List Char) :
    uncovered spans first (a ++ b) =
      uncovered spans first a ++ uncovered spans (first + a.length) b := by
  simp only [uncovered, List.zipIdx_append, List.filter_append, List.map_append]

theorem uncovered_eq_self {spans : List Span} {first : Nat} {shown : List Char}
    (apart : ∀ span ∈ spans, span.stop ≤ first ∨ first + shown.length ≤ span.start) :
    uncovered spans first shown = shown := by
  have all : ∀ c ∈ shown.zipIdx first, (!spans.any (·.covers c.2)) = true := by
    rintro ⟨c, place⟩ isChar
    obtain ⟨low, high, -⟩ := List.mem_zipIdx isChar
    simp only [Bool.not_eq_true', List.any_eq_false, Span.covers, Bool.and_eq_true,
      decide_eq_true_eq, not_and]
    intro span isSpan started
    have := apart span isSpan
    omega
  rw [uncovered, List.filter_eq_self.mpr all, List.zipIdx_map_fst]

theorem uncovered_eq_nil {spans : List Span} {span : Span} (isSpan : span ∈ spans)
    {shown : List Char} (asLong : span.stop = span.start + shown.length) :
    uncovered spans span.start shown = [] := by
  rw [uncovered, List.map_eq_nil_iff, List.filter_eq_nil_iff]
  rintro ⟨c, place⟩ isChar
  obtain ⟨low, high, -⟩ := List.mem_zipIdx isChar
  simp only [Bool.not_eq_true', Bool.not_eq_false, List.any_eq_true]
  exact ⟨span, isSpan, by simp only [Span.covers, Bool.and_eq_true, decide_eq_true_eq]; omega⟩

section

variable (style : Style)

theorem spansFrom_append (start : Nat) (front back : List Piece) :
    spansFrom style start (front ++ back) =
      spansFrom style start front ++
        spansFrom style (start + (front.flatMap Piece.shown).length) back := by
  induction front generalizing start with
  | nil => simp [spansFrom]
  | cons piece rest ih =>
    have further := ih (start + piece.shown.length)
    cases piece <;>
      simp [spansFrom, further, Nat.add_assoc]

theorem start_le_of_mem {start : Nat} {pieces : List Piece} {span : Span}
    (isSpan : span ∈ spansFrom style start pieces) : start ≤ span.start := by
  induction pieces generalizing start with
  | nil => simp [spansFrom] at isSpan
  | cons piece rest ih =>
    cases piece with
    | source chars => exact (Nat.le_add_right _ _).trans (ih isSpan)
    | label label =>
      rcases List.mem_cons.mp isSpan with rfl | isLater
      · exact Nat.le_refl start
      · exact (Nat.le_add_right _ _).trans (ih isLater)

/-- The spans of labels cover these and nothing else. Other spans further in front or behind make
no difference. -/
theorem uncovered_pieces {start : Nat} {pieces : List Piece} {spans : List Span}
    (own : spansFrom style start pieces ⊆ spans)
    (others : ∀ span ∈ spans, span ∈ spansFrom style start pieces ∨ span.stop ≤ start ∨
      start + (pieces.flatMap Piece.shown).length ≤ span.start) :
    uncovered spans start (pieces.flatMap Piece.shown) = (sourceOf pieces).filter isShown := by
  induction pieces generalizing start with
  | nil => rfl
  | cons piece rest ih =>
    simp only [List.flatMap_cons, List.length_append] at others
    rw [List.flatMap_cons, uncovered_append]
    cases piece with
    | source chars =>
      rw [uncovered_eq_self, ih own, sourceOf_source, List.filter_append]
      · rfl
      · intro span isSpan
        rcases others span isSpan with isOwn | inFront | behind
        · exact .inl isOwn
        · exact .inr (.inl (by omega))
        · exact .inr (.inr (by omega))
      · intro span isSpan
        rcases others span isSpan with isOwn | inFront | behind
        · exact .inr (start_le_of_mem style isOwn)
        · exact .inl inFront
        · exact .inr (by omega)
    | label label =>
      obtain ⟨isSpan, own⟩ := List.cons_subset.mp own
      have covered : uncovered spans start (Piece.label label).shown = [] :=
        uncovered_eq_nil isSpan rfl
      rw [covered, ih own, sourceOf_label, List.nil_append]
      intro span isSpan
      rcases others span isSpan with isOwn | inFront | behind
      · rcases List.mem_cons.mp isOwn with rfl | isLater
        · exact .inr (.inl (Nat.le_refl _))
        · exact .inl isLater
      · exact .inr (.inl (by omega))
      · exact .inr (.inr (by omega))

/-- Spans and labels go in step. -/
theorem forall₂_spansFrom {relation : Span → Label → Prop} {start : Nat} {pieces : List Piece}
    (each : ∀ front label back, pieces = front ++ .label label :: back →
      relation (spanOf style (start + (front.flatMap Piece.shown).length) label) label) :
    List.Forall₂ relation (spansFrom style start pieces) (marks pieces) := by
  induction pieces generalizing start with
  | nil => exact .nil
  | cons piece rest ih =>
    have later := @ih (start + piece.shown.length) fun front label back cut => by
      have := each (piece :: front) label back (by rw [cut]; rfl)
      rwa [List.flatMap_cons, List.length_append, ← Nat.add_assoc] at this
    cases piece with
    | source chars => exact later
    | label label => exact .cons (each [] label rest rfl) later

end

/-- A shown text and its coloured stretches show labels of a text at their offsets. -/
structure ShowsLabels (text : List Char) (labels : List Label) (shown : List Char) (spans : List Span) :
    Prop where
  /-- Each label is a stretch of its own, behind as much of the text as its offset says. -/
  labelled : List.Forall₂ (fun span label =>
    (shown.take span.stop).drop span.start = label.text.filter isShown ∧
      uncovered spans 0 (shown.take span.start) = (text.take label.offset).filter isShown)
    spans labels
  /-- Without the labels the text is left. -/
  whole : uncovered spans 0 shown = text.filter isShown

theorem Arranged.shows {text : List Char} {hints : List Hint} {pieces : List Piece}
    (arranged : Arranged text hints pieces) (style : Style) :
    ShowsLabels text (marks pieces) (pieces.flatMap Piece.shown) (spansFrom style 0 pieces) where
  labelled := by
    apply forall₂_spansFrom
    rintro front label back rfl
    rw [List.flatMap_append, List.flatMap_cons]
    simp only [Nat.zero_add, spanOf]
    constructor
    · rw [List.drop_take, List.drop_left, Nat.add_sub_cancel_left]
      exact List.take_left
    · rw [List.take_left, spansFrom_append, ← (arranged.preceded front label back rfl).1]
      apply uncovered_pieces style (List.subset_append_left _ _)
      intro span isSpan
      rcases List.mem_append.mp isSpan with isOwn | behind
      · exact .inl isOwn
      · exact .inr (.inr (start_le_of_mem style behind))
  whole := by
    rw [uncovered_pieces style (List.Subset.refl _) fun span isSpan => .inl isSpan, arranged.whole]

/-- In a text with hints, wherever these are and in whatever order, each label that is not empty is
shown once and exactly in its place, and nothing of the text is lost. -/
theorem labels_shown_once_in_place (style : Style) (text : List Char) (hints : List Hint) :
    Arranged text hints (pieces text hints) ∧
      ShowsLabels text (marks (pieces text hints)) (plain text hints) (spans style text hints) :=
  ⟨arranged_pieces text hints, (arranged_pieces text hints).shows style⟩

end Inlay.Render
