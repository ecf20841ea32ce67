import Mathlib.Data.List.Nodup
import Inlay.Proofs.Warnings
import Inlay.Render.Inline

/-!
Parentheses around bare parameters.

The type of a bare parameter brings parentheses with it. If it is not shown, what the function
returns brings them. In the shown text a bare parameter `x` therefore reads `x`, `(x: T)`, `(x): R`
or `(x: T): R`, whatever is answered and whichever features are on.
-/

namespace Inlay

open Inlay.Text Inlay.Tree

/-! ## Hints on one stretch of a text -/

namespace Render

theorem plain_eq_filter (text : List Char) (hints : List Hint) :
    plain text hints = ((pieces text hints).flatMap Piece.text).filter isShown := by
  rw [List.filter_flatMap]
  rfl

/-- Labels at one offset stand side by side. -/
theorem text_splice {cursor : Nat} {front : List Char} (rest : List Char) {labels : List Label}
    (here : ∀ label ∈ labels, label.offset = cursor + front.length) :
    (splice cursor (front ++ rest) labels).flatMap Piece.text =
      front ++ labels.flatMap Label.text ++ rest := by
  induction labels generalizing cursor front with
  | nil => simp [splice, Piece.text]
  | cons label labels ih =>
    obtain ⟨first, later⟩ := List.forall_mem_cons.mp here
    have width : label.offset - cursor = front.length := by omega
    have behind := @ih label.offset [] fun other isLater => by
      simpa [first] using later other isLater
    rw [splice, width, List.take_left, List.drop_left]
    simpa [Piece.text] using behind

/-- The label in front of a hint that starts at an offset. -/
def ahead (offset : Nat) (hint : Hint) : Label :=
  ⟨offset, .before, hint.before.toList, hint.warning⟩

/-- The label behind a hint that stops at an offset. -/
def behind (offset : Nat) (hint : Hint) : Label :=
  ⟨offset, .after, hint.after.toList, hint.warning⟩

/-- The hints have the same range, which is not empty. All have a label behind, but only the first
has one in front. -/
structure Wrapping (text : List Char) (start stop : Nat) (first : Hint) (rest : List Hint) :
    Prop where
  wide : start < stop
  start : ∀ hint ∈ first :: rest, offsetAt text hint.start = start
  stop : ∀ hint ∈ first :: rest, offsetAt text hint.stop = stop
  front : first.before ≠ ""
  others : ∀ hint ∈ rest, hint.before = ""
  back : ∀ hint ∈ first :: rest, hint.after ≠ ""

/-- The labels of such hints come in order. -/
theorem Wrapping.labels_eq {text : List Char} {start stop : Nat} {first : Hint} {rest : List Hint}
    (wrapping : Wrapping text start stop first rest) :
    labels text (first :: rest) = ahead start first :: (first :: rest).map (behind stop) := by
  have onFirst : labelsOf text first = [ahead start first, behind stop first] := by
    have isFirst : first ∈ first :: rest := List.mem_cons_self
    simp [labelsOf, ahead, behind, wrapping.start first isFirst, wrapping.stop first isFirst,
      wrapping.front, wrapping.back first isFirst]
  have onRest : ∀ hint ∈ rest, labelsOf text hint = [behind stop hint] := by
    intro hint isRest
    have isHint : hint ∈ first :: rest := List.mem_cons_of_mem first isRest
    simp [labelsOf, behind, wrapping.stop hint isHint, wrapping.others hint isRest,
      wrapping.back hint isHint]
  have unsorted : (first :: rest).flatMap (labelsOf text) =
      ahead start first :: (first :: rest).map (behind stop) := by
    rw [List.flatMap_cons, onFirst, List.flatMap_congr onRest, ← List.map_eq_flatMap]
    rfl
  -- One label at the start and then those at the end: there is nothing to sort.
  rw [labels, unsorted]
  apply List.mergeSort_of_pairwise
  rw [List.pairwise_cons, List.forall_mem_map]
  refine ⟨fun hint _ => by simp [Label.precedes, ahead, behind, wrapping.wide], ?_⟩
  rw [List.pairwise_map]
  exact List.pairwise_of_forall fun _ _ => by simp [Label.precedes, behind]

/-- The first label in front of the range and all labels behind it. -/
theorem Wrapping.plain_eq {before target after : List Char} {first : Hint} {rest : List Hint}
    (wrapping : Wrapping (before ++ (target ++ after)) before.length
      (before.length + target.length) first rest) :
    plain (before ++ (target ++ after)) (first :: rest) =
      (before ++ first.before.toList ++ target ++ (first :: rest).flatMap (·.after.toList) ++
        after).filter isShown := by
  have spliced := @text_splice before.length target after
    ((first :: rest).map (behind (before.length + target.length)))
    (List.forall_mem_map.mpr fun hint _ => rfl)
  rw [plain_eq_filter, pieces, wrapping.labels_eq, splice]
  simp only [ahead, Nat.sub_zero, List.take_left, List.drop_left, List.flatMap_cons, Piece.text,
    spliced, List.flatMap_map]
  simp [behind]

end Render

/-! ## Labels of a bare parameter -/

/-- The question for what a function with a bare parameter returns. -/
def Plan.resultAsk (source : Source) (function parameter : Cursor) : Ask where
  query :=
    { kind := .returnType
      start := function.start
      stop := function.stop
      anchor := source.startOf (function.reachableName?.getD parameter)
      name := (function.reachableName?.map source.textOf).getD ""
      argument := none }
  start := source.startOf parameter
  stop := source.stopOf parameter
  shape := .returned true

theorem Tree.Cursor.binding_of_identifier {parameter : Cursor}
    (isIdentifier : parameter.kind = "identifier") : parameter.binding = parameter := by
  simp [Cursor.binding, Cursor.isParameter, isIdentifier, parameterKinds]

namespace Plan

section

variable (source : Source) (features : Features) {function parameter : Cursor}

theorem site_of_isFunction (isFunction : function.isFunction = true) :
    site source features function = [] ∨
      site source features function = functionSite source features function := by
  have other : function.kind ≠ "variable_declarator" := by
    intro declares
    rw [Cursor.isFunction, declares] at isFunction
    exact absurd isFunction (by decide)
  by_cases isNamed : function.isNamed = true
  · exact .inr (by simp [site, isNamed, other, isFunction])
  · exact .inl (by simp [site, isNamed])

theorem returnAsk_sublist (bare : function.field? "parameter" = some parameter) :
    (returnAsk source features function).Sublist [resultAsk source function parameter] := by
  unfold returnAsk
  simp only [bare, Option.some_or]
  split
  · exact List.Sublist.refl _
  · exact List.nil_sublist _

/-- About a function with a bare parameter at most two questions are asked. -/
theorem site_sublist (isFunction : function.isFunction = true)
    (bare : function.field? "parameter" = some parameter) :
    (site source features function).Sublist
      [bareAsk source parameter, resultAsk source function parameter] := by
  rcases site_of_isFunction source features isFunction with nothing | isSite
  · exact nothing ▸ List.nil_sublist _
  · rw [isSite]
    exact (parameterAsks_sublist source features bare).append
      (returnAsk_sublist source features bare)

end

end Plan

namespace Build

/-- What is shown of the answer to the question of a kind, if it was asked and answered. -/
def answerOf (kind : QueryKind) (site : List (Ask × Option String)) : Option String :=
  (site.find? (·.1.query.kind = kind)).bind fun asked => label? asked.2

/-- The labels in front of and behind a bare parameter. -/
def bareLabels : Option String → Option String → List (String × String)
  | none, none => []
  | some type, none => [("(", ": " ++ type ++ ")")]
  | none, some result => [("(", "): " ++ result)]
  | some type, some result => [("(", ": " ++ type ++ ")"), ("", ": " ++ result)]

/-- A bare parameter with its type and with what its function returns. -/
def annotated (name : String) : Option String → Option String → String
  | none, none => name
  | some type, none => "(" ++ name ++ ": " ++ type ++ ")"
  | none, some result => "(" ++ name ++ "): " ++ result
  | some type, some result => "(" ++ name ++ ": " ++ type ++ "): " ++ result

theorem bareLabels_pairwise (type result : Option String) :
    (bareLabels type result).Pairwise fun a b => a.1 ≠ "" ∧ b.1 = "" := by
  cases type <;> cases result <;> simp [bareLabels]

theorem bareLabels_back {type result : Option String} :
    ∀ label ∈ bareLabels type result, label.2 ≠ "" := by
  cases type <;> cases result <;> simp [bareLabels]

theorem annotated_of_nil (name : String) {type result : Option String}
    (unlabelled : bareLabels type result = []) : annotated name type result = name := by
  cases type <;> cases result <;> first | rfl | cases unlabelled

/-- The labels around the name. -/
theorem toList_annotated (name : String) {type result : Option String} {first : String × String}
    {rest : List (String × String)} (labelled : bareLabels type result = first :: rest) :
    first.1 ≠ "" ∧ (annotated name type result).toList =
      first.1.toList ++ name.toList ++ (first :: rest).flatMap (·.2.toList) := by
  cases type <;> cases result <;> cases labelled <;> simp [annotated]

/-- The labels of a hint. -/
def texts (hint : Hint) : String × String := (hint.before, hint.after)

section

variable {features : Features} {wrapped : Bool} {asked : Ask × Option String}
  {rest site : List (Ask × Option String)} {hints : List Hint} {source : Source}
  {function parameter : Cursor}

/-- The labels of a site are those of its first question, if there are any, and of the rest. -/
theorem map_texts_siteHints (isMade : siteHints features wrapped (asked :: rest) = .ok hints) :
    ∃ others,
      siteHints features ((told? asked).elim wrapped fun _ => asked.1.shape == .wrapped) rest =
        .ok others ∧
      hints.map texts =
        ((told? asked).map (labels wrapped · asked.1.shape)).toList ++ others.map texts := by
  cases told : told? asked with
  | none =>
    rw [siteHints_of_silent told] at isMade
    exact ⟨hints, isMade, rfl⟩
  | some label =>
    obtain ⟨first, others, shows, isRest, rfl⟩ := (siteHints_eq_ok_iff told).mp isMade
    refine ⟨others, isRest, ?_⟩
    rw [List.map_cons, texts, shows.texts]
    rfl

theorem told?_eq_label? {ask : Ask} {answer : Option String}
    (typed : ∀ reading, ask.shape ≠ .argument reading) : told? (ask, answer) = label? answer := by
  have fresh : ∀ label, isRedundant label ask.shape = false := by
    intro label
    cases shape : ask.shape with
    | argument reading => exact absurd shape (typed reading)
    | colon | cast | wrapped | returned => rfl
  cases shown : label? answer with
  | none => simp [told?, shown]
  | some label => simp [told?, shown, fresh]

theorem answerOf_cons {kind : QueryKind} :
    answerOf kind (asked :: rest) =
      if asked.1.query.kind = kind then label? asked.2 else answerOf kind rest := by
  unfold answerOf
  by_cases same : asked.1.query.kind = kind <;> simp [same]

/-- The labels for what a function with a bare parameter returns. -/
theorem map_texts_result
    (asks : (site.map Prod.fst).Sublist [Plan.resultAsk source function parameter])
    (isMade : siteHints features wrapped site = .ok hints) :
    answerOf .type site = none ∧
      hints.map texts =
        ((answerOf .returnType site).map (labels wrapped · (.returned true))).toList := by
  rcases List.sublist_singleton.mp asks with isSite | isSite
  · obtain rfl := List.map_eq_nil_iff.mp isSite
    obtain rfl := Except.ok.inj isMade
    exact ⟨rfl, rfl⟩
  · obtain ⟨⟨_, answer⟩, rfl, rfl⟩ := List.map_eq_singleton_iff.mp isSite
    obtain ⟨others, isRest, isTexts⟩ := map_texts_siteHints isMade
    obtain rfl := Except.ok.inj isRest
    rw [isTexts, told?_eq_label? (by simp [Plan.resultAsk])]
    simp [answerOf, Plan.resultAsk]

/-- The labels of a bare parameter. If the type is shown, the parentheses come with it. -/
theorem map_texts_bare
    (asks : (site.map Prod.fst).Sublist
      [Plan.bareAsk source parameter, Plan.resultAsk source function parameter])
    (isMade : siteHints features false site = .ok hints) :
    hints.map texts = bareLabels (answerOf .type site) (answerOf .returnType site) := by
  rcases List.sublist_cons_iff.mp asks with asks | ⟨_, isSite, asks⟩
  · obtain ⟨untyped, isTexts⟩ := map_texts_result asks isMade
    rw [untyped, isTexts]
    cases answerOf .returnType site <;> rfl
  · obtain ⟨⟨_, answer⟩, rest, rfl, rfl, rfl⟩ := List.map_eq_cons_iff.mp isSite
    obtain ⟨others, isRest, isTexts⟩ := map_texts_siteHints isMade
    rw [told?_eq_label? (by simp [Plan.bareAsk, Plan.askType])] at isRest isTexts
    have type : answerOf .type ((Plan.bareAsk source parameter, answer) :: rest) = label? answer :=
      answerOf_cons.trans (if_pos rfl)
    have result : answerOf .returnType ((Plan.bareAsk source parameter, answer) :: rest) =
        answerOf .returnType rest :=
      answerOf_cons.trans (if_neg (by simp [Plan.bareAsk, Plan.askType]))
    -- The rest of the site begins with parentheses just if the type is shown.
    rw [isTexts, (map_texts_result asks isRest).2, type, result]
    cases label? answer <;> cases answerOf .returnType rest <;> rfl

/-- All labels of a bare parameter belong to its range. -/
theorem start_stop_of_bare (isIdentifier : parameter.kind = "identifier")
    (tidy : Plan.Tidy (site.map Prod.fst))
    (asks : (site.map Prod.fst).Sublist
      [Plan.bareAsk source parameter, Plan.resultAsk source function parameter])
    (isMade : siteHints features false site = .ok hints) :
    ∀ hint ∈ hints,
      hint.start = source.startOf parameter ∧ hint.stop = source.stopOf parameter := by
  intro hint isHint
  obtain ⟨asked, isAsked, label, _, shows⟩ := (mem_siteHints_iff tidy isMade).mp isHint
  rw [shows.start, shows.stop]
  have isAsk := asks.subset (List.mem_map_of_mem isAsked)
  simp only [List.mem_cons, List.not_mem_nil, or_false] at isAsk
  rcases isAsk with isAsk | isAsk
  · rw [isAsk, Plan.bareAsk, Tree.Cursor.binding_of_identifier isIdentifier]
    exact ⟨rfl, rfl⟩
  · rw [isAsk]
    exact ⟨rfl, rfl⟩

end

/-! ## The order of the hints -/

/-- Hints among sorted ones keep their order if each has to come before the next. -/
theorem filter_mem_eq {hints own : List Hint} (sorted : hints.Pairwise (precedes · ·))
    (nodup : hints.Nodup) (within : ∀ hint ∈ own, hint ∈ hints)
    (strict : own.Pairwise fun a b => precedes b a = false) :
    hints.filter (· ∈ own) = own := by
  have members : ∀ hint, hint ∈ hints.filter (· ∈ own) ↔ hint ∈ own := by
    intro hint
    simpa using within hint
  have ownSorted : own.Pairwise (precedes · ·) := strict.imp fun {a b} later => by
    simpa [later] using precedes_total a b
  have ownNodup : own.Nodup := strict.imp fun {a b} later same => by
    subst same
    simpa [later] using precedes_total a a
  -- Different hints can precede each other, but not two of these.
  have antisymm : ∀ a ∈ own, ∀ b ∈ own, precedes a b → precedes b a → a = b :=
    List.Pairwise.forall_of_forall_of_flip (fun _ _ _ _ => rfl)
      (strict.imp fun later _ back => absurd back (by simp [later]))
      (strict.imp fun later forth _ => absurd forth (by simp [later]))
  exact List.Perm.eq_of_pairwise
    (fun a b isA isB => antisymm a ((members a).mp isA) b isB)
    (sorted.filter _) ownSorted ((List.perm_ext_iff_of_nodup (nodup.filter _) ownNodup).mpr members)

/-- The labels of a bare parameter come in the order of the result. -/
theorem not_precedes_of_bare {own : List Hint} {type result : Option String} {start : Position}
    (isTexts : own.map texts = bareLabels type result) (same : ∀ hint ∈ own, hint.start = start) :
    own.Pairwise fun a b => precedes b a = false := by
  have fronts := isTexts ▸ bareLabels_pairwise type result
  rw [List.pairwise_map] at fronts
  refine fronts.imp_of_mem fun {a b} isA isB front => ?_
  rw [Bool.eq_false_iff, Ne, precedes_iff, same a isA, same b isB]
  rintro (before | ⟨_, empty⟩)
  · exact lt_irrefl start before
  · exact front.1 (empty front.2)

/-! ## The shown text -/

/-- A name with the labels of a bare parameter. -/
theorem plain_annotated {before after : List Char} {name : String} {own : List Hint}
    {type result : Option String} (nonempty : name ≠ "")
    (isTexts : own.map texts = bareLabels type result)
    (start : ∀ hint ∈ own,
      offsetAt (before ++ (name.toList ++ after)) hint.start = before.length)
    (stop : ∀ hint ∈ own,
      offsetAt (before ++ (name.toList ++ after)) hint.stop = before.length + name.toList.length) :
    Render.plain (before ++ (name.toList ++ after)) own =
      (before ++ (annotated name type result).toList ++ after).filter Render.isShown := by
  cases own with
  | nil =>
    rw [annotated_of_nil name isTexts.symm]
    simp [Render.plain, Render.pieces, Render.labels, Render.splice, Render.Piece.shown,
      Render.Piece.text]
  | cons first rest =>
    obtain ⟨front, isAnnotated⟩ := toList_annotated name isTexts.symm
    have ordered := isTexts ▸ bareLabels_pairwise type result
    have back : ∀ hint ∈ first :: rest, hint.after ≠ "" := fun hint isHint =>
      bareLabels_back _ (isTexts ▸ List.mem_map_of_mem isHint)
    rw [List.pairwise_map, List.pairwise_cons] at ordered
    have wrapping : Render.Wrapping (before ++ (name.toList ++ after)) before.length
        (before.length + name.toList.length) first rest :=
      { wide := Nat.lt_add_of_pos_right (List.length_pos_iff.mpr (by simpa using nonempty))
        start
        stop
        front
        others := fun hint isHint => (ordered.1 hint isHint).2
        back }
    rw [wrapping.plain_eq, isAnnotated]
    simp [texts, List.flatMap_map]

end Build

/-- The node covers a name in the text, which is not empty and does not cut a line break. -/
structure Source.Covers (source : Source) (node : Cursor) (before name after : String) :
    Prop where
  text : source.text = before ++ name ++ after
  start : node.start = before.utf8ByteSize
  stop : node.stop = (before ++ name).utf8ByteSize
  nonempty : name ≠ ""
  begins : ¬ Joins before.toList name.toList
  ends : ¬ Joins name.toList after.toList

theorem Source.offsetAt_positionOf {source : Source} {front back : String}
    (text : source.text = front ++ back) (apart : ¬ Joins front.toList back.toList) :
    offsetAt source.text.toList (source.positionOf front.utf8ByteSize) = front.toList.length := by
  have agrees : source.positionOf front.utf8ByteSize =
      positionAt (front.toList ++ back.toList) front.toList.length := by
    have size : bytes front.toList = front.utf8ByteSize := by
      rw [bytes_eq_utf8ByteSize, String.ofList_toList]
    have place := positionOfByte_bytes_take (front.toList ++ back.toList) front.toList.length
    rw [List.take_left, size] at place
    rw [positionOf, text, String.toList_append, place]
  rw [agrees, text, String.toList_append]
  exact offsetAt_positionAt (by simp) ((insideBreak_append _ _).not.mpr apart)

theorem Source.Covers.offsetAt_start {source : Source} {node : Cursor} {before name after : String}
    (covers : source.Covers node before name after) :
    offsetAt source.text.toList (source.startOf node) = before.toList.length := by
  have apart : ¬ Joins before.toList (name ++ after).toList := by
    rw [String.toList_append, joins_append_right _ (by simpa using covers.nonempty)]
    exact covers.begins
  rw [startOf, covers.start]
  exact offsetAt_positionOf (covers.text.trans String.append_assoc) apart

theorem Source.Covers.offsetAt_stop {source : Source} {node : Cursor} {before name after : String}
    (covers : source.Covers node before name after) :
    offsetAt source.text.toList (source.stopOf node) =
      before.toList.length + name.toList.length := by
  rw [stopOf, covers.stop]
  have apart : ¬ Joins (before ++ name).toList after.toList := by
    rw [String.toList_append, joins_append_left _ (by simpa using covers.nonempty)]
    exact covers.ends
  simpa using offsetAt_positionOf covers.text apart

/-- The hint around the whole of a text. -/
def Hint.spanning (text : String) (hint : Hint) : Hint :=
  { hint with
    start := ⟨0, 0⟩
    stop := endPosition text.toList
    ordered := Position.zero_le _ }

namespace Build

section

variable {source : Source} {parameter : Cursor} {before name after : String} {own : List Hint}
  {type result : Option String}

theorem plain_spanning (nonempty : name ≠ "") (isTexts : own.map texts = bareLabels type result) :
    Render.plain name.toList (own.map (Hint.spanning name)) =
      (annotated name type result).toList.filter Render.isShown := by
  have spanned : (own.map (Hint.spanning name)).map texts = bareLabels type result :=
    List.map_map.trans isTexts
  have start : offsetAt name.toList ⟨0, 0⟩ = 0 :=
    positionAt_zero name.toList ▸
      offsetAt_positionAt (Nat.zero_le _) (not_insideBreak_zero name.toList)
  have stop : offsetAt name.toList (endPosition name.toList) = name.toList.length :=
    offsetAt_positionAt (Nat.le_refl _) (not_insideBreak_length name.toList)
  have shown := @plain_annotated [] [] name _ type result nonempty spanned
    (List.forall_mem_map.mpr fun _ _ => by simpa [Hint.spanning] using start)
    (List.forall_mem_map.mpr fun _ _ => by simpa [Hint.spanning] using stop)
  simpa using shown

theorem plain_covering (covers : source.Covers parameter before name after)
    (isTexts : own.map texts = bareLabels type result)
    (placed : ∀ hint ∈ own,
      hint.start = source.startOf parameter ∧ hint.stop = source.stopOf parameter) :
    Render.plain source.text.toList own =
      (before ++ annotated name type result ++ after).toList.filter Render.isShown := by
  have text : source.text.toList = before.toList ++ (name.toList ++ after.toList) := by
    rw [covers.text, String.toList_append, String.toList_append, List.append_assoc]
  have start : ∀ hint ∈ own, offsetAt source.text.toList hint.start = before.toList.length :=
    fun hint isOwn => (placed hint isOwn).1 ▸ covers.offsetAt_start
  have stop : ∀ hint ∈ own,
      offsetAt source.text.toList hint.stop = before.toList.length + name.toList.length :=
    fun hint isOwn => (placed hint isOwn).2 ▸ covers.offsetAt_stop
  rw [text] at start stop ⊢
  rw [plain_annotated covers.nonempty isTexts start stop, String.toList_append,
    String.toList_append]

end

/-- The questions about a node with their answers, when the walk has been to the visited nodes. -/
def answersAt (source : Source) (features : Features) (answers : List (Option String))
    (visited : List Cursor) (cursor : Cursor) : List (Ask × Option String) :=
  (Plan.site source features cursor).zip
    (answers.drop (visited.map (Plan.site source features)).flatten.length)

section

variable {source : Source} {features : Features} {answers : List (Option String)} {built : Built}
  {visited later : List Cursor} {cursor : Cursor}

theorem answersAt_mem_deal (walked : source.top.walk = visited ++ cursor :: later) :
    answersAt source features answers visited cursor ∈
      deal (Plan.sites source features) answers := by
  rw [Plan.sites, walked, List.map_append, deal_append, List.map_cons, deal]
  exact List.mem_append_right _ List.mem_cons_self

/-- The hints of a site are all among those of a file. -/
theorem exists_siteHints_of_mem_deal (finished : finish source features answers = .ok built)
    {asked : List (Ask × Option String)}
    (dealt : asked ∈ deal (Plan.sites source features) answers) :
    ∃ own, siteHints features false asked = .ok own ∧ ∀ hint ∈ own, hint ∈ built.hints := by
  have ordered := exists_finish_iff.mp ⟨built, finished⟩ asked dealt
  obtain ⟨own, isMade⟩ := exists_siteHints_iff.mpr ordered
  refine ⟨own, isMade, fun hint isOwn => (mem_finish_iff finished).mpr ⟨asked, dealt, ?_⟩⟩
  exact (mem_siteHints_iff (tidy_of_mem_deal sites_tidy dealt) isMade).mp isOwn

/-- Hints of a build that have to come one before the other are found in their order. -/
theorem filter_hints_eq (finished : finish source features answers = .ok built) {own : List Hint}
    (within : ∀ hint ∈ own, hint ∈ built.hints)
    (strict : own.Pairwise fun a b => precedes b a = false) :
    built.hints.filter (· ∈ own) = own := by
  obtain ⟨made, _, rfl⟩ := finish_eq_ok_iff.mp finished
  have nodup : (distinct [] made).Nodup := List.Nodup.of_map _ (identity_distinct_nodup [] made)
  exact filter_mem_eq (List.pairwise_mergeSort precedes_trans precedes_total _)
    ((List.mergeSort_perm _ _).nodup_iff.mpr nodup) within strict

end

/-- A bare parameter gets one pair of parentheses or none. Take an arrow function whose bare
parameter is an identifier, any features and any answers. A build adds hints for the type of the
parameter and for what the function returns, and in the order of the result they are what the walk
made of the two answers. Around the name they show `x`, `(x: T)`, `(x): R` or `(x: T): R`, whether
the name stands alone or in the text of the file. In `build` the answers are those of an oracle. -/
theorem bare_parameter_shown_balanced (source : Source) (features : Features)
    (answers : List (Option String)) (visited later : List Cursor) (arrow parameter : Cursor)
    (before name after : String) (walked : source.top.walk = visited ++ arrow :: later)
    (isArrow : arrow.kind = "arrow_function")
    (bare : arrow.field? "parameter" = some parameter)
    (isIdentifier : parameter.kind = "identifier")
    (covers : source.Covers parameter before name after) :
    let asked := answersAt source features answers visited arrow
    let shown := annotated name (answerOf .type asked) (answerOf .returnType asked)
    (source.Aligned → ∃ built, finish source features answers = .ok built) ∧
    ∀ built, finish source features answers = .ok built →
      ∃ own, siteHints features false asked = .ok own ∧ built.hints.filter (· ∈ own) = own ∧
        Render.plain name.toList (own.map (Hint.spanning name)) =
          shown.toList.filter Render.isShown ∧
        Render.plain source.text.toList own =
          (before ++ shown ++ after).toList.filter Render.isShown := by
  intro asked shown
  refine ⟨exists_finish_of_aligned, fun built finished => ?_⟩
  have isFunction : arrow.isFunction = true := by
    rw [Cursor.isFunction, isArrow]
    decide
  have dealt := @answersAt_mem_deal source features answers visited later arrow walked
  have asks : (asked.map Prod.fst).Sublist
      [Plan.bareAsk source parameter, Plan.resultAsk source arrow parameter] :=
    (map_fst_zip_sublist _ _).trans (Plan.site_sublist source features isFunction bare)
  obtain ⟨own, isMade, kept⟩ := exists_siteHints_of_mem_deal finished dealt
  have isTexts := map_texts_bare asks isMade
  have placed := start_stop_of_bare isIdentifier (tidy_of_mem_deal sites_tidy dealt) asks isMade
  have strict := not_precedes_of_bare isTexts fun hint isOwn => (placed hint isOwn).1
  exact ⟨own, isMade, filter_hints_eq finished kept strict,
    plain_spanning covers.nonempty isTexts, plain_covering covers isTexts placed⟩

/-- The type of the parameter is answered with nothing but blanks, so that what the function returns
brings the parentheses. -/
theorem result_brings_parentheses :
    let node := fun kind named start stop fields children =>
      Node.mk ⟨kind, named, false, false, false, start, stop, fields⟩ children
    let identifier := node "identifier" true 1 2 ["parameter"] []
    let arrow := node "arrow_function" true 1 7 []
      [identifier, node "=>" false 3 5 [] [], node "identifier" true 6 7 ["body"] []]
    let root := node "program" true 0 7 [] [node ";" false 0 1 [] [], arrow]
    let source : Source := ⟨"a.ts", ";a => b", .typescript, root, 1⟩
    source.Aligned ∧
    ∃ built own, finish source .standard [some " \n", some "string"] = .ok built ∧
      built.hints.filter (· ∈ own) = own ∧
      Render.plain "a".toList (own.map (Hint.spanning "a")) = "(a): string".toList ∧
      Render.plain source.text.toList own = ";(a): string => b".toList := by
  intro node identifier arrow root source
  have aligned : source.Aligned := by decide
  obtain ⟨succeeds, shows⟩ := bare_parameter_shown_balanced source .standard
    [some " \n", some "string"] [⟨root, []⟩, ⟨node ";" false 0 1 [] [], [root]⟩]
    (source.top.walk.drop 3) ⟨arrow, [root]⟩ ⟨identifier, [arrow, root]⟩ ";" "a" " => b"
    rfl rfl rfl rfl ⟨by decide, by decide, by decide, by decide, by decide, by decide⟩
  obtain ⟨built, finished⟩ := succeeds aligned
  obtain ⟨own, _, kept, alone, inText⟩ := shows built finished
  refine ⟨aligned, built, own, finished, kept, alone.trans ?_, inText.trans ?_⟩
  · decide
  · decide

end Build

end Inlay
