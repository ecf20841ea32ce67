import Inlay.Proofs.Heredity

/-!
What patterns take from literals.

An array pattern is matched against an array literal place by place, where places are counted by
commas, so that holes count. An object pattern is matched by keys, and of several members of a
literal under one key the last one counts. Inference looks for the element of an array literal that
has as many elements before it, and for the first member of an object literal under the key. Where
holes, spreads and keys that are given twice do not come between, these are the same.
-/

namespace Inlay.Infer

open Inlay.Tree

/-! ## Parts of literals -/

def isComma (cursor : Cursor) : Bool := !cursor.isNamed && cursor.kind == ","

def isSpread (cursor : Cursor) : Bool := cursor.kind == "spread_element"

/-- An element of an array pattern or literal, and the number of commas before it. -/
structure Slot where
  place : Nat
  element : Cursor

/-- The elements among children, with the commas counted on from a number. -/
def slotsFrom (place : Nat) : List Cursor → List Slot
  | [] => []
  | child :: rest =>
    if isComma child then slotsFrom (place + 1) rest
    else if child.isNamed && child.kind != "comment" then ⟨place, child⟩ :: slotsFrom place rest
    else slotsFrom place rest

def slots (cursor : Cursor) : List Slot := slotsFrom 0 cursor.children

/-- The element at a place of an array literal has a type, and no spread stands at or before it. -/
def ElementTells (answers : Answers) (literal : Cursor) (place : Nat) (type : String) : Prop :=
  ∃ before element after, slots literal = before ++ ⟨place, element⟩ :: after ∧
    (∀ slot ∈ before, isSpread slot.element = false) ∧ isSpread element = false ∧
    answers.expression element = some type

/-- The key that a member of an object literal defines. -/
def definedKey? (source : Source) (member : Cursor) : Option String :=
  if member.kind == "pair" then (member.field? "key").map (keyName source)
  else if member.kind == "shorthand_property_identifier" then some (source.textOf member)
  else if member.kind == "method_definition" then (member.field? "name").map (keyName source)
  else none

/-- The type of what a member of an object literal defines. -/
def definedType (answers : Answers) (member : Cursor) : Option String :=
  if member.kind == "pair" then (member.field? "value").bind answers.expression
  else if member.kind == "shorthand_property_identifier" then answers.reference member
  else answers.function member

/-- A member does not define a key, and is no spread, which may define it. -/
def PassesOver (source : Source) (key : String) (member : Cursor) : Prop :=
  definedKey? source member ≠ some key ∧ isSpread member = false

instance (source : Source) (key : String) (member : Cursor) :
    Decidable (PassesOver source key member) :=
  inferInstanceAs (Decidable (definedKey? source member ≠ some key ∧ isSpread member = false))

/-- The last member of an object literal that defines a key has a type, and no spread follows. -/
def MemberTells (source : Source) (answers : Answers) (literal : Cursor) (key type : String) :
    Prop :=
  ∃ before member after, literal.members = before ++ member :: after ∧
    definedKey? source member = some key ∧ (∀ later ∈ after, PassesOver source key later) ∧
    definedType answers member = some type

/-! ## Patterns and what they are matched against -/

/-- An expression is a literal of a kind, or stands for one through a number of parentheses and
variables. -/
inductive StandsFor (source : Source) (kind : String) : Nat → Cursor → Cursor → Prop
  | literal {expression : Cursor} (isKind : expression.kind = kind) :
      StandsFor source kind 0 expression expression
  | parenthesized {steps : Nat} {expression inner literal : Cursor}
      (isKind : expression.kind = "parenthesized_expression")
      (isInner : expression.members.head? = some inner)
      (stands : StandsFor source kind steps inner literal) :
      StandsFor source kind (steps + 1) expression literal
  | named {steps : Nat} {expression declaration declarator value literal : Cursor}
      (isKind : expression.kind = "identifier")
      (resolved : resolve? source expression = some declaration)
      (isParent : declaration.parent? = some declarator)
      (declares : declarator.kind = "variable_declarator")
      (isValue : declarator.field? "value" = some value)
      (stands : StandsFor source kind steps value literal) :
      StandsFor source kind (steps + 1) expression literal

/-- A declaration matches the pattern against the literal, and the literal is in reach from the
depth. -/
def Matched (source : Source) (kind : String) (depth : Nat) (pattern literal : Cursor) : Prop :=
  ∃ declarator value steps, pattern.parent? = some declarator ∧
    declarator.kind = "variable_declarator" ∧ pattern.isFieldOf declarator "name" = true ∧
    declarator.field? "value" = some value ∧ StandsFor source kind steps value literal ∧
    steps + depth ≤ maxDepth

/-- A member of an object pattern binds an identifier to what a key defines. -/
inductive BindsKey (source : Source) (pattern : Cursor) : String → Cursor → Prop
  | shorthand {member : Cursor} (isMember : member ∈ pattern.members)
      (kind : member.kind = "shorthand_property_identifier_pattern") :
      BindsKey source pattern (source.textOf member) member
  | pair {member key binding : Cursor} (isMember : member ∈ pattern.members)
      (kind : member.kind = "pair_pattern") (isKey : member.field? "key" = some key)
      (isValue : member.field? "value" = some binding) (isName : binding.kind = "identifier") :
      BindsKey source pattern (keyName source key) binding

/-- A member of an object pattern binds an identifier, with a default, to what the key of the same
name defines. -/
structure BindsWithDefault (pattern member binding : Cursor) : Prop where
  isMember : member ∈ pattern.members
  kind : member.kind = "object_assignment_pattern"
  isLeft : member.field? "left" = some binding

/-- The element of the literal with as many elements before it as an element of the pattern is the
one with as many commas before it, and comes before every spread. -/
structure Level (pattern literal : Cursor) (index : Nat) (slot : Slot) : Prop where
  even : ∀ other, (slots literal)[index]? = some other ↔
    other ∈ slots literal ∧ other.place = slot.place
  spreadless : ∀ other ∈ (slots literal).take index, isSpread other.element = false
  /-- No earlier element of the pattern begins at the same byte. -/
  apart : ∀ other ∈ (slots pattern).take index, other.element.start ≠ slot.element.start

/-- A key is defined at most once, by no method, and before every spread. -/
structure DefinedOnce (source : Source) (literal : Cursor) (key : String) : Prop where
  last : literal.members.Pairwise fun member later =>
    definedKey? source member = some key → PassesOver source key later
  plain : ∀ member ∈ literal.members, definedKey? source member = some key →
    member.kind ≠ "method_definition"

/-! ## Looking up by index and by key -/

theorem elements_slotsFrom (place : Nat) (children : List Cursor) :
    (slotsFrom place children).map Slot.element =
      children.filter fun child => child.isNamed && child.kind != "comment" := by
  induction children generalizing place with
  | nil => rfl
  | cons child rest ih =>
    unfold slotsFrom
    split
    · next comma =>
      have unnamed : child.isNamed = false := by
        simp only [isComma, Bool.and_eq_true, Bool.not_eq_true'] at comma
        exact comma.1
      rw [ih, List.filter_cons_of_neg (by simp [unnamed])]
    · split
      · next isMember => rw [List.map_cons, ih, List.filter_cons, if_pos isMember]
      · next notMember => rw [ih, List.filter_cons, if_neg notMember]

/-- The slots of a node hold its members. -/
theorem elements_slots (cursor : Cursor) : (slots cursor).map Slot.element = cursor.members :=
  elements_slotsFrom 0 cursor.children

section

variable {source : Source} {cursor target pattern literal : Cursor}

theorem parent?_of_mem_members (isMember : target ∈ cursor.members) :
    target.parent? = some cursor := by
  obtain ⟨node, _, rfl⟩ := List.mem_map.mp (List.mem_filter.mp isMember).1
  rfl

theorem parent?_of_field? {name : String} (isField : cursor.field? name = some target) :
    target.parent? = some cursor := by
  obtain ⟨node, _, rfl⟩ :=
    List.mem_map.mp (List.mem_reverse.mp (List.mem_of_find?_eq_some isField))
  rfl

theorem isFieldOf_of_field? {name : String} (isField : cursor.field? name = some target) :
    target.isFieldOf cursor name = true := by
  simp [Cursor.isFieldOf, isField, Cursor.sameExtent]

theorem literalBehind?_of_standsFor {kind : String} {steps reach : Nat}
    (stands : StandsFor source kind steps cursor literal) (near : steps < reach)
    (notParenthesized : kind ≠ "parenthesized_expression") (notName : kind ≠ "identifier") :
    literalBehind? source kind reach (some cursor) = some literal := by
  induction stands generalizing reach with
  | literal isKind =>
    obtain ⟨reach, rfl⟩ := Nat.exists_eq_add_one_of_ne_zero (Nat.ne_of_gt near)
    simp [literalBehind?, isKind]
  | parenthesized isKind isInner _ ih =>
    obtain ⟨reach, rfl⟩ := Nat.exists_eq_add_one_of_ne_zero (Nat.ne_of_gt (Nat.zero_lt_of_lt near))
    rw [literalBehind?, if_neg (by simp [isKind, notParenthesized.symm]), if_pos (by simp [isKind]),
      isInner]
    exact ih (Nat.lt_of_succ_lt_succ near)
  | named isKind resolved isParent declares isValue _ ih =>
    obtain ⟨reach, rfl⟩ := Nat.exists_eq_add_one_of_ne_zero (Nat.ne_of_gt (Nat.zero_lt_of_lt near))
    rw [literalBehind?, if_neg (by simp [isKind, notName.symm]), if_neg (by simp [isKind]),
      if_pos (by simp [isKind]), resolved, Option.bind_some, isParent]
    dsimp only
    rw [if_pos (by simp [declares]), isValue]
    exact ih (Nat.lt_of_succ_lt_succ near)

/-- The literal that a pattern is matched against is found from the depth. -/
theorem Matched.found {kind : String} {depth : Nat}
    (matched : Matched source kind depth pattern literal)
    (notParenthesized : kind ≠ "parenthesized_expression") (notName : kind ≠ "identifier") :
    literalBehind? source kind (maxDepth + 1 - depth) (patternSource? pattern) = some literal := by
  obtain ⟨declarator, value, steps, isParent, declares, isName, isValue, stands, near⟩ := matched
  have isSource : patternSource? pattern = some value := by
    simp [patternSource?, isParent, declares, isName, isValue]
  rw [isSource]
  exact literalBehind?_of_standsFor stands (by omega) notParenthesized notName

theorem Matched.typeOf {kind : String} {depth : Nat}
    (matched : Matched source kind depth pattern literal) (binding : Cursor) :
    (atDepth source depth).typeOf binding =
      bindingType source (atDepth source (depth + 1)) (maxDepth + 1 - depth) binding := by
  obtain ⟨_, _, steps, _, _, _, _, _, near⟩ := matched
  have left : maxDepth + 1 - depth = maxDepth + 1 - (depth + 1) + 1 := by omega
  rw [atDepth, left]
  rfl

/-! ### Elements -/

theorem findIdx?_start {index : Nat} {slot : Slot} (isSlot : (slots pattern)[index]? = some slot)
    (apart : ∀ other ∈ (slots pattern).take index, other.element.start ≠ slot.element.start) :
    pattern.members.findIdx? (·.start == slot.element.start) = some index := by
  obtain ⟨inBounds, isSlot⟩ := List.getElem?_eq_some_iff.mp isSlot
  rw [← elements_slots, List.findIdx?_map, List.findIdx?_eq_some_iff_getElem]
  refine ⟨inBounds, by simp [isSlot], ?_⟩
  intro earlier before
  have isEarlier : (slots pattern)[earlier] ∈ (slots pattern).take index :=
    List.mem_take_iff_getElem.mpr ⟨earlier, by omega, rfl⟩
  simpa using apart _ isEarlier

theorem destructuredElement_eq {deeper : Answers} {steps index : Nat} {slot : Slot}
    (found : literalBehind? source "array" steps (patternSource? pattern) = some literal)
    (isSlot : (slots pattern)[index]? = some slot)
    (apart : ∀ other ∈ (slots pattern).take index, other.element.start ≠ slot.element.start) :
    destructuredElement source deeper steps pattern slot.element =
      ((slots literal)[index]?).bind fun other =>
        if isSpread other.element then none else deeper.expression other.element := by
  have isElement : literal.members[index]? = ((slots literal)[index]?).map Slot.element := by
    rw [← elements_slots, List.getElem?_map]
  simp only [destructuredElement, found, findIdx?_start isSlot apart, isElement]
  cases (slots literal)[index]? with
  | none => rfl
  | some other => rfl

/-- Up to where the two are level, the type taken is that of the element at the binding's place. -/
theorem Level.elementTells_iff {answers : Answers} {index : Nat} {slot : Slot} {type : String}
    (level : Level pattern literal index slot) :
    (((slots literal)[index]?).bind fun other =>
        if isSpread other.element then none else answers.expression other.element) = some type ↔
      ElementTells answers literal slot.place type := by
  constructor
  · intro told
    obtain ⟨⟨place, element⟩, isOther, told⟩ := Option.bind_eq_some_iff.mp told
    obtain ⟨_, samePlace⟩ := (level.even _).mp isOther
    obtain ⟨inBounds, isOther⟩ := List.getElem?_eq_some_iff.mp isOther
    dsimp only at told samePlace
    split at told
    · simp at told
    · next notSpread =>
      refine ⟨(slots literal).take index, element, (slots literal).drop (index + 1), ?_,
        level.spreadless, Bool.eq_false_iff.mpr notSpread, told⟩
      rw [← samePlace, ← isOther, List.getElem_cons_drop, List.take_append_drop]
  · rintro ⟨before, element, after, split, _, notSpread, told⟩
    have isThere : (slots literal)[index]? = some ⟨slot.place, element⟩ :=
      (level.even _).mpr ⟨by simp [split], rfl⟩
    simp [isThere, notSpread, told]

/-! ### Members -/

/-- Whether a member of a literal is one that the search for a key finds. -/
def isFoundUnder (source : Source) (key : String) (member : Cursor) : Bool :=
  if member.kind == "pair" then
    (member.field? "value").isSome && (member.field? "key").any (keyName source · == key)
  else member.kind == "shorthand_property_identifier" && source.textOf member == key

theorem isFoundUnder_iff {key : String} {member : Cursor} :
    isFoundUnder source key member = true ↔ definedKey? source member = some key ∧
      member.kind ≠ "method_definition" ∧
      (member.kind = "pair" → (member.field? "value").isSome = true) := by
  by_cases isPair : member.kind = "pair"
  · simp [isFoundUnder, definedKey?, isPair, Option.any_eq_true, and_comm]
  by_cases isShorthand : member.kind = "shorthand_property_identifier"
  · simp [isFoundUnder, definedKey?, isShorthand]
  by_cases isMethod : member.kind = "method_definition"
  · simp [isFoundUnder, isMethod]
  · simp [isFoundUnder, definedKey?, isPair, isShorthand, isMethod]

theorem destructuredProperty_eq {deeper : Answers} {steps : Nat}
    (found : literalBehind? source "object" steps (patternSource? pattern) = some literal)
    (key : String) : destructuredProperty source deeper steps pattern key =
      (literal.members.find? (isFoundUnder source key)).bind (definedType deeper) := by
  cases isFound : literal.members.find? (isFoundUnder source key) with
  | none =>
    delta isFoundUnder at isFound
    simp only [destructuredProperty, found, isFound, Option.bind_none]
  | some member =>
    obtain ⟨isDefined, notMethod, _⟩ := isFoundUnder_iff.mp (List.find?_some isFound)
    delta isFoundUnder at isFound
    simp only [destructuredProperty, found, isFound, Option.bind_some, definedType]
    split
    · rfl
    · next notPair =>
      by_cases isShorthand : (member.kind == "shorthand_property_identifier") = true
      · rw [if_pos isShorthand]
      · simp [definedKey?, notPair, isShorthand, notMethod] at isDefined

/-- Where a key is defined once, the type taken is that of the last member that defines it. -/
theorem DefinedOnce.memberTells_iff {answers : Answers} {key type : String}
    (once : DefinedOnce source literal key) :
    (literal.members.find? (isFoundUnder source key)).bind (definedType answers) = some type ↔
      MemberTells source answers literal key type := by
  constructor
  · intro told
    obtain ⟨member, isFound, told⟩ := Option.bind_eq_some_iff.mp told
    obtain ⟨isUnder, before, after, split, _⟩ := List.find?_eq_some_iff_append.mp isFound
    have isDefined := (isFoundUnder_iff.mp isUnder).1
    have isLast : ∀ later ∈ after, PassesOver source key later := by
      have last := once.last
      rw [split] at last
      exact fun later isLater =>
        (List.pairwise_cons.mp (List.pairwise_append.mp last).2.1).1 later isLater isDefined
    exact ⟨before, member, after, split, isDefined, isLast, told⟩
  · rintro ⟨before, member, after, split, isDefined, _, told⟩
    have isMember : member ∈ literal.members := by simp [split]
    have hasValue : member.kind = "pair" → (member.field? "value").isSome = true := by
      intro isPair
      cases isValue : member.field? "value" with
      | none => simp [definedType, isPair, isValue] at told
      | some value => rfl
    have isUnder : isFoundUnder source key member = true :=
      isFoundUnder_iff.mpr ⟨isDefined, once.plain member isMember isDefined, hasValue⟩
    have isFirst : ∀ other ∈ before, (!isFoundUnder source key other) = true := by
      intro other isBefore
      cases isUnder : isFoundUnder source key other with
      | false => rfl
      | true =>
        have last := once.last
        rw [split] at last
        have later : PassesOver source key member :=
          (List.pairwise_append.mp last).2.2 other isBefore member (by simp)
            (isFoundUnder_iff.mp isUnder).1
        exact (later.1 isDefined).elim
    have isFound : literal.members.find? (isFoundUnder source key) = some member :=
      List.find?_eq_some_iff_append.mpr ⟨isUnder, before, after, split, isFirst⟩
    rw [isFound, Option.bind_some, told]

/-! ## Bindings -/

theorem bindingType_of_element {deeper : Answers} {steps : Nat}
    (isMember : target ∈ pattern.members) (kind : pattern.kind = "array_pattern")
    (isName : target.kind = "identifier") :
    bindingType source deeper steps target =
      destructuredElement source deeper steps pattern target := by
  simp [bindingType, parent?_of_mem_members isMember, kind, isName, Cursor.isParameter,
    parameterKinds, Cursor.isField, fieldKinds]

theorem bindingType_of_bindsKey {deeper : Answers} {steps : Nat} {key : String}
    (binds : BindsKey source pattern key target) (kind : pattern.kind = "object_pattern") :
    bindingType source deeper steps target =
      destructuredProperty source deeper steps pattern key := by
  cases binds with
  | shorthand isMember isShorthand =>
    simp [bindingType, parent?_of_mem_members isMember, kind, isShorthand, Cursor.isParameter,
      parameterKinds, Cursor.isField, fieldKinds]
  | pair isMember isPair isKey isValue isName =>
    simp [bindingType, parent?_of_field? isValue, parent?_of_mem_members isMember, isPair, isName,
      isKey, isFieldOf_of_field? isValue, Cursor.isParameter, parameterKinds, Cursor.isField,
      fieldKinds]

theorem bindingType_of_bindsWithDefault {deeper : Answers} {steps : Nat} {member : Cursor}
    (binds : BindsWithDefault pattern member target) :
    bindingType source deeper steps target =
      (destructuredProperty source deeper steps pattern (source.textOf target)).or
        (defaultType deeper member) := by
  have typed : bindingType source deeper steps target =
      defaultedType source deeper steps target member := by
    simp [bindingType, parent?_of_field? binds.isLeft, binds.kind,
      isFieldOf_of_field? binds.isLeft, Cursor.isParameter, parameterKinds, Cursor.isField,
      fieldKinds]
  rw [typed, defaultedType_eq, ownType, if_pos (by simp [binds.kind]),
    parent?_of_mem_members binds.isMember, Option.bind_some]

end

/-- No place is left out. -/
def Full (cursor : Cursor) : Prop :=
  (slots cursor).map Slot.place = List.range (slots cursor).length

theorem Full.place_eq {cursor : Cursor} (full : Full cursor) {index : Nat} {slot : Slot}
    (isSlot : (slots cursor)[index]? = some slot) : slot.place = index := by
  obtain ⟨inBounds, rfl⟩ := List.getElem?_eq_some_iff.mp isSlot
  have isPlace : ((slots cursor).map Slot.place)[index]? = some (slots cursor)[index].place := by
    rw [List.getElem?_map, isSlot, Option.map_some]
  rw [full, List.getElem?_range inBounds] at isPlace
  exact (Option.some.inj isPlace).symm

/-- Patterns and literals without holes are level up to the first spread. -/
theorem Full.level {pattern literal : Cursor} (full : Full pattern) (full' : Full literal)
    {index : Nat} {slot : Slot} (isSlot : (slots pattern)[index]? = some slot)
    (spreadless : ∀ other ∈ (slots literal).take index, isSpread other.element = false)
    (apart : ∀ other ∈ (slots pattern).take index, other.element.start ≠ slot.element.start) :
    Level pattern literal index slot := by
  refine ⟨fun other => ⟨fun isOther => ?_, ?_⟩, spreadless, apart⟩
  · exact ⟨List.mem_of_getElem? isOther, by rw [full'.place_eq isOther, full.place_eq isSlot]⟩
  · rintro ⟨isOther, samePlace⟩
    obtain ⟨place, isOther⟩ := List.getElem?_of_mem isOther
    rw [full'.place_eq isOther, full.place_eq isSlot] at samePlace
    rwa [← samePlace]

/-- A binding without a default takes the type of the element at its own place, if pattern and
literal are level up to it. They are if neither has holes and no spread comes first. A key that is
defined once takes the type of the member that defines it, and a default counts if that is not
told. -/
theorem literals_tell_parts_while_level (source : Source) (depth : Nat) (pattern literal : Cursor) :
    (Matched source "array" depth pattern literal → pattern.kind = "array_pattern" →
      ∀ index slot, (slots pattern)[index]? = some slot → slot.element.kind = "identifier" →
        Level pattern literal index slot → ∀ type,
          ((atDepth source depth).typeOf slot.element = some type ↔
            ElementTells (atDepth source (depth + 1)) literal slot.place type)) ∧
    (Full pattern → Full literal → ∀ index slot, (slots pattern)[index]? = some slot →
      (∀ other ∈ (slots literal).take index, isSpread other.element = false) →
      (∀ other ∈ (slots pattern).take index, other.element.start ≠ slot.element.start) →
        Level pattern literal index slot) ∧
    (Matched source "object" depth pattern literal → pattern.kind = "object_pattern" →
      (∀ key binding, BindsKey source pattern key binding → DefinedOnce source literal key →
        ∀ type, ((atDepth source depth).typeOf binding = some type ↔
          MemberTells source (atDepth source (depth + 1)) literal key type)) ∧
      (∀ member binding, BindsWithDefault pattern member binding →
        DefinedOnce source literal (source.textOf binding) →
        ∀ type, ((atDepth source depth).typeOf binding = some type ↔
          MemberTells source (atDepth source (depth + 1)) literal (source.textOf binding) type ∨
          (∀ own, ¬ MemberTells source (atDepth source (depth + 1)) literal
            (source.textOf binding) own) ∧
          defaultType (atDepth source (depth + 1)) member = some type))) := by
  refine ⟨?_, fun full full' _ _ => full.level full', ?_⟩
  · intro matched kind index slot isSlot isName level type
    have isMember : slot.element ∈ pattern.members := by
      rw [← elements_slots]
      exact List.mem_map_of_mem (List.mem_of_getElem? isSlot)
    rw [matched.typeOf, bindingType_of_element isMember kind isName,
      destructuredElement_eq (matched.found (by decide) (by decide)) isSlot level.apart]
    exact level.elementTells_iff
  · intro matched kind
    have found := matched.found (by decide) (by decide)
    constructor
    · intro key binding binds once type
      rw [matched.typeOf, bindingType_of_bindsKey binds kind, destructuredProperty_eq found]
      exact once.memberTells_iff
    · intro member binding binds once type
      rw [matched.typeOf, bindingType_of_bindsWithDefault binds, destructuredProperty_eq found,
        Option.or_eq_some_iff, once.memberTells_iff, Option.eq_none_iff_forall_ne_some]
      simp only [ne_eq, once.memberTells_iff]

/-- The hole of the literal is where the pattern has one, and each key is defined once. -/
theorem even_holes_and_keys_tell_parts :
    let node := fun kind start stop fields children =>
      Node.mk ⟨kind, true, false, false, false, start, stop, fields⟩ children
    let comma := fun start => Node.mk ⟨",", false, false, false, false, start, start + 1, []⟩ []
    let bound := node "identifier" 12 13 [] []
    let elements := node "array_pattern" 6 14 ["name"]
      [node "identifier" 7 8 [] [], comma 8, comma 10, bound]
    let number := node "number" 18 19 [] []
    let truth := node "true" 23 27 [] []
    let array := node "array" 17 28 ["value"] [number, comma 19, comma 21, truth]
    let first := node "variable_declarator" 6 28 [] [elements, array]
    let key := node "property_identifier" 32 33 ["key"] []
    let renamed := node "identifier" 35 36 ["value"] []
    let pair := node "pair_pattern" 32 36 [] [key, renamed]
    let left := node "shorthand_property_identifier_pattern" 38 39 ["left"] []
    let defaulted := node "object_assignment_pattern" 38 43 []
      [left, node "number" 42 43 ["right"] []]
    let keys := node "object_pattern" 30 45 ["name"] [pair, comma 36, defaulted]
    let member := node "pair" 50 57 []
      [node "property_identifier" 50 51 ["key"] [], node "true" 53 57 ["value"] []]
    let member' := node "pair" 59 66 []
      [node "property_identifier" 59 60 ["key"] [], node "null" 62 66 ["value"] []]
    let object := node "object" 48 68 ["value"] [member, comma 57, member']
    let second := node "variable_declarator" 30 68 [] [keys, object]
    let declaration := node "lexical_declaration" 0 69 [] [first, comma 28, second]
    let root := node "program" 0 69 [] [declaration]
    let source : Source := ⟨"a.ts",
      "const [a, , c] = [1, , true], { k: v, w = 0 } = { k: true, w: null };", .typescript, root, 0⟩
    let above := [declaration, root]
    (atDepth source 0).typeOf ⟨bound, elements :: first :: above⟩ = some "boolean" ∧
      (atDepth source 0).typeOf ⟨renamed, pair :: keys :: second :: above⟩ = some "boolean" ∧
      (atDepth source 0).typeOf ⟨left, defaulted :: keys :: second :: above⟩ = some "null" := by
  intro node comma bound elements number truth array first key renamed pair left defaulted keys
    member member' object second declaration root source above
  let inArray := array :: first :: above
  let inObject := object :: second :: above
  have matched : Matched source "array" 0 ⟨elements, first :: above⟩ ⟨array, first :: above⟩ :=
    ⟨⟨first, above⟩, ⟨array, first :: above⟩, 0, rfl, rfl, rfl, rfl, .literal rfl, by decide⟩
  have level : Level ⟨elements, first :: above⟩ ⟨array, first :: above⟩ 1
      ⟨2, ⟨bound, elements :: first :: above⟩⟩ := by
    have isSlots : slots ⟨array, first :: above⟩ =
      [⟨0, ⟨number, inArray⟩⟩, ⟨2, ⟨truth, inArray⟩⟩] := rfl
    refine ⟨fun other => ⟨?_, ?_⟩, by decide, by decide⟩
    · intro isOther
      refine ⟨List.mem_of_getElem? isOther, ?_⟩
      obtain rfl := Option.some.inj isOther
      rfl
    · rintro ⟨isOther, samePlace⟩
      rw [isSlots] at isOther
      rcases isOther with _ | ⟨_, _ | ⟨_, isOther⟩⟩
      · exact absurd samePlace (by decide)
      · rfl
      · cases isOther
  have told : ElementTells (atDepth source 1) ⟨array, first :: above⟩ 2 "boolean" :=
    ⟨[⟨0, ⟨number, inArray⟩⟩], ⟨truth, inArray⟩, [], rfl, by decide, rfl, by decide⟩
  have matched' : Matched source "object" 0 ⟨keys, second :: above⟩ ⟨object, second :: above⟩ :=
    ⟨⟨second, above⟩, ⟨object, second :: above⟩, 0, rfl, rfl, rfl, rfl, .literal rfl, by decide⟩
  have binds : BindsKey source ⟨keys, second :: above⟩
      (keyName source ⟨key, pair :: keys :: second :: above⟩)
      ⟨renamed, pair :: keys :: second :: above⟩ :=
    .pair (.head _) rfl rfl rfl rfl
  have binds' : BindsWithDefault ⟨keys, second :: above⟩ ⟨defaulted, keys :: second :: above⟩
      ⟨left, defaulted :: keys :: second :: above⟩ :=
    ⟨.tail _ (.head _), rfl, rfl⟩
  have told' : MemberTells source (atDepth source 1) ⟨object, second :: above⟩
      (keyName source ⟨key, pair :: keys :: second :: above⟩) "boolean" :=
    ⟨[], ⟨member, inObject⟩, [⟨member', inObject⟩], rfl, by decide, by decide, by decide⟩
  have told'' : MemberTells source (atDepth source 1) ⟨object, second :: above⟩
      (source.textOf ⟨left, defaulted :: keys :: second :: above⟩) "null" :=
    ⟨[⟨member, inObject⟩], ⟨member', inObject⟩, [], rfl, by decide, by decide, by decide⟩
  have ⟨elementTold, _, _⟩ := literals_tell_parts_while_level source 0
    ⟨elements, first :: above⟩ ⟨array, first :: above⟩
  have ⟨_, _, membersTold⟩ := literals_tell_parts_while_level source 0
    ⟨keys, second :: above⟩ ⟨object, second :: above⟩
  have ⟨memberTold, defaultedTold⟩ := membersTold matched' rfl
  exact ⟨(elementTold matched rfl 1 _ rfl rfl level _).mpr told,
    (memberTold _ _ binds ⟨by decide, by decide⟩ _).mpr told',
    (defaultedTold _ _ binds' ⟨by decide, by decide⟩ _).mpr (.inl told'')⟩

/-- After a hole that only the pattern has, the type is that of the element before. Of two members
under one key the first counts. -/
theorem holes_and_repeated_keys_shift_types :
    let node := fun kind start stop fields children =>
      Node.mk ⟨kind, true, false, false, false, start, stop, fields⟩ children
    let comma := fun start => Node.mk ⟨",", false, false, false, false, start, start + 1, []⟩ []
    let bound := node "identifier" 12 13 [] []
    let elements := node "array_pattern" 6 14 ["name"]
      [node "identifier" 7 8 [] [], comma 8, comma 10, bound]
    let one := node "number" 18 19 [] []
    let two := node "number" 21 22 [] []
    let truth := node "true" 24 28 [] []
    let array := node "array" 17 29 ["value"] [one, comma 19, two, comma 22, truth]
    let first := node "variable_declarator" 6 29 [] [elements, array]
    let name := node "shorthand_property_identifier_pattern" 33 34 [] []
    let keys := node "object_pattern" 31 36 ["name"] [name]
    let member := node "pair" 41 45 []
      [node "property_identifier" 41 42 ["key"] [], node "number" 44 45 ["value"] []]
    let member' := node "pair" 47 54 []
      [node "property_identifier" 47 48 ["key"] [], node "true" 50 54 ["value"] []]
    let object := node "object" 39 56 ["value"] [member, comma 45, member']
    let second := node "variable_declarator" 31 56 [] [keys, object]
    let declaration := node "lexical_declaration" 0 57 [] [first, comma 29, second]
    let root := node "program" 0 57 [] [declaration]
    let source : Source := ⟨"a.ts",
      "const [a, , c] = [1, 2, true], { k } = { k: 1, k: true };", .typescript, root, 0⟩
    let above := [declaration, root]
    ElementTells (atDepth source 1) ⟨array, first :: above⟩ 2 "boolean" ∧
      (slots ⟨elements, first :: above⟩)[1]? =
        some ⟨2, ⟨bound, elements :: first :: above⟩⟩ ∧
      (atDepth source 0).typeOf ⟨bound, elements :: first :: above⟩ = some "number" ∧
      MemberTells source (atDepth source 1) ⟨object, second :: above⟩ "k" "boolean" ∧
      BindsKey source ⟨keys, second :: above⟩ "k" ⟨name, keys :: second :: above⟩ ∧
      (atDepth source 0).typeOf ⟨name, keys :: second :: above⟩ = some "number" := by
  intro node comma bound elements one two truth array first name keys member member' object second
    declaration root source above
  let inArray := array :: first :: above
  let inObject := object :: second :: above
  have isKey : source.textOf ⟨name, keys :: second :: above⟩ = "k" := by decide
  refine ⟨⟨[⟨0, ⟨one, inArray⟩⟩, ⟨1, ⟨two, inArray⟩⟩], ⟨truth, inArray⟩, [], rfl, by decide, rfl,
    by decide⟩, rfl, by decide, ⟨[⟨member, inObject⟩], ⟨member', inObject⟩, [], rfl, by decide,
    by decide, by decide⟩, ?_, by decide⟩
  rw [← isKey]
  exact .shorthand (.head _) rfl

end Inlay.Infer
