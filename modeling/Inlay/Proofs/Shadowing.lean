import Inlay.Infer.Scope

/-!
Which of the bindings of a name a reference means.

`Binds` says what functions and blocks bind, in whatever form. `Declares` are the bindings among
them that can be resolved: identifiers that stand for a whole parameter or variable, and the names
of functions and classes that are not abstract. A reference is resolved to the innermost of the
latter. A nearer scope that binds the name inside a pattern alone is passed over, and so is one in
which the reference itself is declared.
-/

namespace Inlay.Infer

open Inlay.Tree

/-- A pattern binds an identifier: it is one itself, or a part of it binds one. Keys of properties
and defaults are no parts of a pattern. -/
inductive PatternBinds : Cursor → Cursor → Prop
  | name {name : Cursor}
      (kind : name.kind = "identifier" ∨ name.kind = "shorthand_property_identifier_pattern") :
      PatternBinds name name
  | part {pattern part name : Cursor}
      (kind : pattern.kind = "object_pattern" ∨ pattern.kind = "array_pattern" ∨
        pattern.kind = "rest_pattern")
      (isPart : part ∈ pattern.members) (binds : PatternBinds part name) :
      PatternBinds pattern name
  | value {pattern part name : Cursor} (kind : pattern.kind = "pair_pattern")
      (isPart : pattern.field? "value" = some part) (binds : PatternBinds part name) :
      PatternBinds pattern name
  | defaulted {pattern part name : Cursor}
      (kind : pattern.kind = "assignment_pattern" ∨ pattern.kind = "object_assignment_pattern")
      (isPart : pattern.field? "left" = some part) (binds : PatternBinds part name) :
      PatternBinds pattern name

/-- A statement stands directly in a block, or is exported there. -/
structure StatementOf (block statement : Cursor) : Prop where
  isBlock : blockKinds.contains block.kind = true
  isMember : statement ∈ block.members.filterMap exported?

/-- A statement declares a variable by this identifier or pattern. -/
structure Introduces (statement pattern : Cursor) : Prop where
  kind : variableKinds.contains statement.kind = true
  declarator : ∃ declarator ∈ statement.members,
    declarator.kind = "variable_declarator" ∧ declarator.field? "name" = some pattern

/-- A function or block binds an identifier. -/
inductive Binds (scope : Cursor) : Cursor → Prop
  | parameter {parameter name : Cursor} (isFunction : scope.isFunction = true)
      (isParameter : parameter ∈ scope.parameters)
      (binds : PatternBinds parameter.binding name) : Binds scope name
  | introduced {statement pattern name : Cursor} (isStatement : StatementOf scope statement)
      (introduces : Introduces statement pattern) (binds : PatternBinds pattern name) :
      Binds scope name
  | named {statement name : Cursor} (isStatement : StatementOf scope statement)
      (kind : namedDeclarationKinds.contains statement.kind = true ∨
        statement.kind = "abstract_class_declaration")
      (isName : statement.field? "name" = some name) : Binds scope name

/-- A function or block binds an identifier that stands for a whole parameter or variable, or for a
function or class that is not abstract. The second cursor is what references are resolved to. -/
inductive Declares (scope : Cursor) : Cursor → Cursor → Prop
  | parameter {parameter : Cursor} (isFunction : scope.isFunction = true)
      (isParameter : parameter ∈ scope.parameters)
      (kind : parameter.binding.kind = "identifier") :
      Declares scope parameter.binding parameter.binding
  | introduced {statement name : Cursor} (isStatement : StatementOf scope statement)
      (introduces : Introduces statement name) (kind : name.kind = "identifier") :
      Declares scope name name
  | named {statement name : Cursor} (isStatement : StatementOf scope statement)
      (kind : namedDeclarationKinds.contains statement.kind = true)
      (isName : statement.field? "name" = some name) : Declares scope name statement

theorem Declares.binds {scope name declaration : Cursor}
    (declares : Declares scope name declaration) : Binds scope name := by
  cases declares with
  | parameter isFunction isParameter kind =>
    exact .parameter isFunction isParameter (.name (.inl kind))
  | introduced isStatement introduces kind =>
    exact .introduced isStatement introduces (.name (.inl kind))
  | named isStatement kind isName => exact .named isStatement (.inl kind) isName

/-! ## What the search sees in one scope -/

section

variable {source : Source} {text : String} {reference scope statement name declaration : Cursor}

theorem isIdentifier_iff :
    isIdentifier source text name = true ↔
      name.kind = "identifier" ∧ source.textOf name = text := by
  simp [isIdentifier]

theorem mem_declared_iff :
    name ∈ (statement.members.filter (·.kind == "variable_declarator")).filterMap
        (·.field? "name") ↔
      ∃ declarator ∈ statement.members,
        declarator.kind = "variable_declarator" ∧ declarator.field? "name" = some name := by
  simp only [List.mem_filterMap, List.mem_filter, beq_iff_eq, and_assoc]

theorem declaredBy?_eq_some (isStatement : StatementOf scope statement)
    (found : declaredBy? source text statement = some declaration) :
    ∃ name, Declares scope name declaration ∧ source.textOf name = text := by
  unfold declaredBy? at found
  split at found
  · next isVariable =>
    have declarator := mem_declared_iff.mp (List.mem_of_find?_eq_some found)
    obtain ⟨kind, same⟩ := isIdentifier_iff.mp (List.find?_some found)
    exact ⟨declaration, .introduced isStatement ⟨isVariable, declarator⟩ kind, same⟩
  · split at found
    · next isNamed =>
      split at found
      · next same =>
        obtain rfl := Option.some.inj found
        obtain ⟨name, isName, same⟩ := (Option.any_eq_true _ _).mp same
        exact ⟨name, .named isStatement isNamed isName, by simpa using same⟩
      · simp at found
    · simp at found

theorem declaredBy?_of_introduces (introduces : Introduces statement name)
    (kind : name.kind = "identifier") :
    (declaredBy? source (source.textOf name) statement).isSome := by
  have member := mem_declared_iff.mpr introduces.declarator
  have matching : isIdentifier source (source.textOf name) name = true :=
    isIdentifier_iff.mpr ⟨kind, rfl⟩
  rw [declaredBy?, if_pos introduces.kind]
  exact List.find?_isSome.mpr ⟨name, member, matching⟩

theorem declaredBy?_of_named (kind : namedDeclarationKinds.contains statement.kind = true)
    (isName : statement.field? "name" = some name) :
    (declaredBy? source (source.textOf name) statement).isSome := by
  have plain : ¬ variableKinds.contains statement.kind = true := by
    simp only [namedDeclarationKinds, List.contains_eq_mem, List.mem_cons, List.not_mem_nil,
      or_false, decide_eq_true_eq] at kind
    rcases kind with kind | kind | kind <;> rw [kind] <;> decide
  have same : (statement.field? "name").any (source.textOf · == source.textOf name) = true := by
    simp [isName]
  rewrite [declaredBy?, if_neg plain, if_pos kind, if_pos same]
  rfl

theorem declaredIn?_eq_some (isBlock : blockKinds.contains scope.kind = true)
    (found : declaredIn? source scope text = some declaration) :
    ∃ name, Declares scope name declaration ∧ source.textOf name = text := by
  obtain ⟨statement, isMember, declared⟩ := List.exists_of_findSome?_eq_some found
  exact declaredBy?_eq_some ⟨isBlock, isMember⟩ declared

theorem declaredIn?_isSome (isMember : statement ∈ scope.members.filterMap exported?)
    (declared : (declaredBy? source text statement).isSome) :
    (declaredIn? source scope text).isSome :=
  List.findSome?_isSome_iff.mpr ⟨statement, isMember, declared⟩

theorem parameterNamed?_isSome {parameter : Cursor} (isParameter : parameter ∈ scope.parameters)
    (kind : parameter.binding.kind = "identifier") :
    (parameterNamed? source scope (source.textOf parameter.binding)).isSome :=
  List.find?_isSome.mpr ⟨parameter.binding, List.mem_map_of_mem isParameter,
    isIdentifier_iff.mpr ⟨kind, rfl⟩⟩

/-- What is found in a scope is declared there under the name. -/
theorem boundBy?_eq_some (found : boundBy? source text reference scope = some declaration) :
    ∃ name, Declares scope name declaration ∧ source.textOf name = text := by
  unfold boundBy? at found
  rcases Option.or_eq_some_iff.mp found with found | ⟨_, found⟩
  · split at found
    · next isFunction =>
      obtain ⟨parameter, isParameter, rfl⟩ := List.mem_map.mp (List.mem_of_find?_eq_some found)
      obtain ⟨kind, same⟩ := isIdentifier_iff.mp (List.find?_some found)
      exact ⟨parameter.binding, .parameter isFunction isParameter kind, same⟩
    · simp at found
  · split at found
    · next isBlock =>
      exact declaredIn?_eq_some isBlock (Option.filter_eq_some_iff.mp found).1
    · simp at found

/-- The reference stands at a declaration of its own name in the scope. -/
def StandsAtOwn (source : Source) (reference scope : Cursor) : Prop :=
  ∃ name declaration, Declares scope name declaration ∧
    source.textOf name = source.textOf reference ∧ declaration.start = reference.start

/-- A declaration of the name in a scope is found, or the reference stands at one. -/
theorem boundBy?_isSome (declares : Declares scope name declaration)
    (same : source.textOf name = source.textOf reference) :
    (boundBy? source (source.textOf reference) reference scope).isSome ∨
      StandsAtOwn source reference scope := by
  have inBlock : ∀ {statement}, StatementOf scope statement →
      (declaredBy? source (source.textOf reference) statement).isSome →
        (boundBy? source (source.textOf reference) reference scope).isSome ∨
          StandsAtOwn source reference scope := by
    intro statement isStatement declared
    have found := declaredIn?_isSome isStatement.isMember declared
    obtain ⟨first, found⟩ := Option.isSome_iff_exists.mp found
    by_cases own : first.start = reference.start
    · obtain ⟨name, declares, same⟩ := declaredIn?_eq_some isStatement.isBlock found
      exact .inr ⟨name, first, declares, same, own⟩
    · left
      have elsewhere : (declaredIn? source scope (source.textOf reference)).filter
          (·.start != reference.start) = some first := by
        simp [found, Option.filter, own]
      simp only [boundBy?, isStatement.isBlock, if_true, elsewhere]
      simp
  cases declares with
  | parameter isFunction isParameter kind =>
    have found : (parameterNamed? source scope (source.textOf reference)).isSome := by
      rw [← same]
      exact parameterNamed?_isSome isParameter kind
    left
    simp [boundBy?, isFunction, found]
  | introduced isStatement introduces kind =>
    exact inBlock isStatement (same ▸ declaredBy?_of_introduces introduces kind)
  | named isStatement kind isName =>
    exact inBlock isStatement (same ▸ declaredBy?_of_named kind isName)

/-! ## Along the scopes -/

/-- A scope binds the name of a reference, but in no way that the reference is resolved to: only
inside a pattern or by an abstract class, or where the reference itself stands. -/
structure Hides (source : Source) (reference scope : Cursor) : Prop where
  binds : ∃ name, Binds scope name ∧ source.textOf name = source.textOf reference
  unseen : (∃ name declaration, Declares scope name declaration ∧
    source.textOf name = source.textOf reference) → StandsAtOwn source reference scope

/-- A scope in which nothing is found hides what it binds. -/
theorem hides_of_not_bound
    (missing : boundBy? source (source.textOf reference) reference scope = none)
    (binds : Binds scope name) (same : source.textOf name = source.textOf reference) :
    Hides source reference scope := by
  refine ⟨⟨name, binds, same⟩, ?_⟩
  rintro ⟨plain, declaration, declares, same'⟩
  rcases boundBy?_isSome declares same' with found | own
  · simp [missing] at found
  · exact own

/-- A name means what is found in the first scope outward in which anything is found. -/
theorem resolve?_eq_some_iff :
    resolve? source reference = some declaration ↔
      ∃ nearer scope farther, reference.ancestors = nearer ++ scope :: farther ∧
        boundBy? source (source.textOf reference) reference scope = some declaration ∧
        ∀ inner ∈ nearer, boundBy? source (source.textOf reference) reference inner = none :=
  List.findSome?_eq_some_iff

end

/-- A reference that is resolved means a declaration of its name in a scope around it. No function
or block between the two binds the name if and only if none of them hides it. A reference that is
not resolved has its name bound only by scopes that hide it. -/
theorem resolves_to_innermost_unless_hidden (source : Source) (reference : Cursor) :
    (∀ declaration, resolve? source reference = some declaration →
      ∃ nearer scope farther, reference.ancestors = nearer ++ scope :: farther ∧
        (∃ name, Declares scope name declaration ∧ Binds scope name ∧
          source.textOf name = source.textOf reference) ∧
        ((∀ inner ∈ nearer, ∀ name, Binds inner name →
            source.textOf name ≠ source.textOf reference) ↔
          ∀ inner ∈ nearer, ¬ Hides source reference inner)) ∧
    (resolve? source reference = none →
      ∀ scope ∈ reference.ancestors, ∀ name, Binds scope name →
        source.textOf name = source.textOf reference → Hides source reference scope) := by
  constructor
  · intro declaration found
    obtain ⟨nearer, scope, farther, split, bound, missing⟩ := resolve?_eq_some_iff.mp found
    obtain ⟨name, declares, same⟩ := boundBy?_eq_some bound
    refine ⟨nearer, scope, farther, split, ⟨name, declares, declares.binds, same⟩, ?_⟩
    constructor
    · intro unbound inner isInner hides
      obtain ⟨name, binds, same⟩ := hides.binds
      exact unbound inner isInner name binds same
    · intro seen inner isInner name binds same
      exact seen inner isInner (hides_of_not_bound (missing inner isInner) binds same)
  · intro unresolved scope isScope name binds same
    have missing := List.findSome?_eq_none_iff.mp unresolved scope isScope
    exact hides_of_not_bound missing binds same

/-- A function has a parameter with the name of a variable outside. References in its body mean the
parameter. -/
theorem parameter_shadows_variable :
    let node := fun kind start stop fields children =>
      Node.mk ⟨kind, true, false, false, false, start, stop, fields⟩ children
    let parameter := node "identifier" 24 25 ["pattern"] []
    let required := node "required_parameter" 24 25 [] [parameter]
    let parameters := node "formal_parameters" 23 26 ["parameters"] [required]
    let value := node "identifier" 36 37 [] []
    let result := node "return_statement" 29 38 [] [value]
    let body := node "statement_block" 27 40 ["body"] [result]
    let function := node "function_declaration" 13 40 []
      [node "identifier" 22 23 ["name"] [], parameters, body]
    let root := node "program" 0 40 []
      [node "lexical_declaration" 0 12 [] [node "variable_declarator" 6 11 []
        [node "identifier" 6 7 ["name"] [], node "number" 10 11 ["value"] []]], function]
    let source : Source :=
      ⟨"a.ts", "const x = 1;\nfunction f(x) { return x; }", .typescript, root, 0⟩
    let reference : Cursor := ⟨value, [result, body, function, root]⟩
    let declaration : Cursor := ⟨parameter, [required, parameters, function, root]⟩
    resolve? source reference = some declaration ∧
      ∃ nearer scope farther, reference.ancestors = nearer ++ scope :: farther ∧
        (∃ name, Declares scope name declaration ∧ Binds scope name ∧
          source.textOf name = source.textOf reference) ∧
        ((∀ inner ∈ nearer, ∀ name, Binds inner name →
            source.textOf name ≠ source.textOf reference) ↔
          ∀ inner ∈ nearer, ¬ Hides source reference inner) := by
  intro node parameter required parameters value result body function root source reference
    declaration
  have isX : isIdentifier source (source.textOf reference) declaration = true := by decide
  have named : parameterNamed? source ⟨function, [root]⟩ (source.textOf reference) =
      some declaration := by
    show [declaration].find? _ = _
    rw [List.find?_cons_of_pos isX]
  have bound : boundBy? source (source.textOf reference) reference ⟨function, [root]⟩ =
      some declaration := by
    show (parameterNamed? source ⟨function, [root]⟩ (source.textOf reference)).or _ = _
    rw [named, Option.some_or]
  have found : resolve? source reference = some declaration :=
    resolve?_eq_some_iff.mpr ⟨[_, _], ⟨function, [root]⟩, [_], rfl, bound, by decide⟩
  exact ⟨found, (resolves_to_innermost_unless_hidden source reference).1 declaration found⟩

/-- A function takes its parameter apart, and a variable outside has the name of the part.
References in its body are resolved to the variable, past the function that binds the name. -/
theorem destructured_parameter_is_passed_over :
    let node := fun kind start stop fields children =>
      Node.mk ⟨kind, true, false, false, false, start, stop, fields⟩ children
    let property := node "shorthand_property_identifier_pattern" 26 27 [] []
    let pattern := node "object_pattern" 24 29 ["pattern"] [property]
    let required := node "required_parameter" 24 29 [] [pattern]
    let parameters := node "formal_parameters" 23 30 ["parameters"] [required]
    let value := node "identifier" 40 41 [] []
    let result := node "return_statement" 33 42 [] [value]
    let body := node "statement_block" 31 44 ["body"] [result]
    let function := node "function_declaration" 13 44 []
      [node "identifier" 22 23 ["name"] [], parameters, body]
    let constant := node "identifier" 6 7 ["name"] []
    let declarator := node "variable_declarator" 6 11 []
      [constant, node "number" 10 11 ["value"] []]
    let statement := node "lexical_declaration" 0 12 [] [declarator]
    let root := node "program" 0 44 [] [statement, function]
    let source : Source :=
      ⟨"a.ts", "const x = 1;\nfunction f({ x }) { return x; }", .typescript, root, 0⟩
    let reference : Cursor := ⟨value, [result, body, function, root]⟩
    let name : Cursor := ⟨property, [pattern, required, parameters, function, root]⟩
    let declaration : Cursor := ⟨constant, [declarator, statement, root]⟩
    resolve? source reference = some declaration ∧ Declares ⟨root, []⟩ declaration declaration ∧
      reference.ancestors =
        [⟨result, [body, function, root]⟩, ⟨body, [function, root]⟩, ⟨function, [root]⟩,
          ⟨root, []⟩] ∧
      Binds ⟨function, [root]⟩ name ∧ source.textOf name = source.textOf reference := by
  intro node property pattern required parameters value result body function constant declarator
    statement root source reference name declaration
  have isX : isIdentifier source (source.textOf reference) declaration = true := by decide
  have declared : declaredBy? source (source.textOf reference) ⟨statement, [root]⟩ =
      some declaration := by
    show [declaration].find? _ = _
    rw [List.find?_cons_of_pos isX]
  have first : declaredIn? source ⟨root, []⟩ (source.textOf reference) = some declaration := by
    show ([⟨statement, [root]⟩, _] : List Cursor).findSome? _ = _
    rw [List.findSome?_cons, declared]
  have bound : boundBy? source (source.textOf reference) reference ⟨root, []⟩ =
      some declaration := by
    show none.or ((declaredIn? source ⟨root, []⟩ (source.textOf reference)).filter _) = _
    rewrite [first]
    rfl
  have found : resolve? source reference = some declaration :=
    resolve?_eq_some_iff.mpr ⟨[_, _, _], ⟨root, []⟩, [], rfl, bound, by decide⟩
  have isStatement : StatementOf ⟨root, []⟩ ⟨statement, [root]⟩ := ⟨by decide, .head _⟩
  have introduces : Introduces ⟨statement, [root]⟩ declaration :=
    ⟨by decide, ⟨declarator, [statement, root]⟩, .head _, rfl, rfl⟩
  have binds : PatternBinds ⟨pattern, [required, parameters, function, root]⟩ name :=
    .part (.inl rfl) (.head _) (.name (.inr rfl))
  have isParameter : (⟨required, [parameters, function, root]⟩ : Cursor) ∈
      Cursor.parameters ⟨function, [root]⟩ := .head _
  exact ⟨found, .introduced isStatement introduces rfl, rfl,
    .parameter (by decide) isParameter binds, by decide⟩

end Inlay.Infer
