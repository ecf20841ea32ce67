import Inlay.Proofs.Reading

/-!
Unions that read back.

The members of a union are put together with bars and nothing else, so a function type among several
members takes those after it for its own result, and cannot be read after others. All other members
read back, and so do the arrays of unions, which stand in parentheses.
-/

namespace Inlay.TypeText

open Inlay.Text

/-- Whether a text is a function type that is not in parentheses. -/
def isSigned (text : String) : Bool := (signature? text.toList).isSome

/-- The text reads as the union of what the different parts read as. -/
def Denotes (text : String) (parts : List String) : Prop :=
  ∃ types type, List.Forall₂ Reads parts.eraseDups types ∧ Reads text type ∧
    type.members = types.flatMap Reading.members

/-- The text reads as an array of the union of what the different parts read as. -/
def DenotesArray (text : String) (parts : List String) : Prop :=
  ∃ types type, List.Forall₂ Reads parts.eraseDups types ∧ Reads text (.array type) ∧
    type.members = types.flatMap Reading.members

/-- No function type is one of several parts. -/
def StandAlone (parts : List String) : Prop :=
  parts.eraseDups.length = 1 ∨ ∀ part ∈ parts, isSigned part = false

def Readable (text : String) : Prop := ∃ type, Reads text type

/-! ## Bars -/

section

variable {text : String} {type : Reading} {parts : List String} {types : List Reading}

theorem Reads.closed (reads : Reads text type) : Closed text.toList := by
  obtain ⟨depth, read⟩ := reads
  cases depth with
  | zero => simp [readWithin] at read
  | succ depth =>
    rcases readType_eq_some_iff.mp read with ⟨_, _, _, closed, _⟩ | ⟨_, apart, _⟩
    · exact closed
    · exact apart.closed

theorem exists_depth (reads : List.Forall₂ Reads parts types) : ∃ depth,
    List.Forall₂ (fun part type => readWithin (depth + 1) part.toList = some type) parts types := by
  induction reads with
  | nil => exact ⟨0, .nil⟩
  | cons first _ ih =>
    obtain ⟨depth, rest⟩ := ih
    obtain ⟨depth', first⟩ := first
    refine ⟨max depth depth', .cons (readWithin_mono (by omega) first) ?_⟩
    exact rest.imp fun _ _ read => readWithin_mono (by omega) read

theorem apart_of_read {depth : Nat} (read : readWithin (depth + 1) text.toList = some type)
    (unsigned : isSigned text = false) :
    ∃ types, Apart (readWithin depth) text.toList types ∧ Reading.join types = some type := by
  rcases readType_eq_some_iff.mp read with ⟨_, _, _, _, signed, _⟩ | apart
  · simp [isSigned, signed] at unsigned
  · exact apart

/-- Parts that are no function types are read one after the other. -/
theorem apart_intercalate {depth : Nat}
    (read : List.Forall₂ (fun part type => readWithin (depth + 1) part.toList = some type) parts
      types)
    (nonempty : parts ≠ []) (unsigned : ∀ part ∈ parts, isSigned part = false) :
    ∃ all, Apart (readWithin depth) (" | ".toList.intercalate (parts.map String.toList)) all ∧
      all.flatMap Reading.members = types.flatMap Reading.members := by
  induction read with
  | nil => exact (nonempty rfl).elim
  | @cons part type parts types read rest ih =>
    obtain ⟨own, apart, joined⟩ := apart_of_read read (unsigned part (.head _))
    have isMembers := Reading.members_join joined
    cases rest with
    | nil => exact ⟨own, by simpa using apart, by simp [isMembers]⟩
    | cons second rest =>
      obtain ⟨all, apart', isMembers'⟩ :=
        ih (by simp) fun part isPart => unsigned part (.tail _ isPart)
      refine ⟨own ++ all, ?_, ?_⟩
      · rw [List.map_cons, List.map_cons, List.intercalate_cons_cons]
        exact apart.bar apart'
      · rw [List.flatMap_append, isMembers', ← isMembers]
        rfl

theorem isLoose_intercalate (closed : ∀ part ∈ parts, Closed part.toList) {part : String}
    (isPart : part ∈ parts) (loose : isLoose Scan.start part.toList = true) :
    isLoose Scan.start (" | ".toList.intercalate (parts.map String.toList)) = true := by
  induction parts with
  | nil => simp at isPart
  | cons first rest ih =>
    cases rest with
    | nil =>
      obtain rfl := List.mem_singleton.mp isPart
      simpa using loose
    | cons second rest =>
      have firstClosed := closed first (.head _)
      rw [List.map_cons, List.map_cons, List.intercalate_cons_cons,
        isLoose_append (firstClosed.append (by decide : Closed " | ".toList)),
        isLoose_append firstClosed]
      rcases List.mem_cons.mp isPart with rfl | later
      · simp [loose]
      · have later := ih (fun part isPart => closed part (.tail _ isPart)) later
        rw [← List.map_cons, later, Bool.or_true]

theorem toList_union (parts : List String) : (union parts).toList =
    " | ".toList.intercalate (parts.eraseDups.map String.toList) :=
  String.toList_intercalate

theorem eraseDups_ne_nil (nonempty : parts ≠ []) : parts.eraseDups ≠ [] := by
  obtain ⟨first, rest, rfl⟩ := List.exists_cons_of_ne_nil nonempty
  simp [List.eraseDups_cons]

theorem exists_readings (readable : ∀ part ∈ parts, Readable part) :
    ∃ types, List.Forall₂ Reads parts types := by
  induction parts with
  | nil => exact ⟨[], .nil⟩
  | cons first rest ih =>
    obtain ⟨types, reads⟩ := ih fun part isPart => readable part (.tail _ isPart)
    obtain ⟨type, readsFirst⟩ := readable first (.head _)
    exact ⟨type :: types, .cons readsFirst reads⟩

/-- A union reads back unless a function type is one of several members. -/
theorem denotes_union (nonempty : parts ≠ []) (readable : ∀ part ∈ parts, Readable part)
    (alone : StandAlone parts) : Denotes (union parts) parts := by
  obtain ⟨types, reads⟩ := exists_readings fun part isPart =>
    readable part (List.mem_eraseDups.mp isPart)
  rcases alone with single | unsigned
  · obtain ⟨part, isSingle⟩ := List.length_eq_one_iff.mp single
    have isUnion : union parts = part := by
      rw [union, isSingle]
      rfl
    obtain ⟨type, readsPart⟩ := readable part (List.mem_eraseDups.mp (by simp [isSingle]))
    exact ⟨[type], type, by simpa [isSingle] using readsPart, by rwa [isUnion], by simp⟩
  · obtain ⟨depth, read⟩ := exists_depth reads
    obtain ⟨all, apart, isMembers⟩ := apart_intercalate read (eraseDups_ne_nil nonempty)
      fun part isPart => unsigned part (List.mem_eraseDups.mp isPart)
    obtain ⟨type, joined⟩ := Reading.exists_join apart.ne_nil
    have readsUnion : readWithin (depth + 1) (union parts).toList = some type := by
      rw [toList_union]
      exact readType_eq_some_iff.mpr (.inr ⟨all, apart, joined⟩)
    exact ⟨types, type, reads, ⟨depth + 1, readsUnion⟩,
      (Reading.members_join joined).trans isMembers⟩

theorem length_flatMap_members (types : List Reading) :
    types.length ≤ (types.flatMap Reading.members).length := by
  induction types with
  | nil => simp
  | cons type types ih =>
    have := type.length_members_pos
    simp only [List.flatMap_cons, List.length_append, List.length_cons]
    omega

/-- A union that begins with a function type, and has other members, is a function type. -/
theorem length_members_of_signed {depth : Nat} {text : List Char} {parts : List Char × List Char}
    (signed : signature? text = some parts) (read : readWithin depth text = some type) :
    type.members.length = 1 := by
  cases depth with
  | zero => simp [readWithin] at read
  | succ depth =>
    rcases readType_eq_some_iff.mp read with ⟨_, _, _, _, _, _, rfl⟩ | ⟨_, apart, _⟩
    · rfl
    · simp [apart.unsigned] at signed

theorem read_eq_none_of_loose {depth : Nat} {text : List Char}
    (unsigned : signature? text = none) (loose : isLoose Scan.start text = true) :
    readWithin depth text = none := by
  cases depth with
  | zero => rfl
  | succ depth =>
    cases read : readWithin (depth + 1) text with
    | none => rfl
    | some type =>
      rcases readType_eq_some_iff.mp read with ⟨_, _, _, _, signed, _⟩ | ⟨_, apart, _⟩
      · simp [unsigned] at signed
      · simp [apart.tight] at loose

theorem readable_of_reads (reads : List.Forall₂ Reads parts types) :
    ∀ part ∈ parts, Readable part := by
  induction reads with
  | nil => simp
  | cons first _ ih =>
    intro part isPart
    rcases List.mem_cons.mp isPart with rfl | isPart
    · exact ⟨_, first⟩
    · exact ih part isPart

/-- The first of several parts decides how their union begins: as a function type, which then takes
all the others, or not, and then the arrow of a later one is loose. -/
theorem unsigned_of_read {depth : Nat} (reads : List.Forall₂ Reads parts types)
    (several : parts.length ≠ 1)
    (read : readWithin depth (" | ".toList.intercalate (parts.map String.toList)) = some type)
    (isMembers : type.members = types.flatMap Reading.members) :
    ∀ part ∈ parts, isSigned part = false := by
  intro part isPart
  have closed : ∀ part ∈ parts, Closed part.toList := by
    intro part isPart
    obtain ⟨_, readsPart⟩ := readable_of_reads reads part isPart
    exact readsPart.closed
  have long : parts.length ≤ type.members.length := by
    rw [isMembers, reads.length_eq]
    exact length_flatMap_members types
  cases signed : isSigned part with
  | false => rfl
  | true =>
    obtain ⟨signature, isSignature⟩ := Option.isSome_iff_exists.mp signed
    have loose := isLoose_intercalate closed isPart (isLoose_of_signature? isSignature)
    obtain ⟨first, rest, rfl⟩ := List.exists_cons_of_ne_nil (List.ne_nil_of_mem isPart)
    cases rest with
    | nil => exact (several rfl).elim
    | cons second rest =>
      rw [List.map_cons, List.map_cons, List.intercalate_cons_cons, List.append_assoc] at read loose
      cases begins : signature? first.toList with
      | some signature =>
        have short := length_members_of_signed (signature?_append begins _) read
        simp only [List.length_cons] at long
        omega
      | none =>
        have unsigned := signature?_bar (closed first (.head _)) begins
        rw [read_eq_none_of_loose (unsigned _) loose] at read
        simp at read

theorem denotes_union_iff (nonempty : parts ≠ []) (readable : ∀ part ∈ parts, Readable part) :
    Denotes (union parts) parts ↔ StandAlone parts := by
  constructor
  · rintro ⟨types, type, reads, ⟨depth, read⟩, isMembers⟩
    by_cases single : parts.eraseDups.length = 1
    · exact .inl single
    · right
      intro part isPart
      rw [toList_union] at read
      exact unsigned_of_read reads single read isMembers part (List.mem_eraseDups.mpr isPart)
  · exact denotes_union nonempty readable

end

/-! ## Arrays -/

/-- What is loose is an arrow or an ampersand. -/
theorem occursIn_of_isLoose {scan : Scan} {text : List Char} (loose : isLoose scan text = true) :
    scan.afterEquals = true ∧ text.head? = some '>' ∨
      occursIn ['=', '>'] text = true ∨ occursIn ['&'] text = true := by
  induction text generalizing scan with
  | nil => simp [isLoose] at loose
  | cons c text ih =>
    simp only [isLoose, Bool.or_eq_true, Bool.and_eq_true, beq_iff_eq] at loose
    rcases loose with ⟨_, ⟨afterEquals, rfl⟩ | rfl⟩ | later
    · exact .inl ⟨afterEquals, rfl⟩
    · exact .inr (.inr (occursIn_of_mem (.head _)))
    · obtain ⟨next, stepped, loose⟩ := (Option.any_eq_true _ _).mp later
      rcases ih loose with ⟨afterEquals, closes⟩ | arrow | ampersand
      · obtain rfl := Scan.eq_of_afterEquals stepped afterEquals
        obtain ⟨rest, rfl⟩ := List.head?_eq_some_iff.mp closes
        exact .inr (.inl (occursIn_of_after? (by simp [after?])))
      · exact .inr (.inl (occursIn_cons arrow c))
      · exact .inr (.inr (occursIn_cons ampersand c))

section

variable {element : String} {type : Reading}

/-- A type in parentheses with square brackets after them is an array of it. -/
theorem readWithin_wrapped (closed : Closed element.toList) (depth : Nat) :
    readWithin (depth + 1) ("(".toList ++ element.toList ++ ")[]".toList) =
      (readWithin depth element.toList).map .array := by
  have unsigned : signature? ("(".toList ++ element.toList ++ ")[]".toList) = none := by
    have grouped := group?_of_closed closed "[]".toList
    cases found : signature? ("(".toList ++ element.toList ++ ")[]".toList) with
    | none => rfl
    | some parts =>
      obtain ⟨rest, grouped', arrow⟩ := signature?_eq_some_iff.mp found
      obtain ⟨_, rfl⟩ := Prod.mk.inj (Option.some.inj (grouped.symm.trans grouped'))
      have bare : "[]".toList.dropWhile isBlank = ['[', ']'] := rfl
      exact absurd (bare.symm.trans arrow) (by simp)
  have isPrimary : readPiece (readWithin depth) ('(' :: element.toList ++ [')']) =
      readWithin depth element.toList := by
    rw [readPiece_of_ends (by decide) (by decide) (by decide), readPrimary,
      group?_of_closed closed []]
    rfl
  have isPiece : "(".toList ++ element.toList ++ ")[]".toList =
      '(' :: element.toList ++ [')'] ++ ['[', ']'] := by simp
  rw [readWithin, readType_within closed ')' (by decide) (by decide) (by decide) (by decide)
    unsigned, isPiece, readPiece_suffix, isPrimary]

/-- Without bars, arrows and ampersands there is nothing that square brackets could break apart. -/
theorem readWithin_unwrapped (closed : Closed element.toList) (barless : '|' ∉ element.toList)
    (tight : isLoose Scan.start element.toList = false) (depth : Nat) :
    readWithin (depth + 1) (element.toList ++ "[]".toList) =
      (readWithin (depth + 1) element.toList).map .array := by
  have suffixClosed : Closed "[]".toList := by decide
  have unsigned : signature? element.toList = none := by
    cases found : signature? element.toList with
    | none => rfl
    | some parts => simp [isLoose_of_signature? found] at tight
  have unsigned' : signature? (element.toList ++ "[]".toList) = none :=
    signature?_append_eq_none closed unsigned (by decide) (by rfl : _ = '[' :: [']']) (by decide)
      (by decide)
  have tight' : isLoose Scan.start (element.toList ++ "[]".toList) = false := by
    rw [isLoose_append closed, tight]
    rfl
  have barless' : '|' ∉ element.toList ++ "[]".toList := by simpa using barless
  rw [readWithin, readWithin, readType_eq_readPiece closed unsigned tight
      (pieces_of_not_mem closed barless),
    readType_eq_readPiece (closed.append suffixClosed) unsigned' tight'
      (pieces_of_not_mem (closed.append suffixClosed) barless')]
  exact readPiece_suffix element.toList

theorem reads_array_iff (closed : Closed element.toList) :
    Reads (array element) (.array type) ↔ Reads element type := by
  have isArray : ∀ read : Option Reading, read.map Reading.array = some (.array type) ↔
      read = some type := by
    intro read
    cases read <;> simp
  unfold array wrap
  dsimp only
  split
  · have isText : ("(" ++ element ++ ")" ++ "[]").toList =
        "(".toList ++ element.toList ++ ")[]".toList := by simp
    constructor
    · rintro ⟨depth, read⟩
      cases depth with
      | zero => simp [readWithin] at read
      | succ depth =>
        rw [isText, readWithin_wrapped closed, isArray] at read
        exact ⟨depth, read⟩
    · rintro ⟨depth, read⟩
      refine ⟨depth + 1, ?_⟩
      rw [isText, readWithin_wrapped closed, isArray, read]
  · next plain =>
    simp only [Bool.or_eq_true, not_or, Bool.not_eq_true] at plain
    obtain ⟨⟨noBar, noArrow⟩, noAmpersand⟩ := plain
    have barless : '|' ∉ element.toList := by
      intro bar
      simp [occursIn_of_mem bar] at noBar
    have tight : isLoose Scan.start element.toList = false := by
      cases loose : isLoose Scan.start element.toList with
      | false => rfl
      | true =>
        rcases occursIn_of_isLoose loose with ⟨afterEquals, _⟩ | arrow | ampersand
        · simp [Scan.start] at afterEquals
        · simp [arrow] at noArrow
        · simp [ampersand] at noAmpersand
    constructor
    · rintro ⟨depth, read⟩
      cases depth with
      | zero => simp [readWithin] at read
      | succ depth =>
        rw [String.toList_append, readWithin_unwrapped closed barless tight, isArray] at read
        exact ⟨depth + 1, read⟩
    · rintro ⟨depth, read⟩
      cases depth with
      | zero => simp [readWithin] at read
      | succ depth =>
        refine ⟨depth + 1, ?_⟩
        rw [String.toList_append, readWithin_unwrapped closed barless tight, isArray, read]

theorem denotesArray_iff {parts : List String} (nonempty : parts ≠ [])
    (readable : ∀ part ∈ parts, Readable part) :
    DenotesArray (array (union parts)) parts ↔ StandAlone parts := by
  have closed : Closed (union parts).toList := by
    apply closed_union
    intro part isPart
    obtain ⟨_, reads⟩ := readable part isPart
    exact reads.closed
  rw [← denotes_union_iff nonempty readable]
  simp only [DenotesArray, Denotes, reads_array_iff closed]

end

/-! ## Texts that can be read -/

theorem Readable.ne_empty {text : String} (readable : Readable text) : text ≠ "" := by
  rintro rfl
  obtain ⟨type, depth, read⟩ := readable
  cases depth with
  | zero => simp [readWithin] at read
  | succ depth =>
    have unread : readType (readWithin depth) [] = none :=
      readType_eq_readPiece (by decide) (by decide) (by decide) (by decide)
    cases unread.symm.trans read

section

variable {text : List Char} {first last : Char}

theorem signature?_of_first (notBlank : isBlank first = false) (noOpener : first ≠ '(') :
    signature? (first :: text) = none := by
  rw [signature?, List.dropWhile_cons_of_neg (by simp [notBlank]), group?]
  · rfl
  · intro rest same
    exact (noOpener (List.cons.inj same).1).elim

/-- A name before brackets, or none, is not looked into. -/
theorem readWithin_plain (closed : Closed text) (d : Char) {front back : List Char}
    (opens : Scan.start.run (first :: front) = some ⟨[d], false⟩)
    (closes : Scan.run ⟨[d], false⟩ (back ++ [last]) = some Scan.start)
    (frontWhole : isLoose Scan.start (first :: front) = false ∧
      pieces Scan.start (first :: front) = [first :: front])
    (backWhole : isLoose ⟨[d], false⟩ (back ++ [last]) = false ∧
      pieces ⟨[d], false⟩ (back ++ [last]) = [back ++ [last]])
    (isFirst : isBlank first = false ∧ first ≠ '(') (isLast : isBlank last = false ∧ last ≠ ']') :
    readWithin 1 (first :: front ++ text ++ (back ++ [last])) =
      some (.plain (first :: front ++ text ++ (back ++ [last]))) := by
  have unsigned : signature? (first :: front ++ text ++ (back ++ [last])) = none :=
    signature?_of_first isFirst.1 isFirst.2
  have noGroup : group? (first :: (front ++ text ++ back) ++ [last]) = none := by
    rw [List.cons_append, group?]
    intro rest same
    exact (isFirst.2 (List.cons.inj same).1).elim
  have isPiece : first :: front ++ text ++ (back ++ [last]) =
      first :: (front ++ text ++ back) ++ [last] := by simp
  rw [readWithin, readType_within closed d opens closes frontWhole backWhole unsigned, isPiece,
    readPiece_of_ends isFirst.1 isLast.1 isLast.2, readPrimary, noGroup]

end

section

variable {type : String}

theorem readable_object {members : List String}
    (closed : ∀ member ∈ members, Closed member.toList) : Readable (object members) := by
  cases members with
  | nil => exact ⟨.plain "\x7b\x7d".toList, 1, by decide⟩
  | cons first rest =>
    have inside := closed_intercalate (by decide : Closed " ".toList) closed
    have isText : (object (first :: rest)).toList =
        '\x7b' :: [' '] ++ (" ".intercalate (first :: rest)).toList ++ ([' '] ++ ['\x7d']) := by
      simp [object]
    refine ⟨.plain (object (first :: rest)).toList, 1, ?_⟩
    rw [isText]
    exact readWithin_plain inside '\x7d' (by decide) (by decide) (by decide) (by decide) (by decide)
      (by decide)

theorem readable_promise (closed : Closed type.toList) : Readable (promise type) := by
  have isText : (promise type).toList =
      'P' :: "romise<".toList ++ type.toList ++ ([] ++ ['>']) := by simp [promise]
  refine ⟨.plain (promise type).toList, 1, ?_⟩
  rw [isText]
  exact readWithin_plain closed '>' (by decide) (by decide) (by decide) (by decide) (by decide)
    (by decide)

theorem readable_function {parameters : List String}
    (closed : ∀ parameter ∈ parameters, Closed parameter.toList) (readable : Readable type) :
    Readable (function parameters type) := by
  obtain ⟨returned, reads⟩ := readable
  have inside := closed_intercalate (by decide : Closed ", ".toList) closed
  have isText : (function parameters type).toList =
      '(' :: (", ".intercalate parameters).toList ++ ')' :: (" => ".toList ++ type.toList) := by
    simp [function]
  have signed : signature? (function parameters type).toList =
      some ((", ".intercalate parameters).toList, ' ' :: type.toList) := by
    rw [isText]
    exact signature?_eq_some_iff.mpr ⟨_, group?_of_closed inside _, rfl⟩
  have typeClosed := reads.closed
  obtain ⟨depth, read⟩ := reads
  cases depth with
  | zero => simp [readWithin] at read
  | succ depth =>
    have readBlank : readWithin (depth + 1) (' ' :: type.toList) = some returned :=
      (readType_blank _).trans read
    exact ⟨.function _ returned, depth + 2, readType_eq_some_iff.mpr
      (.inl ⟨_, _, returned, closed_function closed typeClosed, signed, readBlank, rfl⟩)⟩

end

/-- Names of types that stand for themselves. -/
def basicTypes : List String := "any" :: "void" :: Infer.literalTypes.map Prod.snd

/-- Texts that are built from names of types, unions with no function type among several members
included. -/
inductive Assembled : String → Prop
  | basic {name : String} (isBasic : name ∈ basicTypes) : Assembled name
  | array {element : String} (built : Assembled element) : Assembled (array element)
  | object {members : List (String × String)}
      (labels : ∀ field ∈ members, Balanced field.1.toList)
      (built : ∀ field ∈ members, Assembled field.2) :
      Assembled (object (members.map fun field => member field.1 field.2))
  | function {parameters : List String} {returned : String}
      (closed : ∀ parameter ∈ parameters, Closed parameter.toList) (built : Assembled returned) :
      Assembled (function parameters returned)
  | promise {type : String} (built : Assembled type) : Assembled (promise type)
  | union {parts : List String} (nonempty : parts ≠ []) (built : ∀ part ∈ parts, Assembled part)
      (alone : StandAlone parts) : Assembled (union parts)

theorem Assembled.readable {text : String} (built : Assembled text) : Readable text := by
  induction built with
  | @basic name isBasic =>
    have read : ∀ name ∈ basicTypes, readWithin 1 name.toList = some (.plain name.toList) := by
      decide
    exact ⟨_, 1, read name isBasic⟩
  | array _ readable =>
    obtain ⟨type, reads⟩ := readable
    exact ⟨.array type, (reads_array_iff reads.closed).mpr reads⟩
  | object labels _ readable =>
    apply readable_object
    intro text isMember
    obtain ⟨field, isField, rfl⟩ := List.mem_map.mp isMember
    obtain ⟨_, reads⟩ := readable field isField
    exact closed_member (labels field isField) reads.closed
  | function closed _ readable => exact readable_function closed readable
  | promise _ readable =>
    obtain ⟨_, reads⟩ := readable
    exact readable_promise reads.closed
  | union nonempty _ alone readable =>
    obtain ⟨_, type, _, reads, _⟩ := denotes_union nonempty readable alone
    exact ⟨type, reads⟩

end Inlay.TypeText

namespace Inlay.Infer

open Inlay.Tree
open Inlay.TypeText

/-! ## Unions that are told -/

/-- A return statement returns a value of the type. -/
def Returns (deeper : Answers) (statement : Cursor) (type : String) : Prop :=
  statement.members = [] ∧ type = "undefined" ∨
    ∃ value rest, statement.members = value :: rest ∧ deeper.expression value = some type

/-- An element of an array literal is a value of the type. -/
def Holds (deeper : Answers) (element : Cursor) (type : String) : Prop :=
  element.kind ≠ "spread_element" ∧ deeper.expression element = some type

section

variable {deeper : Answers} {cursor : Cursor} {types : List String}

theorem mapM_eq_some_of_forall₂ {α β : Type} {f : α → Option β} {items : List α} {results : List β}
    (each : List.Forall₂ (fun item result => f item = some result) items results) :
    items.mapM f = some results := by
  rw [mapM_eq_some_iff]
  induction each with
  | nil => rfl
  | cons first _ ih => rw [List.map_cons, List.map_cons, first, ih]

theorem ternaryType_eq {consequence alternative : Cursor} {left right : String}
    (isConsequence : cursor.field? "consequence" = some consequence)
    (isAlternative : cursor.field? "alternative" = some alternative)
    (leftTold : nonempty (deeper.expression consequence) = some left)
    (rightTold : nonempty (deeper.expression alternative) = some right) :
    ternaryType deeper cursor = some (union [left, right]) := by
  simp [ternaryType, isConsequence, isAlternative, leftTold, rightTold]

theorem returnedByStatements_eq {statements : List Cursor}
    (returns : List.Forall₂ (Returns deeper) statements types)
    (valued : ∃ type ∈ types, type ≠ "undefined") :
    returnedByStatements deeper statements = some (union types) := by
  unfold returnedByStatements
  refine (congrArg (Option.map _) (mapM_eq_some_of_forall₂ (returns.imp ?_))).trans ?_
  · rintro statement type (⟨isMembers, rfl⟩ | ⟨value, rest, isMembers, told⟩)
    · simp [isMembers]
    · simp [isMembers, told]
  · have notAll : ¬ types.all (· == "undefined") = true := by simpa using valued
    rw [Option.map_some, if_neg notAll]

theorem arrayType_eq (nonempty : cursor.members ≠ [])
    (holds : List.Forall₂ (Holds deeper) cursor.members types) :
    arrayType deeper cursor = some (array (union types)) := by
  unfold arrayType
  split
  · next empty => exact (nonempty empty).elim
  · refine (congrArg (Option.map _) (mapM_eq_some_of_forall₂ (holds.imp ?_))).trans rfl
    rintro element type ⟨notSpread, told⟩
    simp [notSpread, told]

end

/-- Texts that are built without a function type among several members have just one reading. What
is told of conditional expressions, of return statements with a value and of array literals reads as
the union of their different types just if none of several is a function type. -/
theorem unions_read_back_iff_functions_stand_alone (deeper : Answers) :
    (∀ text, Assembled text → ∃ type, ∀ other, Reads text other ↔ other = type) ∧
    (∀ cursor consequence alternative left right,
      cursor.field? "consequence" = some consequence →
      cursor.field? "alternative" = some alternative →
      deeper.expression consequence = some left → deeper.expression alternative = some right →
      Readable left → Readable right →
      ∃ text, ternaryType deeper cursor = some text ∧
        (Denotes text [left, right] ↔ StandAlone [left, right])) ∧
    (∀ statements types, List.Forall₂ (Returns deeper) statements types →
      (∃ type ∈ types, type ≠ "undefined") → (∀ type ∈ types, Readable type) →
      ∃ text, returnedByStatements deeper statements = some text ∧
        (Denotes text types ↔ StandAlone types)) ∧
    (∀ cursor types, cursor.members ≠ [] → List.Forall₂ (Holds deeper) cursor.members types →
      (∀ type ∈ types, Readable type) →
      ∃ text, arrayType deeper cursor = some text ∧
        (DenotesArray text types ↔ StandAlone types)) := by
  refine ⟨?_, ?_, ?_, ?_⟩
  · intro text built
    obtain ⟨type, reads⟩ := built.readable
    exact ⟨type, fun other => ⟨fun reads' => reads'.unique reads, fun same => same ▸ reads⟩⟩
  · intro cursor consequence alternative left right isConsequence isAlternative leftTold rightTold
      leftReadable rightReadable
    have leftTold' : nonempty (deeper.expression consequence) = some left := by
      simp [nonempty, leftTold, leftReadable.ne_empty]
    have rightTold' : nonempty (deeper.expression alternative) = some right := by
      simp [nonempty, rightTold, rightReadable.ne_empty]
    refine ⟨_, ternaryType_eq isConsequence isAlternative leftTold' rightTold', ?_⟩
    exact denotes_union_iff (by simp) (by simp [leftReadable, rightReadable])
  · intro statements types returns valued readable
    refine ⟨_, returnedByStatements_eq returns valued, denotes_union_iff ?_ readable⟩
    rintro rfl
    simp at valued
  · intro cursor types nonempty holds readable
    refine ⟨_, arrayType_eq nonempty holds, denotesArray_iff ?_ readable⟩
    rintro rfl
    exact nonempty (List.eq_nil_of_length_eq_zero holds.length_eq)

/-- Of an array of two kinds of values and an array of functions, both read back. -/
theorem arrays_of_functions_join :
    let node := fun kind start stop fields children =>
      Node.mk ⟨kind, true, false, false, false, start, stop, fields⟩ children
    let one := node "number" 5 6 [] []
    let nothing := node "null" 8 12 [] []
    let values := node "array" 4 13 ["consequence"] [one, nothing]
    let arrow := node "arrow_function" 17 24 []
      [node "formal_parameters" 17 19 ["parameters"] [], node "number" 23 24 ["body"] []]
    let functions := node "array" 16 25 ["alternative"] [arrow]
    let ternary := node "ternary_expression" 0 25 []
      [node "identifier" 0 1 ["condition"] [], values, functions]
    let statement := node "expression_statement" 0 26 [] [ternary]
    let root := node "program" 0 26 [] [statement]
    let source : Source := ⟨"a.ts", "a ? [1, null] : [() => 1];", .typescript, root, 0⟩
    (∃ text, ternaryType (atDepth source 1) ⟨ternary, [statement, root]⟩ = some text ∧
      Denotes text ["(number | null)[]", "(() => number)[]"]) ∧
    ∃ text, arrayType (atDepth source 1) ⟨values, [ternary, statement, root]⟩ = some text ∧
      DenotesArray text ["number", "null"] := by
  intro node one nothing values arrow functions ternary statement root source
  obtain ⟨_, joined, _, held⟩ := unions_read_back_iff_functions_stand_alone (atDepth source 1)
  have number : Readable "number" := (Assembled.basic (by decide)).readable
  have null : Readable "null" := (Assembled.basic (by decide)).readable
  have left : Readable "(number | null)[]" :=
    ⟨.array (.either (.plain "number".toList) (.plain "null".toList)), 3, by decide⟩
  have right : Readable "(() => number)[]" :=
    ⟨.array (.function [] (.plain "number".toList)), 4, by decide⟩
  constructor
  · obtain ⟨text, told, denotes⟩ := joined ⟨ternary, [statement, root]⟩
      ⟨values, [ternary, statement, root]⟩ ⟨functions, [ternary, statement, root]⟩ _ _ rfl rfl
      (by decide) (by decide) left right
    exact ⟨text, told, denotes.mpr (.inr (by decide))⟩
  · have holds : List.Forall₂ (Holds (atDepth source 1))
        (Cursor.members ⟨values, [ternary, statement, root]⟩) ["number", "null"] :=
      .cons ⟨by decide, by decide⟩ (.cons ⟨by decide, by decide⟩ .nil)
    obtain ⟨text, told, denotes⟩ := held ⟨values, [ternary, statement, root]⟩ _ (by decide) holds
      (by simp [number, null])
    exact ⟨text, told, denotes.mpr (.inr (by decide))⟩

/-- The arrow takes what comes after the bar for its result. -/
theorem function_takes_other_member :
    let node := fun kind start stop fields children =>
      Node.mk ⟨kind, true, false, false, false, start, stop, fields⟩ children
    let arrow := node "arrow_function" 4 11 ["consequence"]
      [node "formal_parameters" 4 6 ["parameters"] [], node "number" 10 11 ["body"] []]
    let ternary := node "ternary_expression" 0 18 []
      [node "identifier" 0 1 ["condition"] [], arrow, node "null" 14 18 ["alternative"] []]
    let statement := node "expression_statement" 0 19 [] [ternary]
    let root := node "program" 0 19 [] [statement]
    let source : Source := ⟨"a.ts", "a ? () => 1 : null;", .typescript, root, 0⟩
    (atDepth source 0).expression ⟨ternary, [statement, root]⟩ = some "() => number | null" ∧
      Reads "() => number | null"
        (.function [] (.either (.plain "number".toList) (.plain "null".toList))) ∧
      ¬ Denotes "() => number | null" ["() => number", "null"] := by
  intro node arrow ternary statement root source
  refine ⟨by decide, ⟨3, by decide⟩, ?_⟩
  have number : Assembled "number" := .basic (by decide)
  have readable : ∀ part ∈ ["() => number", "null"], Readable part := by
    have signed : Readable "() => number" :=
      @readable_function "number" [] (by simp) number.readable
    have null : Readable "null" := (Assembled.basic (by decide)).readable
    simp [signed, null]
  have isUnion : "() => number | null" = union ["() => number", "null"] := by decide
  rw [isUnion, denotes_union_iff (by simp) readable]
  rintro (single | unsigned)
  · exact absurd single (by decide)
  · exact absurd (unsigned "() => number" (.head _)) (by decide)

end Inlay.Infer
