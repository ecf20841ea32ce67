import Inlay.Proofs.Text
import Inlay.Proofs.Walk

/-!
Files that are found at the start and files that are watched.

The first look at a directory passes over directories below it and goes by the ends of names. The
watch goes by the whole path of a file, and by names that are not for sources. Whatever is watched
has been found, but a file is found and not watched if its name is one of those, or if the
directory itself lies in a directory that is passed over.
-/

namespace Inlay

open Inlay.Text

/-! ## Paths and their parts -/

/-- What a directory can call what it holds. -/
def Path.IsName (name : List Char) : Prop := name ≠ [] ∧ '/' ∉ name ∧ name ≠ ['.']

instance (name : List Char) : Decidable (Path.IsName name) :=
  inferInstanceAs (Decidable (_ ∧ _ ∧ _))

namespace Disk

variable {place : Place} {name : List Char}

theorem parts_pathOf (named : ∀ part ∈ place, Path.IsName part) :
    Path.parts (pathOf place).toList = place := by
  have kept : place.filter (fun part => !part.isEmpty && part != ['.']) = place := by
    rw [List.filter_eq_self]
    intro part isPart
    obtain ⟨nonempty, _, other⟩ := named part isPart
    simp [nonempty, other]
  rw [pathOf, String.toList_ofList, Path.parts, splitAt, if_pos rfl]
  cases place with
  | nil => rfl
  | cons first rest =>
    rw [splitAt_intercalate (by simp) fun part isPart => (named part isPart).2.1,
      List.filter_cons_of_neg (by simp), kept]

theorem pathOf_injective {other : Place} (named : ∀ part ∈ place, Path.IsName part)
    (namedOther : ∀ part ∈ other, Path.IsName part) (same : pathOf place = pathOf other) :
    place = other := by
  rw [← parts_pathOf named, same, parts_pathOf namedOther]

end Disk

namespace Path

variable {name : List Char}

theorem parts_of_isName (isName : IsName name) : parts name = [name] := by
  rw [parts, splitAt_of_not_mem isName.2.1]
  simp [isName.1, isName.2.2]

end Path

namespace Language

variable {place : Place} {name : List Char}

theorem suffixOf_of_isName (isName : Path.IsName name) :
    suffixOf (String.ofList name) = String.ofList (lower (Path.suffixOf name)) := by
  rw [suffixOf, String.toList_ofList, Path.suffix, Path.lastPart, Path.parts_of_isName isName]
  rfl

/-- A file's language is told by its name alone. -/
theorem isSupported_pathOf (named : ∀ part ∈ place ++ [name], Path.IsName part) :
    isSupported (Disk.pathOf (place ++ [name])) = isSupported (String.ofList name) := by
  have last : suffixOf (Disk.pathOf (place ++ [name])) = suffixOf (String.ofList name) := by
    rw [suffixOf_of_isName (named name (by simp)), suffixOf, Path.suffix, Path.lastPart,
      Disk.parts_pathOf named, List.getLastD_concat]
  rw [isSupported, isSupported, ofPath?, ofPath?, last]

theorem mem_suffixes_of_isSupported (isName : Path.IsName name)
    (supported : isSupported (String.ofList name) = true) :
    lower (Path.suffixOf name) ∈ suffixes.map fun entry => entry.1.toList := by
  obtain ⟨entry, isEntry, same⟩ := List.lookup_isSome_iff.mp supported
  have key : suffixOf (String.ofList name) = entry.1 := eq_of_beq same
  refine List.mem_map.mpr ⟨entry, isEntry, ?_⟩
  rw [← key, suffixOf_of_isName isName, String.toList_ofList]

end Language

/-! ## Names that are not watched -/

namespace Path

/-- A suffix ends where its name ends. -/
theorem suffixOf_concat (front : List Char) (last : Char) :
    suffixOf (front ++ [last]) = [] ∨ ∃ inner, suffixOf (front ++ [last]) = inner ++ [last] := by
  unfold suffixOf
  dsimp only
  split
  · exact .inl rfl
  · next long =>
    right
    rw [List.reverse_append, List.reverse_singleton, List.singleton_append] at long ⊢
    by_cases dot : last = '.'
    · simp [dot] at long
    · rw [List.takeWhile_cons_of_pos (by simpa using dot), List.reverse_cons]
      exact ⟨_, (List.cons_append).symm⟩

theorem suffixOf_of_dot (stem : List Char) {ending : List Char} (clean : '.' ∉ ending) :
    suffixOf (stem ++ '.' :: ending) = [] ∨ suffixOf (stem ++ '.' :: ending) = '.' :: ending := by
  have last : (stem ++ '.' :: ending).reverse.takeWhile (· != '.') = ending.reverse := by
    rw [List.reverse_append, List.reverse_cons, List.append_assoc,
      List.takeWhile_append_of_pos (fun c isLast => ?_)]
    · simp
    · rw [bne_iff_ne]
      rintro rfl
      exact clean (List.mem_reverse.mp isLast)
  unfold suffixOf
  rw [last]
  dsimp only
  split
  · exact .inl rfl
  · exact .inr (by rw [List.reverse_reverse])

end Path

namespace Language

variable {front : List Char} {last : Char}

/-- The names of sources end with one of two letters, as far as they are plain. -/
theorem last_of_isSupported (isName : Path.IsName (front ++ [last]))
    (supported : isSupported (String.ofList (front ++ [last])) = true)
    (small : last.toNat < 128) : last.toLower = 's' ∨ last.toLower = 'x' := by
  have isSuffix := mem_suffixes_of_isSupported isName supported
  rcases Path.suffixOf_concat front last with none | ⟨inner, ends⟩
  · rw [none] at isSuffix
    exact absurd isSuffix (by decide)
  · obtain ⟨lowered, isLowered⟩ := exists_lowerAfter_concat small false inner
    rw [ends, lower, isLowered] at isSuffix
    have endings : ∀ suffix ∈ suffixes.map (fun entry => entry.1.toList),
        suffix.getLast? = some 's' ∨ suffix.getLast? = some 'x' := by decide
    simpa using endings _ isSuffix

/-- A swap file is no source: the suffix of its name begins with a letter that no other has. -/
theorem isSupported_swap {stem : List Char} (isName : Path.IsName (stem ++ ['.', 's', 'w', last])) :
    isSupported (String.ofList (stem ++ ['.', 's', 'w', last])) = false := by
  rw [Bool.eq_false_iff]
  intro supported
  have isSuffix := mem_suffixes_of_isSupported isName supported
  have none : Path.suffixOf (stem ++ ['.', 's', 'w', last]) ≠ [] := by
    intro none
    rw [none] at isSuffix
    exact absurd isSuffix (by decide)
  by_cases dot : last = '.'
  · exact none (by simp [Path.suffixOf, dot])
  · have clean : '.' ∉ ['s', 'w', last] := by simp [Ne.symm dot]
    have swap := (Path.suffixOf_of_dot stem clean).resolve_left none
    have starts : ∀ suffix ∈ suffixes.map (fun entry => entry.1.toList),
        suffix[1]? ≠ some 's' := by decide
    refine starts _ isSuffix ?_
    rw [swap, lower, lowerAfter, lowerAfter, lowerChar_ascii (by decide),
      lowerChar_ascii (by decide)]
    simp

end Language

namespace Watch

variable {name : List Char}

/-- Names that some editors and checkers give to files of their own beside a source. -/
def isScratchName (name : List Char) : Bool :=
  (after? ['.', '#'] name).isSome || (after? "flycheck_".toList name).isSome

section

variable {c : Char} {rest : List Char}

theorem head_of_endsCompiled (ends : endsCompiled (c :: rest) = true) : c ∈ ['c', 'o', 'd'] := by
  unfold endsCompiled at ends
  split at ends
  · next kind _ same =>
    obtain ⟨rfl, _⟩ := List.cons.inj same
    simpa [or_assoc] using ends
  · cases ends

theorem head_of_endsSafeWrite (ends : endsSafeWrite (c :: rest) = true) : c = '_' := by
  unfold endsSafeWrite at ends
  split at ends
  · next same => exact (List.cons.inj same).1
  · cases ends

theorem exists_of_endsSwap (ends : endsSwap (c :: rest) = true) :
    ∃ stem, rest = 'w' :: 's' :: '.' :: stem := by
  unfold endsSwap at ends
  split at ends
  · next stem same => exact ⟨stem, (List.cons.inj same).2⟩
  · cases ends

end

section

variable {front : List Char} {last : Char}

theorem last_not_mem_of_isSupported (isName : Path.IsName (front ++ [last]))
    (supported : Language.isSupported (String.ofList (front ++ [last])) = true) :
    last ∉ ['c', 'o', 'd', '_', '~', 'e'] := by
  intro isOther
  have table : ∀ c ∈ ['c', 'o', 'd', '_', '~', 'e'],
      (decide (c.toNat < 128) && c.toLower != 's' && c.toLower != 'x') = true :=
    List.all_eq_true.mp (by decide)
  obtain ⟨⟨small, notS⟩, notX⟩ : (last.toNat < 128 ∧ last.toLower ≠ 's') ∧ last.toLower ≠ 'x' := by
    simpa using table last isOther
  exact (Language.last_of_isSupported isName supported small).elim notS notX

theorem endsSwap_of_isSupported (isName : Path.IsName (front ++ [last]))
    (supported : Language.isSupported (String.ofList (front ++ [last])) = true) :
    endsSwap (last :: front.reverse) = false := by
  rw [Bool.eq_false_iff]
  intro ends
  obtain ⟨stem, isFront⟩ := exists_of_endsSwap ends
  obtain rfl : front = stem.reverse ++ ['.', 's', 'w'] := by
    simpa using congrArg List.reverse isFront
  rw [List.append_assoc] at isName supported
  exact Bool.false_ne_true ((Language.isSupported_swap isName).symm.trans supported)

end

/-- Of the names that are not watched, those of sources begin in one of two ways: the others end as
no source does. -/
theorem isIgnoredName_of_isSupported (isName : Path.IsName name)
    (supported : Language.isSupported (String.ofList name) = true) :
    isIgnoredName name = isScratchName name := by
  obtain ⟨front, last, rfl⟩ : ∃ front last, name = front ++ [last] :=
    (List.eq_nil_or_concat' name).resolve_left isName.1
  have other := last_not_mem_of_isSupported isName supported
  have compiled : endsCompiled (last :: front.reverse) = false := by
    rw [Bool.eq_false_iff]
    intro ends
    exact other (List.mem_append_left _ (head_of_endsCompiled ends))
  have safeWrite : endsSafeWrite (last :: front.reverse) = false := by
    rw [Bool.eq_false_iff]
    intro ends
    exact other (by simp [head_of_endsSafeWrite ends])
  have backup : ((last :: front.reverse).head? == some '~') = false := by
    rw [beq_eq_false_iff_ne]
    intro same
    exact other (by simp [Option.some.inj same])
  have store : (front ++ [last] == ".DS_Store".toList) = false := by
    rw [beq_eq_false_iff_ne]
    intro same
    have isLast := congrArg List.getLast? same
    rw [List.getLast?_concat] at isLast
    have isE : last = 'e' := Option.some.inj (isLast.trans rfl)
    exact other (by simp [isE])
  unfold isIgnoredName isScratchName
  dsimp only
  rw [List.reverse_append, List.reverse_singleton, List.singleton_append, compiled, safeWrite,
    endsSwap_of_isSupported isName supported, backup, store]
  simp only [Bool.or_false, Bool.false_or]

/-- No source is called like a directory that is passed over. -/
theorem not_isSupported_of_isIgnoredDirectory (ignored : isIgnoredDirectory name = true) :
    Language.isSupported (String.ofList name) = false := by
  have table : ∀ directory ∈ ignoredDirectories, Language.isSupported directory = false := by
    decide
  exact table _ (List.contains_iff_mem.mp ignored)

/-! ## What is found and what is watched -/

variable {directory parts place : Place} {files : List Place}

theorem exists_intercalate (nonempty : place ≠ []) (named : ∀ part ∈ place, Path.IsName part) :
    ∃ c tail, ['/'].intercalate place = c :: tail ∧ c ≠ '/' := by
  obtain ⟨first, rest, rfl⟩ := List.exists_cons_of_ne_nil nonempty
  obtain ⟨filled, clean, _⟩ := named first (.head _)
  obtain ⟨c, chars, rfl⟩ := List.exists_cons_of_ne_nil filled
  have other : c ≠ '/' := fun slash => clean (slash ▸ .head _)
  cases rest with
  | nil => exact ⟨c, _, List.intercalate_singleton, other⟩
  | cons second rest => exact ⟨c, _, List.intercalate_cons_cons, other⟩

theorem filteredParts_pathOf (nonempty : place ≠ [])
    (named : ∀ part ∈ place, Path.IsName part) :
    filteredParts (Disk.pathOf place).toList = place := by
  rw [filteredParts, Disk.pathOf, String.toList_ofList, List.dropWhile_cons_of_pos (by simp)]
  have unchanged : (['/'].intercalate place).dropWhile (· == '/') = ['/'].intercalate place := by
    obtain ⟨c, tail, starts, other⟩ := exists_intercalate nonempty named
    rw [starts, List.dropWhile_cons_of_neg (by simpa using other)]
  rw [unchanged, splitAt_intercalate nonempty fun part isPart => (named part isPart).2.1]

/-- A file is watched if it is found, unless the directory is passed over or its name is not for a
source. -/
theorem isWatched_iff (nonempty : parts ≠ [])
    (named : ∀ part ∈ directory ++ parts, Path.IsName part) :
    isWatched (Disk.pathOf (directory ++ parts)) = true ↔
      isFound parts = true ∧ directory.any isIgnoredDirectory = false ∧
        isScratchName (parts.getLastD []) = false := by
  obtain ⟨above, name, rfl⟩ : ∃ above name, parts = above ++ [name] :=
    (List.eq_nil_or_concat' parts).resolve_left nonempty
  have isName : Path.IsName name := named name (by simp)
  have named' : ∀ part ∈ directory ++ above ++ [name], Path.IsName part := by
    rwa [List.append_assoc]
  rw [isWatched, isFound, filteredParts_pathOf (by simp) named, ← List.append_assoc,
    Language.isSupported_pathOf named', List.getLastD_concat, List.getLastD_concat,
    List.dropLast_concat]
  cases supported : Language.isSupported (String.ofList name) with
  | false => simp
  | true =>
    have notIgnored : isIgnoredDirectory name = false := by
      rw [Bool.eq_false_iff]
      intro ignored
      rw [not_isSupported_of_isIgnoredDirectory ignored] at supported
      cases supported
    rw [isIgnoredName_of_isSupported isName supported, List.any_append, List.any_append]
    simp only [List.any_cons, List.any_nil, notIgnored, Bool.or_false, Bool.true_and, Bool.and_true,
      Bool.and_eq_true, Bool.not_eq_true', Bool.or_eq_false_iff]
    rw [and_assoc, and_left_comm]

theorem below?_eq_some_iff : below? directory place = some parts ↔ place = directory ++ parts := by
  induction directory generalizing place with
  | nil => simp [below?]
  | cons first directory ih =>
    cases place with
    | nil => simp [below?]
    | cons other place =>
      rw [below?]
      split
      · next same => simp [same, ih]
      · next differ => simp [Ne.symm differ]

/-- The places of the files that are found, in the order in which they are. -/
def foundPlaces (directory : Place) (files : List Place) : List Place :=
  (((files.filterMap (below? directory)).filter isFound).mergeSort foundBefore).map (directory ++ ·)

/-- The path under which a file is told. -/
def toldPath (place : Place) : String := String.ofList (Path.forward (Disk.pathOf place).toList)

theorem scan_eq (directory : Place) (files : List Place) :
    scan directory files = (foundPlaces directory files).map toldPath := by
  rewrite [scan, walk_eq_mergeSort, foundPlaces, List.map_map]
  rfl

theorem mem_foundPlaces_iff : place ∈ foundPlaces directory files ↔
    place ∈ files ∧ ∃ parts, place = directory ++ parts ∧ isFound parts = true := by
  simp only [foundPlaces, List.mem_map, List.mem_mergeSort, List.mem_filter, List.mem_filterMap,
    below?_eq_some_iff]
  constructor
  · rintro ⟨parts, ⟨⟨_, isFile, rfl⟩, found⟩, rfl⟩
    exact ⟨isFile, parts, rfl, found⟩
  · rintro ⟨isFile, parts, rfl, found⟩
    exact ⟨parts, ⟨⟨_, isFile, rfl⟩, found⟩, rfl⟩

theorem append_mem_foundPlaces_iff : directory ++ parts ∈ foundPlaces directory files ↔
    directory ++ parts ∈ files ∧ isFound parts = true := by
  simp [mem_foundPlaces_iff]

theorem toldPath_of_clean (clean : ∀ part ∈ place, '\\' ∉ part) :
    toldPath place = Disk.pathOf place := by
  have kept : Path.forward (Disk.pathOf place).toList = (Disk.pathOf place).toList := by
    rw [Disk.pathOf, String.toList_ofList, Path.forward, replaceChar]
    refine (List.map_congr_left fun c isOne => if_neg ?_).trans (List.map_id' _)
    rintro rfl
    rcases List.mem_cons.mp isOne with slash | inside
    · exact absurd slash (by decide)
    · rcases mem_intercalate inside with slash | ⟨part, isPart, isIn⟩
      · exact absurd slash (by decide)
      · exact clean part isPart isIn
  rw [toldPath, kept, String.ofList_toList]

/-- Paths without a backslash are told as they are, so the path of a file is told for that file. -/
theorem pathOf_mem_scan_iff (named : ∀ file ∈ files, ∀ part ∈ file, Path.IsName part)
    (clean : ∀ file ∈ files, ∀ part ∈ file, '\\' ∉ part) (isFile : place ∈ files) :
    Disk.pathOf place ∈ scan directory files ↔ place ∈ foundPlaces directory files := by
  rw [scan_eq, List.mem_map]
  constructor
  · rintro ⟨other, found, same⟩
    have isOther := (mem_foundPlaces_iff.mp found).1
    rw [toldPath_of_clean (clean other isOther)] at same
    rwa [Disk.pathOf_injective (named place isFile) (named other isOther) same.symm]
  · intro found
    exact ⟨place, found, toldPath_of_clean (clean place isFile)⟩

/-- Whatever is watched has been found. A file is found and not watched if its name is that of a
scratch file, or if the directory lies in one that is passed over, and in no other case. -/
theorem found_and_not_watched_iff (directory : Place) (files : List Place)
    (named : ∀ file ∈ files, ∀ part ∈ file, Path.IsName part) :
    scan directory files = (foundPlaces directory files).map toldPath ∧
      ∀ parts ≠ [], directory ++ parts ∈ files →
        (isWatched (Disk.pathOf (directory ++ parts)) = true →
          directory ++ parts ∈ foundPlaces directory files) ∧
        (directory ++ parts ∈ foundPlaces directory files ∧
            isWatched (Disk.pathOf (directory ++ parts)) = false ↔
          isFound parts = true ∧
            (directory.any isIgnoredDirectory = true ∨ isScratchName (parts.getLastD []) = true)) ∧
        ((∀ file ∈ files, ∀ part ∈ file, '\\' ∉ part) →
          (Disk.pathOf (directory ++ parts) ∈ scan directory files ↔
            directory ++ parts ∈ foundPlaces directory files)) := by
  refine ⟨scan_eq directory files, fun parts nonempty isFile => ?_⟩
  have watched := isWatched_iff nonempty (named _ isFile)
  have found : directory ++ parts ∈ foundPlaces directory files ↔ isFound parts = true :=
    append_mem_foundPlaces_iff.trans (and_iff_right isFile)
  refine ⟨fun isOne => found.mpr (watched.mp isOne).1, ?_,
    fun clean => pathOf_mem_scan_iff named clean isFile⟩
  rw [found, ← Bool.not_eq_true, watched]
  constructor
  · rintro ⟨isOne, unwatched⟩
    refine ⟨isOne, ?_⟩
    by_contra neither
    obtain ⟨outside, plain⟩ := not_or.mp neither
    exact unwatched ⟨isOne, Bool.eq_false_iff.mpr outside, Bool.eq_false_iff.mpr plain⟩
  · rintro ⟨isOne, reason⟩
    refine ⟨isOne, ?_⟩
    rintro ⟨_, outside, plain⟩
    rw [outside, plain] at reason
    simp at reason

/-- A checker's copy beside a source is found with it, in a directory of any depth, and not
watched. -/
theorem copy_found_and_not_watched :
    let directory := ["proj".toList]
    let files := [["proj".toList, "src".toList, "flycheck_a.ts".toList],
      ["proj".toList, "src".toList, "a.ts".toList],
      ["proj".toList, "node_modules".toList, "b.ts".toList]]
    (∀ file ∈ files, ∀ part ∈ file, Path.IsName part) ∧
      directory ++ ["src".toList, "flycheck_a.ts".toList] ∈ foundPlaces directory files ∧
      isWatched (Disk.pathOf (directory ++ ["src".toList, "flycheck_a.ts".toList])) = false := by
  intro directory files
  have named : ∀ file ∈ files, ∀ part ∈ file, Path.IsName part := by decide
  exact ⟨named, ((found_and_not_watched_iff directory files named).2
    ["src".toList, "flycheck_a.ts".toList] (by decide) (by decide)).2.1.mpr (by decide)⟩

/-- A scratch file is told, and a file below a directory that is passed over is told to those who
look there, though neither is watched. -/
theorem told_and_not_watched :
    scan ["proj".toList] [["proj".toList, "flycheck_a.ts".toList]] = ["/proj/flycheck_a.ts"] ∧
      isWatched "/proj/flycheck_a.ts" = false ∧
      scan ["node_modules".toList] [["node_modules".toList, "a.ts".toList]] =
        ["/node_modules/a.ts"] ∧
      isWatched "/node_modules/a.ts" = false := by
  have copy : ([["proj".toList, "flycheck_a.ts".toList]].filterMap
      (below? ["proj".toList])).filter isFound = [["flycheck_a.ts".toList]] := by decide
  have dependency : ([["node_modules".toList, "a.ts".toList]].filterMap
      (below? ["node_modules".toList])).filter isFound = [["a.ts".toList]] := by decide
  refine ⟨?_, by decide, ?_, by decide⟩
  · rw [scan_eq, foundPlaces, copy, List.mergeSort_singleton]
    decide
  · rw [scan_eq, foundPlaces, dependency, List.mergeSort_singleton]
    decide

end Watch

end Inlay
