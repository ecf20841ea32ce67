import Mathlib.Data.List.Count
import Mathlib.Data.List.Nodup
import Inlay.Watch.Scan

/-!
What the walk through a directory finds, said without the walk: the sources that lie in no ignored
directory, each as often as it is listed, in a fixed order.
-/

namespace Inlay.Watch

open Inlay.Text

variable {name : List Char} {place other : Place} {listing : List Place}

/-- The order in which files are found, given by their parts below the directory. -/
def foundBefore : Place → Place → Bool
  | [], _ => true
  | _ :: _, [] => false
  | [a], [b] => String.ofList a ≤ String.ofList b
  | [_], _ :: _ :: _ => true
  | _ :: _ :: _, [_] => false
  | a :: rest, b :: rest' =>
    if a = b then foundBefore rest rest' else String.ofList a ≤ String.ofList b

/-- Whether a file counts as a source, by its parts below the directory. -/
def isFound (parts : Place) : Bool :=
  !parts.dropLast.any isIgnoredDirectory &&
    Language.isSupported (String.ofList (parts.getLastD []))

/-! ## The order -/

theorem foundBefore_deeper (a b x y : List Char) (xs ys : Place) :
    foundBefore (a :: x :: xs) (b :: y :: ys) =
      if a = b then foundBefore (x :: xs) (y :: ys)
      else decide (String.ofList a ≤ String.ofList b) := by
  rw [foundBefore] <;> simp

theorem foundBefore_total : ∀ place other : Place,
    (foundBefore place other || foundBefore other place) = true
  | [], _ => rfl
  | _ :: _, [] => rfl
  | [a], [b] => by simpa [foundBefore] using String.le_total (String.ofList a) (String.ofList b)
  | [_], _ :: _ :: _ => rfl
  | _ :: _ :: _, [_] => rfl
  | a :: x :: xs, b :: y :: ys => by
    rw [foundBefore_deeper, foundBefore_deeper]
    by_cases same : a = b
    · rw [if_pos same, if_pos same.symm]
      exact foundBefore_total (x :: xs) (y :: ys)
    · rw [if_neg same, if_neg (Ne.symm same)]
      simpa using String.le_total (String.ofList a) (String.ofList b)

theorem eq_of_ofList_le {a b : List Char} (before : String.ofList a ≤ String.ofList b)
    (after : String.ofList b ≤ String.ofList a) : a = b :=
  String.ofList_injective (String.le_antisymm before after)

theorem foundBefore_antisymm : ∀ {place other : Place}, foundBefore place other = true →
    foundBefore other place = true → place = other
  | [], [], _, _ => rfl
  | [], [_], _, after => by cases after
  | [], _ :: _ :: _, _, after => by cases after
  | _ :: _, [], before, _ => by cases before
  | [_], [_], before, after => by
    rw [eq_of_ofList_le (of_decide_eq_true before) (of_decide_eq_true after)]
  | [_], _ :: _ :: _, _, after => by cases after
  | _ :: _ :: _, [_], before, _ => by cases before
  | a :: x :: xs, b :: y :: ys, before, after => by
    rw [foundBefore_deeper] at before after
    by_cases same : a = b
    · rw [if_pos same] at before
      rw [if_pos same.symm] at after
      rw [same, foundBefore_antisymm before after]
    · rw [if_neg same] at before
      rw [if_neg (Ne.symm same)] at after
      exact absurd (eq_of_ofList_le (of_decide_eq_true before) (of_decide_eq_true after)) same

theorem foundBefore_trans : ∀ {place other last : Place}, foundBefore place other = true →
    foundBefore other last = true → foundBefore place last = true
  | [], _, _, _, _ => rfl
  | _ :: _, [], _, before, _ => by cases before
  | _ :: _ :: _, [_], _, before, _ => by cases before
  | _, [_], [], _, after => by cases after
  | _, _ :: _ :: _, [], _, after => by cases after
  | _, _ :: _ :: _, [_], _, after => by cases after
  | [_], [_], [_], before, after => by
    exact decide_eq_true (String.le_trans (of_decide_eq_true before) (of_decide_eq_true after))
  | [_], _, _ :: _ :: _, _, _ => rfl
  | a :: x :: xs, b :: y :: ys, c :: z :: zs, before, after => by
    rw [foundBefore_deeper] at before after ⊢
    by_cases first : a = b
    · subst first
      rw [if_pos rfl] at before
      by_cases second : a = c
      · rw [if_pos second] at after ⊢
        exact foundBefore_trans before after
      · rwa [if_neg second] at after ⊢
    · rw [if_neg first] at before
      by_cases second : b = c
      · subst second
        rwa [if_neg first]
      · rw [if_neg second] at after
        have between := of_decide_eq_true before
        have beyond := of_decide_eq_true after
        have differ : a ≠ c := fun same => first (eq_of_ofList_le between (same ▸ beyond))
        rw [if_neg differ]
        exact decide_eq_true (String.le_trans between beyond)

/-! ## What is found -/

theorem walk_eq (listing : List Place) :
    walk listing = (sourceNames listing).map ([·]) ++
      (enteredNames listing).flatMap fun name => (walk (inside name listing)).map (name :: ·) := by
  rw [walk, List.flatMap_subtype fun _ _ => rfl, List.unattach_attach]

theorem nil_not_mem_walk (listing : List Place) : [] ∉ walk listing := by
  rw [walk_eq]
  simp

theorem exists_cons_of_mem_walk (found : place ∈ walk listing) :
    ∃ first rest, place = first :: rest :=
  List.exists_cons_of_ne_nil fun none => nil_not_mem_walk listing (none ▸ found)

theorem nodup_eraseDups (names : List (List Char)) : names.eraseDups.Nodup := by
  match names with
  | [] => exact List.nodup_nil
  | name :: names =>
    rw [List.eraseDups_cons, List.nodup_cons]
    exact ⟨by simp, nodup_eraseDups _⟩
termination_by names.length
decreasing_by exact Nat.lt_succ_of_le (List.length_filter_le _ _)

theorem sorted_perm (names : List (List Char)) : (sorted names).Perm names :=
  List.mergeSort_perm _ _

theorem nodup_enteredNames (listing : List Place) : (enteredNames listing).Nodup :=
  (sorted_perm _).nodup_iff.mpr ((nodup_eraseDups _).filter _)

theorem isFound_deeper (name second : List Char) (rest : Place) :
    isFound (name :: second :: rest) = (!isIgnoredDirectory name && isFound (second :: rest)) := by
  rw [isFound, isFound, List.dropLast_cons_cons, List.any_cons, Bool.not_or, Bool.and_assoc,
    List.getLastD_cons, List.getLastD_cons, List.getLastD_cons]

theorem count_sourceNames (name : List Char) (listing : List Place) :
    (sourceNames listing).count name = (listing.filter isFound).count [name] := by
  rw [sourceNames, ((sorted_perm _).filter _).count_eq, fileNames, List.count, List.countP_filter,
    List.countP_filterMap, List.count, List.countP_filter]
  refine List.countP_congr fun place _ => ?_
  rcases place with _ | ⟨first, _ | ⟨second, rest⟩⟩ <;> simp [fileName?, isFound]

theorem count_inside (entered : isIgnoredDirectory name = false) (second : List Char)
    (rest : Place) (listing : List Place) :
    ((inside name listing).filter isFound).count (second :: rest) =
      (listing.filter isFound).count (name :: second :: rest) := by
  rw [inside, List.count, List.countP_filter, List.countP_filterMap, List.count, List.countP_filter]
  refine List.countP_congr fun place _ => ?_
  rcases place with _ | ⟨first, _ | ⟨second, rest⟩⟩
  · simp [inDirectory?]
  · simp [inDirectory?]
  · by_cases same : first = name
    · simp [inDirectory?, isFound_deeper, same, entered]
    · simp [inDirectory?, same]

theorem mem_enteredNames_of_isFound {second : List Char} {rest : Place}
    (listed : name :: second :: rest ∈ listing)
    (found : isFound (name :: second :: rest) = true) : name ∈ enteredNames listing := by
  rw [isFound_deeper, Bool.and_eq_true, Bool.not_eq_true'] at found
  have isDirectory : name ∈ directoryNames listing :=
    List.mem_eraseDups.mpr (List.mem_filterMap.mpr ⟨_, listed, rfl⟩)
  exact mem_enteredNames.mpr ⟨isDirectory, found.1⟩

/-- Of directories with different names only one holds a given file. -/
theorem count_flatMap_cons {names : List (List Char)} (nodup : names.Nodup)
    (held : List Char → List Place) (name : List Char) (rest : Place) :
    (names.flatMap fun directory => (held directory).map (directory :: ·)).count (name :: rest) =
      if name ∈ names then (held name).count rest else 0 := by
  induction names with
  | nil => rfl
  | cons first names ih =>
    obtain ⟨once, nodup⟩ := List.nodup_cons.mp nodup
    rw [List.flatMap_cons, List.count_append, ih nodup]
    by_cases same : first = name
    · subst same
      rw [List.count_map_of_injective _ _ (List.cons_injective), if_neg once,
        if_pos List.mem_cons_self, Nat.add_zero]
    · have elsewhere : name :: rest ∉ (held first).map (first :: ·) := by simp [same]
      simp [List.count_eq_zero_of_not_mem elsewhere, Ne.symm same]

/-- A file is found as often as it is listed. -/
theorem count_walk (place : Place) (listing : List Place) :
    (walk listing).count place = (listing.filter isFound).count place := by
  induction place generalizing listing with
  | nil =>
    rw [List.count_eq_zero_of_not_mem (nil_not_mem_walk listing), List.count_eq_zero_of_not_mem]
    simp [show isFound [] = false by decide]
  | cons name rest ih =>
    rw [walk_eq, List.count_append, count_flatMap_cons (nodup_enteredNames listing)]
    cases rest with
    | nil =>
      rw [List.count_map_of_injective _ _ List.singleton_injective, count_sourceNames,
        List.count_eq_zero_of_not_mem (nil_not_mem_walk _), ite_self, Nat.add_zero]
    | cons second rest =>
      have short : name :: second :: rest ∉ (sourceNames listing).map ([·]) := by simp
      rw [List.count_eq_zero_of_not_mem short, Nat.zero_add, ih]
      split
      · next isEntered => exact count_inside (mem_enteredNames.mp isEntered).2 second rest listing
      · next outside =>
        refine (List.count_eq_zero_of_not_mem fun found => outside ?_).symm
        obtain ⟨listed, found⟩ := List.mem_filter.mp found
        exact mem_enteredNames_of_isFound listed found

theorem walk_perm (listing : List Place) : (walk listing).Perm (listing.filter isFound) :=
  List.perm_iff_count.mpr fun place => count_walk place listing

/-! ## In which order -/

theorem sorted_pairwise (names : List (List Char)) :
    (sorted names).Pairwise fun a b => String.ofList a ≤ String.ofList b := by
  have ordered : (sorted names).Pairwise fun a b =>
      decide (String.ofList a ≤ String.ofList b) = true := by
    refine List.pairwise_mergeSort (fun a b c before after => ?_) (fun a b => ?_) names
    · exact decide_eq_true
        (String.le_trans (of_decide_eq_true before) (of_decide_eq_true after))
    · simpa using String.le_total (String.ofList a) (String.ofList b)
  exact ordered.imp of_decide_eq_true

theorem walk_pairwise (listing : List Place) :
    (walk listing).Pairwise fun place other => foundBefore place other = true := by
  induction listing using walk.induct with
  | case1 listing ih =>
    rw [walk_eq, List.pairwise_append, List.pairwise_map, List.pairwise_flatMap]
    refine ⟨((sorted_pairwise _).filter _).imp decide_eq_true, ⟨fun name isEntered => ?_, ?_⟩, ?_⟩
    -- two files of one directory
    · rw [List.pairwise_map]
      refine (ih name isEntered).imp_of_mem fun {place other} isPlace isOther before => ?_
      obtain ⟨x, xs, rfl⟩ := exists_cons_of_mem_walk isPlace
      obtain ⟨y, ys, rfl⟩ := exists_cons_of_mem_walk isOther
      rwa [foundBefore_deeper, if_pos rfl]
    -- files of two directories
    · refine ((sorted_pairwise _).and (nodup_enteredNames listing)).imp ?_
      rintro name second ⟨before, differ⟩ place isPlace other isOther
      obtain ⟨place, found, rfl⟩ := List.mem_map.mp isPlace
      obtain ⟨other, foundOther, rfl⟩ := List.mem_map.mp isOther
      obtain ⟨x, xs, rfl⟩ := exists_cons_of_mem_walk found
      obtain ⟨y, ys, rfl⟩ := exists_cons_of_mem_walk foundOther
      rw [foundBefore_deeper, if_neg differ]
      exact decide_eq_true before
    -- a file of the directory itself, and one that lies deeper
    · intro place isPlace other isOther
      obtain ⟨name, _, rfl⟩ := List.mem_map.mp isPlace
      obtain ⟨directory, _, isDeeper⟩ := List.mem_flatMap.mp isOther
      obtain ⟨other, found, rfl⟩ := List.mem_map.mp isDeeper
      obtain ⟨y, ys, rfl⟩ := exists_cons_of_mem_walk found
      rfl

/-- The walk finds the sources outside of ignored directories, in the order in which files are
found. -/
theorem walk_eq_mergeSort (listing : List Place) :
    walk listing = (listing.filter isFound).mergeSort foundBefore := by
  have ordered : ((listing.filter isFound).mergeSort foundBefore).Pairwise
      fun place other => foundBefore place other = true := by
    refine List.pairwise_mergeSort (fun place other last before after => ?_) foundBefore_total _
    exact foundBefore_trans before after
  have same := (walk_perm listing).trans (List.mergeSort_perm _ foundBefore).symm
  exact same.eq_of_pairwise (fun _ _ _ _ => foundBefore_antisymm) (walk_pairwise listing) ordered

end Inlay.Watch
