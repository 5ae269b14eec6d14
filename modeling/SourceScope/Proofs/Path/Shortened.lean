import Mathlib
import SourceScope.Path

set_option autoImplicit false

namespace SourceScope.Path

theorem components_eq_splitOn (path : List Char) : components path = path.splitOn '/' := by
  induction path with
  | nil => rfl
  | cons c rest ih =>
    obtain ⟨part, more, split⟩ := List.exists_cons_of_ne_nil (List.splitOn_ne_nil '/' rest)
    rw [components, List.splitOn_cons_eq_if_modifyHead, ih, split]
    simp

theorem slash_notMem {path part : List Char} (member : part ∈ components path) : '/' ∉ part := by
  induction path generalizing part with
  | nil =>
    obtain rfl := List.mem_singleton.1 member
    exact List.not_mem_nil
  | cons c rest ih =>
    obtain ⟨first, more, split⟩ := List.exists_cons_of_ne_nil (List.splitOn_ne_nil '/' rest)
    rw [components_eq_splitOn, split] at ih
    rw [components_eq_splitOn, List.splitOn_cons_eq_if_modifyHead, split] at member
    split at member
    · rcases List.mem_cons.1 member with rfl | later
      · exact List.not_mem_nil
      · exact ih later
    next plain =>
      rcases List.mem_cons.1 member with rfl | later
      · have different : '/' ≠ c := fun same => plain (beq_iff_eq.2 same.symm)
        exact List.not_mem_cons_of_ne_of_not_mem different (ih List.mem_cons_self)
      · exact ih (List.mem_cons_of_mem first later)

def directoryText (names : List (List Char)) : List Char := names.flatMap (· ++ ['/'])

theorem directoryText_cons (name : List Char) (names : List (List Char)) :
    directoryText (name :: names) = name ++ '/' :: directoryText names := by
  simp [directoryText]

theorem directoryText_append (names more : List (List Char)) :
    directoryText (names ++ more) = directoryText names ++ directoryText more :=
  List.flatMap_append

theorem intercalate_concat (names : List (List Char)) (last : List Char) :
    ['/'].intercalate (names ++ [last]) = directoryText names ++ last := by
  induction names with
  | nil => simp [directoryText, List.intercalate_singleton]
  | cons name more ih =>
    rw [List.cons_append, List.intercalate_cons_of_ne_nil (by simp), ih, directoryText_cons]
    simp

theorem exists_last (path : List Char) :
    ∃ last, components path = (components path).dropLast ++ [last] ∧
      directoryText (components path).dropLast ++ last = path := by
  have some : components path ≠ [] := by
    rw [components_eq_splitOn]
    exact List.splitOn_ne_nil '/' path
  have split := (List.dropLast_concat_getLast some).symm
  refine ⟨(components path).getLast some, split, ?_⟩
  rw [← intercalate_concat, ← split, components_eq_splitOn, List.intercalate_splitOn]

theorem components_directoryText {names : List (List Char)} (plain : ∀ name ∈ names, '/' ∉ name)
    (rest : List Char) : components (directoryText names ++ rest) = names ++ components rest := by
  induction names with
  | nil => rfl
  | cons name more ih =>
    have later := ih fun other member => plain other (List.mem_cons_of_mem name member)
    rw [components_eq_splitOn] at later
    rw [components_eq_splitOn, directoryText_cons, List.append_assoc, List.cons_append,
      List.splitOn_append_cons_self_of_not_mem (plain name List.mem_cons_self), later,
      List.cons_append]

theorem directoryText_prefix_iff {names : List (List Char)} (plain : ∀ name ∈ names, '/' ∉ name)
    (path : List Char) :
    directoryText names <+: path ↔ names <+: (components path).dropLast := by
  constructor
  · rintro ⟨rest, rfl⟩
    obtain ⟨last, split, -⟩ := exists_last rest
    rw [components_directoryText plain, split, ← List.append_assoc, List.dropLast_concat]
    exact List.prefix_append _ _
  · rintro ⟨more, directories⟩
    obtain ⟨last, -, text⟩ := exists_last path
    rw [← directories, directoryText_append, List.append_assoc] at text
    exact ⟨_, text⟩

theorem directoryText_of_ended {text : List Char} (ended : text = [] ∨ ∃ front, text = front ++ ['/']) :
    directoryText (components text).dropLast = text := by
  rcases ended with rfl | ⟨front, rfl⟩
  · rfl
  · obtain ⟨last, split, text⟩ := exists_last front
    have directories : (components (front ++ ['/'])).dropLast = components front := by
      rw [components_eq_splitOn, List.splitOn_append_cons_self, List.splitOn_nil,
        List.dropLast_concat, components_eq_splitOn]
    rw [directories, split, directoryText_append, directoryText_cons, ← List.append_assoc, text]
    rfl

theorem prefix_commonFront_iff (names a b : List (List Char)) :
    names <+: commonFront a b ↔ names <+: a ∧ names <+: b := by
  induction a generalizing names b with
  | nil => cases b <;> simp +contextual [commonFront]
  | cons first rest ih =>
    cases b with
    | nil => simp +contextual [commonFront]
    | cons second later =>
      cases names with
      | nil => simp
      | cons name more =>
        simp only [commonFront, List.cons_prefix_cons]
        split
        next same =>
          rw [List.cons_prefix_cons, ih, ← same]
          tauto
        next different =>
          simp only [List.prefix_nil, reduceCtorEq, false_iff]
          rintro ⟨⟨rfl, -⟩, rfl, -⟩
          exact different rfl

theorem prefix_foldl_iff (names start : List (List Char)) (paths : List String) :
    names <+: paths.foldl (fun shared other => commonFront shared (directories other)) start ↔
      names <+: start ∧ ∀ path ∈ paths, names <+: directories path := by
  induction paths generalizing start with
  | nil => simp
  | cons path rest ih => simp [ih, prefix_commonFront_iff, and_assoc]

theorem prefix_sharedDirectories_iff {paths : List String} (some : paths ≠ [])
    (names : List (List Char)) :
    names <+: sharedDirectories paths ↔ ∀ path ∈ paths, names <+: directories path := by
  obtain ⟨path, rest, rfl⟩ := List.exists_cons_of_ne_nil some
  simp [sharedDirectories, prefix_foldl_iff]

theorem sharedText_prefix {paths : List String} {path : String} (member : path ∈ paths) :
    sharedText paths <+: path.toList := by
  have shared := (prefix_sharedDirectories_iff (List.ne_nil_of_mem member) _).1 List.prefix_rfl
  refine (directoryText_prefix_iff (fun name inside => ?_) path.toList).2 (shared path member)
  exact slash_notMem (List.mem_of_mem_dropLast ((shared path member).subset inside))

/-- The text that every path begins with and that ends, if it is not empty, with a slash. -/
structure SharedFront (paths : List String) (front : String) : Prop where
  ended : front = "" ∨ ∃ directory, front = directory ++ "/"
  begins : ∀ path ∈ paths, ∃ rest, path = front ++ rest

theorem SharedFront.prefix_sharedText {paths : List String} {front : String}
    (shared : SharedFront paths front) (some : paths ≠ []) : front.toList <+: sharedText paths := by
  have text : directoryText (components front.toList).dropLast = front.toList := by
    apply directoryText_of_ended
    rcases shared.ended with rfl | ⟨directory, rfl⟩
    · exact .inl rfl
    · exact .inr ⟨directory.toList, String.toList_append⟩
  have names : (components front.toList).dropLast <+: sharedDirectories paths := by
    refine (prefix_sharedDirectories_iff some _).2 fun path member => ?_
    obtain ⟨rest, rfl⟩ := shared.begins path member
    refine (directoryText_prefix_iff (fun name inside => ?_) _).1 ?_
    · exact slash_notMem (List.mem_of_mem_dropLast inside)
    · rw [text, String.toList_append]
      exact List.prefix_append _ _
  obtain ⟨more, directories⟩ := names
  rw [← text, sharedText, ← directories]
  exact ⟨_, (directoryText_append _ more).symm⟩

structure LongestFront (paths : List String) (front : String) : Prop
    extends SharedFront paths front where
  longest : ∀ other, SharedFront paths other → other.length ≤ front.length

theorem sharedText_ended (paths : List String) :
    sharedText paths = [] ∨ ∃ front, sharedText paths = front ++ ['/'] := by
  rcases List.eq_nil_or_concat (sharedDirectories paths) with none | ⟨names, last, split⟩
  · exact .inl (by rw [sharedText, none]; rfl)
  · refine .inr ⟨directoryText names ++ last, ?_⟩
    rw [sharedText, split, List.concat_eq_append]
    simp [directoryText]

theorem shared_longest {paths : List String} (some : paths ≠ []) :
    LongestFront paths (String.ofList (sharedText paths)) := by
  refine ⟨⟨?_, fun path member => ?_⟩, fun other shared => ?_⟩
  · rcases sharedText_ended paths with none | ⟨front, text⟩
    · exact .inl (by rw [none])
    · exact .inr ⟨String.ofList front, by rw [text, String.ofList_append]⟩
  · obtain ⟨rest, text⟩ := sharedText_prefix member
    exact ⟨String.ofList rest, by rw [← String.ofList_append, text, String.ofList_toList]⟩
  · simpa [String.length_toList] using (shared.prefix_sharedText some).length_le

theorem ofList_append_drop {paths : List String} {path : String} (member : path ∈ paths) :
    String.ofList (sharedText paths) ++
      String.ofList (path.toList.drop (sharedText paths).length) = path := by
  obtain ⟨rest, text⟩ := sharedText_prefix member
  rw [← String.ofList_append, ← text, List.drop_left, text, String.ofList_toList]

theorem append_shorten (paths : List String) :
    (shorten paths).map (String.ofList (sharedText paths) ++ ·) = paths := by
  rw [shorten, List.map_map]
  conv_rhs => rw [← List.map_id paths]
  exact List.map_congr_left fun path member => ofList_append_drop member

/-- One text is taken off every path, and no longer one could be: it is the longest front of all
paths that ends where a directory ends. So paths that differ are still different. -/
theorem shorten_strips {paths : List String} (some : paths ≠ []) :
    ∃ front, LongestFront paths front ∧ (shorten paths).map (front ++ ·) = paths ∧
      ∀ m n : Nat, (shorten paths)[m]? = (shorten paths)[n]? ↔ paths[m]? = paths[n]? := by
  refine ⟨_, shared_longest some, append_shorten paths, fun m n => ?_⟩
  conv_rhs => rw [← append_shorten paths]
  simp only [List.getElem?_map]
  refine (Option.map_injective fun a b same => ?_).eq_iff.symm
  simpa [← String.toList_inj] using same

def sourceTree : List String := ["/bäu//src/main.c", "/bäu//src/util/ä.c", "/bäu//inc/io.h"]

theorem shorten_sourceTree : shorten sourceTree = ["src/main.c", "src/util/ä.c", "inc/io.h"] := by
  cbv

theorem shorten_strips_sourceTree :
    sourceTree ≠ [] ∧ LongestFront sourceTree "/bäu//" ∧
      ["src/main.c", "src/util/ä.c", "inc/io.h"].map ("/bäu//" ++ ·) = sourceTree ∧
      ∀ m n : Nat, (shorten sourceTree)[m]? = (shorten sourceTree)[n]? ↔
        sourceTree[m]? = sourceTree[n]? := by
  have some : sourceTree ≠ [] := List.cons_ne_nil _ _
  obtain ⟨front, longest, strips, apart⟩ := shorten_strips some
  obtain rfl : front = "/bäu//" := by
    rw [shorten_sourceTree] at strips
    have first : front ++ "src/main.c" = "/bäu//" ++ "src/main.c" := (List.cons.inj strips).1
    rw [← String.toList_inj, String.toList_append, String.toList_append] at first
    exact String.toList_inj.1 (List.append_cancel_right first)
  rw [shorten_sourceTree] at strips
  exact ⟨some, longest, strips, apart⟩

end SourceScope.Path
