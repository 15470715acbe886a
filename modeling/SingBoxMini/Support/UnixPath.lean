import SingBoxMini.Support.Text

/-!
# Support — UnixPath

The paths of `std::path` on Unix: a text, and the components it is read as.

Parts that are empty or a single dot are no components, but for a dot in front of a relative path.

* `components_push`: the components behind a path that is pushed to are the parts of what is pushed,
  as long as it is not absolute.
* `isFileName_of_mem_parts`: a normal component is the name of a file.
-/

namespace UnixPath
open Text

/-- `std::path::Component` -/
inductive Component where
  | rootDir
  | curDir
  | parentDir
  | normal (name : List Char)
deriving DecidableEq

/-- The component a part between two separators is, behind the first one. -/
def component? (part : List Char) : Option Component :=
  if part = [] ∨ part = ['.'] then none
  else if part = ['.', '.'] then some .parentDir
  else some (.normal part)

/-- The component in front of the parts. -/
def leading (path : List Char) : List Component :=
  if path.head? = some '/' then [.rootDir]
  else if path.takeWhile (· ≠ '/') = ['.'] then [.curDir]
  else []

/-- The components between the separators. -/
def parts (path : List Char) : List Component := (path.splitOn '/').filterMap component?

/-- `Path::components` -/
def components (path : List Char) : List Component := leading path ++ parts path

/-- `PathBuf::push`: an absolute path takes the place of the whole one. -/
def push (path pushed : List Char) : List Char :=
  if pushed.head? = some '/' then pushed
  else if path = [] ∨ path.getLast? = some '/' then path ++ pushed
  else path ++ '/' :: pushed

/-- The name of a file in a directory. -/
structure IsFileName (name : List Char) : Prop where
  nonempty : name ≠ []
  slash : '/' ∉ name
  dot : name ≠ ['.']
  dots : name ≠ ['.', '.']

variable {path pushed : List Char}

/-- A part is a parent component or a name. -/
theorem isFileName_of_mem_parts {part : Component} (h : part ∈ parts path) :
    part = .parentDir ∨ ∃ name, part = .normal name ∧ IsFileName name := by
  obtain ⟨text, hmem, htext⟩ := List.mem_filterMap.mp h
  unfold component? at htext
  split_ifs at htext with hskip hdots
  · exact .inl (Option.some.inj htext).symm
  · rw [not_or] at hskip
    exact .inr ⟨text, (Option.some.inj htext).symm,
      hskip.1, not_mem_of_mem_splitOn hmem, hskip.2, hdots⟩

@[simp] theorem parts_nil : parts [] = [] := by
  rw [parts, List.splitOn_nil]
  rfl

theorem components_nil : components [] = [] := by
  rw [components, parts_nil]
  rfl

theorem parts_append_cons (path more : List Char) :
    parts (path ++ '/' :: more) = parts path ++ parts more := by
  rw [parts, splitOn_append_cons, List.filterMap_append, parts, parts]

/-- What is in front does not depend on what is behind a separator. -/
theorem leading_append_cons (h : path ≠ []) (more : List Char) :
    leading (path ++ '/' :: more) = leading path := by
  have hhead : (path ++ '/' :: more).head? = path.head? := List.head?_append_of_ne_nil path h
  have hfirst : (path ++ '/' :: more).takeWhile (· ≠ '/') = path.takeWhile (· ≠ '/') := by
    rw [List.takeWhile_append]
    split_ifs with hall
    · rw [List.takeWhile_cons_of_neg (by decide), List.append_nil]
      exact ((List.takeWhile_sublist _).eq_of_length hall).symm
    · rfl
  rw [leading, hhead, hfirst, leading]

/-- A path that ends with a separator, with and without more behind it. -/
theorem leading_append_slash (path more : List Char) :
    leading (path ++ '/' :: more) = leading (path ++ ['/']) := by
  cases path with
  | nil => rfl
  | cons c path =>
      rw [leading_append_cons (List.cons_ne_nil c path),
        leading_append_cons (List.cons_ne_nil c path)]

theorem components_append_cons (h : path ≠ []) (more : List Char) :
    components (path ++ '/' :: more) = components path ++ parts more := by
  rw [components, leading_append_cons h, parts_append_cons, components, List.append_assoc]

/-- **The components of a path that was pushed to.** -/
theorem components_push (hpath : path ≠ []) (hpushed : pushed.head? ≠ some '/') :
    components (push path pushed) = components path ++ parts pushed := by
  rw [push, if_neg hpushed]
  split_ifs with hend
  · -- the path ends with a separator, which has an empty part behind it
    obtain ⟨init, rfl⟩ : ∃ init, path = init ++ ['/'] :=
      List.getLast?_eq_some_iff.mp (hend.resolve_left hpath)
    rw [List.append_assoc, List.singleton_append, components, leading_append_slash,
      parts_append_cons, components, parts_append_cons, parts_nil, List.append_nil,
      List.append_assoc]
  · exact components_append_cons hpath pushed

theorem push_nil : push [] pushed = pushed := by
  rw [push, List.nil_append, if_pos (Or.inl rfl : [] = [] ∨ _), ite_self]

/-- A relative path leaves what it is pushed to in front of it. -/
theorem self_prefix_push (hpushed : pushed.head? ≠ some '/') :
    path <+: push path pushed := by
  rw [push, if_neg hpushed]
  split_ifs
  · exact List.prefix_append _ _
  · exact List.prefix_append _ _

/-- In front of a relative path there is at most a dot. -/
theorem mem_leading (h : path.head? ≠ some '/') {part : Component} (hpart : part ∈ leading path) :
    part = .curDir := by
  rw [leading, if_neg h] at hpart
  split_ifs at hpart
  · exact List.mem_singleton.mp hpart
  · exact absurd hpart List.not_mem_nil

end UnixPath
