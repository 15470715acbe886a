import SingBoxMini.Support.Percent
import SingBoxMini.Support.UnixPath

/-!
# Masquerade — Files

`file_response` of `masquerade.rs`: requests that do not authenticate are answered with files of a
directory.

The file system and the guess of a content type are parameters; paths are those of Unix.

* `file_stays_inside`: the file that is read is in the directory, whatever the request's path is and
  however it is encoded.
* `fileResponse_congr`: so no response depends on files elsewhere.
-/

namespace SingBoxMini.Masquerade
open Bytes Text UnixPath

/-- The methods `file_response` tells apart. -/
inductive Method where
  | get
  | head
  | other (name : List Char)
deriving DecidableEq

/-- A request: its method and the path of its URI. -/
structure Request where
  method : Method
  path : List Char

/-- `MasqueradeResponse`, with the content type as its only header. -/
structure Response where
  status : Nat
  contentType : Option (List Char)
  body : List UInt8
deriving DecidableEq

/-- What is asked of the file system: whether there is a directory, and the bytes of a file. -/
structure FileSystem where
  isDir : List Char → Bool
  read : List Char → Option (List UInt8)

/-- `matches!(part, Component::Normal(_) | Component::CurDir)` -/
def isSafe : Component → Bool
  | .normal _ | .curDir => true
  | .rootDir | .parentDir => false

/-- The path behind the directory. -/
def relativePath (uriPath : List Char) : Except AnyhowError (List Char) := do
  let decoded ← okOr (ofUtf8 (Percent.percentDecode uriPath)) "decode masquerade request path"
  let relative := trimStartMatches '/' decoded
  ensure ((components relative).all isSafe = true) "unsafe masquerade request path"
  return relative

/-- The path `file_response` reads. -/
def filePath (fs : FileSystem) (directory uriPath : List Char) :
    Except AnyhowError (List Char) := do
  let relative ← relativePath uriPath
  let path := push directory relative
  return if fs.isDir path then push path "index.html".toList else path

/-- The response with the file of a path, if there is one. -/
def respond (fs : FileSystem) (mimeGuess : List Char → Option (List Char)) (method : Method)
    (path : List Char) : Response :=
  match fs.read path with
  | none => ⟨404, none, []⟩
  | some body => ⟨200, mimeGuess path, if method = .head then [] else body⟩

/-- `file_response` -/
def fileResponse (fs : FileSystem) (mimeGuess : List Char → Option (List Char))
    (directory : List Char) (request : Request) : Except AnyhowError Response :=
  if request.method ≠ .get ∧ request.method ≠ .head then .ok ⟨405, none, []⟩
  else do
    let path ← filePath fs directory request.path
    return respond fs mimeGuess request.method path

/-- `file_response` goes on to read `path`. -/
def Reads (fs : FileSystem) (directory : List Char) (request : Request) (path : List Char) : Prop :=
  (request.method = .get ∨ request.method = .head) ∧
    filePath fs directory request.path = .ok path

/-! ### The path behind the directory -/

/-- The name of a file; with the empty directory, which the configuration does not accept, also the
dot in front. -/
def Ordinary (directory : List Char) (part : Component) : Prop :=
  (∃ name, part = .normal name ∧ IsFileName name) ∨ directory = [] ∧ part = .curDir

theorem head?_trimStartMatches (c : Char) (s : List Char) :
    (trimStartMatches c s).head? ≠ some c := by
  intro h
  have hnot := List.head?_dropWhile_not (· = c) s
  rw [trimStartMatches] at h
  rw [h] at hnot
  simp at hnot

/-- **What is behind the directory** is relative and without a parent component. -/
theorem relativePath_ok {uriPath relative : List Char} (h : relativePath uriPath = .ok relative) :
    relative.head? ≠ some '/' ∧ (components relative).all isSafe = true := by
  obtain ⟨decoded, -, h⟩ := bind_ok_iff.mp h
  obtain ⟨⟨⟩, hsafe, h⟩ := bind_ok_iff.mp h
  rw [ensure_ok_iff] at hsafe
  cases h
  exact ⟨head?_trimStartMatches '/' decoded, hsafe⟩

/-- **The directory and what is pushed to it.** -/
theorem components_push_relative (directory : List Char) {relative : List Char}
    (hrelative : relative.head? ≠ some '/') (hsafe : (components relative).all isSafe = true) :
    ∃ rest, components (push directory relative) = components directory ++ rest ∧
      ∀ part ∈ rest, Ordinary directory part := by
  have hparts : ∀ part ∈ parts relative, Ordinary directory part := by
    intro part hpart
    rcases isFileName_of_mem_parts hpart with rfl | hname
    · have := List.all_eq_true.mp hsafe _ (List.mem_append_right (leading relative) hpart)
      cases this
    · exact .inl hname
  by_cases hdirectory : directory = []
  · subst hdirectory
    refine ⟨components relative, ?_, fun part hpart => ?_⟩
    · rw [push_nil, components_nil, List.nil_append]
    rcases List.mem_append.mp hpart with hleading | hpart
    · exact .inr ⟨rfl, mem_leading hrelative hleading⟩
    · exact hparts part hpart
  · exact ⟨parts relative, components_push hdirectory hrelative, hparts⟩

/-- A name pushed to any path. -/
theorem components_push_index (path : List Char) :
    components (push path "index.html".toList) =
      components path ++ [.normal "index.html".toList] := by
  by_cases hpath : path = []
  · subst hpath
    rw [push_nil, components_nil]
    decide
  · rw [components_push hpath (by decide)]
    rfl

/-! ### The file that is read -/

/-- **The directory is not left.**  Whatever the directory, the request and the encoding of its
path, the path that is read is the directory, followed only by names of files and possibly
`index.html`. -/
theorem file_stays_inside {fs : FileSystem} {directory path : List Char} {request : Request}
    (h : Reads fs directory request path) :
    directory <+: path ∧ ∃ rest, (∀ part ∈ rest, Ordinary directory part) ∧
      (components path = components directory ++ rest ∨
        components path = components directory ++ rest ++ [.normal "index.html".toList]) := by
  obtain ⟨relative, hrelative, h⟩ := bind_ok_iff.mp h.2
  obtain ⟨hhead, hsafe⟩ := relativePath_ok hrelative
  obtain ⟨rest, hrest, hordinary⟩ := components_push_relative directory hhead hsafe
  have hstart : directory <+: push directory relative := self_prefix_push hhead
  cases h
  split_ifs with hdir
  · refine ⟨hstart.trans (self_prefix_push (by decide)), rest, hordinary, .inr ?_⟩
    rw [components_push_index, hrest]
  · exact ⟨hstart, rest, hordinary, .inl hrest⟩

/-- A request for a file of which every byte of the path is encoded. -/
theorem file_stays_inside_encoded :
    let request : Request := ⟨.get, Percent.encode (fun _ => false) "//a/./b".toList⟩
    let fs : FileSystem := ⟨fun _ => true, fun _ => none⟩
    Reads fs "/srv".toList request "/srv/a/./b/index.html".toList ∧
      "/srv".toList <+: "/srv/a/./b/index.html".toList := by
  intro request fs
  have hreads : Reads fs "/srv".toList request "/srv/a/./b/index.html".toList := by
    refine ⟨.inl rfl, ?_⟩
    have hdecoded : ofUtf8 (Percent.percentDecode request.path) = some "//a/./b".toList := by
      have hdecode := @Percent.percentDecode_encode (fun _ => false) rfl "//a/./b".toList []
      rw [List.append_nil, Percent.percentDecode, List.append_nil] at hdecode
      rw [hdecode, ofUtf8_utf8]
    rw [filePath, relativePath, hdecoded]
    decide
  exact ⟨hreads, (file_stays_inside hreads).1⟩

/-! ### Responses -/

/-- Behind the directory there are only names of files. -/
def Inside (directory path : List Char) : Prop :=
  ∃ rest, components path = components directory ++ rest ∧ ∀ part ∈ rest, Ordinary directory part

theorem inside_push_index {directory path : List Char} (h : Inside directory path) :
    Inside directory (push path "index.html".toList) := by
  obtain ⟨rest, hrest, hordinary⟩ := h
  refine ⟨rest ++ [.normal "index.html".toList], ?_, fun part hpart => ?_⟩
  · rw [components_push_index, hrest, List.append_assoc]
  · rcases List.mem_append.mp hpart with hpart | hpart
    · exact hordinary part hpart
    · exact .inl ⟨_, List.mem_singleton.mp hpart, by decide, by decide, by decide, by decide⟩

/-- **Files elsewhere have no influence** on a response. -/
theorem fileResponse_congr {fs fs' : FileSystem} {directory : List Char}
    (hdir : ∀ path, Inside directory path → fs.isDir path = fs'.isDir path)
    (hread : ∀ path, Inside directory path → fs.read path = fs'.read path)
    (mimeGuess : List Char → Option (List Char)) (request : Request) :
    fileResponse fs mimeGuess directory request = fileResponse fs' mimeGuess directory request := by
  have hpath : filePath fs directory request.path = filePath fs' directory request.path ∧
      ∀ path, filePath fs' directory request.path = .ok path → Inside directory path := by
    unfold filePath
    cases hrelative : relativePath request.path with
    | error e => exact ⟨rfl, fun path h => (by cases h)⟩
    | ok relative =>
        obtain ⟨hhead, hsafe⟩ := relativePath_ok hrelative
        have hinside : Inside directory (push directory relative) :=
          components_push_relative directory hhead hsafe
        simp only [bind_of_ok rfl, hdir _ hinside]
        refine ⟨trivial, fun path h => ?_⟩
        cases h
        split_ifs
        · exact inside_push_index hinside
        · exact hinside
  unfold fileResponse
  split_ifs with hmethod
  · rfl
  rw [hpath.1]
  cases hok : filePath fs' directory request.path with
  | error e => rfl
  | ok path =>
      rw [bind_of_ok rfl, bind_of_ok rfl, respond, hread path (hpath.2 path hok), respond]

end SingBoxMini.Masquerade
