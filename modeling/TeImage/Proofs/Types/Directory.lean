/-
What a directory source reads.

`accepted` lists the files of a directory that count, each with its definitions. They are the
regular files with the extension `json` that hold a list of definitions as text
(`mem_accepted_iff`), in the order of the bytes of their names (`pairwise_accepted`). What is read
from the directory is their definitions, one file after the other (`value_readDirectory`), and a
directory that cannot be listed has none of them. Each directory is asked for by its own path, so
what the shared one refuses does not bear on the platform's.
-/
import Mathlib.Tactic
import TeImage.Proofs.Bytes.Utf8
import TeImage.Types.Source

namespace TeImage.TypeDirectory

variable {files : FileSystem} {directory file : Bytes}

/-! ## Names -/

/-- A name with the extension `json`. A name that is nothing else has no extension. -/
def HasTypeExtension (file : Bytes) : Prop := ∃ stem, stem ≠ [] ∧ file = stem ++ Utf8.encode ".json"

theorem isTypeFileName_iff (file : Bytes) :
    isTypeFileName file = true ↔ HasTypeExtension file := by
  rw [isTypeFileName, Bool.and_eq_true, List.isSuffixOf_iff_suffix, decide_eq_true_eq,
    HasTypeExtension]
  have size : (Utf8.encode ".json").length = 5 := rfl
  constructor
  · rintro ⟨⟨stem, rfl⟩, long⟩
    refine ⟨stem, ?_, rfl⟩
    rintro rfl
    exact absurd long (by decide)
  · rintro ⟨stem, named, rfl⟩
    refine ⟨⟨stem, rfl⟩, ?_⟩
    have := List.length_pos_iff.2 named
    rw [List.length_append, size]
    omega

/-! ## Accepted files -/

/-- The system lists the name in the directory, and shows a regular file of that content there. -/
structure ShowsFile (files : FileSystem) (directory file : Bytes) (content : Bytes) : Prop where
  listed : ∃ names, files.names directory = .ok names ∧ file ∈ names
  isFile : files.isFile (joinPath directory file) = true
  read : files.read (joinPath directory file) = .ok content

/-- A file that counts, with its definitions: a regular file with the extension `json` whose
content is a text that is one list of definitions from its start to its end. -/
structure Accepts (files : FileSystem) (directory file : Bytes) (defs : List TypeDef) : Prop where
  extension : HasTypeExtension file
  holds : ∃ text, ShowsFile files directory file (Utf8.encode text) ∧
    TypeText.parseTypeDefs text = .ok defs

/-- The name of a file in the directory with its definitions, if it holds them. -/
def withDefinitions? (files : FileSystem) (directory file : Bytes) :
    Option (Bytes × List TypeDef) :=
  (definitionsOf (files.read (joinPath directory file))).toOption.map (file, ·)

/-- The files that count, in the order in which they are read. -/
def accepted (files : FileSystem) (directory : Bytes) : List (Bytes × List TypeDef) :=
  match files.names directory with
  | .ok names => (typeFiles files directory names).filterMap (withDefinitions? files directory)
  | .error _ => []

theorem definitionsOf_eq_ok_iff {content : Except FileFault Bytes} {defs : List TypeDef} :
    definitionsOf content = .ok defs ↔
      ∃ text, content = .ok (Utf8.encode text) ∧ TypeText.parseTypeDefs text = .ok defs := by
  constructor
  · intro h
    unfold definitionsOf at h
    split at h
    · cases h
    · split at h
      · cases h
      · rename_i bytes text htext
        refine ⟨text, by rw [Utf8.decode?_eq_some_iff.1 htext], ?_⟩
        cases hparse : TypeText.parseTypeDefs text with
        | error fault => rw [hparse] at h; cases h
        | ok parsed => rw [hparse] at h; cases h; rfl
  · rintro ⟨text, rfl, hparse⟩
    simp only [definitionsOf, Utf8.decode?_eq_some_iff.2 rfl, hparse]
    rfl

theorem withDefinitions?_eq_some_iff {name : Bytes} {defs : List TypeDef} :
    withDefinitions? files directory name = some (file, defs) ↔ name = file ∧
      ∃ text, files.read (joinPath directory file) = .ok (Utf8.encode text) ∧
        TypeText.parseTypeDefs text = .ok defs := by
  rw [withDefinitions?, Option.map_eq_some_iff]
  constructor
  · rintro ⟨defs', hdefs, same⟩
    cases same
    refine ⟨rfl, definitionsOf_eq_ok_iff.1 ?_⟩
    cases hread : definitionsOf (files.read (joinPath directory file)) with
    | error refusal => rw [hread] at hdefs; cases hdefs
    | ok found => rw [hread] at hdefs; cases hdefs; rfl
  · rintro ⟨rfl, holds⟩
    rw [definitionsOf_eq_ok_iff.2 holds]
    exact ⟨defs, rfl, rfl⟩

theorem withDefinitions?_of_read (text : String)
    (content : files.read (joinPath directory file) = .ok (Utf8.encode text)) :
    withDefinitions? files directory file =
      (TypeText.parseTypeDefs text).toOption.map (file, ·) := by
  simp only [withDefinitions?, definitionsOf, content, Utf8.decode?_eq_some_iff.2 rfl]
  cases TypeText.parseTypeDefs text <;> rfl

theorem mem_typeFiles_iff {names : List Bytes} : file ∈ typeFiles files directory names ↔
    file ∈ names ∧ files.isFile (joinPath directory file) = true ∧ HasTypeExtension file := by
  rw [typeFiles, List.mem_mergeSort, List.mem_filter, Bool.and_eq_true, isTypeFileName_iff]

theorem accepted_of_names {names : List Bytes} (listed : files.names directory = .ok names) :
    accepted files directory =
      (typeFiles files directory names).filterMap (withDefinitions? files directory) := by
  simp only [accepted, listed]

theorem mem_accepted_iff {defs : List TypeDef} :
    (file, defs) ∈ accepted files directory ↔ Accepts files directory file defs := by
  unfold accepted
  split
  · rename_i names hlist
    rw [List.mem_filterMap]
    constructor
    · rintro ⟨name, hmem, hread⟩
      obtain ⟨rfl, text, content, hparse⟩ := withDefinitions?_eq_some_iff.1 hread
      obtain ⟨listed, isFile, extension⟩ := mem_typeFiles_iff.1 hmem
      exact ⟨extension, text, ⟨⟨names, hlist, listed⟩, isFile, content⟩, hparse⟩
    · rintro ⟨extension, text, ⟨⟨names', hlist', listed⟩, isFile, content⟩, hparse⟩
      cases hlist.symm.trans hlist'
      exact ⟨file, mem_typeFiles_iff.2 ⟨listed, isFile, extension⟩,
        withDefinitions?_eq_some_iff.2 ⟨rfl, text, content, hparse⟩⟩
  · rename_i fault hlist
    constructor
    · intro h
      cases h
    · rintro ⟨-, text, ⟨⟨names, hlist', -⟩, -, -⟩, -⟩
      cases hlist.symm.trans hlist'

/-- Which files count can be told without their order. -/
theorem accepts_iff_of_names {names : List Bytes} {defs : List TypeDef}
    (listed : files.names directory = .ok names) :
    Accepts files directory file defs ↔ (file, defs) ∈ (names.filter fun name =>
      files.isFile (joinPath directory name) && isTypeFileName name).filterMap
        (withDefinitions? files directory) := by
  rw [← mem_accepted_iff, accepted_of_names listed]
  exact ((List.mergeSort_perm _ _).filterMap _).mem_iff

/-! ## Their order -/

theorem pairwise_typeFiles (files : FileSystem) (directory : Bytes) (names : List Bytes) :
    (typeFiles files directory names).Pairwise fun a b => a ≤ b := by
  unfold typeFiles
  refine (List.pairwise_mergeSort ?_ ?_ _).imp of_decide_eq_true
  · intro a b c hab hbc
    exact decide_eq_true (List.le_trans (of_decide_eq_true hab) (of_decide_eq_true hbc))
  · intro a b
    rw [Bool.or_eq_true, decide_eq_true_eq, decide_eq_true_eq]
    exact List.le_total a b

/-- The files are read in the order of their names, byte by byte. -/
theorem pairwise_accepted (files : FileSystem) (directory : Bytes) :
    (accepted files directory).Pairwise fun a b => a.1 ≤ b.1 := by
  unfold accepted
  split
  · refine (pairwise_typeFiles files directory _).filterMap _ ?_
    rintro a b hab ⟨file, _⟩ ha ⟨other, _⟩ hb
    obtain ⟨rfl, -⟩ := withDefinitions?_eq_some_iff.1 ha
    obtain ⟨rfl, -⟩ := withDefinitions?_eq_some_iff.1 hb
    exact hab
  · exact .nil

/-! ## Reading -/

theorem value_readFile (explain : Json.Wording) (files : FileSystem) (path : Bytes) :
    (readFile explain files path).value =
      (definitionsOf (files.read path)).toOption.getD [] := by
  rw [readFile]
  cases definitionsOf (files.read path) <;> rfl

/-- What is read from a directory is the definitions of the files that count. -/
theorem value_readDirectory (explain : Json.Wording) (files : FileSystem) (directory : Bytes) :
    (readDirectory explain files directory).value =
      (accepted files directory).flatMap (·.2) := by
  rw [readDirectory, accepted]
  cases files.names directory with
  | error fault => rfl
  | ok names =>
    show (Logged.gather _ (typeFiles files directory names)).value =
      ((typeFiles files directory names).filterMap (withDefinitions? files directory)).flatMap (·.2)
    -- a file that does not count has no definitions to give
    rw [Logged.value_gather, List.filterMap_eq_flatMap_toList, List.flatMap_assoc]
    refine List.flatMap_congr fun name _ => ?_
    rw [value_readFile, withDefinitions?]
    cases definitionsOf (files.read (joinPath directory name)) <;> simp [Except.toOption]

/-- The shared definitions come before those of the platform's own directory, if it has one. -/
theorem value_read (explain : Json.Wording) (files : FileSystem) (path : Bytes)
    (platform : Platform) : (read explain files path platform).value =
      (directories path platform).flatMap fun directory =>
        (accepted files directory).flatMap (·.2) := by
  rw [read, Logged.value_gather]
  exact List.flatMap_congr fun directory _ => value_readDirectory explain files directory

end TeImage.TypeDirectory
