/-
A directory source gives all definitions that its directories hold and no others, and never fails
(`directory_is_read_exactly`). They come file by file, in the order of the bytes of the names, first
those of the shared directory and then those of the platform's own (`Listing`). In which order the
system lists a directory is of no account, and neither is anything that stands there besides the
files that count (`ReadAlike`).
-/
import Mathlib.Tactic
import TeImage.Proofs.Types.Precedence

namespace TeImage

namespace TypeDirectory

variable {files files' : FileSystem} {directory path : Bytes} {platform : Platform}

/-! ## Listings -/

/-- No name is listed twice in the directory. -/
def DistinctNames (files : FileSystem) (directory : Bytes) : Prop :=
  ∀ names, files.names directory = .ok names → names.Nodup

/-- The files of a directory that count, each with its definitions and in the order of the bytes of
their names. A directory that cannot be listed has none. -/
structure Listing (files : FileSystem) (directory : Bytes)
    (counted : List (Bytes × List TypeDef)) : Prop where
  complete : ∀ file defs, (file, defs) ∈ counted ↔ Accepts files directory file defs
  ordered : counted.Pairwise fun a b => a.1 ≤ b.1
  once : DistinctNames files directory → counted.Pairwise fun a b => a.1 ≠ b.1
  unlisted : ∀ fault, files.names directory = .error fault → counted = []

theorem nodup_typeFiles {names : List Bytes} (distinct : names.Nodup) :
    (typeFiles files directory names).Nodup :=
  (List.mergeSort_perm _ _).nodup_iff.2 (distinct.filter _)

theorem listing_accepted (files : FileSystem) (directory : Bytes) :
    Listing files directory (accepted files directory) where
  complete _ _ := mem_accepted_iff
  ordered := pairwise_accepted files directory
  once distinct := by
    unfold accepted
    split
    · next names hlist =>
      refine List.Pairwise.filterMap _ ?_ (nodup_typeFiles (distinct names hlist))
      rintro a b hab ⟨file, _⟩ ha ⟨other, _⟩ hb
      obtain ⟨rfl, -⟩ := withDefinitions?_eq_some_iff.1 ha
      obtain ⟨rfl, -⟩ := withDefinitions?_eq_some_iff.1 hb
      exact hab
    · exact .nil
  unlisted fault hlist := by rw [accepted, hlist]

/-- There is one listing only of a directory where no name comes twice, and wherever the same files
count it is the same. -/
theorem Listing.unique {counted counted' : List (Bytes × List TypeDef)}
    (h : Listing files directory counted) (h' : Listing files' directory counted')
    (distinct : DistinctNames files directory) (distinct' : DistinctNames files' directory)
    (same : ∀ file defs, Accepts files directory file defs ↔ Accepts files' directory file defs) :
    counted = counted' := by
  have antisymm : Std.Antisymm fun a b : Bytes × List TypeDef => a.1 ≤ b.1 ∧ a.1 ≠ b.1 :=
    ⟨fun a b hab hba => absurd (List.le_antisymm hab.1 hba.1) hab.2⟩
  have irrefl : Std.Irrefl fun a b : Bytes × List TypeDef => a.1 ≤ b.1 ∧ a.1 ≠ b.1 :=
    ⟨fun a haa => haa.2 rfl⟩
  refine (h.ordered.and (h.once distinct)).eq_of_mem_iff (h'.ordered.and (h'.once distinct')) ?_
  rintro ⟨file, defs⟩
  rw [h.complete, h'.complete, same]

/-! ## Directories that are read alike -/

/-- In each directory that is read for the platform the same files count, with the same
definitions. -/
def ReadAlike (path : Bytes) (platform : Platform) (files files' : FileSystem) : Prop :=
  ∀ directory ∈ directories path platform, ∀ file defs,
    Accepts files directory file defs ↔ Accepts files' directory file defs

/-- No name is listed twice in a directory that is read for the platform. -/
def DistinctFor (path : Bytes) (platform : Platform) (files : FileSystem) : Prop :=
  ∀ directory ∈ directories path platform, DistinctNames files directory

theorem ReadAlike.value_read (explain explain' : Json.Wording)
    (h : ReadAlike path platform files files') (distinct : DistinctFor path platform files)
    (distinct' : DistinctFor path platform files') :
    (read explain files path platform).value = (read explain' files' path platform).value := by
  rw [TypeDirectory.value_read, TypeDirectory.value_read]
  refine List.flatMap_congr fun directory mem => ?_
  rw [(listing_accepted files directory).unique (listing_accepted files' directory)
    (distinct directory mem) (distinct' directory mem) (h directory mem)]

end TypeDirectory

/-! ## What is read -/

open TypeDirectory

/-- A directory source always gives definitions: those of the files that count in the directory and
then those of the files that count in the platform's own one, if the platform has a name. They are
the same wherever the same files count, whatever else stands in these directories, in whatever
order they are listed, and whatever stands anywhere else. -/
theorem directory_is_read_exactly (path : Bytes) (platform : Platform) (explain : Json.Wording) :
    (∀ files, ∃ shared own, Listing files path shared ∧
      (platform.name? = none → own = []) ∧
      (∀ name, platform.name? = some name →
        Listing files (joinPath path (Utf8.encode name)) own) ∧
      ((TypeSource.directory path files explain).definitions platform).value =
        .ok ((shared ++ own).flatMap (·.2))) ∧
    ∀ files files' explain', DistinctFor path platform files → DistinctFor path platform files' →
      ReadAlike path platform files files' →
      ((TypeSource.directory path files explain).definitions platform).value =
        ((TypeSource.directory path files' explain').definitions platform).value := by
  have value (files : FileSystem) (explain : Json.Wording) :
      ((TypeSource.directory path files explain).definitions platform).value =
        .ok (TypeDirectory.read explain files path platform).value := rfl
  refine ⟨fun files => ?_, fun files files' explain' distinct distinct' alike => ?_⟩
  · rw [value, value_read, directories, List.flatMap_cons]
    cases named : platform.name? with
    | none =>
      refine ⟨_, [], listing_accepted files path, fun _ => rfl, ?_, by simp⟩
      rintro _ ⟨⟩
    | some name =>
      refine ⟨_, accepted files (joinPath path (Utf8.encode name)), listing_accepted files path,
        (fun unnamed => absurd unnamed (Option.some_ne_none name)), ?_, by simp⟩
      rintro _ ⟨⟩
      exact listing_accepted _ _
  · rw [value, value, alike.value_read explain explain' distinct distinct']

/-- Names without the extension or that are no text, directories, bytes that are no text and a text
that goes wrong behind a good definition, all of them before the entries that count and these in
reverse. Where the shared directory refuses to be listed, the platform's own is read all the
same. -/
theorem directory_is_read_exactly_cluttered :
    let file (text : String) := FileTree.file (.ok (.ok (Utf8.encode text)))
    let folder (entries : List (Bytes × FileTree)) := FileTree.directory none none entries
    let good := file "[[\"B\", \x7b\"alias\": \"u8\"\x7d]]"
    let half := file "[[\"B\", \x7b\"alias\": \"u8\"\x7d], 1]"
    let kept := [(Utf8.encode "b.json", good),
      (Utf8.encode "efi-x86_64", folder [(Utf8.encode "a.json", good)])]
    let clutter := [(Utf8.encode ".json", good), (Utf8.encode "b.txt", good),
      (0xFF :: Utf8.encode ".txt", good), (Utf8.encode "d.json", folder []),
      (Utf8.encode "half.json", half), (Utf8.encode "latin.json", .file (.ok (.ok [0xFF]))),
      (Utf8.encode "efi-aarch64", folder [(Utf8.encode "b.json", good)])]
    let source (types : FileTree) : TypeSource := .directory (Utf8.encode "types")
      (folder [(Utf8.encode "types", types)]).system fun _ _ => "refused"
    let denied := FileFault.other "Permission denied (os error 13)"
    (ReadAlike (Utf8.encode "types") .x86_64 (folder [(Utf8.encode "types", folder kept)]).system
        (folder [(Utf8.encode "types", folder (clutter ++ kept.reverse))]).system ∧
      ((source (folder kept)).definitions .x86_64).value =
        ((source (folder (clutter ++ kept.reverse))).definitions .x86_64).value) ∧
    ((source (.directory (some denied) none kept)).definitions .x86_64).value =
      .ok [⟨"B", .aliasOf .u8⟩] := by
  intro file folder good half kept clutter source denied
  let plain := (folder [(Utf8.encode "types", folder kept)]).system
  let cluttered := (folder [(Utf8.encode "types", folder (clutter ++ kept.reverse))]).system
  let denying := (folder [(Utf8.encode "types", .directory (some denied) none kept)]).system
  let counted (name : String) : List (Bytes × List TypeDef) :=
    [(Utf8.encode name, [⟨"B", .aliasOf .u8⟩])]
  have parsed : (TypeText.parseTypeDefs "[[\"B\", \x7b\"alias\": \"u8\"\x7d]]").toOption =
      some [⟨"B", .aliasOf .u8⟩] := by cbv
  have malformed : (TypeText.parseTypeDefs "[[\"B\", \x7b\"alias\": \"u8\"\x7d], 1]").toOption =
      none := by cbv
  have alone {files : FileSystem} {directory : Bytes} {name : String} {names : List Bytes}
      (listed : files.names directory = .ok names)
      (typed : typeFiles files directory names = [Utf8.encode name])
      (content : files.read (joinPath directory (Utf8.encode name)) =
        .ok (Utf8.encode "[[\"B\", \x7b\"alias\": \"u8\"\x7d]]")) :
      accepted files directory = counted name := by
    rw [accepted_of_names listed, typed, List.filterMap_cons, withDefinitions?_of_read _ content,
      parsed]
    rfl
  have shared : accepted plain (Utf8.encode "types") = counted "b.json" :=
    alone rfl (by decide +kernel) (by decide +kernel)
  have own : accepted plain (Utf8.encode "types/efi-x86_64") = counted "a.json" :=
    alone rfl (by decide +kernel) (by decide +kernel)
  have own' : accepted cluttered (Utf8.encode "types/efi-x86_64") = counted "a.json" :=
    alone rfl (by decide +kernel) (by decide +kernel)
  have own'' : accepted denying (Utf8.encode "types/efi-x86_64") = counted "a.json" :=
    alone rfl (by decide +kernel) (by decide +kernel)
  -- of the files that are tried in the cluttered directory only the last holds definitions
  have tried : ((clutter ++ kept.reverse).map (·.1)).filter (fun name =>
      cluttered.isFile (joinPath (Utf8.encode "types") name) && isTypeFileName name) =
      [Utf8.encode "half.json", Utf8.encode "latin.json", Utf8.encode "b.json"] := by
    decide +kernel
  have shared' (file : Bytes) (defs : List TypeDef) :
      Accepts cluttered (Utf8.encode "types") file defs ↔ (file, defs) ∈ counted "b.json" := by
    have half : withDefinitions? cluttered (Utf8.encode "types") (Utf8.encode "half.json") =
        none := by
      rw [withDefinitions?_of_read "[[\"B\", \x7b\"alias\": \"u8\"\x7d], 1]" (by decide +kernel),
        malformed]
      rfl
    have latin : withDefinitions? cluttered (Utf8.encode "types") (Utf8.encode "latin.json") =
        none := Option.isNone_iff_eq_none.1 (by decide +kernel)
    have good : withDefinitions? cluttered (Utf8.encode "types") (Utf8.encode "b.json") =
        some (Utf8.encode "b.json", [⟨"B", .aliasOf .u8⟩]) := by
      rw [withDefinitions?_of_read "[[\"B\", \x7b\"alias\": \"u8\"\x7d]]" (by decide +kernel),
        parsed]
      rfl
    rw [accepts_iff_of_names rfl]
    show _ ∈ List.filterMap _ (List.filter _ ((clutter ++ kept.reverse).map (·.1))) ↔ _
    rw [tried, List.filterMap_cons_none half, List.filterMap_cons_none latin,
      List.filterMap_cons_some good]
    rfl
  have read : directories (Utf8.encode "types") .x86_64 =
      [Utf8.encode "types", Utf8.encode "types/efi-x86_64"] := rfl
  have alike : ReadAlike (Utf8.encode "types") .x86_64 plain cluttered := by
    rw [ReadAlike, read, List.forall_mem_cons, List.forall_mem_singleton]
    constructor
    · intro file defs
      rw [← mem_accepted_iff, shared, shared']
    · intro file defs
      rw [← mem_accepted_iff, ← mem_accepted_iff, own, own']
  refine ⟨⟨alike, (directory_is_read_exactly (Utf8.encode "types") .x86_64 _).2 _ _ _ ?_ ?_ alike⟩,
    ?_⟩
  · rw [DistinctFor, read, List.forall_mem_cons, List.forall_mem_singleton]
    constructor
    all_goals
      rintro names ⟨⟩
      decide
  · rw [DistinctFor, read, List.forall_mem_cons, List.forall_mem_singleton]
    constructor
    all_goals
      rintro names ⟨⟩
      decide
  · show Except.ok (TypeDirectory.read _ denying _ _).value = _
    rw [value_read, read, List.flatMap_cons, List.flatMap_singleton, own'',
      (listing_accepted _ _).unlisted denied rfl]
    rfl

end TeImage
