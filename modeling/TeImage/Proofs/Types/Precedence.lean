/-
Which definition of a type a loaded image holds when its type source is a directory.

Definitions reach the image in one list: the built-in ones, those of the shared files, those of the
platform's own files, and under each name the last of the list stays. So a definition in the
platform's directory prevails over a shared one and a shared one over a built-in one, and within a
directory the last definition in the last file prevails (`Prevails`, `type_of_load_prevails`).
-/
import Mathlib.Tactic
import TeImage.Proofs.Image.Contents
import TeImage.Proofs.Types.Directory

namespace TeImage

/-! ## The last of a list -/

namespace TypeTable

theorem ofList_eq_some_iff {defs : List TypeDef} {name : String} {d : TypeDef} :
    ofList defs name = some d ↔
      ∃ before after, defs = before ++ d :: after ∧ d.name = name ∧ ∀ e ∈ after, e.name ≠ name := by
  rw [ofList, List.find?_eq_some_iff_append, decide_eq_true_eq]
  constructor
  · rintro ⟨named, after, before, split, others⟩
    refine ⟨before.reverse, after.reverse, ?_, named, fun e he => ?_⟩
    · rw [← List.reverse_reverse defs, split, List.reverse_append, List.reverse_cons,
        List.append_assoc, List.singleton_append]
    · simpa using others e (List.mem_reverse.1 he)
  · rintro ⟨before, after, rfl, named, others⟩
    refine ⟨named, after.reverse, before.reverse, ?_, fun e he => ?_⟩
    · rw [List.reverse_append, List.reverse_cons, List.append_assoc, List.singleton_append]
    · simpa using others e (List.mem_reverse.1 he)

theorem ofList_eq_none_iff {defs : List TypeDef} {name : String} :
    ofList defs name = none ↔ ∀ d ∈ defs, d.name ≠ name := by
  simp [ofList]

/-- Of several lists in a row the last one that has the name decides. -/
theorem ofList_flatMap {α : Type} (files : List (α × List TypeDef)) (name : String) :
    ofList (files.flatMap (·.2)) name = files.reverse.findSome? fun f => ofList f.2 name := by
  induction files with
  | nil => rfl
  | cons f files ih =>
    rw [List.flatMap_cons, ofList_append, ih, List.reverse_cons, List.findSome?_append,
      List.findSome?_singleton]

end TypeTable

/-- The built-in definitions have different names. -/
theorem Builtin.eq_of_name_eq {d d' : TypeDef} (h : d ∈ all) (h' : d' ∈ all)
    (hname : d.name = d'.name) : d = d' :=
  List.inj_on_of_nodup_map (by decide : (all.map (·.name)).Nodup) h h' hname

theorem Builtin.ofList_all {d : TypeDef} {name : String} (mem : d ∈ all) (named : d.name = name) :
    TypeTable.ofList all name = some d := by
  cases hlast : TypeTable.ofList all name with
  | none => exact absurd named (TypeTable.ofList_eq_none_iff.1 hlast d mem)
  | some d' =>
    obtain ⟨before, after, hall, named', -⟩ := TypeTable.ofList_eq_some_iff.1 hlast
    have mem' : d' ∈ all := by rw [hall]; simp
    rw [eq_of_name_eq mem mem' (named.trans named'.symm)]

/-! ## Directories -/

namespace TypeDirectory

variable {files : FileSystem} {directory : Bytes} {name : String}

/-- A file of the directory that counts has a definition of the type. -/
def Defines (files : FileSystem) (directory file : Bytes) (name : String) : Prop :=
  ∃ defs, Accepts files directory file defs ∧ ∃ d ∈ defs, d.name = name

/-- The last definition of a type in a directory: it is the last one in the list of its file, and no
file with a greater name has one. -/
def LastDefinition (files : FileSystem) (directory : Bytes) (name : String) (d : TypeDef) : Prop :=
  ∃ file before after, Accepts files directory file (before ++ d :: after) ∧ d.name = name ∧
    (∀ e ∈ after, e.name ≠ name) ∧ ∀ other, Defines files directory other name → other ≤ file

theorem LastDefinition.defines {d : TypeDef} (h : LastDefinition files directory name d) :
    ∃ file, Defines files directory file name := by
  obtain ⟨file, before, after, haccepts, named, -, -⟩ := h
  exact ⟨file, _, haccepts, d, by simp, named⟩

/-- The definition of a type that comes last when the directory is read. -/
def lastRead (files : FileSystem) (directory : Bytes) (name : String) : Option TypeDef :=
  TypeTable.ofList ((accepted files directory).flatMap (·.2)) name

theorem lastRead_eq_none_iff :
    lastRead files directory name = none ↔ ∀ file, ¬ Defines files directory file name := by
  rw [lastRead, TypeTable.ofList_eq_none_iff]
  constructor
  · rintro h file ⟨defs, haccepts, d, hd, named⟩
    exact h d (List.mem_flatMap.2 ⟨(file, defs), mem_accepted_iff.2 haccepts, hd⟩) named
  · intro h d hd named
    obtain ⟨⟨file, defs⟩, hfile, hd⟩ := List.mem_flatMap.1 hd
    exact h file ⟨defs, mem_accepted_iff.1 hfile, d, hd, named⟩

/-- Files are read in the order of their names, so the last file that has a definition is the one
with the greatest name. -/
theorem lastDefinition_of_lastRead {d : TypeDef} (h : lastRead files directory name = some d) :
    LastDefinition files directory name d := by
  rw [lastRead, TypeTable.ofList_flatMap, List.findSome?_eq_some_iff] at h
  obtain ⟨later, ⟨file, defs⟩, earlier, split, hd, silent⟩ := h
  have reverse_sorted := List.pairwise_reverse.2 (pairwise_accepted files directory)
  rw [split, List.pairwise_append, List.pairwise_cons] at reverse_sorted
  obtain ⟨-, ⟨below, -⟩, -⟩ := reverse_sorted
  have mem_split (f : Bytes × List TypeDef) :
      f ∈ accepted files directory ↔ f ∈ later ∨ f = (file, defs) ∨ f ∈ earlier := by
    rw [← List.mem_reverse, split, List.mem_append, List.mem_cons]
  obtain ⟨before, after, rfl, named, others⟩ := TypeTable.ofList_eq_some_iff.1 hd
  refine ⟨file, before, after, mem_accepted_iff.1 ((mem_split _).2 (.inr (.inl rfl))), named,
    others, ?_⟩
  rintro other ⟨otherDefs, haccepts, e, he, hname⟩
  rcases (mem_split _).1 (mem_accepted_iff.2 haccepts) with hlater | same | hearlier
  · exact absurd hname (TypeTable.ofList_eq_none_iff.1 (silent _ hlater) e he)
  · cases same
    exact List.le_refl _
  · exact below (other, otherDefs) hearlier

/-- What stands at a path is read once, so a file has one list of definitions. -/
theorem Accepts.unique {file : Bytes} {defs defs' : List TypeDef}
    (h : Accepts files directory file defs) (h' : Accepts files directory file defs') :
    defs = defs' := by
  obtain ⟨-, text, ⟨-, -, read⟩, hparse⟩ := h
  obtain ⟨-, text', ⟨-, -, read'⟩, hparse'⟩ := h'
  cases Utf8.encode_injective (Except.ok.inj (read.symm.trans read'))
  exact Except.ok.inj (hparse.symm.trans hparse')

theorem LastDefinition.unique {d d' : TypeDef} (h : LastDefinition files directory name d)
    (h' : LastDefinition files directory name d') : d = d' := by
  obtain ⟨file, before, after, haccepts, named, others, greatest⟩ := h
  obtain ⟨file', before', after', haccepts', named', others', greatest'⟩ := h'
  have le : file ≤ file' := greatest' file ⟨_, haccepts, d, by simp, named⟩
  have ge : file' ≤ file := greatest file' ⟨_, haccepts', d', by simp, named'⟩
  cases List.le_antisymm le ge
  have last := TypeTable.ofList_eq_some_iff.2 ⟨before, after, rfl, named, others⟩
  rw [haccepts.unique haccepts'] at last
  exact Option.some.inj
    (last.symm.trans (TypeTable.ofList_eq_some_iff.2 ⟨before', after', rfl, named', others'⟩))

theorem LastDefinition.lastRead_eq {d : TypeDef} (h : LastDefinition files directory name d) :
    lastRead files directory name = some d := by
  cases hlast : lastRead files directory name with
  | none =>
    obtain ⟨file, hdefines⟩ := h.defines
    exact absurd hdefines (lastRead_eq_none_iff.1 hlast file)
  | some d' => rw [h.unique (lastDefinition_of_lastRead hlast)]

end TypeDirectory

/-! ## Precedence -/

open TypeDirectory

section

variable (files : FileSystem) (path : Bytes) (platform : Platform) (name : String)

/-- A file of the platform's own directory defines the type. A platform without a name has no
such directory. -/
def DefinedForPlatform : Prop :=
  ∃ own file, platform.name? = some own ∧
    Defines files (joinPath path (Utf8.encode own)) file name

/-- What a directory source makes of a type name: the definition that counts, if there is any. -/
inductive Prevails : Option TypeDef → Prop
  | own {own : String} {d : TypeDef} (named : platform.name? = some own)
      (last : LastDefinition files (joinPath path (Utf8.encode own)) name d) : Prevails (some d)
  | shared {d : TypeDef} (noOwn : ¬ DefinedForPlatform files path platform name)
      (last : LastDefinition files path name d) : Prevails (some d)
  | builtin {d : TypeDef} (noOwn : ¬ DefinedForPlatform files path platform name)
      (noShared : ∀ file, ¬ Defines files path file name)
      (mem : d ∈ Builtin.all) (named : d.name = name) : Prevails (some d)
  | absent (noOwn : ¬ DefinedForPlatform files path platform name)
      (noShared : ∀ file, ¬ Defines files path file name)
      (noBuiltin : ∀ d ∈ Builtin.all, d.name ≠ name) : Prevails none

end

variable {files : FileSystem} {path : Bytes} {platform : Platform} {name : String}

/-- The definition of a type that comes last when the platform's own directory is read. -/
def lastReadForPlatform (files : FileSystem) (path : Bytes) (platform : Platform)
    (name : String) : Option TypeDef :=
  platform.name?.bind fun own => lastRead files (joinPath path (Utf8.encode own)) name

theorem lastReadForPlatform_eq_none_iff : lastReadForPlatform files path platform name = none ↔
    ¬ DefinedForPlatform files path platform name := by
  simp only [lastReadForPlatform, Option.bind_eq_none_iff, lastRead_eq_none_iff,
    DefinedForPlatform, not_exists, not_and]
  exact ⟨fun h own file named => h own named file, fun h own named file => h own file named⟩

/-- The order of reading puts the built-in definitions first and those of the platform last. -/
theorem ofList_read (explain : Json.Wording) (files : FileSystem) (path : Bytes)
    (platform : Platform) (name : String) :
    TypeTable.ofList (Builtin.all ++ (TypeDirectory.read explain files path platform).value) name =
      ((lastReadForPlatform files path platform name).or (lastRead files path name)).or
        (TypeTable.ofList Builtin.all name) := by
  rw [value_read, directories, List.flatMap_cons, TypeTable.ofList_append, TypeTable.ofList_append,
    lastReadForPlatform, lastRead]
  cases platform.name? with
  | none => rfl
  | some own =>
    show ((TypeTable.ofList (_ ++ []) name).or _).or _ = _
    rw [List.append_nil]
    rfl

/-- The definition that comes last prevails, and no other does. -/
theorem prevails_iff (explain : Json.Wording) {d? : Option TypeDef} :
    Prevails files path platform name d? ↔ d? = TypeTable.ofList
      (Builtin.all ++ (TypeDirectory.read explain files path platform).value) name := by
  rw [ofList_read]
  constructor
  · intro h
    cases h with
    | own named last =>
      rw [lastReadForPlatform, named, Option.bind_some, last.lastRead_eq, Option.some_or,
        Option.some_or]
    | shared noOwn last =>
      rw [lastReadForPlatform_eq_none_iff.2 noOwn, last.lastRead_eq, Option.none_or,
        Option.some_or]
    | builtin noOwn noShared mem named =>
      rw [lastReadForPlatform_eq_none_iff.2 noOwn, lastRead_eq_none_iff.2 noShared, Option.none_or,
        Option.none_or, Builtin.ofList_all mem named]
    | absent noOwn noShared noBuiltin =>
      rw [lastReadForPlatform_eq_none_iff.2 noOwn, lastRead_eq_none_iff.2 noShared, Option.none_or,
        Option.none_or, TypeTable.ofList_eq_none_iff.2 noBuiltin]
  · rintro rfl
    cases hown : lastReadForPlatform files path platform name with
    | some d =>
      obtain ⟨own, named, hlast⟩ := Option.bind_eq_some_iff.1 hown
      exact .own named (lastDefinition_of_lastRead hlast)
    | none =>
      have noOwn := lastReadForPlatform_eq_none_iff.1 hown
      cases hshared : lastRead files path name with
      | some d => exact .shared noOwn (lastDefinition_of_lastRead hshared)
      | none =>
        have noShared := lastRead_eq_none_iff.1 hshared
        cases hbuiltin : TypeTable.ofList Builtin.all name with
        | some d =>
          obtain ⟨before, after, hall, named, -⟩ := TypeTable.ofList_eq_some_iff.1 hbuiltin
          exact .builtin noOwn noShared (by rw [hall]; simp) named
        | none => exact .absent noOwn noShared (TypeTable.ofList_eq_none_iff.1 hbuiltin)

/-- A loaded image holds under each name the definition that prevails, whatever the system shows at
the paths that are asked for. -/
theorem type_of_load_prevails {data : Bytes} {path : Bytes} {files : FileSystem}
    {explain : Json.Wording} {image : Image}
    (h : (load data (.directory path files explain)).value = .ok image) (name : String) :
    ∃ hd, parseHeader data = .ok hd ∧
      ∀ d?, Prevails files path (Platform.ofMachine hd.machine) name d? ↔
        d? = image.types[name]? := by
  obtain ⟨hd, records, hdecode, -, -, rfl⟩ := calls_of_load h
  have held : (Sink.registerAll Image.empty (Load.calls hd records
      ((TypeSource.directory path files explain).extra (Platform.ofMachine hd.machine))
      data.length)).types[name]? = TypeTable.ofList (Builtin.all ++
        (TypeDirectory.read explain files path (Platform.ofMachine hd.machine)).value) name := by
    rw [Image.types_registerAll, Load.type?_calls]
    exact Option.or_none
  refine ⟨hd, by rw [parseHeader, hdecode], fun d? => ?_⟩
  rw [held]
  exact prevails_iff explain

/-- A definition of the platform prevails over a shared one in a file with a greater name, and is
found as well in a shared directory that refuses to be listed. -/
theorem type_of_load_prevails_own :
    let data : Bytes := [0x56, 0x5A, 0x64, 0x86] ++ List.replicate 36 0
    let file (text : String) := FileTree.file (.ok (.ok (Utf8.encode text)))
    let own := "[[\"T\", \x7b\"alias\": \"u16\"\x7d]]"
    let shared := "[[\"T\", \x7b\"alias\": \"u8\"\x7d]]"
    let tree (unlistable? : Option FileFault) := FileTree.directory none none
      [(Utf8.encode "types", .directory unlistable? none [(Utf8.encode "b.json", file shared),
        (Utf8.encode "efi-x86_64", .directory none none [(Utf8.encode "a.json", file own)])])]
    let files (unlistable? : Option FileFault) := (tree unlistable?).system
    let source (unlistable? : Option FileFault) : TypeSource :=
      .directory (Utf8.encode "types") (files unlistable?) fun _ _ => "refused"
    (∃ image, (load data (source none)).value = .ok image ∧
      image.types["T"]? = some ⟨"T", .aliasOf .u16⟩) ∧
    ∃ image, (load data (source (some (.other "Permission denied (os error 13)")))).value =
      .ok image ∧ image.types["T"]? = some ⟨"T", .aliasOf .u16⟩ := by
  intro data file own shared tree files source
  have hparse : parseHeader data =
      .ok ⟨Header.magic, 0x8664, 0, 0, 0, 0, 0, 0, ⟨0, 0⟩, ⟨0, 0⟩⟩ := rfl
  have parsed : TypeText.parseTypeDefs "[[\"T\", \x7b\"alias\": \"u16\"\x7d]]" =
      .ok [⟨"T", .aliasOf .u16⟩] := by cbv
  have held (unlistable? : Option FileFault) : ∃ image, (load data (source unlistable?)).value =
      .ok image ∧ image.types["T"]? = some ⟨"T", .aliasOf .u16⟩ := by
    obtain ⟨rs, hplan⟩ := Load.plan_of_fits (source unlistable?) rfl hparse (by decide)
    have hload : (load data (source unlistable?)).value =
        .ok (Sink.registerAll Image.empty rs) := by
      rw [value_load, hplan]
      rfl
    obtain ⟨hd, hheader, prevails⟩ := type_of_load_prevails hload "T"
    cases hparse.symm.trans hheader
    have listed : (files unlistable?).names (Utf8.encode "types/efi-x86_64") =
        .ok [Utf8.encode "a.json"] := rfl
    refine ⟨_, hload, ((prevails _).1 (.own rfl ?_)).symm⟩
    refine ⟨Utf8.encode "a.json", [], [], ⟨⟨Utf8.encode "a", by decide, rfl⟩, own,
      ⟨⟨_, listed, by simp⟩, rfl, rfl⟩, parsed⟩, rfl, by simp, ?_⟩
    rintro other ⟨_, ⟨-, _, ⟨⟨names, hlist, hmem⟩, -, -⟩, -⟩, -⟩
    cases listed.symm.trans hlist
    rw [List.mem_singleton.1 hmem]
    exact List.le_refl _
  exact ⟨held none, held _⟩

end TeImage
