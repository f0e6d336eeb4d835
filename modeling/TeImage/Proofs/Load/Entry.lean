/-
The entry point of an image. It can be asked for before a load, from the bytes of its two fields,
from the decoded header or from the file that holds it, and after a load, from the image, its
functions and its symbols. All of these give the image base plus the entry address, modulo
`2 ^ 64` (`entry_point_is_one`). Before a load nothing but the mark and the length of the header is
needed. A load registers its entry point last, so whatever an image held before, the point, the
function and the symbol are those of the load (`hasEntry_registerAll`).
-/
import Mathlib.Tactic
import TeImage.CommandLine.Run
import TeImage.Proofs.Image.Repetition

namespace TeImage

/-! ## Before a load -/

/-- The two fields are read at the offsets at which the decoder comes to them. -/
theorem entryPointOf_of_terse {data : Bytes} {h : Header} (terse : isTerse data = true)
    (hh : parseHeader data = .ok h) : entryPointOf data = .ok h.entryPoint := by
  obtain ⟨-, -, -, entry, base⟩ := fields_of_parseHeader hh
  obtain ⟨long, -⟩ := (isTerse_iff data).1 terse
  have narrow : littleEndianValue (slice data 8 4) < UInt32.size :=
    littleEndianValue_slice_lt (by omega)
  rw [entryPointOf, if_pos terse, Header.entryPoint, entry, base, imageBaseOf,
    UInt32.toUInt64_ofNat' narrow]

theorem entryPointOf_of_not_terse {data : Bytes} (h : isTerse data = false) :
    entryPointOf data = .error .notTerse := by
  rw [entryPointOf, h]
  rfl

theorem Header.toNat_entryPoint (h : Header) :
    h.entryPoint.toNat = (h.imageBase.toNat + h.entryAddress.toNat) % 2 ^ 64 := by
  rw [entryPoint, UInt64.toNat_add, UInt32.toNat_toUInt64]

namespace ImageFile

theorem ofBytes_of_terse {data : Bytes} {h : Header} (path : String) (terse : isTerse data = true)
    (hh : parseHeader data = .ok h) : ofBytes path data = .ok ⟨path, data, h⟩ := by
  rw [ofBytes, terse, hh]
  rfl

theorem ofBytes_of_not_terse {data : Bytes} (path : String) (h : isTerse data = false) :
    ofBytes path data = .error .notTerse := by
  rw [ofBytes, h]
  rfl

end ImageFile

theorem entryPointOf_eq_notTerse_iff {data : Bytes} :
    entryPointOf data = .error .notTerse ↔ isTerse data = false := by
  rcases isTerse_cases data with refused | ⟨terse, h, hh⟩
  · simp [entryPointOf_of_not_terse refused, refused]
  · simp [entryPointOf_of_terse terse hh, terse]

theorem ImageFile.ofBytes_eq_notTerse_iff {path : String} {data : Bytes} :
    ofBytes path data = .error .notTerse ↔ isTerse data = false := by
  rcases isTerse_cases data with refused | ⟨terse, h, hh⟩
  · simp [ofBytes_of_not_terse path refused, refused]
  · simp [ofBytes_of_terse path terse hh, terse]

/-- The reason is never given for a section table that is cut off. -/
theorem value_load_eq_notTerse_iff {data : Bytes} {source : TypeSource} :
    (load data source).value = .error .notTerse ↔ isTerse data = false := by
  rw [value_load]
  rcases isTerse_cases data with refused | ⟨terse, h, hh⟩
  · simp [Load.plan_of_not_terse source refused, refused, Except.map]
  · rcases Nat.lt_or_ge data.length h.headersSize with short | fits
    · simp [Load.plan_of_truncated source terse hh short, terse, Except.map]
    · obtain ⟨rs, hrs⟩ := Load.plan_of_fits source terse hh fits
      simp [hrs, terse, Except.map]

/-- A file that was opened has the header that its bytes start with. -/
theorem ImageFile.parseHeader_of_ofOpened {path : String} {opened : Opened} {f : ImageFile}
    (h : ofOpened path opened = .ok f) : parseHeader f.data = .ok f.header := by
  obtain ⟨content, -, h⟩ := bind_eq_ok h
  obtain ⟨data, -, h⟩ := bind_eq_ok h
  rcases isTerse_cases data with refused | ⟨terse, hd, hh⟩
  · rw [ofBytes_of_not_terse path refused] at h
    cases h
  · rw [ofBytes_of_terse path terse hh] at h
    cases h
    exact hh

/-! ## After a load -/

namespace Image

/-- The image has its entry point at the given address, with the module's signature and name. -/
structure HasEntry (i : Image) (entry : UInt64) (platform : Platform) : Prop where
  entryPoint : i.entryPoint? = some entry
  /-- There is a signature, so none has to be made up when the entry point is shown. -/
  signature : ∃ s, i.entrySignature? = some s ∧ s.start = entry ∧
    s.callingConvention? = platform.callingConvention?
  symbol : (⟨.function, entry, "ModuleEntryPoint"⟩ : Symbol) ∈ i.symbols

theorem Holds.hasEntry {i : Image} {entry : UInt64} {platform : Platform}
    (h : i.Holds [.entryPoint entry, .symbol ⟨.function, entry, entryPointName⟩,
      .functionType (.moduleEntryPoint entry platform)]) : i.HasEntry entry platform := by
  have point : i.entryPoint? = some entry := h.entryPoint entry rfl
  have function : i.functions[entry]? = some (.moduleEntryPoint entry platform) :=
    h.functions entry _ (List.find?_cons_of_pos (decide_eq_true rfl))
  have signature : i.entrySignature? = some (.moduleEntryPoint entry platform) := by
    rw [entrySignature?, point]
    exact function
  exact ⟨point, ⟨_, signature, rfl, rfl⟩, h.symbols _ (List.mem_singleton.2 rfl)⟩

/-- Nothing that a load registers comes behind its entry point, and what comes last stays. -/
theorem hasEntry_registerAll (i : Image) (h : Header) (l : Layout) (sections : List ImageSection)
    (a : Annotations) : (Sink.registerAll i (Load.registrations h l sections a)).HasEntry
      h.entryPoint (Platform.ofMachine h.machine) := by
  rw [Load.registrations, Sink.registerAll_append]
  exact (holds_registerAll _ _).hasEntry

end Image

theorem hasEntry_of_loadInto {data : Bytes} {source : TypeSource} {i j : Image}
    (h : ((loadInto data source).runOn i).value = (.ok (), j)) :
    ∃ hd, isTerse data = true ∧ parseHeader data = .ok hd ∧
      j.HasEntry hd.entryPoint (Platform.ofMachine hd.machine) := by
  obtain ⟨rs, hplan⟩ := (loadInto_follows data source).exists_plan (congrArg Prod.fst h)
  have run := (hplan ▸ loadInto_follows data source).value_runOn_ok i
  obtain rfl : Sink.registerAll i rs = j := congrArg Prod.snd (run.symm.trans h)
  obtain ⟨terse, hd, l, sections, hh, -, -, rfl⟩ := Load.plan_eq_ok hplan
  exact ⟨hd, terse, hh, Image.hasEntry_registerAll i hd l sections _⟩

section

variable {explain : Json.Wording} {files : FileSystem}

/-- A command shows the file that it opened and the image that it loaded from the bytes of it. -/
theorem CommandLine.Options.value_load (o : CommandLine.Options) :
    (o.load explain files).value = match ImageFile.ofOpened o.path (o.opened files) with
      | .error e => .error (.file e)
      | .ok f => ((TeImage.load f.data (o.source explain files)).value.mapError
          (.load f.path)).map (f, ·) := by
  rw [CommandLine.Options.load]
  cases ImageFile.ofOpened o.path (o.opened files) with
  | error e => rfl
  | ok f =>
    simp only [Logged.value_bind, ImageFile.load]
    cases (TeImage.load f.data (o.source explain files)).value <;> rfl

theorem hasEntry_of_shown {o : CommandLine.Options} {f : ImageFile} {image : Image}
    (h : (o.load explain files).value = .ok (f, image)) :
    isTerse f.data = true ∧ parseHeader f.data = .ok f.header ∧
      image.HasEntry f.entryPoint f.platform := by
  rw [CommandLine.Options.value_load] at h
  cases opened : ImageFile.ofOpened o.path (o.opened files) with
  | error e => rw [opened] at h; cases h
  | ok file =>
    rw [opened] at h
    cases loaded : (load file.data (o.source explain files)).value with
    | error e => simp only [loaded] at h; cases h
    | ok loadedImage =>
      simp only [loaded] at h
      cases h
      obtain ⟨rs, hplan, rfl⟩ := plan_of_load loaded
      have run := (hplan ▸ loadInto_follows f.data (o.source explain files)).value_runOn_ok
        Image.empty
      obtain ⟨hd, terse, hh, entry⟩ := hasEntry_of_loadInto run
      cases hh.symm.trans (ImageFile.parseHeader_of_ofOpened opened)
      exact ⟨terse, hh, entry⟩

end

/-! ## One entry point -/

/-- Whoever asks for the entry point of a byte string is refused if it is no Terse Executable, for
that reason, and else gets the one address of its header, whether the section table is there or
not. After a load that address has the signature and the symbol of the entry point in any image,
and so in the one that a command shows. -/
theorem entry_point_is_one (data : Bytes) :
    ((entryPointOf data = .error .notTerse ↔ isTerse data = false) ∧
      (∀ path, ImageFile.ofBytes path data = .error .notTerse ↔ isTerse data = false) ∧
      ∀ source, (load data source).value = .error .notTerse ↔ isTerse data = false) ∧
    (isTerse data = true → ∃ h, parseHeader data = .ok h ∧
      h.entryPoint.toNat = (h.imageBase.toNat + h.entryAddress.toNat) % 2 ^ 64 ∧
      entryPointOf data = .ok h.entryPoint ∧
      ∀ path, ∃ f, ImageFile.ofBytes path data = .ok f ∧ f.entryPoint = h.entryPoint) ∧
    (∀ (source : TypeSource) (i j : Image), ((loadInto data source).runOn i).value = (.ok (), j) →
      ∃ h, parseHeader data = .ok h ∧ entryPointOf data = .ok h.entryPoint ∧
        j.HasEntry h.entryPoint (Platform.ofMachine h.machine)) ∧
    ∀ (explain : Json.Wording) (files : FileSystem) (o : CommandLine.Options) (f : ImageFile)
      (image : Image), (o.load explain files).value = .ok (f, image) → f.data = data →
        entryPointOf data = .ok f.entryPoint ∧ image.HasEntry f.entryPoint f.platform := by
  refine ⟨⟨entryPointOf_eq_notTerse_iff, fun _ => ImageFile.ofBytes_eq_notTerse_iff,
    fun _ => value_load_eq_notTerse_iff⟩, fun terse => ?_, fun source i j h => ?_, ?_⟩
  · obtain ⟨h, hh⟩ := exists_header terse
    exact ⟨h, hh, h.toNat_entryPoint, entryPointOf_of_terse terse hh,
      fun path => ⟨_, ImageFile.ofBytes_of_terse path terse hh, rfl⟩⟩
  · obtain ⟨hd, terse, hh, entry⟩ := hasEntry_of_loadInto h
    exact ⟨hd, hh, entryPointOf_of_terse terse hh, entry⟩
  · rintro explain files o f image h rfl
    obtain ⟨terse, hh, entry⟩ := hasEntry_of_shown h
    exact ⟨entryPointOf_of_terse terse hh, entry⟩

/-- An image that has an entry point elsewhere and another function where the new one lies. -/
theorem entry_point_is_one_taken :
    let data : Bytes := [0x56, 0x5A, 0x4C, 0x01, 0, 0, 0, 0, 0x10] ++ List.replicate 31 0
    let i : Image := Sink.registerAll Image.empty
      [.entryPoint 7, .functionType ⟨"main", 0x10, "void", [], some .win64⟩]
    let o : CommandLine.Options := ⟨"a.te", none, 0, .entry⟩
    let files : FileSystem := (FileTree.directory none none
      [(Utf8.encode "a.te", .file (.ok (.ok data)))]).system
    let explain : Json.Wording := fun _ _ => "refused"
    (isTerse data = true ∧ entryPointOf data = .ok 0x10) ∧
    (∃ j, ((loadInto data .empty).runOn i).value = (.ok (), j) ∧ j.HasEntry 0x10 .x86) ∧
    ∃ f image, (o.load explain files).value = .ok (f, image) ∧ f.data = data ∧
      image.HasEntry f.entryPoint .x86 := by
  intro data i o files explain
  have header : ∃ hd, parseHeader data = .ok hd ∧ hd.entryPoint = 0x10 ∧
      Platform.ofMachine hd.machine = .x86 := ⟨_, rfl, rfl, rfl⟩
  have loads : ∃ j, ((loadInto data .empty).runOn i).value = (.ok (), j) := ⟨_, rfl⟩
  have fresh : ∃ image, (load data .empty).value = .ok image := ⟨_, rfl⟩
  obtain ⟨hd, header, point, platform⟩ := header
  obtain ⟨j, hj⟩ := loads
  obtain ⟨image, hload⟩ := fresh
  have content : o.opened files = .ok (.ok data) := by decide +kernel
  have opened : ImageFile.ofOpened o.path (o.opened files) = .ok ⟨"a.te", data, hd⟩ := by
    rw [content]
    exact congrArg (Except.mapError .content) (ImageFile.ofBytes_of_terse "a.te" rfl header)
  have shows : (o.load explain files).value = .ok (⟨"a.te", data, hd⟩, image) := by
    rw [CommandLine.Options.value_load, opened]
    show ((load data .empty).value.mapError _).map _ = _
    rw [hload]
    rfl
  obtain ⟨-, before, after, shown⟩ := entry_point_is_one data
  obtain ⟨hd', header', -, hentry, -⟩ := before rfl
  cases header.symm.trans header'
  obtain ⟨hd', header', -, entry⟩ := after .empty i j hj
  cases header.symm.trans header'
  rw [point] at hentry entry
  rw [platform] at entry
  refine ⟨⟨rfl, hentry⟩, ⟨j, hj, entry⟩, _, image, shows, rfl, ?_⟩
  rw [← platform]
  exact (shown explain files o _ image shows rfl).2

end TeImage
