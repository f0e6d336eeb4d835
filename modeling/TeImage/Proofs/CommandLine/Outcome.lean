/-
How a run of the program ends. Whether it fails, and for what reason, is told by what stands at the
path of the image alone (`failure?`): the command has no part in it, because every command waits for
the whole load and every report of an image can be written (`report_ok`), and neither have the type
definitions. A run that fails prints the log and the reason, and a run that does not prints the
whole report of the image that it loaded (`run_prints_all_or_nothing`).
-/
import TeImage.Proofs.Load.Entry

namespace TeImage

/-! ## Writing -/

namespace Json

/-- A map whose keys all have names is an object. -/
theorem ofMap_map {α : Type} (key : α → Json) (name : α → String) (value : α → Json)
    (named : ∀ a, (key a).keyName = .ok (name a)) (l : List α) :
    ofMap (l.map fun a => (key a, value a)) = .ok (object (l.map fun a => (name a, value a))) := by
  have entries : (l.map fun a => (key a, value a)).mapM
      (fun p : Json × Json => do return (← p.1.keyName, p.2)) =
      Except.ok (l.map fun a => (name a, value a)) := by
    induction l with
    | nil => rfl
    | cons a l ih =>
      rw [List.map_cons, List.mapM_cons, ih, named a]
      rfl
  rw [ofMap, entries]
  rfl

end Json

/-- The keys of an image's maps are texts and addresses, and these have names. -/
theorem Image.serialize_eq (i : Image) : i.serialize = .ok i.toJson := by
  have types := Json.ofMap_map (fun p : String × TypeDef => .string p.1) (·.1) (·.2.toJson)
    (fun _ => rfl) i.types.toList
  have dataVariables := Json.ofMap_map (fun p : UInt64 × DataVariable => .nat p.1.toNat)
    (toString ·.1) (·.2.toJson) (fun _ => rfl) i.dataVariables.toList
  have functions := Json.ofMap_map (fun p : UInt64 × FunctionSignature => .nat p.1.toNat)
    (toString ·.1) (·.2.toJson) (fun _ => rfl) i.functions.toList
  rw [serialize, types, dataVariables, functions]
  rfl

theorem CommandLine.Command.report_ok (c : CommandLine.Command) (colored : Bool) (f : ImageFile)
    (i : Image) : ∃ lines, c.report colored f i = .ok lines := by
  cases c with
  | info json => cases json <;> exact ⟨_, rfl⟩
  | dump =>
    rw [report, i.serialize_eq]
    exact ⟨_, rfl⟩
  | entry | regions | sections | symbols | types => exact ⟨_, rfl⟩

/-! ## Opening -/

/-- A path is opened, then read, and only then is looked at what was read. -/
theorem ImageFile.ofOpened_eq (path : String) (opened : Opened) :
    ofOpened path opened = match opened with
      | .error fault => .error (.opening path fault)
      | .ok (.error fault) => .error (.reading fault)
      | .ok (.ok data) => (ofBytes path data).mapError .content := by
  obtain fault | fault | data := opened <;> rfl

namespace CommandLine

/-! ## Failing -/

/-- Why a run on a file with the given bytes fails. -/
def contentFailure? (path : String) (data : Bytes) : Option RunError :=
  if isTerse data then
    if data.length < 40 + 40 * announcedSections data then
      some (.load path (.truncatedSectionTable (announcedSections data)
        (40 + 40 * announcedSections data) data.length))
    else none
  else some (.file (.content .notTerse))

/-- Why a run fails on what comes of opening the path of the image. -/
def failure? (path : String) (opened : Opened) : Option RunError :=
  match opened with
  | .error fault => some (.file (.opening path fault))
  | .ok (.error fault) => some (.file (.reading fault))
  | .ok (.ok data) => contentFailure? path data

section Content

variable {path : String} {data : Bytes}

theorem contentFailure?_of_not_terse (h : isTerse data = false) :
    contentFailure? path data = some (.file (.content .notTerse)) := by
  rw [contentFailure?, h]
  rfl

theorem contentFailure?_of_truncated {h : Header} (terse : isTerse data = true)
    (hh : parseHeader data = .ok h) (short : data.length < h.headersSize) :
    contentFailure? path data = some (.load path (.truncatedSectionTable h.sectionCount.toNat
      h.headersSize data.length)) := by
  obtain ⟨hd, header, count⟩ := parseHeader_ok ((isTerse_iff data).1 terse).1
  cases header.symm.trans hh
  rw [h.headersSize_eq] at short ⊢
  rw [contentFailure?, if_pos terse, ← count, if_pos short]

theorem contentFailure?_of_fits {h : Header} (terse : isTerse data = true)
    (hh : parseHeader data = .ok h) (fits : h.headersSize ≤ data.length) :
    contentFailure? path data = none := by
  obtain ⟨hd, header, count⟩ := parseHeader_ok ((isTerse_iff data).1 terse).1
  cases header.symm.trans hh
  rw [h.headersSize_eq] at fits
  rw [contentFailure?, if_pos terse, ← count, if_neg (not_lt.2 fits)]

theorem contentFailure?_eq_none_iff :
    contentFailure? path data = none ↔ ∃ h, isTerse data = true ∧ parseHeader data = .ok h ∧
      h.headersSize ≤ data.length := by
  rcases isTerse_cases data with refused | ⟨terse, h, hh⟩
  · simp [contentFailure?_of_not_terse refused, refused]
  · rcases Nat.lt_or_ge data.length h.headersSize with short | fits
    · simp [contentFailure?_of_truncated terse hh short, terse, hh, short]
    · simp [contentFailure?_of_fits terse hh fits, terse, hh, fits]

end Content

variable {path : String} {opened : Opened} {data : Bytes}

theorem failure?_eq_none_iff :
    failure? path opened = none ↔ ∃ data h, opened.bind id = .ok data ∧
      isTerse data = true ∧ parseHeader data = .ok h ∧ h.headersSize ≤ data.length := by
  obtain fault | fault | data := opened
  · simp [failure?, Except.bind]
  · simp [failure?, Except.bind]
  · simp [failure?, Except.bind, contentFailure?_eq_none_iff]

/-- The path is in the text of a failure, and has no part in whether there is one. -/
theorem failure?_isSome_path (path path' : String) (opened : Opened) :
    (failure? path opened).isSome = (failure? path' opened).isSome := by
  rw [Bool.eq_iff_iff, ← not_iff_not, Option.not_isSome_iff_eq_none,
    Option.not_isSome_iff_eq_none, failure?_eq_none_iff, failure?_eq_none_iff]

namespace Options

variable {explain : Json.Wording} {files : FileSystem} {o : Options} {e : RunError}

/-! ## Loading -/

/-- The file that the options name has that content. -/
theorem opened_eq_ok_iff :
    o.opened files = .ok (.ok data) ↔ files.read (Utf8.encode o.path) = .ok data := by
  rw [opened, FileSystem.read]
  obtain fault | fault | content := files.openFile (Utf8.encode o.path) <;> simp [Except.bind]

theorem failure?_of_read (h : files.read (Utf8.encode o.path) = .ok data) :
    failure? o.path (o.opened files) = contentFailure? o.path data := by
  rw [opened_eq_ok_iff.2 h, failure?]

theorem value_load_of_read (h : files.read (Utf8.encode o.path) = .ok data) :
    (o.load explain files).value = match ImageFile.ofBytes o.path data with
      | .error e => .error (.file (.content e))
      | .ok f => ((TeImage.load f.data (o.source explain files)).value.mapError
          (.load f.path)).map (f, ·) := by
  have file : ImageFile.ofOpened o.path (.ok (.ok data)) =
      (ImageFile.ofBytes o.path data).mapError .content := ImageFile.ofOpened_eq ..
  rw [value_load, opened_eq_ok_iff.2 h, file]
  cases ImageFile.ofBytes o.path data <;> rfl

theorem value_load_of_contentFailure (h : files.read (Utf8.encode o.path) = .ok data)
    (he : contentFailure? o.path data = some e) : (o.load explain files).value = .error e := by
  rw [value_load_of_read h]
  rcases isTerse_cases data with refused | ⟨terse, hd, hh⟩
  · cases (contentFailure?_of_not_terse refused).symm.trans he
    rw [ImageFile.ofBytes_of_not_terse o.path refused]
  · rw [ImageFile.ofBytes_of_terse o.path terse hh]
    rcases Nat.lt_or_ge data.length hd.headersSize with short | fits
    · cases (contentFailure?_of_truncated terse hh short).symm.trans he
      simp only [TeImage.value_load, Load.plan_of_truncated _ terse hh short]
      rfl
    · cases (contentFailure?_of_fits terse hh fits).symm.trans he

/-- A load fails for the reason that the file gives. -/
theorem value_load_of_failure (h : failure? o.path (o.opened files) = some e) :
    (o.load explain files).value = .error e := by
  cases found : o.opened files with
  | error fault =>
    rw [found] at h
    cases h
    rw [value_load, found, ImageFile.ofOpened_eq]
  | ok content =>
    cases content with
    | error fault =>
      rw [found] at h
      cases h
      rw [value_load, found, ImageFile.ofOpened_eq]
    | ok data =>
      rw [found] at h
      exact value_load_of_contentFailure (opened_eq_ok_iff.1 found) h

/-- Where the file gives no reason to fail, the image is loaded from all of its bytes. -/
theorem value_load_of_no_failure (explain : Json.Wording)
    (h : failure? o.path (o.opened files) = none) :
    ∃ data hd image, files.read (Utf8.encode o.path) = .ok data ∧ parseHeader data = .ok hd ∧
      (TeImage.load data (o.source explain files)).value = .ok image ∧
      (o.load explain files).value = .ok (⟨o.path, data, hd⟩, image) := by
  obtain ⟨data, hd, content, terse, hh, fits⟩ := failure?_eq_none_iff.1 h
  obtain ⟨rs, hplan⟩ := Load.plan_of_fits (o.source explain files) terse hh fits
  have loaded : (TeImage.load data (o.source explain files)).value =
      .ok (Sink.registerAll Image.empty rs) := by
    rw [TeImage.value_load, hplan]
    rfl
  refine ⟨data, hd, _, content, hh, loaded, ?_⟩
  rw [value_load_of_read content, ImageFile.ofBytes_of_terse o.path terse hh]
  simp only [loaded]
  rfl

/-! ## Running -/

theorem value_report (o : Options) (colored : Bool) :
    (o.report explain files colored).value = match (o.load explain files).value with
      | .error e => .error e
      | .ok (f, image) => (o.command.report colored f image).mapError .writing := by
  rw [report, Logged.value_bind]
  cases (o.load explain files).value <;> rfl

/-- What a run writes to the log. -/
def log (explain : Json.Wording) (files : FileSystem) (o : Options) (environment : Environment) :
    String :=
  logOutput environment o.verbosity (o.report explain files (wantsColor environment)).lines

variable (explain) (environment : Environment)

theorem run_of_failure (h : failure? o.path (o.opened files) = some e) :
    o.run explain files environment = ⟨1, "", o.log explain files environment ++ e.text⟩ := by
  have failed : (o.report explain files (wantsColor environment)).value = .error e := by
    rw [value_report, value_load_of_failure h]
  rw [run]
  simp only [failed]
  rfl

theorem run_of_no_failure (h : failure? o.path (o.opened files) = none) :
    ∃ data hd image lines, files.read (Utf8.encode o.path) = .ok data ∧
      parseHeader data = .ok hd ∧
      (TeImage.load data (o.source explain files)).value = .ok image ∧
      o.command.report (wantsColor environment) ⟨o.path, data, hd⟩ image = .ok lines ∧
      o.run explain files environment = ⟨0, unlines lines, o.log explain files environment⟩ := by
  obtain ⟨data, hd, image, content, hh, loaded, shown⟩ := value_load_of_no_failure explain h
  obtain ⟨lines, reported⟩ :=
    o.command.report_ok (wantsColor environment) ⟨o.path, data, hd⟩ image
  have printed : (o.report explain files (wantsColor environment)).value = .ok lines := by
    rw [value_report, shown]
    simp only [reported]
    rfl
  refine ⟨data, hd, image, lines, content, hh, loaded, reported, ?_⟩
  rw [run]
  simp only [printed]
  rfl

theorem exitCode_run (files : FileSystem) (o : Options) :
    (o.run explain files environment).exitCode =
      if (failure? o.path (o.opened files)).isSome then 1 else 0 := by
  cases h : failure? o.path (o.opened files) with
  | some e =>
    rw [run_of_failure explain environment h]
    rfl
  | none =>
    obtain ⟨_, _, _, _, -, -, -, -, output⟩ := run_of_no_failure explain environment h
    rw [output]
    rfl

theorem exitCode_run_eq_zero_iff : (o.run explain files environment).exitCode = 0 ↔
    failure? o.path (o.opened files) = none := by
  rw [exitCode_run]
  cases failure? o.path (o.opened files) <;> simp

end Options

theorem run_of_accepted {environment : Environment} {arguments : List String} {o : Options}
    (accepted : Request.of environment arguments = .ok (.run o)) (explain : Json.Wording)
    (files : FileSystem) :
    run explain files environment arguments = o.run explain files environment := by
  rw [run, accepted]

/-! ## All or nothing -/

/-- A run on arguments that name a file and a command ends with exit code 0 exactly if the file can
be read, starts like a Terse Executable and holds the section table that it announces. Any other
run prints nothing but the log and the reason, and has exit code 1; that a file is no Terse
Executable stands alone, and a section table that is cut off stands behind the path. With exit
code 0 the whole report of the image is printed. Other arguments, another environment and other
type definitions do not change the exit code as long as the same comes of opening the path of the
image, and no report fails to be written. -/
theorem run_prints_all_or_nothing {explain : Json.Wording} {files : FileSystem}
    {environment : Environment} {arguments : List String} {o : Options}
    (accepted : Request.of environment arguments = .ok (.run o)) :
    let content := files.read (Utf8.encode o.path)
    let log := o.log explain files environment
    let output := run explain files environment arguments
    (output.exitCode = 0 ↔ ∃ data h, content = .ok data ∧ isTerse data = true ∧
      parseHeader data = .ok h ∧ 40 + 40 * h.sectionCount.toNat ≤ data.length) ∧
    (output.exitCode ≠ 0 → ∃ e, failure? o.path (o.opened files) = some e ∧
      output = ⟨1, "", log ++ e.text⟩) ∧
    (∀ data, content = .ok data → isTerse data = false →
      output.stderr = log ++ "Error: not a TE image\n") ∧
    (∀ data h n, content = .ok data → isTerse data = true → parseHeader data = .ok h →
      h.sectionCount.toNat = n → data.length < 40 + 40 * n →
      output.stderr = log ++ unlines [
        "Error: " ++ s!"failed to load {o.path}", "", "Caused by:",
        "    " ++ (LoadError.truncatedSectionTable n (40 + 40 * n) data.length).message]) ∧
    (output.exitCode = 0 → ∃ data h image lines, content = .ok data ∧ parseHeader data = .ok h ∧
      (load data (o.source explain files)).value = .ok image ∧
      o.command.report (wantsColor environment) ⟨o.path, data, h⟩ image = .ok lines ∧
      output = ⟨0, unlines lines, log⟩) ∧
    (∀ explain' files' environment' arguments' o',
      Request.of environment' arguments' = .ok (.run o') → o'.opened files' = o.opened files →
      (run explain' files' environment' arguments').exitCode = output.exitCode) ∧
    ∀ (command : Command) (colored : Bool) (f : ImageFile) (image : Image),
      ∃ lines, command.report colored f image = .ok lines := by
  intro content log output
  have output_eq : output = o.run explain files environment :=
    run_of_accepted accepted explain files
  have exitCode : output.exitCode = 0 ↔ failure? o.path (o.opened files) = none := by
    rw [output_eq]
    exact Options.exitCode_run_eq_zero_iff explain environment
  refine ⟨?_, fun failed => ?_, fun data read refused => ?_,
    fun data h n read terse hh count short => ?_, fun succeeded => ?_,
    fun explain' files' environment' arguments' o' accepted' same => ?_, Command.report_ok⟩
  · rw [exitCode, failure?_eq_none_iff]
    simp only [Header.headersSize_eq]
    rfl
  · obtain ⟨e, he⟩ := Option.ne_none_iff_exists'.1 (mt exitCode.2 failed)
    exact ⟨e, he, output_eq.trans (Options.run_of_failure explain environment he)⟩
  · have reason : failure? o.path (o.opened files) = some (.file (.content .notTerse)) :=
      (Options.failure?_of_read read).trans (contentFailure?_of_not_terse refused)
    rw [output_eq, Options.run_of_failure explain environment reason]
    rfl
  · subst count
    rw [← h.headersSize_eq] at short ⊢
    have reason : failure? o.path (o.opened files) = some (.load o.path
        (.truncatedSectionTable h.sectionCount.toNat h.headersSize data.length)) :=
      (Options.failure?_of_read read).trans (contentFailure?_of_truncated terse hh short)
    rw [output_eq, Options.run_of_failure explain environment reason]
    rfl
  · have fits : failure? o.path (o.opened files) = none := exitCode.1 succeeded
    obtain ⟨data, h, image, lines, read, hh, loaded, reported, printed⟩ :=
      Options.run_of_no_failure explain environment fits
    exact ⟨data, h, image, lines, read, hh, loaded, reported, output_eq.trans printed⟩
  · rw [run_of_accepted accepted', output_eq, Options.exitCode_run, Options.exitCode_run, same,
      failure?_isSome_path o'.path o.path]

/-- A header that announces one section with nothing behind it, dumped with a directory of types
that is not there and shown in short without one. -/
theorem run_prints_all_or_nothing_cut_off :
    let data : Bytes := [0x56, 0x5A, 0x4C, 0x01, 1] ++ List.replicate 35 0
    let files := (FileTree.directory none none
      [(Utf8.encode "a.te", .file (.ok (.ok data)))]).system
    let explain : Json.Wording := fun _ _ => "refused"
    let arguments := ["--types-dir", "types", "-v", "a.te", "dump"]
    let o : Options := ⟨"a.te", some "types", 1, .dump⟩
    let output := run explain files {} arguments
    Request.of {} arguments = .ok (.run o) ∧ output.exitCode = 1 ∧ output.stdout = "" ∧
    output.stderr = o.log explain files {} ++ unlines ["Error: failed to load a.te", "",
      "Caused by:", "    truncated section table: 1 section(s) need 80 bytes, buffer has 40"] ∧
    (run explain files {} ["a.te", "info", "--json"]).exitCode = output.exitCode := by
  intro data files explain arguments o output
  have accepted : Request.of {} arguments = .ok (.run o) := rfl
  have header : ∃ h, parseHeader data = .ok h ∧ h.sectionCount.toNat = 1 := ⟨_, rfl, rfl⟩
  have length : data.length = 40 := rfl
  have content : files.read (Utf8.encode o.path) = .ok data := by decide +kernel
  obtain ⟨h, hh, count⟩ := header
  obtain ⟨succeeds, fails, -, truncated, -, same, -⟩ :=
    @run_prints_all_or_nothing explain files {} arguments o accepted
  have stderr := truncated data h 1 content rfl hh count (by decide)
  rw [length] at stderr
  have failed : output.exitCode ≠ 0 := by
    rintro succeeded
    obtain ⟨data', h', content', -, hh', fits⟩ := succeeds.1 succeeded
    cases content.symm.trans content'
    cases hh.symm.trans hh'
    rw [count, length] at fits
    exact absurd fits (by decide)
  obtain ⟨e, -, printed⟩ := fails failed
  exact ⟨accepted, congrArg Output.exitCode printed, congrArg Output.stdout printed, stderr,
    same explain files {} ["a.te", "info", "--json"] ⟨"a.te", none, 0, .info true⟩ rfl rfl⟩

end CommandLine

end TeImage
