/-
Sessions: a sequence of loads, annotations, registrations and questions about one image.
-/
import TeImage.Load

namespace TeImage

inductive Step where
  | load (data : Bytes) (source : TypeSource)
  /-- Annotates the header records of an image of `length` bytes. -/
  | annotate (h : Header) (length : Nat) (source : TypeSource)
  | register (r : Registration)
  | typeSize (name : String)
  | typeNamed (name : String)
  | symbolNamed (name : String)
  | entrySignature
  /-- Asks for everything. -/
  | dump

inductive Answer where
  | done
  | size (size? : Option UInt64)
  | type (found? : Option TypeDef)
  | symbol (found? : Option Symbol)
  | signature (found? : Option FunctionSignature)
  | image (i : Image)

/-- Takes one step. -/
def Step.run : Step → LoadM Image Answer
  | load data source => do loadInto data source; return .done
  | annotate h length source => do Load.annotate h length source; return .done
  | register r => do LoadM.register r; return .done
  | typeSize name => return .size ((← get).typeSize? name)
  | typeNamed name => return .type ((← get).typeNamed? name)
  | symbolNamed name => return .symbol ((← get).symbolNamed? name)
  | entrySignature => return .signature (← get).entrySignature?
  | dump => return .image (← get)

/-- Takes the steps in order and goes on behind a failed one. Each answer comes with the image
behind its step. -/
def runSession : List Step → Image → Logged (List (Except LoadError Answer × Image))
  | [], _ => pure []
  | step :: steps, i => do
    let (answer, i) ← step.run.runOn i
    let rest ← runSession steps i
    return (answer, i) :: rest

end TeImage
