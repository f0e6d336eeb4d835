/-
The results of a load, one by one. A `Sink` is anything that takes them up; a load is written
against any sink, and `registerAll` is what a sink becomes by taking up a list of them.
-/
import TeImage.Annotations
import TeImage.Section.Basic
import TeImage.Signature

namespace TeImage

inductive Registration where
  | platform (p : Platform)
  | region (r : Region)
  | imageSection (s : ImageSection)
  | type (d : TypeDef)
  | dataVariable (v : DataVariable)
  | symbol (s : Symbol)
  | entryPoint (address : UInt64)
  | functionType (s : FunctionSignature)

class Sink (σ : Type) where
  register : σ → Registration → σ

/-- What a sink becomes by taking up all of `rs` in order. -/
def Sink.registerAll {σ : Type} [Sink σ] (s : σ) (rs : List Registration) : σ :=
  rs.foldl Sink.register s

/-- Every registration so far, in order. -/
structure CallLog where
  calls : List Registration

instance : Sink CallLog where
  register log r := ⟨log.calls ++ [r]⟩

/-- The types first, then the variables, then the symbols. -/
def Annotations.registrations (a : Annotations) : List Registration :=
  a.types.map .type ++ a.dataVariables.map .dataVariable ++ a.symbols.map .symbol

end TeImage
