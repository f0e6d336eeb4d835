/-
Log lines and computations that write them. Lines are data: a computation hands back its value
together with the lines in the order in which they were written, and only the command line turns
them into text.
-/

namespace TeImage

/-- How much a log line matters, most important first. -/
inductive Level where
  | error
  | warn
  | info
  | debug
  | trace
  deriving DecidableEq, Repr

namespace Level

def name : Level → String
  | error => "ERROR"
  | warn => "WARN"
  | info => "INFO"
  | debug => "DEBUG"
  | trace => "TRACE"

/-- Position in the order of importance, most important first. -/
def rank : Level → Nat
  | error => 1
  | warn => 2
  | info => 3
  | debug => 4
  | trace => 5

end Level

/-- The part of the program that writes a line. -/
inductive Channel where
  | commandLine
  | load
  | layout
  | sections
  | annotations
  | typeFiles
  deriving DecidableEq, Repr

/-- The name a channel has in log output. -/
def Channel.target : Channel → String
  | commandLine => "teinfo"
  | load => "terse_core::binary"
  | layout => "terse_core::layout"
  | sections => "terse_core::sections"
  | annotations => "terse_core::annotate"
  | typeFiles => "terse_core::types::source"

structure LogLine where
  level : Level
  channel : Channel
  message : String
  deriving DecidableEq, Repr

/-- A value and the lines that were written on the way to it. -/
structure Logged (α : Type) where
  lines : List LogLine
  value : α

namespace Logged

instance : Monad Logged where
  pure a := ⟨[], a⟩
  bind x f := ⟨x.lines ++ (f x.value).lines, (f x.value).value⟩

/-- Writes lines and gives nothing else. -/
def write (lines : List LogLine) : Logged Unit := ⟨lines, ()⟩

/-- What `f` gives for the elements of a list, one after the other. -/
def gather {α β : Type} (f : α → Logged (List β)) : List α → Logged (List β)
  | [] => pure []
  | a :: as => do
    let first ← f a
    let others ← gather f as
    return first ++ others

@[simp] theorem value_pure {α : Type} (a : α) : (pure a : Logged α).value = a := rfl

@[simp] theorem lines_bind {α β : Type} (x : Logged α) (f : α → Logged β) :
    (x >>= f).lines = x.lines ++ (f x.value).lines := rfl

@[simp] theorem value_bind {α β : Type} (x : Logged α) (f : α → Logged β) :
    (x >>= f).value = (f x.value).value := rfl

@[simp] theorem lines_write (lines : List LogLine) : (write lines).lines = lines := rfl

@[simp] theorem value_gather {α β : Type} (f : α → Logged (List β)) (as : List α) :
    (gather f as).value = as.flatMap fun a => (f a).value := by
  induction as with
  | nil => rfl
  | cons a as ih => rw [gather, value_bind, value_bind, value_pure, ih, List.flatMap_cons]

end Logged

end TeImage
