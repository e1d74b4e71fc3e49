import Groundwork.Text
/-!
Commands for external tools and what the tools answer.
-/
namespace Groundwork

structure Command where
  program : String
  arguments : List String
  deriving DecidableEq, Repr

/-- Program and arguments with a space between them. -/
def Command.text (c : Command) : String :=
  c.arguments.foldl (fun s a => s ++ " " ++ a) c.program

/-- What a tool that has ended leaves behind. -/
structure Output where
  /-- The exit code; none if the tool was killed. -/
  status : Option Int
  stdout : String
  stderr : String
  deriving DecidableEq, Repr

namespace Output

def silent : Output := ⟨some 0, "", ""⟩

def success (o : Output) : Bool := o.status == some 0

/-- What the tool wrote to its error stream, and if that is blank what it wrote otherwise. -/
def diagnostic (o : Output) : String :=
  let complaint := Text.trim o.stderr
  if complaint.isEmpty then Text.trim o.stdout else complaint

/-- Whether a text occurs in either stream. -/
def mentions (o : Output) (text : String) : Bool :=
  Text.contains o.stdout text || Text.contains o.stderr text

end Output

end Groundwork
