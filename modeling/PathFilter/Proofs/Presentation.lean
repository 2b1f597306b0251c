import PathFilter.Proofs.OptionReading
import PathFilter.Proofs.RunShown

namespace PathFilter

/-- A command line has the name of a command in it, and these arguments behind the name. -/
def CommandLine.Gives (s : Surroundings) (arguments : List String) (name : CommandName)
    (a : Arguments CommandOption) : Prop :=
  ∃ (general : RunSettings) (words : List String),
    GlobalOption.read s arguments = .ok (general, name.text :: words) ∧
      Options.read (CommandOption.specs name) true words = .ok a

namespace Session

variable {s : Surroundings} {settings settings' : RunSettings} {arguments arguments' : List String}
  {request request' : Request}

end Session

end PathFilter
