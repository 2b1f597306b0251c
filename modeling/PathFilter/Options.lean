import PathFilter.Cut
import PathFilter.Similarity
import PathFilter.UsageFault

namespace PathFilter

/-- An option under its names. Names of one letter may share a dash with others. -/
structure OptionSpec (κ : Type) where
  key : κ
  names : List String
  takesValue : Bool

/-- What a command line gives: the options in order, flags with an empty value, and the rest. -/
structure Arguments (κ : Type) where
  given : List (κ × String)
  positional : List String

/-- The options behind one dash. The last may still need a value, which is the next argument. -/
structure Cluster (κ : Type) where
  given : List (κ × String)
  open? : Option (κ × String)

namespace Options

variable {κ : Type}

def isLong (name : String) : Bool :=
  match name.toList with
  | '-' :: '-' :: _ => true
  | _ => false

def findLong? (specs : List (OptionSpec κ)) (name : String) : Option (OptionSpec κ) :=
  if isLong name then specs.find? fun spec => spec.names.contains name else none

def longNames (specs : List (OptionSpec κ)) : List String :=
  (specs.flatMap OptionSpec.names).filter isLong

def findShort? (specs : List (OptionSpec κ)) (letter : Char) : Option (OptionSpec κ) :=
  specs.find? fun spec => spec.names.contains (String.ofList ['-', letter])

/-- Reads the letters behind one dash. An option with a value takes what follows it as its value,
or leaves that to the next argument when nothing follows. For a single letter there is nothing to
suggest. -/
def readCluster (specs : List (OptionSpec κ)) : List Char → Except UsageFault (Cluster κ)
  | [] => .ok ⟨[], none⟩
  | letter :: rest =>
    match findShort? specs letter with
    | none => .error (.noSuchOption (String.ofList ['-', letter]) [])
    | some spec =>
      if spec.takesValue then
        if rest.isEmpty then .ok ⟨[], some (spec.key, String.ofList ['-', letter])⟩
        else .ok ⟨[(spec.key, String.ofList rest)], none⟩
      else
        (readCluster specs rest).map fun cluster =>
          ⟨(spec.key, "") :: cluster.given, cluster.open?⟩

/-- Reads one argument that starts with a dash. A name may carry its value after an equals sign. -/
def readOption (specs : List (OptionSpec κ)) (argument : String) :
    Except UsageFault (Cluster κ) :=
  let (name, attached) :=
    match cutFirst? '=' argument.toList with
    | none => (argument, none)
    | some (name, value) => (String.ofList name, some (String.ofList value))
  match findLong? specs name, attached with
  | some spec, some value =>
    if spec.takesValue then .ok ⟨[(spec.key, value)], none⟩ else .error (.flagWithValue name)
  | some spec, none =>
    if spec.takesValue then .ok ⟨[], some (spec.key, name)⟩ else .ok ⟨[(spec.key, "")], none⟩
  | none, _ =>
    if isLong argument then
      .error (.noSuchOption name (closeNames (longNames specs) name))
    else readCluster specs (argument.toList.drop 1)

def isOption (argument : String) : Bool :=
  match argument.toList with
  | '-' :: _ :: _ => true
  | _ => false

def addGiven (given : List (κ × String)) (a : Arguments κ) : Arguments κ :=
  ⟨given ++ a.given, a.positional⟩

def addPositional (argument : String) (a : Arguments κ) : Arguments κ :=
  ⟨a.given, argument :: a.positional⟩

/-- Reads a command line. Two dashes end the options. When `interspersed` is false the first
argument that is no option ends them as well. -/
def read (specs : List (OptionSpec κ)) (interspersed : Bool) :
    List String → Except UsageFault (Arguments κ)
  | [] => .ok ⟨[], []⟩
  | argument :: rest =>
    if argument == "--" then .ok ⟨[], rest⟩
    else if isOption argument then
      match readOption specs argument with
      | .error e => .error e
      | .ok ⟨given, none⟩ => (read specs interspersed rest).map (addGiven given)
      | .ok ⟨given, some (key, name)⟩ =>
        match rest with
        | [] => .error (.optionWithoutValue name)
        | value :: rest =>
          (read specs interspersed rest).map (addGiven (given ++ [(key, value)]))
    else if interspersed then (read specs interspersed rest).map (addPositional argument)
    else .ok ⟨[], argument :: rest⟩

end Options

namespace Arguments

variable {κ : Type} [BEq κ]

def values (a : Arguments κ) (key : κ) : List String :=
  (a.given.filter fun entry => entry.1 == key).map Prod.snd

def has (a : Arguments κ) (key : κ) : Bool := !(a.values key).isEmpty

/-- Of a repeated option the last value counts. -/
def last? (a : Arguments κ) (key : κ) : Option String := (a.values key).getLast?

def count (a : Arguments κ) (key : κ) : Nat := (a.values key).length

/-- The options in the order in which each is given first. -/
def keys (a : Arguments κ) : List κ := (a.given.map Prod.fst).eraseDups

end Arguments

end PathFilter
