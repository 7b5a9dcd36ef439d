/-!
# Command lines

A command line names one command and gives options before and after it. Scanning
goes from left to right. An option that takes a value is settled only when the next
option arrives or the words end, so a fault of a later word can come before its own.
-/

namespace FixedLayout.CommandLine

/-- Why a command line is not carried out. Asking for help or for the version is
among the reasons. -/
inductive UsageFault where
  | help
  | version
  | noArguments
  | noCommand
  | unknownCommand
  | missingOption
  | missingValue
  | unknownArgument
  | repeatedOption
  | unexpectedValue
  deriving DecidableEq

/-- An option of a command, by its long name. -/
structure OptionRule where
  name : String
  takesValue : Bool
  required : Bool
  allowsEmpty : Bool
  deriving DecidableEq

/-- What may be given at one level: before the command, or behind one. Commands can
be named, and the version asked for, only before the command. -/
structure Level where
  options : List OptionRule
  commands : List String
  hasVersion : Bool

/-- The option that names the file of the registry; it stands at either level. -/
def registryOption : OptionRule := ⟨"schemas", true, false, false⟩

/-- An option that takes any value. -/
def valueOption (name : String) (required : Bool) : OptionRule := ⟨name, true, required, true⟩

/-- The names of the commands. -/
def commandNames : List String := ["schemas", "size", "encode", "decode", "help"]

/-- The level before the command. -/
def outerLevel : Level := ⟨[registryOption], commandNames, true⟩

/-- The options of a command besides the registry. -/
def commandOptions (name : String) : List OptionRule :=
  if name = "size" then [valueOption "type" true, valueOption "variant" false]
  else if name = "encode" then [valueOption "type" true, valueOption "value" true]
  else if name = "decode" then
    [valueOption "type" true, valueOption "data" true, ⟨"all", false, false, true⟩]
  else []

/-- The level behind a command. -/
def innerLevel (name : String) : Level := ⟨registryOption :: commandOptions name, [], false⟩

/-- The options given so far: those that are settled, with their values, and the
last one if it is not. -/
structure Given where
  settled : List (String × String)
  pending : Option (OptionRule × Option String)

namespace Given

/-- Nothing given. -/
def empty : Given := ⟨[], none⟩

/-- The value of a settled option. -/
def value? (given : Given) (name : String) : Option String := given.settled.lookup name

/-- Settles an option: it must be new, and its value must be one that it allows. -/
def add (given : Given) (rule : OptionRule) (value : String) : Except UsageFault Given :=
  if (given.value? rule.name).isSome then .error .repeatedOption
  else if value.isEmpty && !rule.allowsEmpty then .error .missingValue
  else .ok ⟨given.settled ++ [(rule.name, value)], none⟩

/-- Settles the pending option, which must have its value. -/
def settle (given : Given) : Except UsageFault Given :=
  match given.pending with
  | none => .ok given
  | some (_, none) => .error .missingValue
  | some (rule, some value) => add ⟨given.settled, none⟩ rule value

/-- Whether the pending option waits for its value. -/
def awaitsValue (given : Given) : Bool :=
  match given.pending with
  | some (_, none) => true
  | _ => false

/-- Gives the pending option its value. -/
def supply (given : Given) (value : String) : Given :=
  ⟨given.settled, given.pending.map fun pending => (pending.1, some value)⟩

end Given

/-- A word of a command line by its form. -/
inductive Argument where
  | escape
  | long (name : String) (value : Option String)
  | short (flags : List Char)
  | plain (text : String)

/-- The form of a word. A single hyphen is a plain word. -/
def Argument.ofString (text : String) : Argument :=
  match text.toList with
  | ['-', '-'] => .escape
  | '-' :: '-' :: chars =>
      let name := String.ofList (chars.takeWhile fun char => char != '=')
      match chars.dropWhile fun char => char != '=' with
      | [] => .long name none
      | _ :: value => .long name (some (String.ofList value))
  | '-' :: char :: chars => .short (char :: chars)
  | _ => .plain text

namespace Level

/-- The fault of a plain word that has no place. -/
def strayWord (level : Level) : UsageFault :=
  if level.commands.isEmpty then .unknownArgument else .unknownCommand

/-- A request for help or for the version, once the options before it are settled. -/
def request (given : Given) (asked : UsageFault) : Except UsageFault Given := do
  let _ ← given.settle
  throw asked

/-- The options after a long option. -/
def takeLong (level : Level) (given : Given) (name : String) (value : Option String) :
    Except UsageFault Given :=
  match level.options.find? fun rule => rule.name == name with
  | some rule =>
      if rule.takesValue then do
        let given ← given.settle
        match value with
        | some value => given.add rule value
        | none => pure ⟨given.settled, some (rule, none)⟩
      else if value.isSome then throw .unexpectedValue
      else do
        let given ← given.settle
        given.add rule ""
  | none =>
      if name = "help" ∨ (name = "version" ∧ level.hasVersion) then
        if value.isSome then throw .unexpectedValue
        else request given (if name = "help" then .help else .version)
      else throw .unknownArgument

/-- The options after short flags. Both short flags are requests, so the first one
decides. -/
def takeShort (level : Level) (given : Given) : List Char → Except UsageFault Given
  | 'h' :: _ => request given .help
  | 'V' :: _ => if level.hasVersion then request given .version else throw .unknownArgument
  | _ => throw .unknownArgument

/-- The end of the words behind an escape: any word there is stray, and a command
may not stand behind one. -/
def finishEscaped (level : Level) (given : Given) :
    List String → Except UsageFault (Given × Option (String × List String))
  | [] => pure (given, none)
  | word :: _ => throw (if level.commands.contains word then .unknownArgument else level.strayWord)

/-- The options given at a level, and the command that ends it with the words behind it. -/
def scan (level : Level) :
    Given → List String → Except UsageFault (Given × Option (String × List String))
  | given, [] => pure (given, none)
  | given, word :: words =>
      if !given.awaitsValue && level.commands.contains word then pure (given, some (word, words))
      else
        match Argument.ofString word with
        | .escape => level.finishEscaped given words
        | .long name value => do
            let given ← level.takeLong given name value
            scan level given words
        | .short flags => do
            let given ← level.takeShort given flags
            scan level given words
        | .plain text =>
            if given.awaitsValue then scan level (given.supply text) words
            else throw level.strayWord

end Level

/-- A command with its options. -/
inductive Command where
  | schemas
  | size (type : String) (variant : Option String)
  | encode (type value : String)
  | decode (type data : String) (all : Bool)
  deriving DecidableEq

/-- What a command line asks for: a command on the registry of a file, or on the
bundled one. -/
structure Invocation where
  registryFile : Option String
  command : Command
  deriving DecidableEq

/-- The value of an option that must be given. -/
def Given.require (given : Given) (name : String) : Except UsageFault String :=
  match given.value? name with
  | some value => .ok value
  | none => .error .missingOption

/-- The command with the given name and settled options. -/
def Command.ofGiven (name : String) (given : Given) : Except UsageFault Command :=
  if name = "size" then do
    let type ← given.require "type"
    pure (.size type (given.value? "variant"))
  else if name = "encode" then do
    let type ← given.require "type"
    let value ← given.require "value"
    pure (.encode type value)
  else if name = "decode" then do
    let type ← given.require "type"
    let data ← given.require "data"
    pure (.decode type data (given.value? "all").isSome)
  else pure .schemas

/-- The answer to a help command: it may name one command at most. -/
def helpFault : List String → UsageFault
  | [] => .help
  | [name] => if commandNames.contains name then .help else .unknownCommand
  | _ => .unknownCommand

/-- The fault of words that name no command. -/
def withoutCommand (given : Given) : UsageFault :=
  if given.settled.isEmpty then .noArguments else .noCommand

/-- The options behind a command, which take no further command. -/
def innerGiven (name : String) (words : List String) : Except UsageFault Given := do
  let (given, _) ← (innerLevel name).scan Given.empty words
  given.settle

/-- What the words of a command line ask for. A registry named behind the command
counts before one named in front of it. -/
def parse (words : List String) : Except UsageFault Invocation := do
  let (outer, found) ← outerLevel.scan Given.empty words
  match found with
  | none => do
      let outer ← outer.settle
      throw (withoutCommand outer)
  | some (name, words) =>
      if name = "help" then throw (helpFault words)
      else do
        let inner ← innerGiven name words
        let command ← Command.ofGiven name inner
        let outer ← outer.settle
        pure ⟨(inner.value? "schemas").orElse fun _ => outer.value? "schemas", command⟩

end FixedLayout.CommandLine
