import ModularHost.Path
/-!
# Arguments

The arguments of a command line. An option takes the next argument as its value, unless that begins
a new option; a value may also be attached. A value is taken in only when the next option, or the
end, shows that it is complete, so what is wrong with it may come to light late.
-/

namespace ModularHost

/-- What the command line says. -/
structure Arguments where
  config : Path
  modules : Option Path
  debug : Bool
  jsonLogs : Bool
deriving DecidableEq, Repr

/-- What the command line says when it is empty. -/
def Arguments.default : Arguments := ⟨⟨"grid.toml"⟩, none, false, false⟩

/-- Why arguments are not followed. -/
inductive ArgumentError where
  | unknownArgument
  /-- A value that is missing or empty. -/
  | invalidValue
  /-- An option that is given again. -/
  | conflict
  /-- A value for an option that takes none. -/
  | tooManyValues
  | help
  | version
deriving DecidableEq, Repr

/-- The options of the command line. -/
inductive CommandOption where
  | config
  | modules
  | debug
  | jsonLogs
  | help
  | version
deriving DecidableEq, Repr

namespace CommandOption

/-- The options under their long names. -/
def longNames : List (String × CommandOption) :=
  [("config", .config), ("modules", .modules), ("debug", .debug), ("json-logs", .jsonLogs),
   ("help", .help), ("version", .version)]

/-- The options under their letters. -/
def letters : List (Char × CommandOption) :=
  [('c', .config), ('m', .modules), ('d', .debug), ('h', .help), ('V', .version)]

def takesValue : CommandOption → Bool
  | .config | .modules => true
  | _ => false

end CommandOption

namespace Arguments

/-- Arguments while they are read: what has been said, the options it was said by, and an option
that waits to be taken in, with its value if it has one by now. -/
structure Reading where
  said : Arguments
  seen : List CommandOption
  pending : Option (CommandOption × Option String)

def Reading.start : Reading := ⟨.default, [], none⟩

/-- Takes an option in with its value. -/
def Reading.set (r : Reading) (option : CommandOption) (value : Option String) :
    Except ArgumentError Reading :=
  if r.seen.contains option then .error .conflict
  else
    let r := { r with seen := option :: r.seen }
    match option, value with
    | .help, _ => .error .help
    | .version, _ => .error .version
    | .debug, _ => .ok { r with said := { r.said with debug := true } }
    | .jsonLogs, _ => .ok { r with said := { r.said with jsonLogs := true } }
    | .config, some value =>
      if value.isEmpty then .error .invalidValue
      else .ok { r with said := { r.said with config := ⟨value⟩ } }
    | .modules, some value =>
      if value.isEmpty then .error .invalidValue
      else .ok { r with said := { r.said with modules := some ⟨value⟩ } }
    | _, none => .error .invalidValue

/-- Takes the waiting option in. -/
def Reading.settle (r : Reading) : Except ArgumentError Reading :=
  match r.pending with
  | none => .ok r
  | some (_, none) => .error .invalidValue
  | some (option, some value) => { r with pending := none }.set option (some value)

/-- An option of which nothing more is expected. -/
def Reading.take (r : Reading) (option : CommandOption) (value : Option String) :
    Except ArgumentError Reading := do
  (← r.settle).set option value

/-- An option whose value is to follow. -/
def Reading.await (r : Reading) (option : CommandOption) : Except ArgumentError Reading := do
  return { ← r.settle with pending := some (option, none) }

/-- An argument by a long name, which may have a value attached. -/
def Reading.long (r : Reading) (name : String) (value : Option String) :
    Except ArgumentError Reading :=
  match CommandOption.longNames.lookup name with
  | none => .error .unknownArgument
  | some option =>
    match option.takesValue, value with
    | true, some value => r.take option (some value)
    | true, none => r.await option
    | false, some _ => .error .tooManyValues
    | false, none => r.take option none

/-- Letters behind one hyphen. The first that takes a value takes the rest as its value. -/
def Reading.short : List Char → Reading → Except ArgumentError Reading
  | [], r => .ok r
  | letter :: rest, r =>
    match CommandOption.letters.lookup letter with
    | none => .error .unknownArgument
    | some option =>
      if option.takesValue then
        match rest with
        | [] => r.await option
        | '=' :: value => r.take option (some (String.ofList value))
        | value => r.take option (some (String.ofList value))
      else do
        Reading.short rest (← r.take option none)

/-- What an argument is by its first characters. -/
inductive Shape where
  /-- Two hyphens alone. -/
  | marker
  | long (name : String) (value : Option String)
  | short (letters : List Char)
  | plain
deriving DecidableEq, Repr

def Shape.of (argument : String) : Shape :=
  match argument.toList with
  | ['-', '-'] => .marker
  | '-' :: '-' :: rest =>
    match rest.dropWhile (· != '=') with
    | [] => .long (String.ofList rest) none
    | _ :: value => .long (String.ofList (rest.takeWhile (· != '='))) (some (String.ofList value))
  | '-' :: c :: rest => .short (c :: rest)
  | _ => .plain

/-- Reads arguments one after the other. Behind the marker there are no options, and there is
nothing else that the command line would take. -/
def readAll : List String → Reading → Except ArgumentError Reading
  | [], r => r.settle
  | argument :: rest, r =>
    match Shape.of argument with
    | .marker => if rest.isEmpty then r.settle else .error .unknownArgument
    | .long name value => do readAll rest (← r.long name value)
    | .short letters => do readAll rest (← Reading.short letters r)
    | .plain =>
      match r.pending with
      | some (option, none) => readAll rest { r with pending := some (option, some argument) }
      | _ => .error .unknownArgument

/-- What a command line says; its first word is the name of the program. -/
def parse (words : List String) : Except ArgumentError Arguments := do
  return (← readAll (words.drop 1) .start).said

end Arguments
end ModularHost
