import SheetFill.Text.Blank

/-!
# Reading arguments

A command takes arguments at fixed places and options. An option has a long name and may have a
short one of one letter. Its value, if it takes one, follows as the next argument or after an equals
sign; after a short name it may also follow at once. Short names can be written together. After `--`
every argument is one at a fixed place. `-h` and `--help` ask for help wherever they stand, unless
there is a mistake before them.
-/

namespace SheetFill.CommandLine

/-- An option of a command. -/
structure OptionForm where
  /-- The long name. -/
  long : String
  /-- The short name, if there is one. -/
  short : Option Char
  /-- The name of the value, if it takes one. -/
  value : Option String
  /-- Whether it has to be given. -/
  required : Bool
deriving DecidableEq

/-- What a command takes. -/
structure CommandForm where
  /-- The names of the arguments at fixed places. -/
  places : List String
  /-- The options. -/
  options : List OptionForm
deriving DecidableEq

/-- Why the arguments are not those of the command. -/
inductive UsageError where
  /-- There is no command. -/
  | noCommand
  /-- The command is unknown. -/
  | unknownCommand (name : String)
  /-- The command does not take this argument. -/
  | unexpected (argument : String)
  /-- The option takes no value. -/
  | unexpectedValue (option value : String)
  /-- The option needs a value. -/
  | noValue (option : String)
  /-- The option is given twice. -/
  | repeated (option : String)
  /-- Arguments are missing. -/
  | missing (names : List String)
deriving DecidableEq

/-- The wording of a mistake. -/
def UsageError.message : UsageError → String
  | .noCommand => "a command is required but none was given"
  | .unknownCommand name => "unrecognized subcommand '" ++ name ++ "'"
  | .unexpected argument => "unexpected argument '" ++ argument ++ "' found"
  | .unexpectedValue option value =>
      "unexpected value '" ++ value ++ "' for '--" ++ option ++ "' found; no more were expected"
  | .noValue option => "a value is required for '--" ++ option ++ "' but none was supplied"
  | .repeated option => "the argument '--" ++ option ++ "' cannot be used multiple times"
  | .missing names =>
      "the following required arguments were not provided:" ++
        String.join (names.map fun name => "\n  " ++ name)

/-- Why reading the arguments stops. -/
inductive Stop where
  /-- Help is asked for. -/
  | help
  /-- There is a mistake. -/
  | mistake (e : UsageError)
deriving DecidableEq

/-- The arguments of a command. -/
structure Arguments where
  /-- The options that were given, by their long names, with the value or an empty text. -/
  options : List (String × String)
  /-- The arguments at fixed places. -/
  places : List String
deriving DecidableEq

namespace Arguments

/-- Whether an option was given. -/
def has (a : Arguments) (name : String) : Bool := a.options.any fun pair => pair.1 == name

/-- The value of an option. -/
def value? (a : Arguments) (name : String) : Option String :=
  (a.options.find? fun pair => pair.1 == name).map (·.2)

/-- Add an option. The value of an option that takes one is not empty. -/
def addOption (a : Arguments) (form : OptionForm) (value : String) : Except Stop Arguments :=
  if a.has form.long then .error (.mistake (.repeated form.long))
  else if form.value.isSome ∧ value.isEmpty then .error (.mistake (.noValue form.long))
  else .ok { a with options := a.options ++ [(form.long, value)] }

/-- Add an argument at the next place. -/
def addPlace (a : Arguments) (form : CommandForm) (argument : String) : Except Stop Arguments :=
  if a.places.length < form.places.length then .ok { a with places := a.places ++ [argument] }
  else .error (.mistake (.unexpected argument))

/-- Whether an argument is read as an option. -/
def isOption (argument : String) : Bool :=
  match argument.toList with
  | '-' :: _ :: _ => true
  | _ => false

/-- The value of an option in the next argument, if there is one, and the arguments after it. -/
def nextValue (form : OptionForm) : List String → Except Stop (String × List String)
  | [] => .error (.mistake (.noValue form.long))
  | value :: rest =>
      if isOption value then .error (.mistake (.noValue form.long)) else .ok (value, rest)

/-- Add an option with a long name; `text` stands after the two dashes. -/
def addLong (a : Arguments) (form : CommandForm) (text : List Char) (rest : List String) :
    Except Stop (Arguments × List String) := do
  let (name, value) := match Text.splitFirst? '=' text with
    | some (name, value) => (String.ofList name, some (String.ofList value))
    | none => (String.ofList text, none)
  match form.options.find? fun o => o.long == name, value with
  | none, none =>
      if name = "help" then throw .help else throw (.mistake (.unexpected ("--" ++ name)))
  | none, some value =>
      if name = "help" then throw (.mistake (.unexpectedValue name value))
      else throw (.mistake (.unexpected ("--" ++ name)))
  | some o, some value =>
      if o.value.isSome then pure (← a.addOption o value, rest)
      else throw (.mistake (.unexpectedValue name value))
  | some o, none =>
      if o.value.isSome then
        let (value, rest) ← nextValue o rest
        pure (← a.addOption o value, rest)
      else pure (← a.addOption o "", rest)

/-- Add options with short names that are written together. -/
def addShort (a : Arguments) (form : CommandForm) (rest : List String) :
    List Char → Except Stop (Arguments × List String)
  | [] => .ok (a, rest)
  | c :: cs =>
      match form.options.find? fun o => o.short == some c with
      | none =>
          if c = 'h' then .error .help
          else .error (.mistake (.unexpected ("-" ++ c.toString)))
      | some o =>
          if o.value.isSome then
            match cs with
            | [] => do
                let (value, rest) ← nextValue o rest
                pure (← a.addOption o value, rest)
            | '=' :: cs => (a.addOption o (String.ofList cs)).map (·, rest)
            | cs => (a.addOption o (String.ofList cs)).map (·, rest)
          else match a.addOption o "" with
            | .error stop => .error stop
            | .ok a => a.addShort form rest cs

/-- Read arguments after those read so far. Each step takes one of them at least, so as many steps
as there are arguments suffice. -/
def readFrom (a : Arguments) (form : CommandForm) (steps : Nat) (args : List String) :
    Except Stop Arguments :=
  match steps, args with
  | steps + 1, arg :: rest =>
      match arg.toList with
      | ['-', '-'] => rest.foldlM (fun a arg => a.addPlace form arg) a
      | '-' :: '-' :: text => do
          let (a, rest) ← a.addLong form text rest
          a.readFrom form steps rest
      | '-' :: c :: cs => do
          let (a, rest) ← a.addShort form rest (c :: cs)
          a.readFrom form steps rest
      | _ => do
          let a ← a.addPlace form arg
          a.readFrom form steps rest
  | _, _ => .ok a

/-- The names of what has to be given and was not. -/
def missing (a : Arguments) (form : CommandForm) : List String :=
  ((form.options.filter fun o => o.required && !a.has o.long).map fun o =>
      "--" ++ o.long ++ match o.value with
        | some name => " <" ++ name ++ ">"
        | none => "") ++
    (form.places.drop a.places.length).map fun name => "<" ++ name ++ ">"

/-- Read the arguments of a command. -/
def read (form : CommandForm) (args : List String) : Except Stop Arguments := do
  let a ← readFrom ⟨[], []⟩ form args.length args
  let missing := a.missing form
  if missing.isEmpty then pure a else throw (.mistake (.missing missing))

end Arguments

end SheetFill.CommandLine
