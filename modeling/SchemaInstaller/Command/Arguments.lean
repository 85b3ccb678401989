import SchemaInstaller.Text.Substitution

/-!
# Reading arguments

Arguments are switches, which start with a dash, and words. A switch may take a value, either in the
same argument or as the next one; a value in the same argument may start with a dash. After `--`
there are only words. What an argument does takes effect when the next one is looked at, so the
first argument that is wrong decides, except that a command is read before the switch in front of it
takes effect.
-/

namespace SchemaInstaller.Command

/-- Why arguments are not understood. -/
inductive Misuse
  | unknown (argument : String)
  | repeated (argument : String)
  | missingValue (argument : String)
  | unneededValue (argument value : String)
  | badValue (argument value : String)
  | missing (argument : String)
  | unknownCommand (word : String)
  | missingCommand
  deriving Repr, DecidableEq

/-- The misuse in words. -/
def Misuse.message : Misuse → String
  | unknown a => "unexpected argument '" ++ a ++ "' found"
  | repeated a => "the argument '" ++ a ++ "' cannot be used multiple times"
  | missingValue a => "a value is required for '" ++ a ++ "' but none was supplied"
  | unneededValue a v =>
    "unexpected value '" ++ v ++ "' for '" ++ a ++ "' found; no more were expected"
  | badValue a v => "invalid value '" ++ v ++ "' for '" ++ a ++ "'"
  | missing a => "the following required arguments were not provided:\n  " ++ a
  | unknownCommand w => "unrecognized subcommand '" ++ w ++ "'"
  | missingCommand => "'schemapress' requires a subcommand but one was not provided"

/-- What ends the reading of arguments before its end. Help is about a command, or in general. -/
inductive Stop
  | version
  | help (topic : Option String)
  | misuse (reason : Misuse)
  deriving Repr, DecidableEq

/-- What a switch does to what has been read: it is noted, its value is noted unless it is a bad
one, or it ends the reading. -/
inductive Effect (σ : Type)
  | mark (set : σ → σ)
  | value (set : String → σ → Option σ)
  | stop (reason : Stop)

/-- A switch, by a long name and perhaps a letter. -/
structure Switch (σ : Type) where
  long : String
  short : Option Char
  effect : Effect σ

/-- A word that stands for something by its place. -/
structure Operand (σ : Type) where
  name : String
  set : String → σ → Option σ

/-- The arguments that are known at some place: switches, words by their place, and commands. -/
structure Grammar (σ : Type) where
  switches : List (Switch σ)
  operands : List (Operand σ)
  commands : List String

/-- What has been read of some arguments. A switch or an operand that has been seen takes effect
later. -/
structure Reading (σ : Type) where
  values : σ
  used : List String
  pending : Option (String × Option String × (String → σ → Option σ))
  operands : List (Operand σ)
  onlyWords : Bool

namespace Switch

/-- The name of a switch as it is given. -/
def name (s : Switch σ) : String := "--" ++ s.long

end Switch

/-! ## Arguments by their form -/

/-- An argument by its form. -/
inductive Argument
  | separator
  | long (name : String) (value : Option String)
  | letters (letters : Text)
  | word (text : String)
  deriving Repr, DecidableEq

/-- The form of an argument. A dash alone is a word. -/
def Argument.ofText (s : String) : Argument :=
  match s.toList with
  | ['-', '-'] => separator
  | '-' :: '-' :: r =>
    let name := String.ofList (r.takeWhile (· != '='))
    match r.dropWhile (· != '=') with
    | [] => long name none
    | _ :: v => long name (some (String.ofList v))
  | '-' :: c :: r => letters (c :: r)
  | _ => word s

/-! ## Reading -/

namespace Reading

/-- Nothing has been read. -/
def start (g : Grammar σ) (values : σ) : Reading σ := ⟨values, [], none, g.operands, false⟩

/-- What has been seen takes effect. -/
def settle (r : Reading σ) : Except Stop (Reading σ) :=
  match r.pending with
  | none => .ok r
  | some (name, none, _) => .error (.misuse (.missingValue name))
  | some (name, some v, set) =>
    if r.used.contains name then .error (.misuse (.repeated name))
    else match set v r.values with
      | some values => .ok { r with values, used := name :: r.used, pending := none }
      | none => .error (.misuse (.badValue name v))

/-- Whether the next argument is the value of the switch before it. -/
def awaitsValue (r : Reading σ) : Bool :=
  match r.pending with
  | some (_, none, _) => true
  | _ => false

/-- A switch with a value in the same argument. -/
def give (r : Reading σ) (s : Switch σ) (set : String → σ → Option σ) (value : String) :
    Except Stop (Reading σ) := do
  let r ← r.settle
  settle { r with pending := some (s.name, some value, set) }

/-- A switch whose value is the next argument. -/
def await (r : Reading σ) (s : Switch σ) (set : String → σ → Option σ) :
    Except Stop (Reading σ) := do
  let r ← r.settle
  return { r with pending := some (s.name, none, set) }

/-- A switch that is only noted. -/
def mark (r : Reading σ) (s : Switch σ) (set : σ → σ) : Except Stop (Reading σ) := do
  let r ← r.settle
  if r.used.contains s.name then throw (.misuse (.repeated s.name))
  return { r with values := set r.values, used := s.name :: r.used }

/-- A switch by its long name, with what follows an equals sign in the same argument. -/
def long (g : Grammar σ) (r : Reading σ) (name : String) (value : Option String) :
    Except Stop (Reading σ) :=
  match g.switches.find? (·.long == name) with
  | none => .error (.misuse (.unknown ("--" ++ name)))
  | some s =>
    match s.effect, value with
    | .value set, some v => r.give s set v
    | .value set, none => r.await s set
    | .mark set, none => r.mark s set
    | .stop reason, none => r.settle.bind fun _ => .error reason
    | _, some v => .error (.misuse (.unneededValue s.name v))

/-- Switches by their letters. The value of one that takes a value is what follows its letter,
perhaps after an equals sign. -/
def letters (g : Grammar σ) : Reading σ → Text → Except Stop (Reading σ)
  | r, [] => .ok r
  | r, c :: rest =>
    match g.switches.find? (·.short == some c) with
    | none => .error (.misuse (.unknown (String.ofList ['-', c])))
    | some s =>
      match s.effect with
      | .mark set => (r.mark s set).bind fun r => letters g r rest
      | .stop reason => r.settle.bind fun _ => .error reason
      | .value set =>
        match rest with
        | [] => r.await s set
        | '=' :: v => r.give s set (String.ofList v)
        | v => r.give s set (String.ofList v)

/-- A word by its place. -/
def operand (g : Grammar σ) (r : Reading σ) (word : String) : Except Stop (Reading σ) := do
  let r ← r.settle
  match r.operands with
  | o :: operands => return { r with operands, pending := some (o.name, some word, o.set) }
  | [] =>
    throw (.misuse (if g.commands.isEmpty then .unknown word else .unknownCommand word))

/-- A word that is the value of the switch before it or has a place of its own. -/
def word (g : Grammar σ) (r : Reading σ) (text : String) : Except Stop (Reading σ) :=
  match r.pending with
  | some (name, none, set) => .ok { r with pending := some (name, some text, set) }
  | _ => r.operand g text

/-- An argument that is no command. -/
def argument (g : Grammar σ) (r : Reading σ) (a : String) : Except Stop (Reading σ) :=
  if r.onlyWords then r.operand g a
  else match Argument.ofText a with
    | .separator => .ok { r with onlyWords := true }
    | .long name value => r.long g name value
    | .letters letters => r.letters g letters
    | .word text => r.word g text

/-- Whether an argument is a command. -/
def isCommand (g : Grammar σ) (r : Reading σ) (a : String) : Bool :=
  !r.onlyWords && !r.awaitsValue && g.commands.contains a

/-- The arguments read until there is a command; the command and the arguments after it. -/
def arguments (g : Grammar σ) :
    Reading σ → List String → Except Stop (Reading σ × Option (String × List String))
  | r, [] => .ok (r, none)
  | r, a :: rest =>
    if r.isCommand g a then .ok (r, some (a, rest))
    else (r.argument g a).bind fun r => arguments g r rest

end Reading

/-- The values that arguments without a command give. -/
def Grammar.read (g : Grammar σ) (values : σ) (args : List String) : Except Stop σ := do
  let (r, _) ← (Reading.start g values).arguments g args
  return (← r.settle).values

end SchemaInstaller.Command
