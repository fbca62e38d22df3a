/-!
# Command-line arguments

A command declares its options; arguments are then read from left to right. An option has a long
name and perhaps a letter, is given at most once, and takes a value or none. A value stands in the
next argument or is attached. After a bare double dash everything is positional.
-/

namespace ConditionChart.Command

/-- An option of a command. -/
structure Choice where
  long : String
  letter : Option Char := none
  /-- Which values the option takes; an option without such a test takes none. -/
  accepts : Option (String → Bool) := none

/-- An option that takes any text. -/
def Choice.text (long : String) (letter : Option Char) : Choice :=
  ⟨long, letter, some fun _ => true⟩

/-- The arguments that a command takes: its options and how many positional ones. -/
structure Grammar where
  choices : List Choice
  fewest : Nat
  most : Nat

/-- What was given: the options by their long names, in order, and the positional arguments. -/
structure Given where
  options : List (String × String) := []
  positional : List String := []
deriving DecidableEq, Repr

/-- Why arguments do not fit a command. -/
inductive Misuse
  | unknownOption (argument : String)
  | repeatedOption (long : String)
  | missingValue (long : String)
  | unexpectedValue (long : String)
  | invalidValue (long value : String)
  | tooMany (argument : String)
  | tooFew
deriving DecidableEq, Repr

namespace Given

/-- Whether an option was given. -/
def has (g : Given) (long : String) : Bool := g.options.any (·.1 == long)

/-- The value of an option. -/
def value? (g : Given) (long : String) : Option String := g.options.lookup long

end Given

namespace Grammar

/-- Takes a value for an option. -/
def take (c : Choice) (value : String) (g : Given) : Except Misuse Given :=
  if g.has c.long then .error (.repeatedOption c.long)
  else if c.accepts.any (· value) then .ok { g with options := g.options ++ [(c.long, value)] }
  else .error (.invalidValue c.long value)

/-- Takes an option that has no value. -/
def mark (c : Choice) (g : Given) : Except Misuse Given :=
  if g.has c.long then .error (.repeatedOption c.long)
  else .ok { g with options := g.options ++ [(c.long, "")] }

/-- Takes a positional argument. -/
def place (grammar : Grammar) (argument : String) (g : Given) : Except Misuse Given :=
  if g.positional.length < grammar.most then
    .ok { g with positional := g.positional ++ [argument] }
  else .error (.tooMany argument)

/-- Whether an argument begins like an option, so that it cannot be the value of one. A dash alone
does not. -/
def looksLikeOption (argument : String) : Bool :=
  match argument.toList with
  | '-' :: _ :: _ => true
  | _ => false

/-- What is left to do after the letters of an argument: nothing, or to find the value of the last
option in the next argument. -/
abbrev Pending := Option Choice

/-- Takes the letters of one argument. The letter of an option with a value ends them; what stands
behind it is the value, an equals sign between the two being dropped. -/
def letters (grammar : Grammar) : List Char → Given → Except Misuse (Given × Pending)
  | [], g => .ok (g, none)
  | l :: rest, g =>
      match grammar.choices.find? (·.letter == some l) with
      | none => .error (.unknownOption (String.singleton l))
      | some c =>
          if c.accepts.isNone then do
            let g ← mark c g
            grammar.letters rest g
          else
            match rest with
            | [] => .ok (g, some c)
            | '=' :: value => (take c (String.ofList value) g).map fun g => (g, none)
            | value => (take c (String.ofList value) g).map fun g => (g, none)

/-- Takes an option by its long name, with the value attached to it, if any. -/
def longName (grammar : Grammar) (body : List Char) (g : Given) :
    Except Misuse (Given × Pending) :=
  let name := String.ofList (body.takeWhile (· != '='))
  let attached := (body.dropWhile (· != '=')).tail?
  match grammar.choices.find? (·.long == name) with
  | none => .error (.unknownOption name)
  | some c =>
      match c.accepts, attached with
      | none, none => (mark c g).map fun g => (g, none)
      | none, some _ => .error (.unexpectedValue name)
      | some _, none => .ok (g, some c)
      | some _, some value => (take c (String.ofList value) g).map fun g => (g, none)

/-- Takes one argument that is not the value of an earlier one. -/
def argument (grammar : Grammar) (a : String) (g : Given) : Except Misuse (Given × Pending) :=
  match a.toList with
  | '-' :: '-' :: body => grammar.longName body g
  | '-' :: l :: rest => grammar.letters (l :: rest) g
  | _ => (grammar.place a g).map fun g => (g, none)

/-- Takes all arguments, given what the ones before have left to do. -/
def readFrom (grammar : Grammar) : Pending → List String → Given → Except Misuse Given
  | none, [], g => .ok g
  | some c, [], _ => .error (.missingValue c.long)
  | none, a :: rest, g =>
      if a = "--" then rest.foldlM (fun g a => grammar.place a g) g
      else do
        let (g, pending) ← grammar.argument a g
        grammar.readFrom pending rest g
  | some c, a :: rest, g =>
      if looksLikeOption a then .error (.missingValue c.long)
      else do
        let g ← take c a g
        grammar.readFrom none rest g

/-- Reads the arguments of a command. -/
def read (grammar : Grammar) (arguments : List String) : Except Misuse Given := do
  let g ← grammar.readFrom none arguments {}
  if g.positional.length < grammar.fewest then .error .tooFew else .ok g

end Grammar

end ConditionChart.Command
