import LocalMetric.Text.Classes
/-!
# Command lines

A command line names a command, which may be a member of a group, and gives it options. Options are
known by any unambiguous beginning of their names, and their values follow either as further
arguments or after an equals sign. An argument that looks like a negative number is a value, not an
option.
-/
namespace LocalMetric.Cli

/-- What follows an option. -/
inductive Arity where
  | flag
  | one
  | oneOrMore
  /-- Nothing: the option asks for help. -/
  | help
  deriving Repr, DecidableEq

structure OptionSpec where
  name : String
  arity : Arity := .one
  /-- Whether a value is one that the option takes. -/
  accepts : String → Bool := fun _ => true
  required : Bool := false

/-- A command, or a group of commands, with its options. -/
inductive Grammar where
  | command (options : List OptionSpec)
  | group (options : List OptionSpec) (members : List (String × Grammar))

/-- Why a command line is not carried out. -/
inductive Refusal where
  | helpWanted
  | misuse
  deriving Repr, DecidableEq

/-- What an argument is taken for. -/
inductive ArgumentClass where
  | value
  | option (spec : OptionSpec) (given : Option String)
  /-- The short option for help, with what is written behind it. -/
  | shortHelp (behind : Option String)
  | unknown
  /-- Two dashes, after which everything is a value. -/
  | separator

structure Parsed where
  /-- The options in the order in which they were given, each with its values. -/
  settings : List (String × List String) := []
  /-- The names of the groups and of the command. -/
  commands : List String := []
  /-- Whether an argument was not understood. -/
  leftover : Bool := false

/-! ## Single arguments -/

def helpOption : OptionSpec := { name := "--help", arity := .help }

def shortHelp : String := "-h"

/-- Whether a text is a minus sign and digits, with at most one point that has a digit after it. The
end of a line may follow. -/
def looksNegative (s : String) : Bool :=
  let isDigit (c : Char) : Bool := (Text.digitValue? c).isSome
  match s.toList with
  | '-' :: cs =>
    let cs := if cs.getLast? = some '\n' then cs.dropLast else cs
    match cs.dropWhile isDigit with
    | [] => !cs.isEmpty
    | '.' :: ds => !ds.isEmpty && ds.all isDigit
    | _ => false
  | _ => false

def splitEquals (s : String) : String × Option String :=
  match s.toList.span (· ≠ '=') with
  | (before, _ :: after) => (String.ofList before, some (String.ofList after))
  | (before, []) => (String.ofList before, none)

/-- The option that a text with two dashes in front begins, if there is exactly one. -/
def abbreviated (options : List OptionSpec) (s : String) : Except Refusal (Option ArgumentClass) :=
  let (before, given) := splitEquals s
  match options.filter fun o => before.toList.isPrefixOf o.name.toList with
  | [] => .ok none
  | [o] => .ok (some (.option o given))
  | _ => .error .misuse

/-- What an argument with a dash in front is taken for if no option has just this name. -/
def classifyOther (options : List OptionSpec) (s : String) : Except Refusal ArgumentClass := do
  let found ← match s.toList with
    | '-' :: '-' :: _ => abbreviated options s
    | '-' :: 'h' :: behind => pure (some (.shortHelp (some (String.ofList behind))))
    | _ => pure none
  return match found with
    | some c => c
    | none => if looksNegative s || s.toList.contains ' ' then .value else .unknown

def classify (options : List OptionSpec) (s : String) : Except Refusal ArgumentClass :=
  let (before, given) := splitEquals s
  if s.toList.head? ≠ some '-' ∨ s = "-" then .ok .value
  else if s = shortHelp then .ok (.shortHelp none)
  else match options.find? (·.name == s), options.find? (·.name == before) with
    | some o, _ => .ok (.option o none)
    | none, some o => .ok (.option o given)
    | none, none =>
      if before = shortHelp then .ok (.shortHelp given) else classifyOther options s

def classifyAll (options : List OptionSpec) :
    List String → Except Refusal (List (String × ArgumentClass))
  | [] => .ok []
  | s :: rest => do
    if s = "--" then return (s, .separator) :: rest.map fun v => (v, .value)
    return (s, ← classify options s) :: (← classifyAll options rest)

/-! ## The options of a command -/

/-- What has been read so far. -/
structure Reading where
  settings : List (String × List String) := []
  /-- The option whose values are being read, and those read so far. -/
  open? : Option (OptionSpec × List String) := none
  leftover : Bool := false

namespace Reading

def add (r : Reading) (o : OptionSpec) (values : List String) : Except Refusal Reading :=
  if values.all o.accepts then
    .ok { r with settings := r.settings ++ [(o.name, values)], open? := none }
  else .error .misuse

/-- Ends the option whose values are being read. It must have got some. -/
def close (r : Reading) : Except Refusal Reading :=
  match r.open? with
  | none => .ok r
  | some (_, []) => .error .misuse
  | some (o, values) => r.add o values

def start (r : Reading) (o : OptionSpec) (given : Option String) : Except Refusal Reading :=
  match o.arity, given with
  | .help, none => .error .helpWanted
  | .flag, none => r.add o []
  | .one, none | .oneOrMore, none => .ok { r with open? := some (o, []) }
  | .one, some value | .oneOrMore, some value => r.add o [value]
  | .help, some _ | .flag, some _ => .error .misuse

/-- Reads the short option for help, which may be repeated in the same argument. -/
def short (behind : Option String) : Refusal :=
  match behind with
  | none => .helpWanted
  | some s => if s ≠ "" ∧ s.toList.all (· = 'h') then .helpWanted else .misuse

def take (r : Reading) (o : OptionSpec) (values : List String) (value : String) :
    Except Refusal Reading :=
  match o.arity with
  | .oneOrMore => .ok { r with open? := some (o, values ++ [value]) }
  | _ => r.add o [value]

end Reading

/-- Reads the options of a command. The first value that belongs to no option starts the rest, if a
rest is wanted, and is left over otherwise. A separator is not understood in either case. -/
def readOptions (wantsRest : Bool) (r : Reading) :
    List (String × ArgumentClass) → Except Refusal (Reading × List String)
  | [] => do return (← r.close, [])
  | (s, c) :: rest =>
    match c, r.open? with
    | .value, some (o, values) => do readOptions wantsRest (← r.take o values s) rest
    | .value, none =>
      if wantsRest then .ok (r, s :: rest.map (·.1))
      else readOptions wantsRest { r with leftover := true } rest
    | .option o given, _ => do readOptions wantsRest (← (← r.close).start o given) rest
    | .shortHelp behind, _ => do
      let _ ← r.close
      throw (Reading.short behind)
    | .separator, _ =>
      if wantsRest then .error .misuse
      else do readOptions wantsRest { ← r.close with leftover := true } rest
    | .unknown, _ => do readOptions wantsRest { ← r.close with leftover := true } rest

/-! ## Commands -/

def complete (options : List OptionSpec) (r : Reading) : Bool :=
  options.all fun o => !o.required || r.settings.any (·.1 == o.name)

mutual

def parse : Grammar → List String → Except Refusal Parsed
  | .command options, args => do
    let (r, _) ← readOptions false {} (← classifyAll (helpOption :: options) args)
    if complete options r then return { settings := r.settings, leftover := r.leftover }
    else throw .misuse
  | .group options members, args => do
    let (r, rest) ← readOptions true {} (← classifyAll (helpOption :: options) args)
    match rest with
    | [] => throw .misuse
    | name :: rest =>
      let p ← parseMember name rest members
      return { settings := r.settings ++ p.settings, commands := name :: p.commands,
               leftover := r.leftover || p.leftover }

def parseMember (name : String) (args : List String) :
    List (String × Grammar) → Except Refusal Parsed
  | [] => .error .misuse
  | (member, g) :: members =>
    if member = name then parse g args else parseMember name args members

end

/-- Reads a whole command line, in which every argument has to be understood. -/
def parseAll (g : Grammar) (args : List String) : Except Refusal Parsed := do
  let p ← parse g args
  if p.leftover then throw .misuse
  return p

end LocalMetric.Cli
