import ReplaceRules.Suite

/-!
# Arguments

The arguments of the command line: the name of a command, then its options and operands in any order.

An option takes the next argument as its value, or has it attached: `-cVALUE`, `-c=VALUE` or `--context=VALUE`. A value that is
an argument of its own may begin with a hyphen only if it is a rule, or nothing but a hyphen. After `--` everything is an
operand.
-/

namespace ReplaceRules

/-- What to do. -/
inductive Command where
  /-- Replace in an input, and show every step if asked to. -/
  | replace (rules : RuleDefinition) (trace : Bool) (input : String)
  /-- Show the parameters of a transducer. -/
  | debug (rules : RuleDefinition)
  /-- Check test files. -/
  | check (files : List String)
  deriving DecidableEq, Repr

/-- Why there is nothing to do: the arguments ask for help, or they make no command. -/
inductive Stop where
  | help
  | refused
  deriving DecidableEq, Repr

namespace Arguments

/-- The options with a value. -/
inductive Setting where
  | rule
  | context
  | kind
  | initialOutput
  deriving DecidableEq, Repr

namespace Setting

/-- The option with a letter. -/
def ofLetter? : Char → Option Setting
  | 'r' => some rule
  | 'c' => some context
  | 'k' => some kind
  | _ => none

/-- The option with a long name. -/
def ofName? (name : String) : Option Setting :=
  if name = "rule" then some rule
  else if name = "context" then some context
  else if name = "kind" then some kind
  else if name = "prefix" then some initialOutput
  else none

end Setting

/-- What one argument is. -/
inductive Argument where
  | operand
  /-- `--`, after which there are only operands. -/
  | operandsFollow
  | help
  | trace
  /-- An option, with its value if that is attached. -/
  | setting (setting : Setting) (value : Option String)
  | unknown
  deriving DecidableEq, Repr

/-- Splits what follows `--` at the first equals sign. -/
def splitName (chars : List Char) : List Char × Option String :=
  match chars.dropWhile (· ≠ '=') with
  | _ :: value => (chars.takeWhile (· ≠ '='), some (String.ofList value))
  | [] => (chars, none)

/-- The value that is attached to a letter, if there is one. -/
def attached : List Char → Option String
  | [] => none
  | '=' :: value => some (String.ofList value)
  | value => some (String.ofList value)

/-- What an argument is. -/
def classify (arg : String) : Argument :=
  match arg.toList with
  | ['-', '-'] => .operandsFollow
  | '-' :: '-' :: rest =>
    let (name, value) := splitName rest
    let name := String.ofList name
    match Setting.ofName? name with
    | some s => .setting s value
    | none =>
      if value.isSome then .unknown
      else if name = "trace" then .trace
      else if name = "help" then .help
      else .unknown
  | '-' :: letter :: rest =>
    match Setting.ofLetter? letter with
    | some s => .setting s (attached rest)
    | none => if letter = 'h' then .help else .unknown
  | _ => .operand

/-- Whether an argument can only be an option. -/
def isOption (arg : String) : Bool := classify arg ≠ .operand

/-- What a command takes. -/
structure Usage where
  /-- Whether it takes rules. -/
  rules : Bool
  /-- Whether it takes `--trace`. -/
  trace : Bool
  /-- How many operands it takes at most, if there is a limit. -/
  operands : Option Nat
  deriving DecidableEq, Repr

/-- What some arguments give. -/
structure Given where
  rules : List String := []
  contexts : List String := []
  kind : Option Kind := none
  initialOutput : Option String := none
  trace : Bool := false
  operands : List String := []
  deriving DecidableEq, Repr

namespace Given

/-- Takes an option. Rules and contexts may be given again and again, others only once. -/
def set (g : Given) (s : Setting) (value : String) : Except Stop Given :=
  match s with
  | .rule => .ok { g with rules := g.rules ++ [value] }
  | .context => .ok { g with contexts := g.contexts ++ [value] }
  | .kind =>
    match Kind.ofText? value, g.kind with
    | some kind, none => .ok { g with kind := some kind }
    | _, _ => .error .refused
  | .initialOutput =>
    match g.initialOutput with
    | none => .ok { g with initialOutput := some value }
    | some _ => .error .refused

/-- Takes an operand. -/
def operand (usage : Usage) (g : Given) (value : String) : Except Stop Given :=
  if usage.operands.any (· ≤ g.operands.length) then .error .refused
  else .ok { g with operands := g.operands ++ [value] }

/-- The definition that the options give. -/
def definition (g : Given) : RuleDefinition :=
  { pairs := g.rules, contexts := g.contexts, kind := g.kind, initialOutput := g.initialOutput }

end Given

/-- Takes arguments one after another. -/
def read (usage : Usage) (g : Given) : List String → Except Stop Given
  | [] => .ok g
  | arg :: rest =>
    match classify arg with
    | .operand => do read usage (← g.operand usage arg) rest
    | .operandsFollow => rest.foldlM (Given.operand usage) g
    | .help => .error .help
    | .trace => if usage.trace && !g.trace then read usage { g with trace := true } rest else .error .refused
    | .setting s (some value) => if usage.rules then do read usage (← g.set s value) rest else .error .refused
    | .setting s none =>
      match _h : rest with
      | [] => .error .refused
      | value :: rest =>
        if !usage.rules || s ≠ .rule && isOption value then .error .refused
        else do read usage (← g.set s value) rest
    | .unknown => .error .refused
termination_by args => args.length
decreasing_by all_goals simp only [List.length_cons]; omega

end Arguments

open Arguments

namespace Command

/-- Reads the arguments of a command that replaces. -/
def replaceOf (args : List String) : Except Stop Command := do
  let g ← read { rules := true, trace := true, operands := some 1 } {} args
  match g.operands with
  | [input] => if g.rules.isEmpty then throw .refused else return .replace g.definition g.trace input
  | _ => throw .refused

/-- Reads the arguments of a command that shows a transducer. -/
def debugOf (args : List String) : Except Stop Command := do
  let g ← read { rules := true, trace := false, operands := some 0 } {} args
  if g.rules.isEmpty then throw .refused else return .debug g.definition

/-- Reads the arguments of a command that checks files. -/
def checkOf (args : List String) : Except Stop Command := do
  let g ← read { rules := false, trace := false, operands := none } {} args
  if g.operands.isEmpty || g.operands.contains "" then throw .refused else return .check g.operands

/-- The names of the commands, each with the reader of its arguments. -/
def byName : List (String × (List String → Except Stop Command)) :=
  [("rewrite", replaceOf), ("debug", debugOf), ("check-yaml", checkOf)]

/-- Reads a command. -/
def ofArguments : List String → Except Stop Command
  | [] => .error .refused
  | name :: args =>
    match byName.lookup name with
    | some reader => reader args
    | none =>
      if name = "help" then
        if args.isEmpty || args.length = 1 && args.all fun a => a = "help" || (byName.lookup a).isSome then .error .help
        else .error .refused
      else if name = "--help" || name = "--version" || name.startsWith "-h" || name.startsWith "-V" then .error .help
      else .error .refused

end Command

end ReplaceRules
