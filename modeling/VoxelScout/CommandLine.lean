import VoxelScout.Settings

/-! # The command line

Options have one or two dashes and take their value from the same word, after an equals
sign, or from the next one; a switch needs none. The first word that is no option, or two
dashes alone, ends them. Options win over the file and the environment.
-/

namespace VoxelScout.CommandLine

/-- What the command line asks for; what it does not mention is empty. -/
structure Options where
  config : String := ""
  trace : String := ""
  logLevel : String := ""
  url : String := ""
  port : String := ""
  noWeb : Bool := false
  deriving DecidableEq, Repr

inductive Misuse where
  /-- Only help was asked for. -/
  | help
  /-- An option is unknown, badly written or lacks its value. -/
  | usage
  deriving DecidableEq, Repr

def Misuse.exitCode : Misuse → Nat
  | .help => 0
  | .usage => 2

def boolOf? (text : String) : Option Bool :=
  if ["1", "t", "T", "TRUE", "true", "True"].contains text then some true
  else if ["0", "f", "F", "FALSE", "false", "False"].contains text then some false
  else none

def Options.set? (o : Options) (name value : String) : Option Options :=
  match name with
  | "config" => some { o with config := value }
  | "trace" => some { o with trace := value }
  | "log-level" => some { o with logLevel := value }
  | "url" => some { o with url := value }
  | "port" => some { o with port := value }
  | _ => none

/-- The name and the value of a word, when it is an option: dashes, a name, and perhaps an
equals sign and a value. -/
def splitOption (cs : List Char) : String × Option String :=
  let name := String.ofList (cs.takeWhile (· != '='))
  match cs.dropWhile (· != '=') with
  | [] => (name, none)
  | _ :: value => (name, some (String.ofList value))

def optionBody? (word : String) : Option (List Char) :=
  match word.toList with
  | ['-'] => none
  | '-' :: '-' :: rest => some rest
  | '-' :: rest => some rest
  | _ => none

def parse (o : Options) : List String → Except Misuse Options
  | [] => .ok o
  | word :: rest =>
    match optionBody? word with
    | none => .ok o
    | some [] => .ok o
    | some (c :: cs) =>
      let (name, value) := splitOption (c :: cs)
      if c == '-' || c == '=' then .error .usage
      else if name == "no-web" then
        match boolOf? (value.getD "true") with
        | some b => parse { o with noWeb := b } rest
        | none => .error .usage
      else match value, rest with
        | some v, rest => next name v rest
        | none, v :: rest => next name v rest
        | none, [] => .error (failure name)
where
  /-- The help is asked for by name, everything else that is unknown is a mistake. -/
  failure (name : String) : Misuse :=
    if name == "h" || name == "help" then .help else .usage
  /-- Sets an option and goes on. -/
  next (name value : String) (rest : List String) : Except Misuse Options :=
    match o.set? name value with
    | some o => parse o rest
    | none => .error (failure name)

def orKeep (option kept : String) : String :=
  if option.isEmpty then kept else option

def Options.apply (o : Options) (s : Settings) : Settings :=
  { s with
    tracePath := orKeep o.trace s.tracePath
    logLevel := orKeep o.logLevel s.logLevel
    bridge.url := orKeep o.url s.bridge.url
    api.port := orKeep o.port s.api.port
    served := s.served && !o.noWeb }

end VoxelScout.CommandLine
