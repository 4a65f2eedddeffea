import Relbase.Text.Digit

/-!
# Command-line arguments

The program takes a data directory and a verbose switch.  Long options may be
shortened as long as they stay apart, short options may share a dash, and a value
may be attached to its option.  Whatever is not understood is a misuse, but a
request for help that comes before it is granted.
-/

namespace Relbase

/-- There may be no data directory, since the divider does not count as one. -/
structure Settings where
  dataDirectory : Option Text
  verbose : Bool
  deriving DecidableEq, Repr

namespace Arguments

inductive Outcome where
  | settings (settings : Settings)
  | help
  | misuse
  deriving DecidableEq, Repr

def defaults : Settings :=
  ⟨some "databases".toList, false⟩

/-! ## Options -/

inductive Name where
  | help
  | dataDirectory
  | verbose
  deriving DecidableEq, Repr

def Name.long : Name → Text
  | .help => "--help".toList
  | .dataDirectory => "--data-dir".toList
  | .verbose => "--verbose".toList

def Name.letter : Name → Char
  | .help => 'h'
  | .dataDirectory => 'd'
  | .verbose => 'v'

def Name.all : List Name := [.help, .dataDirectory, .verbose]

def spelled? (text : Text) : Option Name :=
  Name.all.find? fun name => text = name.long || text = ['-', name.letter]

inductive Item where
  | value (text : Text)
  | divider
  | unknown
  | ambiguous
  | option (name : Name) (short : Bool) (attached : Option Text)
  deriving DecidableEq, Repr

def splitEquals (text : Text) : Text × Option Text :=
  let name := text.takeWhile (· ≠ '=')
  match text.drop name.length with
  | [] => (name, none)
  | _ :: value => (name, some value)

def isNegativeNumber : Text → Bool
  | '-' :: rest =>
      let number := if rest.getLast? = some '\n' then rest.dropLast else rest
      match number.dropWhile Text.isDigit with
      | [] => !number.isEmpty
      | '.' :: digits => !digits.isEmpty && digits.all Text.isDigit
      | _ => false
  | _ => false

def leftOver (text : Text) : Item :=
  if isNegativeNumber text || text.contains ' ' then .value text else .unknown

def divider : Text := ['-', '-']

/-- The options that a beginning of a long spelling may stand for. -/
def abbreviated (start : Text) : List Name :=
  Name.all.filter fun name => start.isPrefixOf name.long

def classify (text : Text) : Item :=
  match text with
  | '-' :: second :: rest =>
      let short := second ≠ '-'
      let (start, attached) := splitEquals text
      match spelled? text, spelled? start with
      | some name, _ => .option name short none
      | none, some name => .option name short attached
      | none, none =>
          if short then
            match spelled? ['-', second] with
            | some name => .option name true (some rest)
            | none => leftOver text
          else
            match abbreviated start with
            | [] => leftOver text
            | [name] => .option name false attached
            | _ => .ambiguous
  | _ => .value text

def classifyAll : List Text → List Item
  | [] => []
  | text :: rest =>
      if text = divider then .divider :: rest.map .value else classify text :: classifyAll rest

/-! ## Groups of short options -/

inductive Step where
  | help
  | verbose
  | directory (place : Option Text)
  deriving DecidableEq, Repr

structure Group where
  steps : List Step
  awaiting : Bool
  deriving DecidableEq, Repr

def bare : Name → Group
  | .help => ⟨[.help], false⟩
  | .dataDirectory => ⟨[], true⟩
  | .verbose => ⟨[.verbose], false⟩

def unfold (name : Name) (short : Bool) : Text → Option Group
  | [] =>
      if name = .dataDirectory then some ⟨[.directory (some [])], false⟩ else none
  | letter :: rest =>
      if name = .dataDirectory then
        let place := if letter :: rest = divider then none else some (letter :: rest)
        some ⟨[.directory place], false⟩
      else if !short then none
      else
        let found : Option Group := match spelled? ['-', letter], rest with
          | none, _ => none
          | some next, [] => some (bare next)
          | some next, more :: later => unfold next true (more :: later)
        found.map fun group => { group with steps := (bare name).steps ++ group.steps }

/-! ## Whole command lines -/

def Step.apply (settings : Settings) : Step → Settings
  | .help => settings
  | .verbose => { settings with verbose := true }
  | .directory place => { settings with dataDirectory := place }

/-- Take items one after another; `surplus` says whether anything was not
understood so far. -/
def take (settings : Settings) (surplus : Bool) : List Item → Outcome
  | [] => if surplus then .misuse else .settings settings
  | .option name short attached :: rest =>
      let group := match attached with
        | none => some (bare name)
        | some text => unfold name short text
      match group with
      | none => .misuse
      | some group =>
          let changed := group.steps.foldl Step.apply settings
          match group.awaiting, rest with
          | true, .value text :: later =>
              if group.steps.contains .help then .help
              else take { changed with dataDirectory := some text } surplus later
          | true, _ => .misuse
          | false, rest =>
              if group.steps.contains .help then .help
              else take changed surplus rest
  | _ :: rest => take settings true rest

def parse (arguments : List Text) : Outcome :=
  let items := classifyAll arguments
  if items.contains .ambiguous then .misuse else take defaults false items

end Arguments

end Relbase
