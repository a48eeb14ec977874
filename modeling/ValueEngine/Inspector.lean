import ValueEngine.Engine.Construction
import ValueEngine.Engine.External
import ValueEngine.Engine.Printing
import ValueEngine.Growable.Sort
import ValueEngine.Text.Erasure

/-! The value inspector. It reads lines, each a document to show as a dynamic value or a
command, and answers with texts; or it shows the one document of a file. Backspaces in
a line erase what was typed before them. A line that holds no document is answered
by an error and does not end the session. -/

namespace ValueEngine.Inspector

inductive Command
  | sort (argument : String)
  | help
  | quit
  | unknown (name : String)
  | inspect (text : String)
  deriving DecidableEq, Repr

/-- Read a command. Its name is the run of word characters after a colon; any other line
is a document. -/
def Command.ofLine (line : List Char) : Command :=
  match line with
  | ':' :: rest =>
    let name := String.ofList (rest.takeWhile Text.isWord)
    if name = "" then .inspect (String.ofList line)
    else if name = "sort" then
      .sort (String.ofList (Text.trimmed (rest.dropWhile Text.isWord)))
    else if name = "help" then .help
    else if name = "quit" ∨ name = "q" then .quit
    else .unknown name
  | _ => .inspect (String.ofList line)

def banner : String :=
  "dynsh - dynamic value inspector\nType JSON to inspect, :help for commands, Ctrl+D to exit.\n"

def helpText : String :=
  "Enter a JSON document to inspect it as a dynamic value.\n\nCommands:\n" ++
  "  :sort <json number array>   sort numbers with the array quicksort\n" ++
  "  :help                       show this help\n" ++
  "  :quit                       exit"

def errorText (message : String) : String := "Error: " ++ message

/-- The type and the inspection text of a document. -/
def inspect (config : Config) (text : String) : String :=
  match (Engine.new config).parse text with
  | .ok (b, e) => e.typeofName b.value ++ " " ++ e.inspect b.value
  | .error f => errorText f.message

def ascending {σ : Type} : Closure σ Float where
  context := 0
  returns := .f64
  run
    | [_, .element pivot, .element x] => return .f64 (pivot - x)
    | _ => return .f64 (Number.ofNat 0)

def sorted (xs : List Float) : List Float :=
  ((Growable.sort .whole ascending).outcome (Growable.ofList xs)).2.toList

def listText (xs : List Float) : String :=
  "[" ++ ",".intercalate (xs.map Number.Layout.document.text) ++ "]"

/-- Sort the numbers of a document that is a list of numbers. -/
def sort (text : String) : String :=
  match Json.Document.parseNumbers? text with
  | some xs => listText (sorted xs)
  | none => errorText "not a list of numbers"

/-- The answer to a command; there is none to quitting. -/
def answer? (config : Config) : Command → Option String
  | .sort argument => some (sort argument)
  | .help => some helpText
  | .quit => none
  | .unknown name => some ("Unknown command :" ++ name ++ " (try :help)")
  | .inspect text => some (inspect config text)

inductive Reply
  | silence
  | text (s : String)
  | leave
  /-- The backspaces of the line cannot be carried out. -/
  | abort
  deriving DecidableEq, Repr

/-- The reply to a line; a blank one gets none. -/
def reply (config : Config) (line : List Char) : Reply :=
  match (Text.erased? line).map Text.trimmed with
  | none => .abort
  | some [] => .silence
  | some line =>
    match answer? config (.ofLine line) with
    | some s => .text s
    | none => .leave

/-- The exit status and the texts printed, each followed by a newline. -/
structure Transcript where
  status : Nat
  printed : List String
  deriving DecidableEq, Repr

/-- The exit status of an aborted session. -/
def abortStatus : Nat := 101

/-- A conversation over lines. At the end of the lines an empty text stands for leaving. -/
def converse (config : Config) : List (List Char) → Transcript
  | [] => ⟨0, [""]⟩
  | line :: lines =>
    match reply config line with
    | .silence => converse config lines
    | .text s =>
      let rest := converse config lines
      ⟨rest.status, s :: rest.printed⟩
    | .leave => ⟨0, []⟩
    | .abort => ⟨abortStatus, []⟩

/-- The settings that a text gives, the standard ones if there is no text. -/
def settings (text : Option String) : Except Fault Config :=
  match text with
  | some text => Config.parse text
  | none => .ok .standard

/-- What the inspector is given to read. -/
inductive Source
  | lines (text : String)
  /-- A file and its text, if it can be read. -/
  | file (text : Option String)

/-- The text printed for the document of a file. -/
def inspectFile (config : Config) (text : String) : String :=
  inspect config (String.ofList (Text.trimmed text.toList))

/-- Run the inspector with a text of settings, if there is one. -/
def run (settingsText : Option String) (source : Source) : Transcript :=
  match settings settingsText, source with
  | .error _, _ => ⟨1, []⟩
  | .ok config, .lines text =>
    let rest := converse config (text.toList.splitOn '\n')
    ⟨rest.status, banner :: rest.printed⟩
  | .ok _, .file none => ⟨1, []⟩
  | .ok config, .file (some text) => ⟨0, [inspectFile config text]⟩

end ValueEngine.Inspector
