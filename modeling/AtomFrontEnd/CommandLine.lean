import AtomFrontEnd.Report.Console

/-!
The command line: which file to check and how to report on it.

`CommandLine.output` is the whole program but for the reading and writing: it
takes the bytes of the file, or the reason why there are none, and says what is
written where and with which status the program ends.
-/

namespace AtomFrontEnd

/-- When the output is coloured. -/
inductive ColorChoice where
  /-- If it goes to a terminal. -/
  | auto
  | always
  | never
  deriving DecidableEq, Repr

namespace ColorChoice

def ofName? : String → Option ColorChoice
  | "auto" => some .auto
  | "always" => some .always
  | "never" => some .never
  | _ => none

/-- Whether to paint, given whether the output goes to a terminal. -/
def paints (choice : ColorChoice) (terminal : Bool) : Bool :=
  match choice with
  | auto => terminal
  | always => true
  | never => false

end ColorChoice

/-- Why a file cannot be read as text. -/
inductive ReadFailure where
  | notFound
  | isDirectory
  | notText
  /-- Anything else the system says. -/
  | other (reason : String)
  deriving DecidableEq, Repr

def ReadFailure.message : ReadFailure → String
  | notFound => "No such file or directory (os error 2)"
  | isDirectory => "Is a directory (os error 21)"
  | notText => "stream did not contain valid UTF-8"
  | other reason => reason

/-- What the command line asks for. -/
structure CommandLine where
  /-- The file to check. -/
  file : String := "0.c"
  /-- Whether the tokens are left out. -/
  quiet : Bool := false
  /-- Whether `struct` with a name is a type like any other. -/
  structTypes : Bool := false
  color : ColorChoice := .auto
  deriving DecidableEq, Repr

namespace CommandLine

/-- Reads the arguments; a file is any argument that is not an option, and may be
given once. -/
def ofArguments? : List String → Option CommandLine
  | arguments => go arguments none {}
where
  /-- Goes through the arguments, with the file if it has been seen. -/
  go : List String → Option String → CommandLine → Option CommandLine
    | [], file, line => some { line with file := file.getD line.file }
    | "-q" :: rest, file, line => go rest file { line with quiet := true }
    | "--quiet" :: rest, file, line => go rest file { line with quiet := true }
    | "--accept-struct-types" :: rest, file, line =>
      go rest file { line with structTypes := true }
    | ["--color"], _, _ => none
    | "--color" :: name :: rest, file, line =>
      match ColorChoice.ofName? name with
      | some color => go rest file { line with color }
      | none => none
    | "--color=auto" :: rest, file, line => go rest file { line with color := .auto }
    | "--color=always" :: rest, file, line => go rest file { line with color := .always }
    | "--color=never" :: rest, file, line => go rest file { line with color := .never }
    | argument :: rest, none, line =>
      if argument.startsWith "-" then none else go rest (some argument) line
    | _ :: _, some _, _ => none

/-- What the program writes about a file that cannot be read. -/
def failureOutput (line : CommandLine) (failure : ReadFailure) : Output :=
  { stdout := ""
    stderr := "Error reading file '" ++ line.file ++ "': " ++ failure.message ++ "\n"
    status := 1 }

/-- What the program writes, given the content of the file. -/
def output (line : CommandLine) (terminal : Bool) (content : Except ReadFailure ByteArray) :
    Output :=
  match content with
  | .error failure => line.failureOutput failure
  | .ok bytes =>
    match String.fromUTF8? bytes with
    | none => line.failureOutput .notText
    | some source =>
      (checkSource source line.structTypes).output line.quiet (line.color.paints terminal)

end CommandLine

end AtomFrontEnd
