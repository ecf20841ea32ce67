import Inlay.Command.Annotate
import Inlay.Command.Watching

/-!
A whole command line.
-/

namespace Inlay.Command

/-- What a command line leads to: an end, or a directory to watch. -/
inductive Course
  | ended (report : Report)
  | watching (watching : Watching) (news : List News)

def usage : String :=
  "Usage: inlay [--log-level LEVEL] COMMAND\n\n" ++
  "  annotate PATH [-c FILE] [--oracle local|tsserver] [--theme light|dark] [--list]\n" ++
  "    Print a file with its inferred types shown inline.\n" ++
  "  watch DIRECTORY [-c FILE] [--oracle local|tsserver] [--no-initial]\n" ++
  "    Keep decorations up to date while files in a directory change.\n"

/-- The paths that a command line asks to be read, for a program that runs in a directory. -/
def pathsRead (home : String) (args : List String) : List String :=
  match parseOpening args with
  | .ok (.run opening) =>
    match opening.command with
    | .annotate =>
      match parseAnnotate opening.rest with
      | .ok (.run options) => paths options.path options.config home
      | _ => []
    | .watch =>
      match parseWatch opening.rest with
      | .ok (.run options) => paths options.directory options.config options.directory
      | _ => []
  | _ => []
where
  paths (given : String) (config : Option String) (root : String) : List String :=
    given :: Disk.within root TypeServer.installedAt ::
      (config.map fun path => String.ofList (Path.tidy path.toList)).toList

/-- Runs the command of an opening. -/
def runCommand (around : Surroundings) (files : List (Place × Text.Bytes)) (opening : Opening) :
    Course :=
  match opening.command with
  | .annotate =>
    match parseAnnotate opening.rest with
    | .error e => .ended (.refused e)
    | .ok .help => .ended (.printed 0 usage)
    | .ok (.run options) => .ended (annotate around options)
  | .watch =>
    match parseWatch opening.rest with
    | .error e => .ended (.refused e)
    | .ok .help => .ended (.printed 0 usage)
    | .ok (.run options) =>
      match watch around files options with
      | .error report => .ended report
      | .ok (watching, news) => .watching watching news

/-- Runs a command line. An unknown log level counts before the command's own words. -/
def run (around : Surroundings) (files : List (Place × Text.Bytes)) (args : List String) : Course :=
  match parseOpening args with
  | .error e => .ended (.refused e)
  | .ok .help => .ended (.printed 0 usage)
  | .ok (.run opening) =>
    if isLogLevel opening.logLevel then runCommand around files opening
    else .ended (.crashed (.logLevel opening.logLevel.toUpper))

end Inlay.Command
