import Inlay.Command.Run
import Inlay.Json.Reader
import Inlay.Tree.Record

/-!
The program. It reads the files that a command line names, runs the command and prints the result.

The tree of a source file is read from the file beside it whose name goes on with `.tree.json`. No
type server is started, so that one gives no answers.
-/

namespace Inlay.Program

open Inlay.Command Inlay.Watch

/-- The file at a path. -/
def readAt (path : String) : IO (Except ReadError Text.Bytes) := do
  let place := (← IO.currentDir) / path
  if ← place.isDir then return .error .directory
  try
    return .ok (← IO.FS.readBinFile place).toList
  catch e =>
    match e with
    | .permissionDenied .. => return .error .forbidden
    | .inappropriateType .. => return .error .notDirectory
    | _ => return .error .absent

/-- The places of all files below a directory, outside ignored directories. -/
partial def filesBelow (directory : String) : IO (List Place) := do
  let place := (← IO.currentDir) / directory
  if !(← place.isDir) then return []
  let mut found := []
  for entry in ← place.readDir do
    if ← entry.path.isDir then
      if !isIgnoredDirectory entry.fileName.toList then
        found := found ++ (← filesBelow entry.path.toString)
    else found := Disk.placeOf entry.path.toString :: found
  return found

/-- The source files below a directory and what they hold. -/
def sourcesBelow (directory : String) : IO (List (Place × Text.Bytes)) := do
  let mut found := []
  for place in ← filesBelow directory do
    let path := Disk.pathOf place
    if Language.isSupported path then
      if let .ok bytes ← readAt path then found := (place, bytes) :: found
  return found

/-- The language, the text and the tree of a source file. -/
def treeAt (path : String) : IO (Option (Language × String × Tree.Node)) := do
  let source ← readAt path
  let records ← readAt (path ++ ".tree.json")
  return do
    let language ← Language.ofPath? path
    let text ← Text.decode? (← source.toOption)
    let written ← Text.decode? (← records.toOption)
    let tree ← Tree.Node.ofJson? (← Json.parse? written.toList)
    return (language, text, tree)

/-- The parser that knows the trees of the files at the given paths. -/
def parserOf (paths : List String) : IO Parser := do
  let known := (← paths.mapM treeAt).filterMap id
  return fun language text =>
    (known.find? fun (other, source, _) => other == language && source == text).map (·.2.2)

/-- A type server on the search path. -/
def serverOnPath : IO (Option String) := do
  for directory in ((← IO.getEnv "PATH").getD "").splitOn ":" do
    let path := directory ++ "/tsserver"
    if (← readAt path).toOption.isSome then return some path
  return none

def surroundings (args sources : List String) : IO Surroundings := do
  let home := (← IO.currentDir).toString
  let contents ← (pathsRead home args).mapM fun path => return (path, ← readAt path)
  let names := [Settings.delayVariable, TypeServer.commandVariable]
  let values ← names.mapM fun name => return (name, ← IO.getEnv name)
  return {
    home
    read := fun path => (contents.lookup path).getD (.error .absent)
    environment := fun name => (values.lookup name).join
    onPath := ← serverOnPath
    parser := ← parserOf sources
    server := fun _ _ _ => none }

/-- How the files differ from what they were. -/
def changesBetween (old new : List (Place × Text.Bytes)) : List Change :=
  let gone := old.filter fun (place, _) => (new.lookup place).isNone
  let other := new.filter fun (place, bytes) => old.lookup place != some bytes
  gone.map (fun (place, _) => ⟨.deleted, Disk.pathOf place⟩) ++
    other.map fun (place, _) =>
      ⟨if (old.lookup place).isSome then .changed else .created, Disk.pathOf place⟩

def tell (news : List News) : IO Unit := do
  for item in news do IO.println item.plain
  (← IO.getStdout).flush

/-- Looks at the directory again and again, and tells of what has changed. -/
partial def watchOn (watching : Watching) (files : List (Place × Text.Bytes)) : IO Unit := do
  IO.sleep 500
  let current ← sourcesBelow watching.directory
  let parser ← parserOf (current.map fun (place, _) => Disk.pathOf place)
  let changes := (changesBetween files current).filter fun change => isWatched change.path
  let watching := { watching with shop := { watching.shop with parser } }
  let watching := files.foldl (fun watching (place, _) => watching.remove place) watching
  let watching := current.foldl (fun watching (place, bytes) => watching.write place bytes) watching
  let (watching, news) := watching.receive changes
  tell news
  watchOn watching current

def describeCrash : Crash → String
  | .settings _ => "Settings of one name are both a value and a section."
  | .undecodable => "The file is not UTF-8."
  | .unsplittable cause => cause.message
  | .logLevel name => "Unknown log level: " ++ name
  | .tooDeep container => (Json.Error.tooDeep container).message

def finish : Report → IO UInt32
  | .printed code text => do
    IO.print text
    return code.toUInt32
  | .refused cause => do
    IO.eprintln cause.message
    return 2
  | .crashed cause => do
    IO.eprintln (describeCrash cause)
    return 1

end Inlay.Program

open Inlay Inlay.Program in
def main (args : List String) : IO UInt32 := do
  let home := (← IO.currentDir).toString
  let named := Command.pathsRead home args
  let files := (← named.mapM sourcesBelow).flatten
  let around ← surroundings args (named ++ files.map fun (place, _) => Disk.pathOf place)
  match Command.run around files args with
  | .ended report => finish report
  | .watching watching news =>
    tell news
    watchOn watching files
    return 0
