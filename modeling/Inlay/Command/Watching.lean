import Inlay.Command.Prepare
import Inlay.Render.Markup
import Inlay.Watch.Scan

/-!
The command that keeps the hints of a directory's files up to date while they change.
-/

namespace Inlay.Command

open Inlay.Watch

/-- A directory that is being watched. -/
structure Watching where
  directory : String
  shop : Workshop
  session : Session

/-- What the command tells while it runs. -/
inductive News
  | updated (path : String) (count : Nat)
  | watching (directory : String)
  deriving DecidableEq, Repr

/-- The line for a piece of news, from what stands for its first word and for its path. -/
def News.line (word path : String → String) : News → String
  | .updated file count =>
    word "Updated" ++ " " ++ path file ++ " (" ++ toString count ++ " decorations)"
  | .watching directory => word "Watching" ++ " " ++ path directory ++ " (Ctrl+C to stop)"

/-- The line in plain text. -/
def News.plain : News → String := News.line id id

/-- The line in markup, with its first word in green. -/
def News.markup : News → String :=
  News.line (fun word => "[green]" ++ word ++ "[/green]")
    (fun path => String.ofList (Render.escapeMarkup path.toList))

/-- What reading a file's content gives. -/
def contentOf (bytes : Text.Bytes) : Content :=
  match Text.decode? bytes with
  | some text => .text text
  | none => .failure .unreadable

/-- What a change of a file tells the service. -/
def noticeOf (change : Change) : Notice :=
  match change.kind with
  | .deleted => .deleted change.path
  | .created | .changed => .changed change.path

namespace Watching

/-- Lets all work finish, and tells of every file with new hints. -/
def finish (watching : Watching) : Watching × List News :=
  let (session, effects) := (watching.session.flush watching.shop).takeEffects
  let news := effects.filterMap fun effect =>
    match effect with
    | .changed path => some (News.updated path (session.hints path).length)
    | _ => none
  ({ watching with session }, news)

/-- Tells the service of changes. -/
def notify (watching : Watching) (changes : List Change) : Watching :=
  let tell := fun (session : Session) (change : Change) => session.notify (noticeOf change)
  { watching with session := changes.foldl tell watching.session }

/-- A file is written. -/
def write (watching : Watching) (place : Place) (bytes : Text.Bytes) : Watching :=
  { watching with session := watching.session.write (Disk.pathOf place) (contentOf bytes) }

/-- A file is removed. -/
def remove (watching : Watching) (place : Place) : Watching :=
  { watching with session := watching.session.unlink (Disk.pathOf place) }

/-- Changes arrive from the watcher. -/
def receive (watching : Watching) (changes : List Change) : Watching × List News :=
  (watching.notify (collect changes)).finish

end Watching

/-- Starts to watch a directory, given the files that it holds, and tells the first news. -/
def watch (around : Surroundings) (files : List (Place × Text.Bytes)) (options : WatchOptions) :
    Except Report (Watching × List News) := do
  match around.read options.directory with
  | .ok _ => throw (.refused (.isFile options.directory))
  | .error .directory =>
    let configuration ← loadConfiguration around options.config
    let oracle ← chooseOracle around options.oracle options.directory
    let contents := files.map fun (place, bytes) => (Disk.pathOf place, contentOf bytes)
    let watching : Watching :=
      { directory := String.ofList (Path.tidy options.directory.toList)
        shop := workshop around configuration oracle true
        session := (Session.initial contents).enter }
    let place := Disk.placeOf (around.resolve options.directory)
    let found := if options.initial then scan place (files.map (·.1)) else []
    let (watching, news) := (watching.notify (found.map fun path => ⟨.created, path⟩)).finish
    return (watching, news ++ [.watching watching.directory])
  | .error _ => throw (.refused (.noSuchFile options.directory))

end Inlay.Command
