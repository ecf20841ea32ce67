import Inlay.Watch.Change

/-!
A watcher of a directory: it is started and stopped, and while it runs it hands on the changes of
sources in each batch that arrives. A batch without such changes is passed over, and a receiver
that fails does not stop it. A watch that has ended by itself still counts until it is stopped.
-/

namespace Inlay.Watch

/-- `batches` are those that will still arrive. -/
structure Watcher where
  running : Bool
  batches : List (List Change)
  deriving DecidableEq, Repr

/-- What happens while watching. -/
inductive WatchEvent
  | begun
  | received (changes : List Change)
  deriving DecidableEq, Repr

namespace Watcher

def idle : Watcher := ⟨false, []⟩

/-- Starts a watch in which batches will arrive, unless one runs already. -/
def start (batches : List (List Change)) (watcher : Watcher) : Watcher × List WatchEvent :=
  if watcher.running then (watcher, []) else (⟨true, batches⟩, [.begun])

def stop (_ : Watcher) : Watcher := idle

/-- The next batch arrives, if a watch runs and there is one. -/
def next (watcher : Watcher) : Watcher × List WatchEvent :=
  match watcher.batches with
  | [] => (watcher, [])
  | batch :: rest =>
    let changes := collect batch
    ({ watcher with batches := rest }, if changes.isEmpty then [] else [.received changes])

end Watcher

end Inlay.Watch
