import UtilityCss.Files.Change
import UtilityCss.Project.Session
import UtilityCss.Project.Watcher

/-! Watch mode: a session that is told of every change the watcher finds. -/
namespace UtilityCss.Project

/-- A session, the watcher that serves it, and the files of both. -/
structure Watch where
  tree : FileTree
  session : Session
  watcher : Watcher

/-- What happens between two polls. -/
inductive Event
  | change (c : Change)
  | interrupt

namespace Watch

/-- Starts a session and watches the files of its style sheet and its directories. -/
def start (tree : FileTree) (options : Options) : FileTree × Except Fault Watch :=
  match Session.start tree options with
  | (tree, .error fault) => (tree, .error fault)
  | (tree, .ok session) =>
    match Watcher.start tree session.build.sheet.files options.directories with
    | .error fault => (tree, .error (.file fault))
    | .ok watcher => (tree, .ok ⟨tree, session, watcher⟩)

/-- Tells the session of one path. A build may have brought in new files, which are watched from
then on. -/
def tell (w : Watch) (path : String) : Watch × Option Fault :=
  match w.session.handleChange w.tree path with
  | ⟨tree, session, .error fault⟩ => ({ w with tree, session }, some fault)
  | ⟨tree, session, .ok false⟩ => ({ w with tree, session }, none)
  | ⟨tree, session, .ok true⟩ =>
    let (watcher, fault) := w.watcher.addFiles tree session.build.sheet.files
    (⟨tree, session, watcher⟩, fault.map .file)

/-- Tells the session of some paths up to the first fault. -/
def tellAll (w : Watch) : List String → Watch × Option Fault
  | [] => (w, none)
  | path :: rest =>
    match w.tell path with
    | (w, none) => w.tellAll rest
    | failed => failed

/-- Polls once and tells the session of every changed path. -/
def poll (w : Watch) : Watch × Option Fault :=
  match w.watcher.poll w.tree with
  | .error fault => (w, some (.file fault))
  | .ok (watcher, changed) => { w with watcher }.tellAll changed

/-- How the time between two polls ends. -/
inductive Pause
  | over
  | interrupted
  | failed (fault : FileFault)

/-- Lets the events of a pause happen. -/
def pause (tree : FileTree) : List Event → FileTree × Pause
  | [] => (tree, .over)
  | .interrupt :: _ => (tree, .interrupted)
  | .change c :: rest =>
    match tree.change c with
    | (changed, none) => pause changed rest
    | (changed, some fault) => (changed, .failed fault)

/-- The text of the output file, if it can be read. -/
def output? (w : Watch) : Option String := w.tree.text? w.session.outfile

/-- The course of a watch: the files before every pause, and how it ended. -/
structure Course where
  trees : List FileTree
  last : Watch
  fault : Option Fault := none

/-- Watches through some pauses, at most `limit` of them if there is a limit, until an interrupt;
when the pauses are used up, the next one is an interrupt. -/
def run (w : Watch) (limit : Option Nat) : List (List Event) → Course
  | [] => if limit = some 0 then ⟨[], w, none⟩ else ⟨[w.tree], w, none⟩
  | events :: rest =>
    if limit = some 0 then ⟨[], w, none⟩
    else
      match pause w.tree events with
      | (tree, .interrupted) => ⟨[w.tree], { w with tree }, none⟩
      | (tree, .failed fault) => ⟨[w.tree], { w with tree }, some (.file fault)⟩
      | (tree, .over) =>
        match { w with tree }.poll with
        | (next, some fault) => ⟨[w.tree], next, some fault⟩
        | (next, none) =>
          let course := next.run (limit.map (· - 1)) rest
          { course with trees := w.tree :: course.trees }

end Watch

end UtilityCss.Project
