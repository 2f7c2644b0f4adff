import TemplateLexer.Cursor

/-!
# Cursors in use

A session holds a cursor and one saved cursor to go back to.  Each step
reports what its operation returned and where the cursor is then.
-/

namespace TemplateLexer

namespace Cursor

structure Session where
  current : Cursor
  saved : Cursor
  deriving DecidableEq, Repr

namespace Session

inductive Step where
  | observe
  | seekAny (markers : List Text)
  | takePast (marker : Text) (includeMarker : Bool)
  | tryTakePast (marker : Text) (includeMarker : Bool)
  | takeRest
  | save
  | restore
  deriving DecidableEq, Repr

inductive Result where
  | nothing
  | passed (text : Text)
  | found (marker before : Text)
  deriving DecidableEq, Repr

structure Report where
  result : Result
  cursor : Cursor
  deriving DecidableEq, Repr

def start (source : Text) : Session :=
  ⟨Cursor.start source, Cursor.start source⟩

def perform (session : Session) : Step → Result × Session
  | .observe => (.nothing, session)
  | .seekAny markers =>
      match session.current.seekAny? markers with
      | none => (.nothing, session)
      | some (marker, before, next) =>
          (.found marker before, { session with current := next })
  | .takePast marker includeMarker =>
      let (text, next) := session.current.takePast marker includeMarker
      (.passed text, { session with current := next })
  | .tryTakePast marker includeMarker =>
      match session.current.takePast? marker includeMarker with
      | none => (.nothing, session)
      | some (text, next) => (.passed text, { session with current := next })
  | .takeRest =>
      let (text, next) := session.current.takeRest
      (.passed text, { session with current := next })
  | .save => (.nothing, { session with saved := session.current })
  | .restore => (.nothing, { session with current := session.saved })

def step (session : Session) (step : Step) : Report × Session :=
  let (result, session) := session.perform step
  (⟨result, session.current⟩, session)

def run (session : Session) : List Step → List Report × Session
  | [] => ([], session)
  | first :: steps =>
      let (report, session) := session.step first
      let (reports, session) := session.run steps
      (report :: reports, session)

end Session

end Cursor

end TemplateLexer
