import FormRules.CommandLine.Report

/-!
# The program

The outermost layer: it looks at the files that the arguments ask for, hands them to the pure program
as a view, and prints its report. In place of the help, whose wording is left out, it says that there is
none.
-/

namespace FormRules

/-- The cause of an error of the system. -/
def accessFaultOf : IO.Error → AccessFault
  | .noFileOrDirectory .. => .notFound
  | .inappropriateType _ 20 _ => .notDirectory
  | .inappropriateType _ 21 _ => .isDirectory
  | .resourceExhausted _ 36 _ => .nameTooLong
  | .invalidArgument _ 36 _ => .nameTooLong
  | .permissionDenied _ 13 _ => .notPermitted
  | e => .other e.toString.toList

/-- What a path leads to on the disk. It leads to something if it can be resolved, and only then. -/
def lookUp (path : Text) : IO (Except AccessFault FileEntry) := do
  match ← EIO.toBaseIO (IO.FS.realPath (String.ofList path)) with
  | .error e => return .error (accessFaultOf e)
  | .ok _ =>
    match ← EIO.toBaseIO (IO.FS.readBinFile (String.ofList path)) with
    | .ok bytes => return .ok (.file bytes)
    | .error e =>
      match accessFaultOf e with
      | .isDirectory => return .ok .directory
      | fault => return .ok (.unreadable fault)

/-- The view of some paths on the disk. -/
def viewOf (paths : List Text) : IO FileView := do
  let found ← paths.mapM fun path => return (path, ← lookUp path)
  return fun path => (found.lookup path).getD (.error .notFound)

/-- Whether output is coloured: on a terminal, or if the environment asks for it. -/
def wantsColour : IO Bool := do
  match ← IO.getEnv "CLICOLOR_FORCE" with
  | some s => if s ≠ "0" then return true
  | none => pure ()
  (← IO.getStdout).isTty

end FormRules

open FormRules in
/-- Runs the program on the arguments. -/
def main (arguments : List String) : IO UInt32 := do
  let request := CommandLine.Request.of (arguments.map String.toList)
  let report := request.report (← viewOf request.paths) (← wantsColour)
  IO.print (String.ofList report.output)
  match report.errorLine with
  | some t => IO.eprintln (String.ofList t)
  | none => if report.code = 2 then IO.eprintln "error: the arguments do not fit"
  if report.printsHelp then IO.eprintln "no help is kept"
  return report.code.toUInt32
