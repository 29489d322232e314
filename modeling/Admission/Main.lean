import Admission.Command.Report

/-!
# The command line

Looks files up, draws a key, carries out the command, and prints its report.
-/

namespace Admission.Main

/-- The number of a system's error; some calls give it with a minus sign. -/
def errorNumber (code : UInt32) : UInt32 :=
  if code < 0x80000000 then code else 0 - code

/-- What is at the place of a file. What is there but cannot be read is taken for a directory. -/
def look (name : String) : IO Source := do
  try
    let bytes ← IO.FS.readBinFile name
    pure (.file bytes.toList)
  catch fault =>
    match fault with
    | .noFileOrDirectory .. => pure (.absent .missing)
    | .inappropriateType _ code _ =>
      pure (if errorNumber code = 20 then .absent .blocked else .directory)
    | .invalidArgument _ code _ =>
      pure (if errorNumber code = 36 then .absent .nameTooLong else .directory)
    | _ => pure .directory

/-- The files that a command reads. -/
def filesOf : Command → List String
  | .keygen => []
  | .payload file _ => [file]
  | .sign _ file _ => [file]
  | .verify config file => [config, file]

/-- Looks up the files of a command. -/
def lookAll (names : List String) : IO Command.Files := do
  let found ← names.mapM fun name => return (name, ← look name)
  pure fun name => (found.lookup name).getD (.absent .missing)

/-- Draws bytes until they write a secret key; nearly all do. -/
partial def drawKey : IO SecretKey := do
  let bytes ← IO.getRandomBytes 32
  match SecretKey.ofBytes bytes.toList with
  | .ok key => pure key
  | .error _ => drawKey

/-- What the program can be asked for. -/
def usage : String :=
  "keygen | payload --tx FILE | sign --secret-key HEX --tx FILE | verify --tx FILE"

/-- Prints a report and gives its code. -/
def print (report : Report) : IO UInt32 := do
  if let some warning := report.warning then IO.eprintln s!"warning: {warning}"
  IO.print report.output
  if let some failure := report.failure then IO.eprintln s!"Error: {failure.shown}"
  if report.code = 2 then IO.eprintln s!"usage: {usage}"
  pure (UInt32.ofNat report.code)

end Admission.Main

/-- Carries out what the arguments ask for. -/
def main (arguments : List String) : IO UInt32 := do
  match Admission.Command.ofArguments? arguments with
  | none => Admission.Main.print .misused
  | some command =>
    let files ← Admission.Main.lookAll (Admission.Main.filesOf command)
    let key ← Admission.Main.drawKey
    Admission.Main.print (command.report key files)
