import Lamplighter.Command.Run

/-! The program: two files in, a drawing of the floor or a report out. -/

namespace Lamplighter.Command

def usage : String :=
  "usage: lamplighter [-h] [-source] [-verbose] [--traceback-json] map program"

def ReadError.ofIO : IO.Error → ReadError
  | .noFileOrDirectory _ _ _ => .notFound
  | .permissionDenied _ _ _ => .denied
  | .inappropriateType _ code _ => if code = 21 then .isDirectory else .notDirectory
  | .invalidArgument _ _ _ => .nameTooLong
  | _ => .device

def readFile (name : String) : IO (Except ReadError ByteArray) := do
  try
    return .ok (← IO.FS.readBinFile name)
  catch error =>
    return .error (.ofIO error)

/-- Reads the map, then the program unless it stands on the command line. -/
def gather (options : Options) : IO Files := do
  let map ← readFile options.map
  let program ←
    match options.literal, options.program with
    | false, some name => readFile name
    | _, _ => pure map
  return fun name => if name = options.map then map else program

end Lamplighter.Command

open Lamplighter.Command in
def main (arguments : List String) : IO UInt32 := do
  match Options.parse arguments with
  | .error .help =>
    IO.println usage
    return 0
  | .error .invalid =>
    IO.eprintln usage
    return 2
  | .ok options =>
    let report := options.run (← gather options)
    IO.print report.out
    IO.eprint report.err
    match report.ending with
    | .exit code => return code.toUInt32
    | .raised kind message =>
      IO.eprintln (message.elim kind fun text => kind ++ ": " ++ text)
      return 1
