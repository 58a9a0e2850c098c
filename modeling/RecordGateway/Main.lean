import RecordGateway.CommandLine

/-! The command line of the program: reads the file that is named, prints, and ends. -/

namespace RecordGateway

/-- A file as it is found. -/
def findFile (path : String) : IO CommandLine.Found := do
  try
    return .ok (← IO.FS.readBinFile path).toList
  catch reason =>
    return .error reason.toString

end RecordGateway

def main (arguments : List String) : IO UInt32 := do
  match ← RecordGateway.CommandLine.run RecordGateway.findFile arguments with
  | some (.ok text) =>
    IO.print text
    return 0
  | some (.error fault) =>
    IO.eprintln (RecordGateway.CommandLine.listFault fault).compact
    return fault.kind.exitStatus.toUInt32
  | none => return RecordGateway.CommandLine.brokenStatus.toUInt32
