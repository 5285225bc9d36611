import TenantSizing.CommandLine

open TenantSizing

def readRulesFile (path : String) : IO RulesFile := do
  try
    let content ← IO.FS.readBinFile path
    pure (.bytes content.toList)
  catch _ => pure .missing

/-- There is no transport to a cluster, so beyond checking its arguments and its rules file the
program can only say that there is no cluster. -/
def main (arguments : List String) : IO UInt32 := do
  let file ← match CommandLine.read arguments with
    | .ok { rulesFile := some path, .. } => readRulesFile path
    | _ => pure .missing
  let surroundings : Surroundings :=
    { fileAt := fun _ => file
      configFault := some "no transport to a cluster"
      runEnd := .returned }
  let report := Launch.run surroundings arguments
  for notice in report.notices do
    IO.eprintln (notice.level.word ++ " - " ++ notice.text)
  match report.outcome with
  | .ok launch => pure ((launch.exitCode.getD 0).toUInt32)
  | .error _ => pure 1
