import ChainGateway.Cli.Run
import ChainGateway.Http.Connection

open ChainGateway

def readSettings (file : String) : IO Settings.Read := do
  try
    let bytes ← IO.FS.readBinFile file
    match Text.ofUtf8? bytes.toList with
    | some text => return .ok text
    | none => return .error "stream did not contain valid UTF-8"
  catch
    | .noFileOrDirectory .. => return .error "No such file or directory (os error 2)"
    | .permissionDenied .. => return .error "Permission denied (os error 13)"
    | .inappropriateType .. => return .error "Is a directory (os error 21)"
    | e => return .error (toString e)

def settingVariables : IO (List (String × String)) :=
  Setting.all.filterMapM fun s => do
    match s.environmentName with
    | none => return none
    | some name => return (← IO.getEnv name).map (name, ·)

def conclude (o : Cli.Outcome) : IO UInt32 := do
  IO.print o.output
  IO.eprint (o.complaint fun _ => "no configuration")
  return o.status.toUInt32

def main (args : List String) : IO UInt32 := do
  let given ← settingVariables
  match Cli.Launch.ofArguments args (given.lookup ·) with
  | .error stop => conclude stop.outcome
  | .ok l =>
    let file : Settings.Read ← match l.overrides.file with
      | some file => readSettings file
      | none => pure (.ok "")
    conclude (← (l.run fun _ => file).perform)
