import SlotBroker.Settings.Load

/-!
# The command line

Loads the settings as the server would, and tells where it would listen and what it would serve, or
what is wrong. The path of the settings comes after `--config`, or from the environment.
-/

open SlotBroker

namespace SlotBroker.Main

/-- What stands after an option among the arguments. -/
def optionValue (option : String) : List String → Option String
  | [] => none
  | a :: rest => if a = option then rest.head? else optionValue option rest

/-- The text of the file at a path. -/
def textOf (path : String) : IO (Except FileFault String) := do
  try
    return fileText (some (← IO.FS.readBinFile path).toList)
  catch _ =>
    return fileText none

/-- The settings of the file at a path, with the key of the environment or of the key file. -/
def settingsAt (path : String) : IO (Except SettingsFault Settings) := do
  let file ← textOf path
  let environment ← IO.getEnv "BROKER_MASTER_KEY"
  let keyPath := (file.toOption.bind Draft.ofText?).bind (·.broker.masterKeyFile)
  let key ← match keyPath with
    | some p => textOf p
    | none => pure (fileText none)
  return Settings.load Draft.ofText? file environment fun _ => key

end SlotBroker.Main

/-- Tells where the server would listen, or what is wrong with its settings. -/
def main (args : List String) : IO UInt32 := do
  let path := Settings.resolvePath (Main.optionValue "--config" args) (← IO.getEnv "CONFIG_PATH")
  match ← Main.settingsAt path with
  | .error fault =>
    IO.eprintln ("failed to load config from " ++ path ++ ": " ++ fault.message)
    return 1
  | .ok settings =>
    IO.println ("sessions at " ++ settings.server.listenAddress.text)
    IO.println ("administration at " ++ settings.server.adminListenAddress.text)
    for service in settings.services do
      IO.println (service.id ++ ": " ++ service.name)
    return 0
