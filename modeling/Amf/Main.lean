import Amf.Config

/-!
# Command line

Reads the configuration file of an AMF and says what the AMF would serve. The file is named by
`--config` or `-c`; without one it is `/etc/amf/amf.yaml`. A file that cannot be read stands for
the defaults.
-/

namespace Amf
namespace CommandLine

/-- The configuration file that is read when none is named. -/
def defaultPath : String := "/etc/amf/amf.yaml"

/-- The configuration file that the arguments name. -/
def configPath : List String → String
  | "--config" :: path :: _ => path
  | "-c" :: path :: _ => path
  | _ :: rest => configPath rest
  | [] => defaultPath

/-- What an AMF of a configuration serves. -/
def summary (c : Config) : String :=
  "SBI " ++ c.origin.baseUri ++ ", " ++ toString c.guamis.length ++ " GUAMI, max " ++
    toString c.maxUes.toNat ++ " UEs"

/-- The text of a file, if it can be read. -/
def readText? (path : String) : IO (Option String) :=
  try return some (← IO.FS.readFile path) catch _ => return none

end CommandLine
end Amf

/-- Prints what the configured AMF serves, or why its configuration is none. -/
def main (args : List String) : IO UInt32 := do
  match Amf.Config.load (← Amf.CommandLine.readText? (Amf.CommandLine.configPath args)) with
  | .ok config =>
    IO.println (Amf.CommandLine.summary config)
    return 0
  | .error e =>
    IO.eprintln e.message
    return 1
