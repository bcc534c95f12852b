import TypeRecords.Target
import TypeRecords.Text.Blank

/-!
The machine that builds, and the targets it can build for.

Owns the host systems, the targets enabled on a host, and the selection of a target by a request:
no request and the request `host` both select the host itself.
-/

namespace TypeRecords

/-- Operating systems of a host. -/
inductive HostSystem where
  | osx
  | linux
  | windows
deriving DecidableEq, Repr

namespace HostSystem

/-- The system under the name a running program knows it by. -/
def ofRuntimeName : String → Except TargetError HostSystem
  | "macos" => .ok .osx
  | "linux" => .ok .linux
  | "windows" => .ok .windows
  | other => .error (.unknownOperatingSystem other)

def name : HostSystem → String
  | .osx => "osx"
  | .linux => "linux"
  | .windows => "windows"

/-- The name, with the common name for the first. -/
def simpleName : HostSystem → String
  | .osx => "macos"
  | other => other.name

/-- The target that is the host itself. -/
def target : HostSystem → Target
  | .osx => .macbook
  | .linux => .linux
  | .windows => .mingw

end HostSystem

/-- The hardware platform under any of its usual names. -/
def hardwarePlatform : String → Except TargetError String
  | "x86_64" | "amd64" => .ok "x86_64"
  | "aarch64" | "arm64" => .ok "arm64"
  | other => .error (.unknownHardwarePlatform other)

namespace Target

/-- The full system name of a host. -/
def systemName : Target → Except TargetError String
  | .macbook => .ok "darwin-macos"
  | .linux => .ok "linux-x86-64"
  | .mingw => .ok "windows-x86-64"
  | other => .error (.unsupportedHost other)

/-- The directory of a host's native-interface headers. -/
def nativeHeaderDirectory : Target → Except TargetError String
  | .macbook => .ok "darwin"
  | .linux => .ok "linux"
  | .mingw => .ok "win32"
  | other => .error (.unsupportedHost other)

/-- The targets a host can build for. -/
def enabledOn : Target → Except TargetError (List Target)
  | .linux =>
    .ok ([.linux, .raspberryPi, .linuxMips32, .linuxMipsel32, .androidArm32, .androidArm64,
      .wasm32] ++ boards)
  | .mingw => .ok [.mingw]
  | .macbook =>
    .ok ([.macbook, .iphone, .iphoneSim, .androidArm32, .androidArm64, .wasm32] ++ boards)
  | other => .error (.unsupportedHost other)

end Target

/-- A target selected on a host. -/
structure TargetSelection where
  host : Target
  target : Target
deriving DecidableEq, Repr

namespace TargetSelection

/-- The request as it selects a target: `host` asks for nothing else than no request. -/
def normalizeRequest : Option String → Option String
  | some "host" => none
  | request => request

/-- Selects the requested target, or the host where nothing is requested. -/
def choose (host : Target) (request : Option String) : Except TargetError TargetSelection :=
  match normalizeRequest request with
  | none => .ok ⟨host, host⟩
  | some name => (Target.find name).map fun target => ⟨host, target⟩

/-- The suffix of products for the target. -/
def targetSuffix (selection : TargetSelection) : String := selection.target.detailedName

/-- The suffix of products that depend on the host as well. -/
def hostTargetSuffix (selection : TargetSelection) : String :=
  if selection.target = selection.host then selection.host.detailedName
  else selection.host.detailedName ++ "-" ++ selection.target.detailedName

/-- Whether the host can build for a target. -/
def isEnabled (selection : TargetSelection) (target : Target) : Bool :=
  match selection.host.enabledOn with
  | .ok enabled => enabled.contains target
  | .error _ => false

/-- The line of a target in the list: its name, and a mark if it is the selected one. -/
def listLine (selection : TargetSelection) (target : Target) : String :=
  let mark := if target = selection.target then "(default)" else ""
  let line := Text.padRight 30 (target.name ++ ":") ++ Text.padRight 10 mark
  String.ofList (Text.trimRight line.toList)

/-- One line for every target the host can build for. -/
def list (selection : TargetSelection) : Except TargetError (List String) :=
  selection.host.enabledOn.map (List.map selection.listLine)

end TargetSelection

end TypeRecords
