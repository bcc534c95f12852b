import TypeRecords.Diagnostic

/-!
The machines code is generated for.

Owns the targets with their names, families and architectures, the table of known targets, and the
facts about a target that decide the shape of type records.
-/

namespace TypeRecords

/-- Groups of targets that share an operating system. -/
inductive Family where
  | osx
  | ios
  | linux
  | windows
  | android
  | wasm
  | zephyr
deriving DecidableEq, Repr

namespace Family

/-- The extension of a program. -/
def programExtension : Family → String
  | .osx | .ios | .linux => "kexe"
  | .windows => "exe"
  | .android => "so"
  | .wasm => "wasm"
  | .zephyr => "o"

/-- What the name of a dynamic library starts with. -/
def dynamicPrefix : Family → String
  | .windows | .wasm => ""
  | _ => "lib"

/-- The extension of a dynamic library. -/
def dynamicExtension : Family → String
  | .osx | .ios => "dylib"
  | .linux | .android => "so"
  | .windows => "dll"
  | .wasm => "wasm"
  | .zephyr => "a"

end Family

/-- Instruction sets. -/
inductive Architecture where
  | x64
  | arm64
  | arm32
  | mips32
  | mipsel32
  | wasm32
deriving DecidableEq, Repr

/-- The width of an address in bits. -/
def Architecture.bitness : Architecture → Nat
  | .x64 | .arm64 => 64
  | .arm32 | .mips32 | .mipsel32 | .wasm32 => 32

/-- A machine code is generated for. -/
inductive Target where
  | androidArm32
  | androidArm64
  | iphone
  | iphoneSim
  | linux
  | mingw
  | macbook
  | raspberryPi
  | linuxMips32
  | linuxMipsel32
  | wasm32
  /-- An embedded board under the generic name of its system. -/
  | zephyr (board genericName : String)
deriving DecidableEq, Repr

namespace Target

/-- A board under the usual generic name. -/
def ofBoard (board : String) : Target := .zephyr board "zephyr"

/-- The name by which the target is requested. -/
def name : Target → String
  | .androidArm32 => "android_arm32"
  | .androidArm64 => "android_arm64"
  | .iphone => "iphone"
  | .iphoneSim => "iphone_sim"
  | .linux => "linux"
  | .mingw => "mingw"
  | .macbook => "macbook"
  | .raspberryPi => "raspberrypi"
  | .linuxMips32 => "linux_mips32"
  | .linuxMipsel32 => "linux_mipsel32"
  | .wasm32 => "wasm32"
  | .zephyr board genericName => genericName ++ "_" ++ board

/-- The name used in the suffixes of build products. -/
def detailedName : Target → String
  | .iphone => "ios"
  | .iphoneSim => "ios_sim"
  | .macbook => "osx"
  | other => other.name

def family : Target → Family
  | .androidArm32 | .androidArm64 => .android
  | .iphone | .iphoneSim => .ios
  | .linux | .raspberryPi | .linuxMips32 | .linuxMipsel32 => .linux
  | .mingw => .windows
  | .macbook => .osx
  | .wasm32 => .wasm
  | .zephyr .. => .zephyr

def architecture : Target → Architecture
  | .androidArm32 | .raspberryPi | .zephyr .. => .arm32
  | .androidArm64 | .iphone => .arm64
  | .iphoneSim | .linux | .mingw | .macbook => .x64
  | .linuxMips32 => .mips32
  | .linuxMipsel32 => .mipsel32
  | .wasm32 => .wasm32

/-! ## The table of known targets -/

/-- The boards of the embedded family. -/
def boards : List Target := [ofBoard "stm32f4-disco"]

/-- The targets that are no boards. -/
def predefined : List Target :=
  [.androidArm32, .androidArm64, .iphone, .iphoneSim, .linux, .mingw, .macbook, .raspberryPi,
    .linuxMips32, .linuxMipsel32, .wasm32]

/-- All targets that can be requested by name. -/
def known : List Target := predefined ++ boards

/-! ## Facts that decide the shape of type records -/

/-- The size of an address in bytes. -/
def pointerSize (target : Target) : Nat := target.architecture.bitness / 8

/-- The size of the header in front of the fields of a heap object. -/
def headerSize (target : Target) : Nat := target.pointerSize

/-- Whether a type record points to a mutable extension record. -/
def hasExtensionRecords (target : Target) : Bool :=
  target.family = .osx || target.family = .ios

/-- Whether the linker drops symbols that nothing in the image refers to. -/
def stripsUnreferencedSymbols (target : Target) : Bool := target.family = .wasm

end Target

/-- Why a target or a host cannot be used. -/
inductive TargetError where
  | unknownTarget (name : String)
  | unknownOperatingSystem (name : String)
  | unknownHardwarePlatform (name : String)
  | unsupportedHost (host : Target)
deriving DecidableEq, Repr

/-- What is said about a target error. -/
def TargetError.diagnostic : TargetError → Diagnostic
  | .unknownTarget name =>
    .plain ("Unknown target: " ++ name)
      ["use --list-targets to see the list of available targets"]
  | .unknownOperatingSystem name => .plain ("Unknown operating system: " ++ name) []
  | .unknownHardwarePlatform name => .plain ("Unknown hardware platform: " ++ name) []
  | .unsupportedHost host => .plain ("Unknown host: " ++ host.name) []

/-- The known target of that name. -/
def Target.find (name : String) : Except TargetError Target :=
  match Target.known.find? fun target => target.name = name with
  | some target => .ok target
  | none => .error (.unknownTarget name)

end TypeRecords
