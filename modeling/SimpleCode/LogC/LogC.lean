import SimpleCode.Foundations.CString

set_option autoImplicit false

namespace SimpleCode.LogC

open Foundations CString

def errorCodeBase : ℤ := 100
def moduleListSize : ℕ := 32
def outputFlagDateTime : ℕ := 3
def outputFlagMachineInfo : ℕ := 2
def outputFlagVersion : ℕ := 15
def outputFlagModuleName : ℕ := 1

def monthStr : List Bytes :=
  ["Reserved", "Jan", "Feb", "Mar", "Apr", "May", "Jun", "Jul", "Aug", "Sep", "Oct", "Nov", "Dec",
    "Undefined"].map bytes

def weekStr : List Bytes :=
  ["Sun.", "Mon.", "Tues.", "Wed.", "Thur.", "Fri.", "Sat.", "Undefined"].map bytes

inductive LogLevel
  | assert | fatal | error | warning | info | verbose | debug | undefined
deriving DecidableEq

def LogLevel.toInt : LogLevel → ℤ
  | assert => 0 | fatal => 1 | error => 2 | warning => 3
  | info => 4 | verbose => 5 | debug => 6 | undefined => 7

def textLogLevel : LogLevel → Bytes
  | .assert => bytes "Assert" | .fatal => bytes "Fatal!" | .error => bytes "Error!"
  | .warning => bytes "Warning" | .info => bytes "Info" | .verbose => bytes "Verbose"
  | .debug => bytes "Debug" | .undefined => bytes "Undefined"

structure DateTime where
  year : UInt16
  month : Fin 13
  dayOfWeek : Fin 7
  day : Fin 32
  hour : Fin 24
  minute : Fin 60
  second : Fin 61
  uSecond : Fin 1000000

structure Version where
  major : ℤ
  minor : ℤ
  buildVersion : ℤ

structure Machine where
  mac : Option (List UInt8)
  ip : Option (UInt8 × UInt8 × UInt8 × UInt8)
  hostName : CString

structure ModuleInfo where
  name : Bytes
  version : Bytes
  logType : ℤ

abbrev ModuleList := List ModuleInfo

def ModuleInfo.zero : ModuleInfo := ⟨List.replicate 12 0, List.replicate 8 0, 0⟩

def entry (modules : ModuleList) (module : ℕ) : ModuleInfo := modules.getD module .zero

def registerModule (modules : ModuleList) (name version : CString) (logType : ℤ) :
    ℤ × ModuleList :=
  if moduleListSize ≤ modules.length then (-1, modules)
  else (modules.length, modules ++ [⟨name.strncpy 12, version.strncpy 8, logType⟩])

def getCurrentTime (dt : DateTime) (flag : ℕ) : Except Fault Bytes := do
  let mut buf := []
  if flag = 0 then return buf
  if flag.testBit 0 then
    buf ← sprintf 48 buf 0 (bytes "[" ++ monthStr.getD dt.month [] ++ bytes "-" ++
      printPadded 2 dt.day ++ bytes "-" ++ printPadded 4 dt.year.toNat ++ bytes ", " ++
      weekStr.getD dt.dayOfWeek [] ++ bytes "]")
  if flag.testBit 1 then
    buf ← sprintf 48 buf buf.length (bytes "[" ++ printPadded 2 dt.hour ++ bytes ":" ++
      printPadded 2 dt.minute ++ bytes ":" ++ printPadded 2 dt.second ++ bytes "." ++
      printPadded 3 (dt.uSecond / 1000) ++ bytes "] ")
  return buf

def printHex (byte : UInt8) : Bytes :=
  let digit (n : ℕ) : UInt8 := UInt8.ofNat (Nat.digitChar n).toNat
  [digit (byte.toNat / 16), digit (byte.toNat % 16)]

def inetNtoa (ip : UInt8 × UInt8 × UInt8 × UInt8) : Bytes :=
  printInt ip.1.toNat ++ bytes "." ++ printInt ip.2.1.toNat ++ bytes "." ++
    printInt ip.2.2.1.toNat ++ bytes "." ++ printInt ip.2.2.2.toNat

-- `gethostname` fills `hostName[32]`, and leaves out the terminator of a longer name
def getMachineInfo (machine : Machine) (flag : ℕ) : Except Fault Bytes := do
  if flag = 0 then return []
  match machine.mac, machine.ip with
  | some mac, some ip =>
    let hostName ← read (machine.hostName.strncpy 32)
    let mut buf ← sprintf 64 [] 0 (bytes "[" ++ hostName ++ bytes "]")
    if flag.testBit 0 then
      buf ← sprintf 64 buf buf.length
        (bytes "[" ++ List.intercalate (bytes ":") (mac.map printHex) ++ bytes "] ")
    if flag.testBit 1 then
      buf ← sprintf 64 buf (buf.length - 1) (bytes "[" ++ inetNtoa ip ++ bytes "] ")
    return buf
  | _, _ => return []

-- a version without a build number is printed as 0.0.0
def Version.printed (version : Version) : Version :=
  if version.buildVersion = 0 then ⟨0, 0, 0⟩ else version

def getVersion (modules : ModuleList) (gVersion : Version) (module flag : ℕ) :
    Except Fault Bytes := do
  if flag = 0 ∨ flag = 5 ∨ flag = 6 ∨ (8 < flag ∧ flag < 15) ∨ 15 < flag then return []
  let gVersion := gVersion.printed
  let mut buf ← sprintf 16 [] 0 (bytes "[")
  if flag.testBit 0 then buf ← sprintf 16 buf buf.length (printInt gVersion.major)
  if flag.testBit 1 then buf ← sprintf 16 buf buf.length (bytes "." ++ printInt gVersion.minor)
  if flag.testBit 2 then
    buf ← sprintf 16 buf buf.length (bytes "." ++ printInt gVersion.buildVersion)
  if flag.testBit 3 then
    let version ← read (entry modules module).version
    let tmpCurrentModuleVersion ← sprintf 12 [] 0 version
    buf ← sprintf 16 buf buf.length (bytes ":" ++ tmpCurrentModuleVersion)
  buf ← sprintf 16 buf buf.length (bytes "]")
  return buf

def getCurrentModuleName (modules : ModuleList) (module flag : ℕ) : Except Fault Bytes := do
  if flag = 0 then return []
  if moduleListSize ≤ module then return []
  if (entry modules module).name.head? ≠ some 0 then
    let name ← read (entry modules module).name
    sprintf 16 [] 0 (bytes "[" ++ name ++ bytes "] ")
  else sprintf 16 [] 0 (bytes "[" ++ bytes "0000000" ++ bytes "] ")

def errCode (logType : ℤ) (level : LogLevel) : ℤ :=
  if logType = 1 ∨ logType = 2 ∨ logType = 4 ∨ logType = 8 ∨ logType = 15 then
    errorCodeBase + logType * 8 + level.toInt
  else 0

def getErrorCode (modules : ModuleList) (module : ℕ) (level : LogLevel) : Except Fault Bytes :=
  if moduleListSize ≤ module ∨ (entry modules module).name.head? = some 0 then .ok []
  else sprintf 16 [] 0
    (bytes "<<" ++ printInt (errCode (entry modules module).logType level) ++ bytes ">> ")

-- the part of the path behind its first slash
def afterSlash (file : Bytes) : Bytes :=
  if 47 ∈ file then (file.dropWhile (· ≠ 47)).drop 1 else file

def logLineSanitize (str : Bytes) : Bytes :=
  str.map fun c => if c < 8 ∨ (13 < c ∧ c < 32) then 63 else c

structure LogCall where
  file : CString
  line : ℤ
  function : CString
  module : ℕ
  level : LogLevel
  message : CString

-- `message` is what the arguments are formatted to, for `sLogBuffer[512]`
def logVerboseCStyle (modules : ModuleList) (gVersion : Version) (machine : Machine) (dt : DateTime)
    (call : LogCall) : Except Fault Bytes := do
  let currTime ← getCurrentTime dt outputFlagDateTime
  let machineInfo ← getMachineInfo machine outputFlagMachineInfo
  let version ← getVersion modules gVersion call.module outputFlagVersion
  let moduleName ← getCurrentModuleName modules call.module outputFlagModuleName
  let errorCode ← getErrorCode modules call.module call.level
  let sLogBuffer := call.message.chars.take 511
  let str ← sprintf 1024 [] 0 currTime
  let str ← sprintf 1024 str str.length machineInfo
  let str ← sprintf 1024 str str.length version
  let str ← sprintf 1024 str str.length moduleName
  let str ← sprintf 1024 str str.length errorCode
  let str ← sprintf 1024 str str.length (bytes "[" ++ afterSlash call.file.chars ++ bytes ":" ++
    printInt call.line ++ bytes "][" ++ call.function.chars ++ bytes ":" ++
    textLogLevel call.level ++ bytes "] ")
  let str ← sprintf 1024 str str.length (bytes ": " ++ sLogBuffer)
  return logLineSanitize str

end SimpleCode.LogC
