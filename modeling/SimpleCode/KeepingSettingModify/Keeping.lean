import SimpleCode.KeepingSettingModify.ConfigFile
import SimpleCode.KeepingSettingModify.ModifyRecord

set_option autoImplicit false

namespace SimpleCode.KeepingSettingModify

open Foundations Foundations.Bytes

def systemOptionsFile : Bytes := bytes "./yx_config_system.ini"
def customOptionsFile : Bytes := bytes "./yx_config_customer.ini"
def monitorOptionsFile : Bytes := bytes "./yx_config_tr069.ini"
def versionOptionsFile : Bytes := bytes "./yx_config_version.ini"

structure SettingModifyRecordKeeping where
  paramItem : ParametersItem
  paramModifyRecordMapping : MappingSettingModifyRecord
  paramConfigFileMapping : ParamConfigFileMap
  gModifyRecordResetFlag : Bool

structure Clock where
  dateTime : DateTimeStamp
  nsec : ℕ

namespace SettingModifyRecordKeeping

def init (mutexCreated : Bool) : SettingModifyRecordKeeping where
  paramItem := {}
  paramModifyRecordMapping := .init mutexCreated
  paramConfigFileMapping := .empty
  gModifyRecordResetFlag := false

def decimal (width n : ℕ) : Bytes :=
  let digits := (Nat.toDigits 10 n).map fun c => UInt8.ofNat c.toNat
  List.replicate (width - digits.length) 48 ++ digits

-- `snprintf` into the 63 bytes that are left of `buf`, the last of them for the terminator
def modifyTimeStamp (clock : Clock) : Bytes :=
  let dt := clock.dateTime
  (decimal 4 dt.year.toNat ++ bytes "-" ++ gMonthStr.get ⟨dt.month.toNat, dt.month_lt⟩ ++
    bytes "-" ++ decimal 2 dt.day.toNat ++ bytes " " ++ decimal 2 dt.hour.toNat ++ bytes ":" ++
    decimal 2 dt.minute.toNat ++ bytes ":" ++ decimal 2 dt.second.toNat ++ bytes "." ++
    decimal 3 (clock.nsec / 1000000)).take 62

def modifySourceModule (module : ℤ) : Bytes :=
  match module with
  | 1 => bytes "STBManageTool"
  | 2 => bytes "TR069"
  | 3 => bytes "JSLocal"
  | 4 => bytes "JSEPG"
  | 5 => bytes "Other"
  | _ => []

def modifiedFile (fileTag : Bytes) : Bytes :=
  if fileTag = bytes "system" then systemOptionsFile
  else if fileTag = bytes "customer" then customOptionsFile
  else if fileTag = bytes "tr069" then monitorOptionsFile
  else if fileTag = bytes "version" then versionOptionsFile
  else []

-- with an empty name the old value of the previous item stays
def initialParamItem (s : SettingModifyRecordKeeping) (name value : Bytes) (module : ℤ)
    (fileTag : Bytes) (clock : Clock) : ParametersItem where
  paramName := name
  newValue := value
  oldValue :=
    if name = [] then s.paramItem.oldValue
    else getConfigFileParamValue s.paramConfigFileMapping name
  modifyTimeStamp := modifyTimeStamp clock
  sourceModule := modifySourceModule module
  modifiedFile := modifiedFile fileTag

variable (sensitive : List Bytes)

def load (s : SettingModifyRecordKeeping) (configFiles : List (Option Bytes)) (recordFile : Bytes) :
    Comp OutOfRange SettingModifyRecordKeeping := do
  let paramConfigFileMapping :=
    (loadConfigFileParam sensitive s.paramConfigFileMapping configFiles).2
  let paramModifyRecordMapping ← s.paramModifyRecordMapping.loadModifyRecordParam recordFile
  return { s with paramConfigFileMapping, paramModifyRecordMapping }

def set (s : SettingModifyRecordKeeping) (name value : Bytes) (module : ℤ) (fileTag : Bytes)
    (clock : Clock) : Comp OutOfRange SettingModifyRecordKeeping := do
  let paramItem := s.initialParamItem name value module fileTag clock
  let paramModifyRecordMapping ←
    (s.paramModifyRecordMapping.updateModifyRecordParamMap
      paramItem).2.dereplicationModifyRecordParamMap
  let paramConfigFileMapping :=
    (updateConfigFileParamMap sensitive s.paramConfigFileMapping paramItem.paramName
      paramItem.newValue).2
  return { s with paramItem, paramModifyRecordMapping, paramConfigFileMapping }

def save (s : SettingModifyRecordKeeping) (fopen : Bool) :
    Comp OutOfRange (SettingModifyRecordKeeping × Option Bytes) := do
  if s.gModifyRecordResetFlag then return (s, none)
  let paramConfigFileMapping :=
    (updateConfigFileParamMap sensitive s.paramConfigFileMapping s.paramItem.paramName
      s.paramItem.newValue).2
  let (_, paramModifyRecordMapping, written) ←
    s.paramModifyRecordMapping.formatingParamItemOutput sensitive fopen
  return ({ s with paramConfigFileMapping, paramModifyRecordMapping }, written)

-- the stream leaves a line end in the file before `fopen` tries to write the header
def reSet (s : SettingModifyRecordKeeping) (stream fopen : Bool) :
    Comp OutOfRange (SettingModifyRecordKeeping × Option Bytes) := do
  let (_, paramModifyRecordMapping, written) ←
    s.paramModifyRecordMapping.resetModifyRecordOutput fopen
  return ({ s with paramModifyRecordMapping, gModifyRecordResetFlag := true },
    written.or (if stream then some [10] else none))

end SettingModifyRecordKeeping

/-! A run of the interface: the calls that a process makes, each with what its environment answers,
the record file on disk and all files that `save` has written. -/

structure SetCall where
  name : Bytes
  value : Bytes
  module : ℤ
  fileTag : Bytes
  clock : Clock

inductive Call
  | load (configFiles : List (Option Bytes))
  | set (call : SetCall)
  | save (fopen : Bool)
  | reSet (stream fopen : Bool)

structure Process where
  keeping : SettingModifyRecordKeeping
  recordFile : Bytes
  saved : List Bytes

namespace Process

def start (mutexCreated : Bool) (recordFile : Bytes) : Process :=
  ⟨.init mutexCreated, recordFile, []⟩

def records (p : Process) (name : Bytes) : List ParametersItem :=
  p.keeping.paramModifyRecordMapping.paramModifyRecordMap.values name

def step (sensitive : List Bytes) (p : Process) : Call → Comp OutOfRange Process
  | .load configFiles => do
    let keeping ← p.keeping.load sensitive configFiles p.recordFile
    return { p with keeping }
  | .set call => do
    let keeping ← p.keeping.set sensitive call.name call.value call.module call.fileTag call.clock
    return { p with keeping }
  | .save fopen => do
    let (keeping, written) ← p.keeping.save sensitive fopen
    return ⟨keeping, written.getD p.recordFile, p.saved ++ written.toList⟩
  | .reSet stream fopen => do
    let (keeping, written) ← p.keeping.reSet stream fopen
    return ⟨keeping, written.getD p.recordFile, p.saved⟩

def run (sensitive : List Bytes) (p : Process) (calls : List Call) : Comp OutOfRange Process :=
  calls.foldlM (step sensitive) p

def loadThenSet (sensitive : List Bytes) (mutexCreated : Bool) (recordFile : Bytes)
    (configFiles : List (Option Bytes)) (calls : List SetCall) : Comp OutOfRange Process :=
  run sensitive (start mutexCreated recordFile) (.load configFiles :: calls.map .set)

end Process

end SimpleCode.KeepingSettingModify
