import SimpleCode.KeepingSettingModify.Statistics
import SimpleCode.Threads.ThreadMutex

set_option autoImplicit false

namespace SimpleCode.KeepingSettingModify

open Foundations Foundations.Bytes Threads

structure MappingSettingModifyRecord where
  paramModifyRecordMap : OrderedMultimap Bytes ParametersItem
  paramStatisticsMapping : MappingSettingStatistics
  mutex : ThreadMutex
  isModifyRecordMappingLoaded : Bool

namespace MappingSettingModifyRecord

def init (mutexCreated : Bool) : MappingSettingModifyRecord where
  paramModifyRecordMap := .empty
  paramStatisticsMapping := .init
  mutex := threadMutexCreate mutexCreated
  isModifyRecordMappingLoaded := false

def updateModifyRecordParamMap (s : MappingSettingModifyRecord) (paramItem : ParametersItem) :
    ℤ × MappingSettingModifyRecord :=
  if paramItem.paramName = errorParamItem.paramName ∨ paramItem.paramName = [] ∨
      paramItem.modifyTimeStamp = [] then (-1, s)
  else
    let paramStatisticsMapping :=
      if s.isModifyRecordMappingLoaded then
        (s.paramStatisticsMapping.updateStatisticsRecord paramItem).2
      else s.paramStatisticsMapping
    (0, { s with
      paramStatisticsMapping
      paramModifyRecordMap := s.paramModifyRecordMap.insert paramItem.paramName paramItem })

/-! The loop over `equal_range(name)`; the increment after an erase moves to the successor of the
erased record, so that every record of the range is looked at once. -/

def deleteModifyRecordByTimeStamp (s : MappingSettingModifyRecord) (name timeStamp : Bytes) :
    ℤ × MappingSettingModifyRecord :=
  if s.paramModifyRecordMap.values name = [] then (-1, s)
  else
    (0, { s with
      paramModifyRecordMap := s.paramModifyRecordMap.eraseIf fun record =>
        record.1 = name && dateTimeCompare record.2.modifyTimeStamp timeStamp = 0 })

-- `timeStamp` is an in-out parameter, left alone when the name has no record
def getModifyRecordEarliestTimeStamp (s : MappingSettingModifyRecord) (name timeStamp : Bytes) :
    ℤ × Bytes :=
  if name = [] then (-1, timeStamp)
  else match s.paramModifyRecordMap.values name with
    | [] => (-1, timeStamp)
    | record :: records =>
      (0, (record :: records).foldl (fun timeStamp it =>
        if dateTimeCompare timeStamp it.modifyTimeStamp > 0 then it.modifyTimeStamp
        else timeStamp) record.modifyTimeStamp)

def dereplicationRound (name : Bytes) (s : MappingSettingModifyRecord) :
    MappingSettingModifyRecord :=
  let tmpSize : ℤ := s.paramModifyRecordMap.size
  let timeStamp := s.paramStatisticsMapping.getStatisticsRecordTimeStamps name
  let s := (s.deleteModifyRecordByTimeStamp name timeStamp).2
  let deleteSize := tmpSize - s.paramModifyRecordMap.size
  let s := { s with
    paramStatisticsMapping :=
      (s.paramStatisticsMapping.modifyStatisticsRecordCount name .minus deleteSize).2 }
  let timeStamp := (s.getModifyRecordEarliestTimeStamp name timeStamp).2
  { s with
    paramStatisticsMapping :=
      (s.paramStatisticsMapping.modifyStatisticsRecordTimeStamps name timeStamp).2 }

def dereplicationName (s : MappingSettingModifyRecord) (name : Bytes) :
    Comp OutOfRange MappingSettingModifyRecord :=
  Comp.loop
    (fun s => s.paramStatisticsMapping.getStatisticsRecordCount name > countOfParamInModifyFileMax)
    (fun s => pure (dereplicationRound name s)) s

def dereplicationModifyRecordParamMap (s : MappingSettingModifyRecord) :
    Comp OutOfRange MappingSettingModifyRecord :=
  s.paramStatisticsMapping.paramStatisticsMap.entries.foldlM
    (fun s paramStatistic => s.dereplicationName paramStatistic.2.paramName) s

-- the first line has to be the header with the version of this program
def loadModifyRecordLines (s : MappingSettingModifyRecord) (fileAvailableLineFlag : Bool) :
    List Bytes → Except OutOfRange MappingSettingModifyRecord
  | [] => .ok s
  | line :: lines =>
    if !fileAvailableLineFlag then
      match find (bytes "=") line with
      | none => .ok s
      | some position => do
        let tag ← substr line 0 position
        let value ← substr line (position + 1) line.length
        if tag = bytes "CFversion" ∧ value = paramChangeRecordKeepingVersion then
          s.loadModifyRecordLines true lines
        else .ok s
    else do
      let paramItem ← parseRecordLine line
      (s.updateModifyRecordParamMap paramItem.item).2.loadModifyRecordLines true lines

def loadModifyRecordParam (s : MappingSettingModifyRecord) (file : Bytes) :
    Comp OutOfRange MappingSettingModifyRecord := do
  let paramStatisticsMapping ← Comp.ofExcept (s.paramStatisticsMapping.loadStatisticsRecord file)
  let s ← Comp.ofExcept
    ({ s with paramStatisticsMapping }.loadModifyRecordLines false (getlines file))
  dereplicationModifyRecordParamMap { s with isModifyRecordMappingLoaded := true }

def fileHeader : Bytes := bytes "CFversion=" ++ paramChangeRecordKeepingVersion ++ [10]

def formatRecord (sensitive : List Bytes) (it : Bytes × ParametersItem) : Bytes :=
  bytes "Parameter[ " ++ it.1 ++
    bytes " ] @<" ++ it.2.modifyTimeStamp ++
    bytes "> modified by[ " ++ it.2.sourceModule ++
    (if it.1 ∈ sensitive then bytes " ]from[ *** ]to[ ***"
      else bytes " ]from[ " ++ it.2.oldValue ++ bytes " ]to[ " ++ it.2.newValue) ++
    bytes " ]into file[ " ++ it.2.modifiedFile ++
    bytes " ]."

def formatFile (sensitive : List Bytes) (m : OrderedMultimap Bytes ParametersItem) : Bytes :=
  fileHeader ++ m.entries.flatMap fun it => formatRecord sensitive it ++ [10]

-- `fopen` tells whether the file could be opened; the last component is the file that is written
def formatingParamItemOutput (s : MappingSettingModifyRecord) (sensitive : List Bytes)
    (fopen : Bool) : Comp OutOfRange (ℤ × MappingSettingModifyRecord × Option Bytes) := do
  let (_, mutex) ← threadMutexLock s.mutex
  if !fopen then return (-1, { s with mutex }, none)
  return (0, { s with mutex := (threadMutexUnLock mutex).2 },
    some (formatFile sensitive s.paramModifyRecordMap))

def resetModifyRecordOutput (s : MappingSettingModifyRecord) (fopen : Bool) :
    Comp OutOfRange (ℤ × MappingSettingModifyRecord × Option Bytes) := do
  let (_, mutex) ← threadMutexLock s.mutex
  if !fopen then return (-1, { s with mutex }, none)
  return (0, { s with mutex := (threadMutexUnLock mutex).2 }, some fileHeader)

end MappingSettingModifyRecord

end SimpleCode.KeepingSettingModify
