import SimpleCode.KeepingSettingModify.Utilitys

set_option autoImplicit false

namespace SimpleCode.KeepingSettingModify

open Foundations Foundations.Bytes

structure MappingSettingStatistics where
  paramStatisticsMap : OrderedMap Bytes ParamStatistics
  recordFileAvailable : Bool

namespace MappingSettingStatistics

def init : MappingSettingStatistics := ⟨.empty, false⟩

inductive CountFlag
  | add
  | minus
deriving DecidableEq

def modifyStatisticsRecordCount (s : MappingSettingStatistics) (name : Bytes) (flag : CountFlag)
    (step : ℤ) : ℤ × MappingSettingStatistics :=
  if name = errorParamItem.paramName ∨ name = [] then (-1, s)
  else match s.paramStatisticsMap.find? name with
    | none => (-1, s)
    | some paramStatistic =>
      -- the add branch counts one whatever the step is
      let recordCount := match flag with
        | .add => paramStatistic.recordCount + 1
        | .minus => paramStatistic.recordCount - step
      (0, { s with
        paramStatisticsMap := s.paramStatisticsMap.insert name { paramStatistic with recordCount } })

def updateStatisticsRecord (s : MappingSettingStatistics) (paramItem : ParametersItem) :
    ℤ × MappingSettingStatistics :=
  let found := s.paramStatisticsMap.find? paramItem.paramName
  if paramItem.paramName = errorParamItem.paramName ∨ paramItem.paramName = [] ∨
      paramItem.modifyTimeStamp = [] then (-1, s)
  else
    let paramStatisticsMap := match found with
      | some paramStatistic =>
        if dateTimeCompare paramStatistic.earliestTimeStamp paramItem.modifyTimeStamp > 0 then
          s.paramStatisticsMap.insert paramItem.paramName
            ⟨paramItem.paramName, paramItem.modifyTimeStamp, paramStatistic.recordCount⟩
        else s.paramStatisticsMap
      | none =>
        s.paramStatisticsMap.insert paramItem.paramName
          ⟨paramItem.paramName, paramItem.modifyTimeStamp, 0⟩
    (0, (modifyStatisticsRecordCount { s with paramStatisticsMap } paramItem.paramName .add 1).2)

-- the first line is only asked for an `=`
def loadStatisticsLines (s : MappingSettingStatistics) :
    List Bytes → Except OutOfRange MappingSettingStatistics
  | [] => .ok s
  | line :: lines =>
    if !s.recordFileAvailable then
      if find (bytes "=") line ≠ none then
        loadStatisticsLines { s with recordFileAvailable := true } lines
      else .ok { s with recordFileAvailable := true }
    else do
      let paramItem ← parseRecordLine line
      loadStatisticsLines (s.updateStatisticsRecord paramItem.item).2 lines

def loadStatisticsRecord (s : MappingSettingStatistics) (file : Bytes) :
    Except OutOfRange MappingSettingStatistics :=
  s.loadStatisticsLines (getlines file)

def modifyStatisticsRecordTimeStamps (s : MappingSettingStatistics) (name timeStamp : Bytes) :
    Bool × MappingSettingStatistics :=
  if name = errorParamItem.paramName ∨ name = [] ∨ timeStamp = [] then (false, s)
  else match s.paramStatisticsMap.find? name with
    | none => (false, s)
    | some paramStatistic =>
      (true, { s with
        paramStatisticsMap :=
          s.paramStatisticsMap.insert name { paramStatistic with earliestTimeStamp := timeStamp } })

def getStatisticsRecordTimeStamps (s : MappingSettingStatistics) (name : Bytes) : Bytes :=
  match s.paramStatisticsMap.find? name with
  | none => []
  | some paramStatistic => paramStatistic.earliestTimeStamp

def getStatisticsRecordCount (s : MappingSettingStatistics) (name : Bytes) : ℤ :=
  if name = errorParamItem.paramName ∨ name = [] then -1
  else match s.paramStatisticsMap.find? name with
    | none => -1
    | some paramStatistic => paramStatistic.recordCount

end MappingSettingStatistics

end SimpleCode.KeepingSettingModify
