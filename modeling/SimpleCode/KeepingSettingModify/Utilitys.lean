import SimpleCode.Foundations.OrderedMap

set_option autoImplicit false

namespace SimpleCode.KeepingSettingModify

open Foundations Foundations.Bytes

def countOfParamInModifyFileMax : ℤ := 10

def paramChangeRecordKeepingVersion : Bytes := bytes "1.0"

structure ParametersItem where
  paramName : Bytes := []
  oldValue : Bytes := []
  newValue : Bytes := []
  modifyTimeStamp : Bytes := []
  sourceModule : Bytes := []
  modifiedFile : Bytes := []
deriving DecidableEq

structure ParamStatistics where
  paramName : Bytes
  earliestTimeStamp : Bytes
  recordCount : ℤ
deriving DecidableEq

def errorParamItem : ParametersItem where
  paramName := bytes "string error"
  oldValue := bytes "string error"
  newValue := bytes "string error"
  modifyTimeStamp := bytes "string error"
  sourceModule := bytes "string error"
  modifiedFile := bytes "string error"

def gMonthStr : List Bytes :=
  ["Undefined", "Jan", "Feb", "Mar", "Apr", "May", "Jun", "Jul", "Aug", "Sep", "Oct", "Nov",
    "Dec"].map bytes

structure DateTimeStamp where
  year : UInt16
  month : UInt8
  day : UInt8
  hour : UInt8
  minute : UInt8
  second : UInt8
  month_lt : month.toNat < gMonthStr.length

/-! `pos = s.find(tag); s.substr(0, pos); s.substr(pos + 1, s.length())`. With `npos` both pieces
are the whole string, since `npos + 1` is `0`. -/

def beforeTag (s tag : Bytes) : Bytes :=
  match find tag s with
  | none => s
  | some pos => s.take pos

def afterTag (s tag : Bytes) : Bytes :=
  match find tag s with
  | none => s
  | some pos => s.drop (pos + 1)

structure DateTimeKey where
  year : Bytes
  month : ℕ
  day : Bytes
  time : Bytes

-- `std::find` over the month names answers their number when the name is unknown
def dateTimeKey (dateTime : Bytes) : DateTimeKey :=
  let date := beforeTag dateTime (bytes " ")
  let subDate := afterTag date (bytes "-")
  { year := beforeTag date (bytes "-")
    month := gMonthStr.idxOf (beforeTag subDate (bytes "-"))
    day := afterTag subDate (bytes "-")
    time := afterTag dateTime (bytes " ") }

def dateTimeCompare (strBaseDTime strNowDTime : Bytes) : ℤ :=
  if strBaseDTime = [] ∨ strNowDTime = [] then -1
  else
    let base := dateTimeKey strBaseDTime
    let now := dateTimeKey strNowDTime
    if base.year = now.year then
      if base.month = now.month then
        if base.day = now.day then
          if base.time = now.time then 0
          else if base.time > now.time then 1
          else -1
        else if base.day > now.day then 1
        else -1
      else if base.month > now.month then 1
      else -1
    else if base.year > now.year then 1
    else -1

-- the value, and what is left of the string; `fail` leaves the string alone
def getValueByTag (str tag : Bytes) : Except OutOfRange (Bytes × Bytes) :=
  match find tag str with
  | none => .ok (bytes "fail", str)
  | some position => do
    let value ← substr str 0 position
    let rest ← substr str (tag.length + value.length) str.length
    return (value, rest)

inductive ItemPointer
  | errorParamItem
  | newItem (item : ParametersItem)
deriving DecidableEq

def ItemPointer.item : ItemPointer → ParametersItem
  | .errorParamItem => KeepingSettingModify.errorParamItem
  | .newItem item => item

def parseRecordLine (strLine : Bytes) : Except OutOfRange ItemPointer := do
  if find (bytes "Parameter[") strLine = none then return .errorParamItem
  let strLine ← substr strLine (bytes "Parameter[ ").length strLine.length
  let (paramName, strLine) ← getValueByTag strLine (bytes " ] @<")
  if paramName = bytes "fail" then return .errorParamItem
  let (modifyTimeStamp, strLine) ← getValueByTag strLine (bytes "> modified by[ ")
  if modifyTimeStamp = bytes "fail" then return .errorParamItem
  let (sourceModule, strLine) ← getValueByTag strLine (bytes " ]from[ ")
  if sourceModule = bytes "fail" then return .errorParamItem
  let (oldValue, strLine) ← getValueByTag strLine (bytes " ]to[ ")
  if oldValue = bytes "fail" then return .errorParamItem
  let (newValue, strLine) ← getValueByTag strLine (bytes " ]into file[ ")
  if newValue = bytes "fail" then return .errorParamItem
  let (modifiedFile, _) ← getValueByTag strLine (bytes " ].")
  if modifiedFile = bytes "fail" then return .errorParamItem
  return .newItem
    { paramName, oldValue, newValue, modifyTimeStamp, sourceModule, modifiedFile }

end SimpleCode.KeepingSettingModify
