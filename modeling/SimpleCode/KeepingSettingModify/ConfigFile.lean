import SimpleCode.KeepingSettingModify.Utilitys

set_option autoImplicit false

/-! `MappingSettingConfigFile`: the values of the parameters in the configuration files, with the
values of the sensitive names left out. -/

namespace SimpleCode.KeepingSettingModify

open Foundations Foundations.Bytes

def filteringSensitiveParam (sensitive : List Bytes) (param : Bytes) : Bool := param ∈ sensitive

abbrev ParamConfigFileMap := OrderedMap Bytes Bytes

def updateConfigFileParamMap (sensitive : List Bytes) (m : ParamConfigFileMap)
    (name value : Bytes) : ℤ × ParamConfigFileMap :=
  if name = [] then (-1, m)
  else if filteringSensitiveParam sensitive name then (0, m.insert name [])
  else (0, m.insert name value)

def endOfConfigLine (sensitive : List Bytes) (m : ParamConfigFileMap) (line : Bytes) :
    ParamConfigFileMap :=
  match find (bytes "=") line with
  | none => m
  | some position =>
    (updateConfigFileParamMap sensitive m (line.take position) (line.drop (position + 1))).2

/-! The while loop over `fgetc`. Its result is kept in a `char`, where the byte 255 cannot be told
from `EOF`: within a line the byte ends the line, at the start of a line it ends the file. -/

def eofChar : UInt8 := 255

def loadConfigFile (sensitive : List Bytes) (m : ParamConfigFileMap) (line : Bytes) :
    Bytes → ParamConfigFileMap
  | [] => if line = [] then m else endOfConfigLine sensitive m line
  | ch :: file =>
    if ch = eofChar ∧ line = [] then m
    else if ch ≠ 10 ∧ ch ≠ eofChar then loadConfigFile sensitive m (line ++ [ch]) file
    else loadConfigFile sensitive (endOfConfigLine sensitive m line) [] file

-- a file that cannot be opened ends the whole load
def loadConfigFileParam (sensitive : List Bytes) (m : ParamConfigFileMap) :
    List (Option Bytes) → ℤ × ParamConfigFileMap
  | [] => (0, m)
  | none :: _ => (-1, m)
  | some file :: files =>
    loadConfigFileParam sensitive (loadConfigFile sensitive m [] file) files

def getConfigFileParamValue (m : ParamConfigFileMap) (name : Bytes) : Bytes :=
  (m.find? name).getD []

end SimpleCode.KeepingSettingModify
