import SimpleCode.Foundations.Bytes

set_option autoImplicit false

/-! The chained hash table. A chain is the list of its elements from the head on; allocation
succeeds, and a division by zero ends the program. -/

namespace SimpleCode.Algorithm

open Foundations

inductive HashTableMode
  | modeCopy
  | modeValueRef
  | modeAllRef
deriving DecidableEq, Repr

structure HashTableElement (ν : Type) where
  key : Bytes
  value : ν
  valueLen : ℕ
deriving DecidableEq, Repr

structure HashTable (ν : Type) where
  storeHouse : ℕ → List (HashTableElement ν)
  mode : HashTableMode
  keyCount : ℕ
  keyNum : UInt16
  keyRatio : ℕ

inductive Fault
  | divisionByZero
  -- The resizes are nested deeper than the model was asked to follow.
  | tooDeep
deriving DecidableEq, Repr

def hashWord (i : ℕ) (ptr : UInt16) : UInt16 :=
  UInt16.ofNat (i <<< 4 ^^^ ptr.toNat <<< 8 ^^^ ptr.toNat)

-- The words are read from the little-endian memory; an odd last byte is left out.
def hashWords : ℕ → UInt16 → Bytes → UInt16
  | i, hash, a :: b :: key =>
    hashWords (i + 1) (hash ^^^ hashWord i (a.toUInt16 ||| b.toUInt16 <<< 8)) key
  | _, hash, _ => hash

def slot (key : Bytes) (maxKey : UInt16) : ℕ := (hashWords 0 0xbabe key % maxKey).toNat

def doHash (key : Bytes) (maxKey : UInt16) : Except Fault ℕ :=
  if maxKey = 0 then .error .divisionByZero else .ok (slot key maxKey)

namespace HashTable

variable {ν : Type}

def new (mode : HashTableMode) : HashTable ν := ⟨fun _ => [], mode, 0, 128, 4⟩

-- The walk of `hash_table_add` over what is behind the head of the chain; the flag says whether
-- the element is new.
def replaceNext (element : HashTableElement ν) :
    List (HashTableElement ν) → List (HashTableElement ν) × Bool
  | [] => ([element], true)
  | temp :: chain =>
    if temp.key.length ≠ element.key.length then
      (temp :: (replaceNext element chain).1, (replaceNext element chain).2)
    else if temp.key = element.key then (element :: chain, false)
    else (temp :: (replaceNext element chain).1, (replaceNext element chain).2)

def insertElement (table : HashTable ν) (element : HashTableElement ν) :
    Except Fault (HashTable ν) := do
  let hash ← doHash element.key table.keyNum
  match table.storeHouse hash with
  | [] =>
    pure { table with
      storeHouse := Function.update table.storeHouse hash [element]
      keyCount := table.keyCount + 1 }
  | head :: chain =>
    let (chain, isNew) := replaceNext element chain
    pure { table with
      storeHouse := Function.update table.storeHouse hash (head :: chain)
      keyCount := if isNew then table.keyCount + 1 else table.keyCount }

def addWith (resize : HashTable ν → ℕ → Except Fault (HashTable ν × ℤ)) (table : HashTable ν)
    (element : HashTableElement ν) : Except Fault (HashTable ν) :=
  if table.keyNum = 0 then .error .divisionByZero
  else if table.keyRatio ≤ table.keyCount / table.keyNum.toNat then do
    let (table, _) ← resize table (table.keyNum.toNat * 2)
    table.insertElement element
  else table.insertElement element

def getElements (table : HashTable ν) : List (HashTableElement ν) :=
  (List.range table.keyNum.toNat).flatMap table.storeHouse

def resizeAt : ℕ → HashTable ν → ℕ → Except Fault (HashTable ν × ℤ)
  | 0, _, _ => .error .tooDeep
  | depth + 1, table, len =>
    if table.getElements.isEmpty then .ok (table, -1)
    else do
      let moved ← table.getElements.reverse.foldlM (addWith (resizeAt depth))
        { table with
          storeHouse := fun _ => []
          keyNum := UInt16.ofNat len
          mode := .modeAllRef
          keyCount := 0 }
      pure ({ moved with mode := table.mode }, 0)

def resize (depth : ℕ) (allocated : Bool) (table : HashTable ν) (len : ℕ) :
    Except Fault (HashTable ν × ℤ) :=
  if table.getElements.isEmpty then .ok (table, -1)
  else if allocated then resizeAt depth table len
  else .ok (table, -2)

def add (depth : ℕ) (table : HashTable ν) (key : Bytes) (value : ν) (valueLen : ℕ) :
    Except Fault (HashTable ν × ℤ) := do
  let table ← table.addWith (resizeAt depth) ⟨key, value, valueLen⟩
  pure (table, 0)

-- The walk of `hash_table_remove`, with the elements before `temp`. `prev` is still the head of
-- the chain when `temp` is the second element.
def removeFrom (key : Bytes) (before : List (HashTableElement ν)) :
    List (HashTableElement ν) → Option (List (HashTableElement ν))
  | [] => none
  | temp :: chain =>
    if temp.key.length ≠ key.length then removeFrom key (before ++ [temp]) chain
    else if temp.key = key then
      if before.length ≤ 1 then some chain else some (before ++ chain)
    else removeFrom key (before ++ [temp]) chain

def removeElement (table : HashTable ν) (key : Bytes) : Except Fault (HashTable ν × ℤ) := do
  let hash ← doHash key table.keyNum
  match removeFrom key [] (table.storeHouse hash) with
  | none => pure (table, -1)
  | some chain =>
    pure ({ table with
      storeHouse := Function.update table.storeHouse hash chain
      keyCount := table.keyCount - 1 }, 0)

def remove (depth : ℕ) (table : HashTable ν) (key : Bytes) : Except Fault (HashTable ν × ℤ) :=
  if table.keyCount = 0 then .error .divisionByZero
  else if table.keyRatio ≤ table.keyNum.toNat / table.keyCount then do
    let (table, _) ← resizeAt depth table (table.keyNum.toNat / 2)
    table.removeElement key
  else table.removeElement key

def findIn (key : Bytes) : List (HashTableElement ν) → Option ν
  | [] => none
  | temp :: chain =>
    if temp.key.length ≠ key.length then findIn key chain
    else if temp.key = key then some temp.value
    else findIn key chain

def lookup (table : HashTable ν) (key : Bytes) : Except Fault (Option ν) := do
  let hash ← doHash key table.keyNum
  pure (findIn key (table.storeHouse hash))

def hasKey (table : HashTable ν) (key : Bytes) : Except Fault ℤ := do
  let hash ← doHash key table.keyNum
  pure (if (findIn key (table.storeHouse hash)).isSome then 1 else 0)

end HashTable

end SimpleCode.Algorithm
