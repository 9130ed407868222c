import SimpleCode.Foundations.OrderedMap

set_option autoImplicit false

namespace SimpleCode.Sys

open Foundations

structure DiskPartition where
  name : Bytes
  mountPoint : Bytes
deriving DecidableEq, Repr

structure DiskDev where
  name : Bytes
  partitionList : List DiskPartition
deriving DecidableEq, Repr

def DiskDev.getPartition (disk : DiskDev) (name : Bytes) : Option DiskPartition :=
  disk.partitionList.find? fun p => p.name = name

-- What the manager sees of the system during one call. `newDiskDev` is the constructor of
-- `DiskDev`, which mounts the partitions; `mntent` is what `getmntent` delivers; `none` is a
-- table that cannot be opened.
structure Host where
  partitions : Option Bytes
  mounts : Option Bytes
  mntent : List (Bytes × Bytes)
  newDiskDev : Bytes → DiskDev
  accessible : Bytes → Bool
  pvrMd5 : Bytes

abbrev Files := Bytes → Option Bytes

structure DiskManager where
  disk : OrderedMap Bytes DiskDev
  addDiskName : List Bytes
  removeDiskName : List Bytes
  umountDiskName : List Bytes
  havePvrDisk : Bool
  pvrDiskName : Bytes
  pvrPartitionName : Bytes

inductive Action
  | event (desc dev : Bytes) (pvrFlag : Bool)
  | umount (dir : Bytes)
deriving DecidableEq

structure Refreshed where
  manager : DiskManager
  actions : List Action
  ret : ℤ

def devNameList : List Bytes :=
  [bytes "sda", bytes "sdb", bytes "sdc", bytes "sdd", bytes "sde", bytes "sdf", bytes "sdg",
    bytes "sdh"]

def strstr (s tag : Bytes) : Bool := (Bytes.find tag s).isSome

-- `fread` into a cleared buffer of `size` bytes, for `strstr`. `none` is a full buffer without a NUL, where
-- the search runs on behind it.
def readBuf (size : ℕ) (content : Bytes) : Option Bytes :=
  if content.length < size ∨ 0 ∈ content.take size then some ((content.take size).takeWhile (· ≠ 0))
  else none

def isDigit (c : UInt8) : Bool := 48 ≤ c ∧ c ≤ 57

-- A line of the partition table: major and minor number, blocks, name.
def entryName (line : Bytes) : Option Bytes :=
  match (line.splitOnP fun c => c = 32 ∨ c = 9).filter (· ≠ []) with
  | [major, minor, blocks, name] =>
    if (major ++ minor ++ blocks).all isDigit then some name else none
  | _ => none

def Host.Lists (host : Host) (name : Bytes) : Prop :=
  ∃ partitions ∈ host.partitions, name ∈ (Bytes.getlines partitions).filterMap entryName

instance (host : Host) (name : Bytes) : Decidable (host.Lists name) :=
  inferInstanceAs (Decidable (∃ partitions ∈ host.partitions, _))

def tagName : Bytes := bytes "/pvrIdentification.sys"

def DiskPartition.tagPath (p : DiskPartition) : Bytes := (p.mountPoint ++ tagName).take 1023

namespace DiskManager

variable (host : Host) (files : Files) (m : DiskManager)

def new : DiskManager := ⟨.empty, [], [], [], false, [], []⟩

def getDiskDevice (name : Bytes) : Option DiskDev := m.disk.find? name

def checkDev (devBuf mountBuf : Bytes) (m : DiskManager) (name : Bytes) : DiskManager :=
  let pDev := strstr devBuf name
  let pMount := strstr mountBuf name
  let m := if pDev && !pMount then { m with addDiskName := m.addDiskName ++ [name] } else m
  let m := if !pDev && pMount then { m with removeDiskName := m.removeDiskName ++ [name] } else m
  if pDev && pMount then
    if (m.disk.find? name).isNone then { m with addDiskName := m.addDiskName ++ [name] } else m
  else m

def devCheck : Option (DiskManager × ℤ) :=
  match host.partitions with
  | none => some (m, -1)
  | some partitions =>
    match host.mounts with
    | none => some (m, -1)
    | some mounts => do
      let devBuf ← readBuf 4096 partitions
      let mountBuf ← readBuf 4096 mounts
      some (devNameList.foldl (checkDev devBuf mountBuf) m, 0)

def pvrTagCheck (p : DiskPartition) : ℤ :=
  let mountPath := p.mountPoint.take 255
  if host.accessible mountPath then
    match files (mountPath ++ tagName) with
    | none => -1
    | some content => if content.take 32 = host.pvrMd5 then 0 else -1
  else -1

def recordPvr (disk partition : Bytes) : DiskManager :=
  if m.havePvrDisk then m
  else { m with pvrDiskName := disk, pvrPartitionName := partition, havePvrDisk := true }

def getPvrTag (pvrDiskName pvrPartitionName : Bytes) : DiskManager × ℤ :=
  match m.getDiskDevice pvrDiskName with
  | none => (m, -1)
  | some disk =>
    if disk.partitionList = [] then (m, -1)
    else if pvrPartitionName = bytes "null" then
      match disk.partitionList.find? fun p => pvrTagCheck host files p = 0 with
      | none => (m, 0)
      | some p => (m.recordPvr pvrDiskName p.name, 1)
    else
      match disk.getPartition pvrPartitionName with
      | none => (m, -1)
      | some p =>
        if pvrTagCheck host files p = 0 then (m.recordPvr pvrDiskName pvrPartitionName, 1)
        else (m, 0)

def removeDisk (m : DiskManager) (name : Bytes) : DiskManager × List Action :=
  let (m, actions) :=
    match m.disk.find? name with
    | some _ =>
      let pvrFlag := m.havePvrDisk && m.pvrDiskName = name
      let m := if pvrFlag then { m with havePvrDisk := false } else m
      ({ m with disk := m.disk.erase name }, [Action.event (bytes "HDD_REMOVED") name pvrFlag])
    | none =>
      let found := host.mntent.find? fun mnt : Bytes × Bytes => strstr mnt.1 name
      (m, (found.map fun mnt : Bytes × Bytes => Action.umount mnt.2).toList)
  ({ m with umountDiskName := m.umountDiskName.erase name }, actions)

-- The walk over `m_umountDiskName`: after an erasure the index goes on past the next name.
def forgetUnmounted (devBuf : Bytes) : List Bytes → List Bytes
  | [] => []
  | [name] => if strstr devBuf name then [name] else []
  | name :: next :: names =>
    if strstr devBuf name then name :: forgetUnmounted devBuf (next :: names)
    else next :: forgetUnmounted devBuf names

def addDisk (m : DiskManager) (name : Bytes) : DiskManager × List Action :=
  if name ∈ m.umountDiskName then (m, [])
  else
    let m := { m with disk := m.disk.insertNew name (host.newDiskDev name) }
    let (m, pvrFlag) :=
      if m.havePvrDisk then (m, false)
      else
        let (m, found) := m.getPvrTag host files name (bytes "null")
        (m, found = 1)
    (m, [.event (bytes "HDD_ATTATCHED") name pvrFlag,
      .event (bytes "HDD_PARTITION_MOUNTED") name pvrFlag])

def each (round : DiskManager → Bytes → DiskManager × List Action) (m : DiskManager) :
    List Bytes → DiskManager × List Action
  | [] => (m, [])
  | name :: names =>
    let (m, actions) := round m name
    let (m, more) := each round m names
    (m, actions ++ more)

-- `refresh` behind the loops over the removed and the unmounted disks.
def attach (removals : List Action) : Refreshed :=
  let (m, additions) := each (addDisk host files) m m.addDiskName
  let m := { m with addDiskName := [] }
  let m := if m.havePvrDisk && (m.getDiskDevice m.pvrDiskName).isNone then
    { m with havePvrDisk := false } else m
  ⟨m, removals ++ additions, 0⟩

def refresh : Option Refreshed := do
  let (m, _) ← m.devCheck host
  let (m, removals) := each (removeDisk host) m m.removeDiskName
  let m := { m with removeDiskName := [] }
  if m.umountDiskName = [] then some (m.attach host files removals)
  else
    match host.partitions with
    | none => some ⟨m, removals, -1⟩
    | some partitions => do
      let devBuf ← readBuf 4096 partitions
      some (attach host files
        { m with umountDiskName := forgetUnmounted devBuf m.umountDiskName } removals)

def umountDisk (name : Bytes) : DiskManager × ℤ :=
  match m.getDiskDevice name with
  | none => (m, -1)
  | some _ =>
    ({ m with umountDiskName := m.umountDiskName ++ [name], disk := m.disk.erase name }, 0)

def removePvrTag (pvrDiskName pvrPartitionName : Bytes) : (DiskManager × Files) × ℤ :=
  match m.getDiskDevice pvrDiskName with
  | none => ((m, files), -1)
  | some disk =>
    match disk.getPartition pvrPartitionName with
    | none => ((m, files), -1)
    | some partition =>
      (({ m with havePvrDisk := false, pvrDiskName := [], pvrPartitionName := [] },
        Function.update files partition.tagPath none), 0)

-- The part of `setPvrTag` below the test of `m_havePvrDisk`, with `fopen` succeeding.
def writePvrTag (pvrDiskName pvrPartitionName : Bytes) : (DiskManager × Files) × ℤ :=
  match m.getDiskDevice pvrDiskName with
  | none => ((m, files), -1)
  | some disk =>
    match disk.getPartition pvrPartitionName with
    | none => ((m, files), -1)
    | some partition =>
      (({ m with
          havePvrDisk := true
          pvrDiskName := pvrDiskName
          pvrPartitionName := pvrPartitionName },
        Function.update files partition.tagPath (some host.pvrMd5)), 0)

def setPvrTag (pvrDiskName pvrPartitionName : Bytes) : (DiskManager × Files) × ℤ :=
  if m.havePvrDisk then
    if m.pvrDiskName = pvrDiskName ∧ m.pvrPartitionName = pvrPartitionName then ((m, files), 0)
    else
      let (m, files) := (m.removePvrTag files pvrDiskName pvrPartitionName).1
      m.writePvrTag host files pvrDiskName pvrPartitionName
  else m.writePvrTag host files pvrDiskName pvrPartitionName

end DiskManager

end SimpleCode.Sys
