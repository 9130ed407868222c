import SimpleCode.Sys.PvrTag

set_option autoImplicit false

namespace SimpleCode.Sys

open Foundations

def Action.isEvent : Action → Bool
  | .event .. => true
  | .umount _ => false

def Quiet (actions : List Action) : Prop := ∀ a ∈ actions, a.isEvent = false

instance (actions : List Action) : Decidable (Quiet actions) :=
  inferInstanceAs (Decidable (∀ a ∈ actions, a.isEvent = false))

lemma quiet_append {actions more : List Action} :
    Quiet (actions ++ more) ↔ Quiet actions ∧ Quiet more := by
  simp only [Quiet, List.mem_append, or_imp, forall_and]

namespace DiskManager

-- Where the manager is between two calls: nothing is left to be added or removed.
structure Idle (m : DiskManager) : Prop where
  add : m.addDiskName = []
  remove : m.removeDiskName = []

variable {host : Host} {files : Files} {m : DiskManager} {name x : Bytes}

section Scan

variable (devBuf mountBuf : Bytes)

def wanted (m : DiskManager) (name : Bytes) : Bool :=
  strstr devBuf name && (!strstr mountBuf name || (m.disk.find? name).isNone)

def gone (name : Bytes) : Bool := !strstr devBuf name && strstr mountBuf name

variable {devBuf mountBuf}

lemma wanted_gone (hw : wanted devBuf mountBuf m name = true) :
    ¬ gone devBuf mountBuf name = true := by
  intro hg
  rw [wanted, Bool.and_eq_true] at hw
  rw [gone, hw.1] at hg
  exact absurd hg nofun

lemma checkDev_eq (m : DiskManager) (name : Bytes) :
    checkDev devBuf mountBuf m name = { m with
      addDiskName := m.addDiskName ++ [name].filter (wanted devBuf mountBuf m)
      removeDiskName := m.removeDiskName ++ [name].filter (gone devBuf mountBuf) } := by
  cases hd : strstr devBuf name <;> cases hm : strstr mountBuf name
  · simp [checkDev, wanted, gone, hd, hm]
  · simp [checkDev, wanted, gone, hd, hm]
  · simp [checkDev, wanted, gone, hd, hm]
  · cases hf : (m.disk.find? name).isNone
    · simp [checkDev, wanted, gone, hd, hm, hf]
    · simp [checkDev, wanted, gone, hd, hm, hf]

lemma scan_eq (names : List Bytes) (m : DiskManager) :
    names.foldl (checkDev devBuf mountBuf) m = { m with
      addDiskName := m.addDiskName ++ names.filter (wanted devBuf mountBuf m)
      removeDiskName := m.removeDiskName ++ names.filter (gone devBuf mountBuf) } := by
  induction names generalizing m with
  | nil => simp
  | cons name names ih =>
    have hw : wanted devBuf mountBuf (checkDev devBuf mountBuf m name)
        = wanted devBuf mountBuf m := by
      rw [checkDev_eq]
      rfl
    rw [List.foldl_cons, ih, hw, checkDev_eq]
    simp only [List.append_assoc, ← List.filter_append, List.singleton_append]

end Scan

section Remove

lemma removeDisk_lists (host : Host) (m : DiskManager) (name : Bytes) :
    (removeDisk host m name).1.addDiskName = m.addDiskName
      ∧ (removeDisk host m name).1.removeDiskName = m.removeDiskName
      ∧ (removeDisk host m name).1.umountDiskName = m.umountDiskName.erase name := by
  rw [removeDisk]
  cases m.disk.find? name with
  | none => exact ⟨rfl, rfl, rfl⟩
  | some disk =>
    dsimp only
    split <;> exact ⟨rfl, rfl, rfl⟩

lemma removeDisk_find (m : DiskManager) (name x : Bytes) :
    (removeDisk host m name).1.disk.find? x = if x = name then none else m.disk.find? x := by
  rw [removeDisk]
  cases h : m.disk.find? name with
  | none =>
    by_cases hx : x = name
    · rw [if_pos hx, hx]
      exact h
    · rw [if_neg hx]
  | some disk =>
    rw [← OrderedMap.find?_erase]
    dsimp only
    split <;> rfl

lemma removeDisk_absent (host : Host) (h : m.disk.find? name = none) :
    (removeDisk host m name).1.disk = m.disk ∧ Quiet (removeDisk host m name).2 := by
  have hround : removeDisk host m name = ({ m with umountDiskName := m.umountDiskName.erase name },
      ((host.mntent.find? fun mnt => strstr mnt.1 name).map fun mnt => .umount mnt.2).toList) := by
    rw [removeDisk, h]
  rw [hround]
  refine ⟨rfl, fun a ha => ?_⟩
  obtain ⟨mnt, -, rfl⟩ := Option.map_eq_some_iff.mp (Option.mem_toList.mp ha)
  rfl

lemma removeDisk_quiet_iff : Quiet (removeDisk host m name).2 ↔ m.disk.find? name = none := by
  constructor
  · intro h
    cases hf : m.disk.find? name with
    | none => rfl
    | some disk =>
      simp only [removeDisk, hf] at h
      exact absurd (h _ (List.mem_singleton.mpr rfl)) nofun
  · exact fun h => (removeDisk_absent host h).2

lemma removeAll_lists (host : Host) (names : List Bytes) (m : DiskManager) :
    (each (removeDisk host) m names).1.addDiskName = m.addDiskName
      ∧ (each (removeDisk host) m names).1.removeDiskName = m.removeDiskName
      ∧ ∀ x ∉ names, x ∈ (each (removeDisk host) m names).1.umountDiskName
        ↔ x ∈ m.umountDiskName := by
  induction names generalizing m with
  | nil => exact ⟨rfl, rfl, fun _ _ => Iff.rfl⟩
  | cons name names ih =>
    obtain ⟨hadd, hremove, humount⟩ := removeDisk_lists host m name
    obtain ⟨hadd', hremove', humount'⟩ := ih (removeDisk host m name).1
    refine ⟨hadd'.trans hadd, hremove'.trans hremove, fun x hx => ?_⟩
    rw [List.mem_cons, not_or] at hx
    rw [each, humount' x hx.2, humount, List.mem_erase_of_ne hx.1]

lemma removeAll_find (names : List Bytes) (m : DiskManager) (x : Bytes) :
    (each (removeDisk host) m names).1.disk.find? x
      = if x ∈ names then none else m.disk.find? x := by
  induction names generalizing m with
  | nil => rw [if_neg List.not_mem_nil]; rfl
  | cons name names ih =>
    rw [each, ih, removeDisk_find]
    by_cases hx : x ∈ names
    · rw [if_pos hx, if_pos (List.mem_cons_of_mem name hx)]
    · by_cases hxn : x = name
      · rw [if_neg hx, if_pos hxn, if_pos (hxn ▸ List.mem_cons_self)]
      · rw [if_neg hx, if_neg hxn, if_neg (by simp [hx, hxn])]

lemma removeAll_absent {names : List Bytes} (h : ∀ name ∈ names, m.disk.find? name = none) :
    (each (removeDisk host) m names).1.disk = m.disk ∧ Quiet (each (removeDisk host) m names).2 := by
  induction names generalizing m with
  | nil => exact ⟨rfl, fun _ ha => absurd ha List.not_mem_nil⟩
  | cons name names ih =>
    obtain ⟨hdisk, hquiet⟩ := removeDisk_absent host (h name List.mem_cons_self)
    have hrest := ih (m := (removeDisk host m name).1) fun n hn => by
      rw [hdisk]
      exact h n (List.mem_cons_of_mem name hn)
    exact ⟨hrest.1.trans hdisk, quiet_append.mpr ⟨hquiet, hrest.2⟩⟩

lemma removeAll_quiet_iff {names : List Bytes} :
    Quiet (each (removeDisk host) m names).2 ↔ ∀ name ∈ names, m.disk.find? name = none := by
  constructor
  · intro h
    induction names generalizing m with
    | nil => exact fun _ hn => absurd hn List.not_mem_nil
    | cons name names ih =>
      obtain ⟨hfirst, hrest⟩ := quiet_append.mp h
      have habsent := removeDisk_quiet_iff.mp hfirst
      intro n hn
      rcases List.mem_cons.mp hn with rfl | hn
      · exact habsent
      · rw [← (removeDisk_absent host habsent).1]
        exact ih hrest n hn
  · exact fun h => (removeAll_absent h).2

end Remove

section Add

lemma getPvrTag_lists (m : DiskManager) (disk partition : Bytes) :
    (m.getPvrTag host files disk partition).1.disk = m.disk
      ∧ (m.getPvrTag host files disk partition).1.addDiskName = m.addDiskName
      ∧ (m.getPvrTag host files disk partition).1.removeDiskName = m.removeDiskName
      ∧ (m.getPvrTag host files disk partition).1.umountDiskName = m.umountDiskName := by
  have hrecord (name : Bytes) : (m.recordPvr disk name).disk = m.disk
      ∧ (m.recordPvr disk name).addDiskName = m.addDiskName
      ∧ (m.recordPvr disk name).removeDiskName = m.removeDiskName
      ∧ (m.recordPvr disk name).umountDiskName = m.umountDiskName := by
    rw [recordPvr]
    split <;> exact ⟨rfl, rfl, rfl, rfl⟩
  rw [getPvrTag]
  split
  · exact ⟨rfl, rfl, rfl, rfl⟩
  · split
    · exact ⟨rfl, rfl, rfl, rfl⟩
    · split
      · split
        · exact ⟨rfl, rfl, rfl, rfl⟩
        · exact hrecord _
      · split
        · exact ⟨rfl, rfl, rfl, rfl⟩
        · split
          · exact hrecord _
          · exact ⟨rfl, rfl, rfl, rfl⟩

lemma addDisk_unmounted (h : name ∈ m.umountDiskName) : addDisk host files m name = (m, []) :=
  if_pos h

lemma addDisk_lists (host : Host) (files : Files) (m : DiskManager) (name : Bytes) :
    (addDisk host files m name).1.addDiskName = m.addDiskName
      ∧ (addDisk host files m name).1.removeDiskName = m.removeDiskName
      ∧ (addDisk host files m name).1.umountDiskName = m.umountDiskName := by
  by_cases h : name ∈ m.umountDiskName
  · rw [addDisk_unmounted h]
    exact ⟨rfl, rfl, rfl⟩
  · rw [addDisk, if_neg h]
    dsimp only
    split
    · exact ⟨rfl, rfl, rfl⟩
    · exact (getPvrTag_lists _ name (bytes "null")).2

lemma addDisk_mounted (h : name ∉ m.umountDiskName) :
    (addDisk host files m name).1.disk = m.disk.insertNew name (host.newDiskDev name)
      ∧ ¬ Quiet (addDisk host files m name).2 := by
  rw [addDisk, if_neg h]
  constructor
  · dsimp only
    split
    · rfl
    · exact (getPvrTag_lists _ name (bytes "null")).1
  · exact fun hquiet => absurd (hquiet _ List.mem_cons_self) nofun

lemma addAll_lists (names : List Bytes) (m : DiskManager) :
    (each (addDisk host files) m names).1.addDiskName = m.addDiskName
      ∧ (each (addDisk host files) m names).1.removeDiskName = m.removeDiskName
      ∧ (each (addDisk host files) m names).1.umountDiskName = m.umountDiskName := by
  induction names generalizing m with
  | nil => exact ⟨rfl, rfl, rfl⟩
  | cons name names ih =>
    obtain ⟨hadd, hremove, humount⟩ := addDisk_lists host files m name
    obtain ⟨hadd', hremove', humount'⟩ := ih (addDisk host files m name).1
    exact ⟨hadd'.trans hadd, hremove'.trans hremove, humount'.trans humount⟩

lemma addAll_find (names : List Bytes) (m : DiskManager) (x : Bytes) :
    ((each (addDisk host files) m names).1.disk.find? x).isSome
      = (decide (x ∈ names ∧ x ∉ m.umountDiskName) || (m.disk.find? x).isSome) := by
  induction names generalizing m with
  | nil => simp [each]
  | cons name names ih =>
    rw [each, ih, (addDisk_lists host files m name).2.2]
    by_cases h : name ∈ m.umountDiskName
    · rw [addDisk_unmounted h]
      by_cases hx : x = name
      · simp [hx, h]
      · simp [hx]
    · rw [(addDisk_mounted h).1, OrderedMap.isSome_find?_insertNew]
      by_cases hx : x = name
      · simp [hx, h]
      · simp [hx]

lemma addAll_unmounted {names : List Bytes} (h : ∀ name ∈ names, name ∈ m.umountDiskName) :
    each (addDisk host files) m names = (m, []) := by
  induction names with
  | nil => rfl
  | cons name names ih =>
    rw [each, addDisk_unmounted (h name List.mem_cons_self)]
    dsimp only
    rw [ih fun n hn => h n (List.mem_cons_of_mem name hn)]
    rfl

lemma addAll_quiet_iff {names : List Bytes} :
    Quiet (each (addDisk host files) m names).2 ↔ ∀ name ∈ names, name ∈ m.umountDiskName := by
  constructor
  · intro h
    induction names generalizing m with
    | nil => exact fun _ hn => absurd hn List.not_mem_nil
    | cons name names ih =>
      obtain ⟨hfirst, hrest⟩ := quiet_append.mp h
      have hmem : name ∈ m.umountDiskName := by
        by_contra hne
        exact (addDisk_mounted hne).2 hfirst
      intro n hn
      rcases List.mem_cons.mp hn with rfl | hn
      · exact hmem
      · rw [← (addDisk_lists host files m name).2.2]
        exact ih hrest n hn
  · intro h
    rw [addAll_unmounted h]
    exact fun _ ha => absurd ha List.not_mem_nil

end Add

lemma mem_forgetUnmounted {devBuf : Bytes} (hx : strstr devBuf x = true) (names : List Bytes) :
    x ∈ forgetUnmounted devBuf names ↔ x ∈ names := by
  induction names using forgetUnmounted.induct devBuf with
  | case1 => rfl
  | case2 name hname => rw [forgetUnmounted, if_pos hname]
  | case3 name hname =>
    rw [forgetUnmounted, if_neg hname, List.mem_singleton]
    exact ⟨nofun, fun h => absurd (h ▸ hx) hname⟩
  | case4 name next names hname ih =>
    rw [forgetUnmounted, if_pos hname]
    exact List.mem_cons.trans ((or_congr Iff.rfl ih).trans List.mem_cons.symm)
  | case5 name next names hname ih =>
    have hne : x ≠ name := fun h => hname (h ▸ hx)
    rw [forgetUnmounted, if_neg hname, List.mem_cons, ih, List.mem_cons, List.mem_cons]
    simp [hne]

/-- Both tables can be opened and end within the buffers. -/
def Reads (host : Host) (devBuf mountBuf : Bytes) : Prop :=
  host.partitions.bind (readBuf 4096) = some devBuf ∧ host.mounts.bind (readBuf 4096) = some mountBuf

section Tables

variable {devBuf mountBuf : Bytes}

def scanned (devBuf mountBuf : Bytes) (m : DiskManager) : DiskManager :=
  { m with
    addDiskName := devNameList.filter (wanted devBuf mountBuf m)
    removeDiskName := devNameList.filter (gone devBuf mountBuf) }

lemma devCheck_eq (hr : Reads host devBuf mountBuf) (hi : m.Idle) :
    m.devCheck host = some (scanned devBuf mountBuf m, 0) := by
  obtain ⟨hdev, hmount⟩ := hr
  obtain ⟨partitions, hp, hdev⟩ := Option.bind_eq_some_iff.mp hdev
  obtain ⟨mounts, hm, hmount⟩ := Option.bind_eq_some_iff.mp hmount
  simp only [devCheck, hp, hm, hdev, hmount, Option.bind_eq_bind, Option.bind_some, scan_eq, hi.add,
    hi.remove, List.nil_append, scanned]

def purged (host : Host) (devBuf mountBuf : Bytes) (m : DiskManager) : DiskManager :=
  let m := scanned devBuf mountBuf m
  let m := (each (removeDisk host) m m.removeDiskName).1
  { m with removeDiskName := [], umountDiskName := forgetUnmounted devBuf m.umountDiskName }

def finished (m : DiskManager) : DiskManager :=
  let m := { m with addDiskName := [] }
  if m.havePvrDisk && (m.getDiskDevice m.pvrDiskName).isNone then { m with havePvrDisk := false }
  else m

lemma finished_fields (m : DiskManager) : m.finished.disk = m.disk ∧ m.finished.addDiskName = []
    ∧ m.finished.removeDiskName = m.removeDiskName
    ∧ m.finished.umountDiskName = m.umountDiskName := by
  rw [finished]
  dsimp only
  split <;> exact ⟨rfl, rfl, rfl, rfl⟩

lemma attach_eq (host : Host) (files : Files) (m : DiskManager) (removals : List Action) :
    m.attach host files removals =
      let a := each (addDisk host files) m m.addDiskName
      ⟨finished a.1, removals ++ a.2, 0⟩ := rfl

def settled (host : Host) (files : Files) (devBuf mountBuf : Bytes) (m : DiskManager) : Refreshed :=
  let s := scanned devBuf mountBuf m
  attach host files (purged host devBuf mountBuf m) (each (removeDisk host) s s.removeDiskName).2

lemma refresh_eq (hr : Reads host devBuf mountBuf) (hi : m.Idle) :
    m.refresh host files = some (settled host files devBuf mountBuf m) := by
  obtain ⟨partitions, hp, hdev⟩ := Option.bind_eq_some_iff.mp hr.1
  rw [refresh, devCheck_eq hr hi]
  simp only [hp, hdev, Option.bind_eq_bind, Option.bind_some]
  split
  · next hnone =>
    have hforget : forgetUnmounted devBuf (each (removeDisk host) (scanned devBuf mountBuf m)
        (scanned devBuf mountBuf m).removeDiskName).1.umountDiskName
        = (each (removeDisk host) (scanned devBuf mountBuf m)
          (scanned devBuf mountBuf m).removeDiskName).1.umountDiskName := by
      rw [hnone]
      rfl
    simp only [settled, purged, hforget]
  · rfl

lemma purged_fields (host : Host) (devBuf mountBuf : Bytes) (m : DiskManager) :
    (purged host devBuf mountBuf m).addDiskName = devNameList.filter (wanted devBuf mountBuf m)
      ∧ (purged host devBuf mountBuf m).removeDiskName = []
      ∧ (∀ x, (purged host devBuf mountBuf m).disk.find? x
        = if x ∈ devNameList.filter (gone devBuf mountBuf) then none else m.disk.find? x)
      ∧ ∀ x, strstr devBuf x = true →
        (x ∈ (purged host devBuf mountBuf m).umountDiskName ↔ x ∈ m.umountDiskName) := by
  obtain ⟨hadd, -, humount⟩ := removeAll_lists host
    (devNameList.filter (gone devBuf mountBuf)) (scanned devBuf mountBuf m)
  refine ⟨hadd, rfl, fun x => removeAll_find _ (scanned devBuf mountBuf m) x, fun x hx => ?_⟩
  have hstays : x ∉ devNameList.filter (gone devBuf mountBuf) := by
    simp [gone, hx]
  exact (mem_forgetUnmounted hx _).trans (humount x hstays)

lemma settled_idle : (settled host files devBuf mountBuf m).manager.Idle := by
  rw [settled, attach_eq]
  obtain ⟨-, hadd, hremove, -⟩ := finished_fields (each (addDisk host files)
    (purged host devBuf mountBuf m) (purged host devBuf mountBuf m).addDiskName).1
  exact ⟨hadd, hremove.trans ((addAll_lists _ _).2.1.trans (purged_fields host devBuf mountBuf m).2.1)⟩

lemma settled_find (x : Bytes) :
    ((settled host files devBuf mountBuf m).manager.disk.find? x).isSome = true ↔
      (x ∈ devNameList ∧ wanted devBuf mountBuf m x = true ∧ x ∉ m.umountDiskName)
        ∨ ¬ (x ∈ devNameList ∧ gone devBuf mountBuf x = true) ∧ (m.disk.find? x).isSome = true := by
  obtain ⟨hadd, -, hfind, humount⟩ := purged_fields host devBuf mountBuf m
  rw [settled, attach_eq]
  dsimp only
  rw [(finished_fields _).1, addAll_find, hadd, hfind, Bool.or_eq_true, decide_eq_true_eq,
    List.mem_filter, and_assoc]
  apply or_congr
  · refine and_congr_right fun _ => and_congr_right fun hw => not_congr (humount x ?_)
    rw [wanted, Bool.and_eq_true] at hw
    exact hw.1
  · rw [← List.mem_filter]
    by_cases hg : x ∈ devNameList.filter (gone devBuf mountBuf)
    · rw [if_pos hg]
      exact ⟨fun h => absurd h Bool.false_ne_true, fun h => absurd hg h.1⟩
    · rw [if_neg hg]
      exact ⟨fun h => ⟨hg, h⟩, And.right⟩

lemma settled_umount {x : Bytes} (hx : strstr devBuf x = true) :
    x ∈ (settled host files devBuf mountBuf m).manager.umountDiskName ↔ x ∈ m.umountDiskName := by
  rw [settled, attach_eq]
  dsimp only
  rw [(finished_fields _).2.2.2, (addAll_lists _ _).2.2]
  exact (purged_fields host devBuf mountBuf m).2.2.2 x hx

lemma settled_quiet_iff :
    Quiet (settled host files devBuf mountBuf m).actions ↔
      (∀ x ∈ devNameList, gone devBuf mountBuf x = true → m.disk.find? x = none)
      ∧ ∀ x ∈ devNameList, wanted devBuf mountBuf m x = true → x ∈ m.umountDiskName := by
  obtain ⟨hadd, -, -, humount⟩ := purged_fields host devBuf mountBuf m
  rw [settled, attach_eq]
  dsimp only
  rw [quiet_append, removeAll_quiet_iff, addAll_quiet_iff, hadd]
  simp only [scanned, List.mem_filter, and_imp]
  refine and_congr_right fun _ => forall₂_congr fun x _ => forall_congr' fun hw => humount x ?_
  rw [wanted, Bool.and_eq_true] at hw
  exact hw.1

lemma settled_disk_of_quiet (hq : Quiet (settled host files devBuf mountBuf m).actions) :
    (settled host files devBuf mountBuf m).manager.disk = m.disk := by
  rw [settled, attach_eq] at hq ⊢
  obtain ⟨hremoved, hadded⟩ := quiet_append.mp hq
  dsimp only
  rw [(finished_fields _).1, addAll_unmounted (addAll_quiet_iff.mp hadded)]
  exact (removeAll_absent (removeAll_quiet_iff.mp hremoved)).1

lemma settled_again_quiet_iff :
    Quiet (settled host files devBuf mountBuf (settled host files devBuf mountBuf m).manager).actions ↔
      ∀ name ∈ devNameList, strstr devBuf name = true → strstr mountBuf name = false →
        name ∈ m.umountDiskName := by
  rw [settled_quiet_iff]
  constructor
  · rintro ⟨-, hwanted⟩ x hx hdev hmnt
    refine (settled_umount hdev).mp (hwanted x hx ?_)
    rw [wanted, hdev, hmnt]
    rfl
  · intro h
    refine ⟨fun x hx hgone => ?_, fun x hx hwanted => ?_⟩
    · rw [← Option.not_isSome_iff_eq_none, settled_find]
      rintro (⟨-, hw, -⟩ | ⟨hg, -⟩)
      · exact wanted_gone hw hgone
      · exact hg ⟨hx, hgone⟩
    · rw [wanted, Bool.and_eq_true, Bool.or_eq_true, Bool.not_eq_true', Option.isNone_iff_eq_none]
        at hwanted
      obtain ⟨hdev, hmnt | hnone⟩ := hwanted
      · exact (settled_umount hdev).mpr (h x hx hdev hmnt)
      · rw [← Option.not_isSome_iff_eq_none, settled_find, not_or] at hnone
        have hgone : gone devBuf mountBuf x = false := by
          rw [gone, hdev]
          rfl
        have hold : (m.disk.find? x).isNone = true := by
          rw [← Option.not_isSome, Bool.not_eq_true', Bool.eq_false_iff]
          exact fun hs => hnone.2 ⟨fun hg => absurd (hgone.symm.trans hg.2) nofun, hs⟩
        refine (settled_umount hdev).mpr ?_
        by_contra hun
        refine hnone.1 ⟨hx, ?_, hun⟩
        rw [wanted, hdev, hold, Bool.or_true]
        rfl

lemma settled_keys_iff (P : Bytes → Prop) :
    (∀ name ∈ (settled host files devBuf mountBuf m).manager.disk.keys, P name) ↔
      (∀ name ∈ devNameList, wanted devBuf mountBuf m name = true → name ∉ m.umountDiskName → P name)
      ∧ ∀ name ∈ m.disk.keys, P name ∨ name ∈ devNameList ∧ gone devBuf mountBuf name = true := by
  simp only [OrderedMap.mem_keys, settled_find]
  constructor
  · intro h
    refine ⟨fun x hx hw hu => h x (.inl ⟨hx, hw, hu⟩), fun x hx => ?_⟩
    by_cases hg : x ∈ devNameList ∧ gone devBuf mountBuf x = true
    · exact .inr hg
    · exact .inl (h x (.inr ⟨hg, hx⟩))
  · rintro ⟨hadded, hstayed⟩ x (⟨hx, hw, hu⟩ | ⟨hg, hx⟩)
    · exact hadded x hx hw hu
    · exact (hstayed x hx).resolve_right hg

/-- A second refresh over the same tables reports nothing and changes nothing, and after the first every
listed disk has an entry of its name in the partition table and is listed once. -/
def Settles (host : Host) (files : Files) (m : DiskManager) : Prop :=
  ∃ r r', m.refresh host files = some r ∧ r.manager.refresh host files = some r'
    ∧ Quiet r'.actions ∧ r'.manager.disk = r.manager.disk
    ∧ (∀ name ∈ r.manager.disk.keys, host.Lists name) ∧ r.manager.disk.keys.Nodup

lemma settles_of_reads (hr : Reads host devBuf mountBuf) (hi : m.Idle) : m.Settles host files ↔
    (∀ name ∈ devNameList, strstr devBuf name = true →
      name ∈ m.umountDiskName ∨ strstr mountBuf name = true ∧ host.Lists name)
    ∧ ∀ name ∈ m.disk.keys, host.Lists name
      ∨ name ∈ devNameList ∧ strstr devBuf name = false ∧ strstr mountBuf name = true := by
  have hfirst : m.refresh host files = some _ := refresh_eq hr hi
  have hsecond : (settled host files devBuf mountBuf m).manager.refresh host files = some _ :=
    refresh_eq hr settled_idle
  have hgone (x : Bytes) : gone devBuf mountBuf x = true
      ↔ strstr devBuf x = false ∧ strstr mountBuf x = true := by
    rw [gone, Bool.and_eq_true, Bool.not_eq_true']
  constructor
  · rintro ⟨r, r', hr, hr', hquiet, -, hkeys, -⟩
    obtain rfl := Option.some.inj (hr.symm.trans hfirst)
    obtain rfl := Option.some.inj (hr'.symm.trans hsecond)
    rw [settled_again_quiet_iff] at hquiet
    obtain ⟨hadded, hstayed⟩ := (settled_keys_iff _).mp hkeys
    simp only [hgone] at hstayed
    refine ⟨fun x hx hdev => ?_, hstayed⟩
    by_cases hu : x ∈ m.umountDiskName
    · exact .inl hu
    have hmount : strstr mountBuf x = true := by
      rw [← Bool.not_eq_false]
      exact fun hmount => hu (hquiet x hx hdev hmount)
    refine .inr ⟨hmount, ?_⟩
    cases hf : m.disk.find? x with
    | none => exact hadded x hx (by rw [wanted, hdev, hf]; exact Bool.or_true _) hu
    | some disk =>
      refine (hstayed x (OrderedMap.mem_keys.mpr (hf ▸ rfl))).resolve_right fun h => ?_
      exact Bool.noConfusion (hdev.symm.trans h.2.1)
  · rintro ⟨hwatched, hlisted⟩
    have hquiet : Quiet (settled host files devBuf mountBuf
        (settled host files devBuf mountBuf m).manager).actions := by
      rw [settled_again_quiet_iff]
      intro x hx hdev hmount
      exact (hwatched x hx hdev).resolve_right fun h => Bool.noConfusion (hmount.symm.trans h.1)
    refine ⟨_, _, hfirst, hsecond, hquiet, settled_disk_of_quiet hquiet, ?_, OrderedMap.nodup_keys _⟩
    rw [settled_keys_iff]
    simp only [hgone]
    refine ⟨fun x hx hw hu => ?_, hlisted⟩
    rw [wanted, Bool.and_eq_true] at hw
    exact ((hwatched x hx hw.1).resolve_left hu).2

-- Otherwise the scan runs over the end of a buffer.
lemma refresh_reads {r : Refreshed} (hp : host.partitions.isSome = true) (hm : host.mounts.isSome = true)
    (h : m.refresh host files = some r) : ∃ devBuf mountBuf, Reads host devBuf mountBuf := by
  obtain ⟨partitions, hp⟩ := Option.isSome_iff_exists.mp hp
  obtain ⟨mounts, hm⟩ := Option.isSome_iff_exists.mp hm
  obtain ⟨checked, hcheck, -⟩ := Option.bind_eq_some_iff.mp h
  simp only [devCheck, hp, hm] at hcheck
  obtain ⟨devBuf, hdev, hcheck⟩ := Option.bind_eq_some_iff.mp hcheck
  obtain ⟨mountBuf, hmount, -⟩ := Option.bind_eq_some_iff.mp hcheck
  refine ⟨devBuf, mountBuf, ?_, ?_⟩
  · rw [hp, Option.bind_some, hdev]
  · rw [hm, Option.bind_some, hmount]

def stickPartitions : Bytes :=
  bytes "major minor  #blocks  name\n\n   8        0   15646720 sda\n   8        1   15645696 sda1\n"

def stickMounts : Bytes := bytes "/dev/sda1 /mnt/usb1 ufsd rw 0 0\n"

def stickHost (mounts : Bytes) : Host where
  partitions := some stickPartitions
  mounts := some mounts
  mntent := []
  newDiskDev := fun name => ⟨name, []⟩
  accessible := fun _ => true
  pvrMd5 := List.replicate 32 48

def twoPartitions : Bytes := stickPartitions ++ bytes "   8       16    7823360 sdb\n"

def twoSticks : Host := { stickHost stickMounts with partitions := some twoPartitions }

end Tables

inductive Reachable : DiskManager → Prop
  | new {host : Host} {files : Files} {r : Refreshed} :
      new.refresh host files = some r → Reachable r.manager
  | refresh {m : DiskManager} {host : Host} {files : Files} {r : Refreshed} :
      Reachable m → m.refresh host files = some r → Reachable r.manager
  | umountDisk {m : DiskManager} (name : Bytes) : Reachable m → Reachable (m.umountDisk name).1
  | tag {w : TagWorld} (host : Host) (c : TagCall) :
      Reachable w.manager → Reachable (w.call host c).manager

lemma refresh_unreadable {r : Refreshed} (hu : host.partitions = none ∨ host.mounts = none)
    (hi : m.Idle) (h : m.refresh host files = some r) : r.manager.disk = m.disk ∧ r.manager.Idle := by
  have hcheck : m.devCheck host = some (m, -1) := by
    rw [devCheck]
    rcases hu with hu | hu
    · rw [hu]
    · rw [hu]
      split <;> rfl
  have hnone : each (removeDisk host) m m.removeDiskName = (m, []) := by
    rw [hi.remove]
    rfl
  have hattach (names : List Bytes) (removals : List Action) :
      let r := attach host files { m with removeDiskName := [], umountDiskName := names } removals
      r.manager.disk = m.disk ∧ r.manager.Idle := by
    simp only [attach_eq, hi.add, each]
    obtain ⟨hdisk, hadd, hremove, -⟩ := finished_fields
      { m with removeDiskName := [], umountDiskName := names }
    exact ⟨hdisk, hadd, hremove⟩
  simp only [refresh, hcheck, hnone, Option.bind_eq_bind, Option.bind_some] at h
  split at h
  · obtain rfl := Option.some.inj h
    exact hattach m.umountDiskName []
  · split at h
    · obtain rfl := Option.some.inj h
      exact ⟨rfl, hi.add, rfl⟩
    · obtain ⟨devBuf, -, h⟩ := Option.bind_eq_some_iff.mp h
      obtain rfl := Option.some.inj h
      exact hattach _ []

lemma refresh_cases {r : Refreshed} (hi : m.Idle) (h : m.refresh host files = some r) :
    (∃ devBuf mountBuf, r = settled host files devBuf mountBuf m)
      ∨ r.manager.disk = m.disk ∧ r.manager.Idle := by
  cases hp : host.partitions with
  | none => exact .inr (refresh_unreadable (.inl hp) hi h)
  | some partitions =>
    cases hm : host.mounts with
    | none => exact .inr (refresh_unreadable (.inr hm) hi h)
    | some mounts =>
      obtain ⟨devBuf, mountBuf, hr⟩ := refresh_reads (hp ▸ rfl) (hm ▸ rfl) h
      exact .inl ⟨devBuf, mountBuf, Option.some.inj (h.symm.trans (refresh_eq hr hi))⟩

lemma refresh_idle_named {r : Refreshed} (hi : m.Idle) (hn : ∀ name ∈ m.disk.keys, name ∈ devNameList)
    (h : m.refresh host files = some r) :
    r.manager.Idle ∧ ∀ name ∈ r.manager.disk.keys, name ∈ devNameList := by
  rcases refresh_cases hi h with ⟨devBuf, mountBuf, rfl⟩ | ⟨hdisk, hidle⟩
  · refine ⟨settled_idle, (settled_keys_iff _).mpr ⟨fun name hname _ _ => hname, fun name hname => ?_⟩⟩
    exact .inl (hn name hname)
  · exact ⟨hidle, hdisk ▸ hn⟩

theorem idle_named_of_reachable (h : Reachable m) :
    m.Idle ∧ ∀ name ∈ m.disk.keys, name ∈ devNameList := by
  induction h with
  | new hr => exact refresh_idle_named ⟨rfl, rfl⟩ (fun _ h => absurd h List.not_mem_nil) hr
  | refresh _ hr ih => exact refresh_idle_named ih.1 ih.2 hr
  | @umountDisk m name _ ih =>
    rw [umountDisk]
    split
    · exact ih
    · refine ⟨⟨ih.1.add, ih.1.remove⟩, fun n hn => ih.2 n ?_⟩
      rw [OrderedMap.mem_keys, OrderedMap.find?_erase] at hn
      rw [OrderedMap.mem_keys]
      split at hn
      · exact absurd hn nofun
      · exact hn
  | @tag w host c _ ih =>
    obtain ⟨hdisk, hadd, hremove⟩ := w.call_fields host c
    exact ⟨⟨hadd.trans ih.1.add, hremove.trans ih.1.remove⟩, hdisk ▸ ih.2⟩

end DiskManager

end SimpleCode.Sys
