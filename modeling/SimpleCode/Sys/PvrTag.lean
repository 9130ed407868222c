import SimpleCode.Foundations.Runs
import SimpleCode.Sys.DiskManager

set_option autoImplicit false

/-! The recording tag over any sequence of `setPvrTag` and `removePvrTag` calls: when the tag file
lies on one partition at most, the recorded one exactly when the manager says that it has one. -/

namespace SimpleCode.Sys

open Foundations

namespace DiskManager

def partition (m : DiskManager) (place : Bytes × Bytes) : Option DiskPartition :=
  (m.getDiskDevice place.1).bind fun disk => disk.getPartition place.2

variable {host : Host} {files : Files} {m : DiskManager} {place : Bytes × Bytes}
  {p : DiskPartition}

lemma removePvrTag_absent (h : m.partition place = none) :
    (m.removePvrTag files place.1 place.2).1 = (m, files) := by
  rw [removePvrTag]
  cases hd : m.getDiskDevice place.1 with
  | none => rfl
  | some disk =>
    rw [partition, hd, Option.bind_some] at h
    simp only [h]

lemma removePvrTag_present (h : m.partition place = some p) :
    (m.removePvrTag files place.1 place.2).1
      = ({ m with havePvrDisk := false, pvrDiskName := [], pvrPartitionName := [] },
          Function.update files p.tagPath none) := by
  obtain ⟨disk, hd, hp⟩ := Option.bind_eq_some_iff.mp h
  simp only [removePvrTag, hd, hp]

lemma writePvrTag_absent (h : m.partition place = none) :
    (m.writePvrTag host files place.1 place.2).1 = (m, files) := by
  rw [writePvrTag]
  cases hd : m.getDiskDevice place.1 with
  | none => rfl
  | some disk =>
    rw [partition, hd, Option.bind_some] at h
    simp only [h]

lemma writePvrTag_present (h : m.partition place = some p) :
    (m.writePvrTag host files place.1 place.2).1
      = ({ m with havePvrDisk := true, pvrDiskName := place.1, pvrPartitionName := place.2 },
          Function.update files p.tagPath (some host.pvrMd5)) := by
  obtain ⟨disk, hd, hp⟩ := Option.bind_eq_some_iff.mp h
  simp only [writePvrTag, hd, hp]

lemma setPvrTag_recorded (hhave : m.havePvrDisk = true)
    (h : (m.pvrDiskName, m.pvrPartitionName) = place) :
    (m.setPvrTag host files place.1 place.2).1 = (m, files) := by
  subst h
  rw [setPvrTag, if_pos hhave, if_pos ⟨rfl, rfl⟩]

lemma setPvrTag_absent (h : m.partition place = none) :
    (m.setPvrTag host files place.1 place.2).1 = (m, files) := by
  rw [setPvrTag]
  split
  · split
    · rfl
    · rw [removePvrTag_absent h]
      exact writePvrTag_absent h
  · exact writePvrTag_absent h

-- Also where the tag moves, what is unlinked is the file of the new place.
lemma setPvrTag_present (h : m.partition place = some p)
    (hnew : m.havePvrDisk = true → (m.pvrDiskName, m.pvrPartitionName) ≠ place) :
    (m.setPvrTag host files place.1 place.2).1
      = ({ m with havePvrDisk := true, pvrDiskName := place.1, pvrPartitionName := place.2 },
          Function.update files p.tagPath (some host.pvrMd5)) := by
  rw [setPvrTag]
  split
  · next hhave =>
    have hp : ({ m with havePvrDisk := false, pvrDiskName := [], pvrPartitionName := [] } :
      DiskManager).partition place = some p := h
    rw [if_neg fun hrec => hnew hhave (Prod.ext hrec.1 hrec.2), removePvrTag_present h]
    simp only [writePvrTag_present hp, Function.update_idem]
  · exact writePvrTag_present h

end DiskManager

structure TagWorld where
  manager : DiskManager
  files : Files

inductive TagCall
  | setPvrTag (place : Bytes × Bytes)
  | removePvrTag (place : Bytes × Bytes)

namespace TagWorld

variable (host : Host) (w : TagWorld)

def call (w : TagWorld) : TagCall → TagWorld
  | .setPvrTag place =>
    let after := (w.manager.setPvrTag host w.files place.1 place.2).1
    ⟨after.1, after.2⟩
  | .removePvrTag place =>
    let after := (w.manager.removePvrTag w.files place.1 place.2).1
    ⟨after.1, after.2⟩

def recorded : Bytes × Bytes := (w.manager.pvrDiskName, w.manager.pvrPartitionName)

def Carries (place : Bytes × Bytes) : Prop :=
  ∃ p, w.manager.partition place = some p ∧ w.files p.tagPath ≠ none

structure Consistent : Prop where
  single : ∀ x y, w.Carries x → w.Carries y → x = y
  recorded : w.Carries w.recorded ↔ w.manager.havePvrDisk = true

-- No partition but the one that is to carry the tag has a tag file, or would get one with it.
def Unshared : TagCall → Prop
  | .setPvrTag place => ∀ p, w.manager.partition place = some p →
      ∀ other ≠ place, ∀ q, w.manager.partition other = some q →
        q.tagPath ≠ p.tagPath ∧ w.files q.tagPath = none
  | .removePvrTag _ => True

variable {host} {w} {place : Bytes × Bytes} {p : DiskPartition}

lemma call_fields (host : Host) (c : TagCall) : (w.call host c).manager.disk = w.manager.disk
    ∧ (w.call host c).manager.addDiskName = w.manager.addDiskName
    ∧ (w.call host c).manager.removeDiskName = w.manager.removeDiskName := by
  cases c with
  | setPvrTag place =>
    cases hp : w.manager.partition place with
    | none =>
      simp only [call, DiskManager.setPvrTag_absent hp, and_self]
    | some p =>
      by_cases hnew : w.manager.havePvrDisk = true → w.recorded ≠ place
      · simp only [call, DiskManager.setPvrTag_present hp hnew, and_self]
      · simp only [Classical.not_imp, not_not] at hnew
        simp only [call, DiskManager.setPvrTag_recorded hnew.1 hnew.2, and_self]
  | removePvrTag place =>
    cases hp : w.manager.partition place with
    | none =>
      simp only [call, DiskManager.removePvrTag_absent hp, and_self]
    | some p =>
      simp only [call, DiskManager.removePvrTag_present hp, and_self]

lemma unshared_of_recorded (hw : w.Consistent) (hhave : w.manager.havePvrDisk = true)
    (hrec : w.recorded = place) : w.Unshared (.setPvrTag place) := by
  intro p hp other hother q hq
  obtain ⟨p', hp', hfile⟩ := hw.recorded.mpr hhave
  obtain rfl : p' = p := Option.some.inj ((hrec ▸ hp').symm.trans hp)
  have hno : w.files q.tagPath = none := by
    by_contra hne
    exact hother ((hw.single other w.recorded ⟨q, hq, hne⟩ (hw.recorded.mpr hhave)).trans hrec)
  exact ⟨fun heq => hfile (heq ▸ hno), hno⟩

lemma consistent_set_iff (hp : w.manager.partition place = some p)
    (hnew : w.manager.havePvrDisk = true → w.recorded ≠ place) :
    (w.call host (.setPvrTag place)).Consistent ↔ w.Unshared (.setPvrTag place) := by
  have hcall : w.call host (.setPvrTag place)
      = ⟨{ w.manager with
            havePvrDisk := true
            pvrDiskName := place.1
            pvrPartitionName := place.2 },
          Function.update w.files p.tagPath (some host.pvrMd5)⟩ := by
    simp only [call, DiskManager.setPvrTag_present hp hnew]
  have hself : (w.call host (.setPvrTag place)).Carries place := by
    rw [hcall]
    refine ⟨p, hp, ?_⟩
    simp only [Function.update_self]
    exact Option.some_ne_none _
  constructor
  · rintro ⟨hsingle, -⟩ p' hp' other hother q hq
    obtain rfl : p = p' := Option.some.inj (hp.symm.trans hp')
    have hno : ¬ (w.call host (.setPvrTag place)).Carries other := fun hc =>
      hother (hsingle other place hc hself)
    rw [hcall] at hno
    have hq' : Function.update w.files p.tagPath (some host.pvrMd5) q.tagPath = none := by
      by_contra hne
      exact hno ⟨q, hq, hne⟩
    by_cases hpath : q.tagPath = p.tagPath
    · rw [hpath, Function.update_self] at hq'
      exact absurd hq' (Option.some_ne_none _)
    · rw [Function.update_of_ne hpath] at hq'
      exact ⟨hpath, hq'⟩
  · intro hun
    have honly : ∀ x, (w.call host (.setPvrTag place)).Carries x → x = place := by
      intro x hx
      by_contra hne
      rw [hcall] at hx
      obtain ⟨q, hq, hfile⟩ := hx
      obtain ⟨hpath, hnone⟩ := hun p hp x hne q hq
      simp only [Function.update_of_ne hpath] at hfile
      exact hfile hnone
    refine ⟨fun x y hx hy => (honly x hx).trans (honly y hy).symm, ?_⟩
    have hrec : (w.call host (.setPvrTag place)).recorded = place := by
      rw [hcall]
      rfl
    have hhave : (w.call host (.setPvrTag place)).manager.havePvrDisk = true := by rw [hcall]
    rw [hrec]
    exact ⟨fun _ => hhave, fun _ => hself⟩

lemma consistent_remove (hempty : w.manager.getDiskDevice [] = none) (hw : w.Consistent) :
    (w.call host (.removePvrTag place)).Consistent := by
  cases hp : w.manager.partition place with
  | none =>
    have hcall : w.call host (.removePvrTag place) = w := by
      simp only [call, DiskManager.removePvrTag_absent hp]
    rw [hcall]
    exact hw
  | some p =>
    have hcall : w.call host (.removePvrTag place)
        = ⟨{ w.manager with havePvrDisk := false, pvrDiskName := [], pvrPartitionName := [] },
            Function.update w.files p.tagPath none⟩ := by
      simp only [call, DiskManager.removePvrTag_present hp]
    have hstill : ∀ x, (w.call host (.removePvrTag place)).Carries x → w.Carries x := by
      rw [hcall]
      rintro x ⟨q, hq, hfile⟩
      refine ⟨q, hq, ?_⟩
      by_cases hpath : q.tagPath = p.tagPath
      · simp only [hpath, Function.update_self] at hfile
        exact absurd rfl hfile
      · simpa only [Function.update_of_ne hpath] using hfile
    refine ⟨fun x y hx hy => hw.single x y (hstill x hx) (hstill y hy), ?_⟩
    rw [hcall]
    refine ⟨?_, fun h => absurd h Bool.false_ne_true⟩
    rintro ⟨q, hq, -⟩
    have hnone : DiskManager.getDiskDevice { w.manager with
        havePvrDisk := false, pvrDiskName := [], pvrPartitionName := [] } [] = none := hempty
    rw [recorded, DiskManager.partition, hnone] at hq
    exact absurd hq nofun

lemma consistent_call_iff (hempty : w.manager.getDiskDevice [] = none) (hw : w.Consistent)
    (c : TagCall) : (w.call host c).Consistent ↔ w.Unshared c := by
  cases c with
  | setPvrTag place =>
    cases hp : w.manager.partition place with
    | none =>
      have hcall : w.call host (.setPvrTag place) = w := by
        simp only [call, DiskManager.setPvrTag_absent hp]
      rw [hcall]
      exact ⟨fun _ p' hp' => absurd (hp.symm.trans hp') nofun, fun _ => hw⟩
    | some p =>
      by_cases hnew : w.manager.havePvrDisk = true → w.recorded ≠ place
      · exact consistent_set_iff hp hnew
      · simp only [Classical.not_imp, not_not] at hnew
        have hcall : w.call host (.setPvrTag place) = w := by
          simp only [call, DiskManager.setPvrTag_recorded hnew.1 hnew.2]
        rw [hcall]
        exact ⟨fun _ => unshared_of_recorded hw hnew.1 hnew.2, fun _ => hw⟩
  | removePvrTag place => exact ⟨fun _ => trivial, fun _ => consistent_remove hempty hw⟩

theorem tag_consistent_iff (calls : List TagCall) (hempty : w.manager.getDiskDevice [] = none)
    (hhave : w.manager.havePvrDisk = false) (hno : ∀ place, ¬ w.Carries place) :
    (∀ pre, pre <+: calls → (pre.foldl (call host) w).Consistent)
      ↔ ∀ pre c, pre ++ [c] <+: calls → (pre.foldl (call host) w).Unshared c := by
  have hw : w.Consistent := by
    refine ⟨fun x _ hx => absurd hx (hno x), ?_⟩
    rw [hhave]
    exact ⟨fun h => absurd h (hno w.recorded), fun h => absurd h nofun⟩
  refine always_iff (J := fun w : TagWorld => w.manager.getDiskDevice [] = none) (fun s c hs => ?_)
    (fun s c hs hI => consistent_call_iff hs hI c) hempty hw
  rw [DiskManager.getDiskDevice, (call_fields host c).1]
  exact hs

def twoSticks : TagWorld where
  manager :=
    { DiskManager.new with
      disk := (OrderedMap.empty.insert (bytes "sda") ⟨bytes "sda",
          [⟨bytes "sda1", bytes "/mnt/usb1"⟩]⟩).insert (bytes "sdb") ⟨bytes "sdb",
          [⟨bytes "sdb1", bytes "/mnt/usb2"⟩]⟩ }
  files := fun _ => none

def idleHost : Host where
  partitions := none
  mounts := none
  mntent := []
  newDiskDev := fun name => ⟨name, []⟩
  accessible := fun _ => true
  pvrMd5 := List.replicate 32 48

theorem tag_consistent_iff_moved :
    (∀ pre, pre <+: [.setPvrTag (bytes "sda", bytes "sda1"),
        .removePvrTag (bytes "sda", bytes "sda1"), .setPvrTag (bytes "sdb", bytes "sdb1")] →
      (pre.foldl (call idleHost) twoSticks).Consistent)
      ↔ ∀ pre c, pre ++ [c] <+: [.setPvrTag (bytes "sda", bytes "sda1"),
        .removePvrTag (bytes "sda", bytes "sda1"), .setPvrTag (bytes "sdb", bytes "sdb1")] →
      (pre.foldl (call idleHost) twoSticks).Unshared c :=
  tag_consistent_iff _ (by decide) rfl fun _ ⟨_, _, h⟩ => h rfl

-- Two calls with two targets leave a tag file on both partitions.
theorem tag_left_behind : (∀ place, ¬ twoSticks.Carries place)
    ∧ ¬ ([.setPvrTag (bytes "sda", bytes "sda1"), .setPvrTag (bytes "sdb", bytes "sdb1")].foldl
      (call idleHost) twoSticks).Consistent := by
  refine ⟨fun _ ⟨_, _, h⟩ => h rfl, fun h => ?_⟩
  have hsame := h.single (bytes "sda", bytes "sda1") (bytes "sdb", bytes "sdb1")
    ⟨⟨bytes "sda1", bytes "/mnt/usb1"⟩, by decide, by decide⟩
    ⟨⟨bytes "sdb1", bytes "/mnt/usb2"⟩, by decide, by decide⟩
  exact absurd hsame (by decide)

end TagWorld

end SimpleCode.Sys
