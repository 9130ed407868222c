import SimpleCode.Foundations.CString
import SimpleCode.Sys.DiskManager

set_option autoImplicit false

/-! What a partition decides from the mount table: whether it is mounted, where, and which mount point is
free. All of it is looked for in the text of the table. -/

namespace SimpleCode.Sys.MountTable

open Foundations

structure Field where
  chars : Bytes
  ne : chars ≠ []
  noNul : (0 : UInt8) ∉ chars
deriving DecidableEq

structure Entry where
  fsname : Field
  dir : Field
  type : Field
  opts : Field
deriving DecidableEq

-- The characters that the table has as three octal digits after a backslash.
def octal : Bytes := bytes " \t\n\\"

def mangleChar (c : UInt8) : Bytes :=
  if c ∈ octal then [92, 48 + c / 64, 48 + c / 8 % 8, 48 + c % 8] else [c]

def mangle (s : Bytes) : Bytes := s.flatMap mangleChar

def Entry.cells (e : Entry) : List (Bytes × UInt8) :=
  [(mangle e.fsname.chars, 32), (mangle e.dir.chars, 32), (mangle e.type.chars, 32), (mangle e.opts.chars, 32),
    (bytes "0", 32), (bytes "0", 10)]

def Entry.words (e : Entry) : List Bytes := e.cells.map Prod.fst

def text (table : List Entry) : Bytes := (table.flatMap Entry.cells).flatMap fun cell => cell.1 ++ [cell.2]

-- A line that starts with `#` is a comment.
def getmntent (table : List Entry) : List Entry := table.filter fun e => e.fsname.chars.head? ≠ some 35

structure Name where
  chars : Bytes
  plain : ∀ c ∈ chars, c ≠ 0 ∧ c ∉ octal

-- `none` is a file that is not there; `mount` and `statfs` are the system calls.
structure System where
  mounts : Option (List Entry)
  filesystems : Option Bytes
  accessible : Bytes → Bool
  mount : Bytes → Bytes → Bytes → ℤ
  statfs : Bytes → Option (ℤ × ℤ × ℤ)

structure Partition where
  name : Name
  isFormate : Bool
  isMount : Bool
  mountPoint : Bytes
  totalSize : ℤ
  freeSize : ℤ
  fsType : ℤ

variable (sys : System)

def devName (name : Name) : Bytes := bytes "/dev/" ++ name.chars

def checkMountStatus (name : Name) : Option ℤ :=
  match sys.mounts with
  | none => some (-1)
  | some table => (readBuf 4096 (text table)).map fun mountBuf =>
    if strstr mountBuf (devName name) then 1 else 0

def mountDir (i : ℕ) : Bytes := bytes "/mnt/usb" ++ CString.printInt i

def getFreeMountPoint : Option Bytes :=
  match sys.mounts with
  | none => some (bytes "/mnt/usb1")
  | some table => (readBuf 4096 (text table)).map fun mountBuf =>
    match (List.range' 1 16).find? fun i => !strstr mountBuf (mountDir i) && sys.accessible (mountDir i) with
    | some i => mountDir i
    | none => bytes "/mnt/usb1"

-- The type that is set, and what the last `mount` returned.
def tryMount (fsType : ℤ) (dev point : Bytes) : Option (ℤ × ℤ) :=
  match sys.filesystems with
  | none => some (fsType, -1)
  | some filesystems => (readBuf 1024 filesystems).map fun fsBuf =>
    let (fsType, ret) :=
      if strstr fsBuf (bytes "vfat") then (0x4d44, sys.mount dev point (bytes "vfat")) else (fsType, 0)
    let (fsType, ret) :=
      if ret ≠ 0 ∧ strstr fsBuf (bytes "ext3") then (0xEF53, sys.mount dev point (bytes "ext3"))
      else (fsType, ret)
    let (fsType, ret) :=
      if ret ≠ 0 ∧ strstr fsBuf (bytes "ext2") then (0xEF52, sys.mount dev point (bytes "ext2"))
      else (fsType, ret)
    let (fsType, ret) :=
      if ret ≠ 0 then (0x5346544e, sys.mount dev point (bytes "ufsd")) else (fsType, ret)
    if ret ≠ 0 then (0, ret) else (fsType, ret)

def measure (p : Partition) : Partition × ℤ :=
  match sys.statfs p.mountPoint with
  | none => (p, -1)
  | some (bsize, blocks, bfree) =>
    ({ p with
      totalSize := (bsize * blocks).bmod (2 ^ 64)
      freeSize := (bsize * bfree).bmod (2 ^ 64) }, 0)

-- The first entry whose device contains the name.
def findEntry (name : Name) : Option Entry :=
  (getmntent (sys.mounts.getD [])).find? fun e => strstr e.fsname.chars name.chars

def mountPartition (p : Partition) : Option (Partition × ℤ) :=
  if !p.isFormate then some (p, -1)
  else if p.isMount then some (p, 0)
  else do
    let status ← checkMountStatus sys p.name
    if status = 0 then
      let point ← getFreeMountPoint sys
      let (fsType, ret) ← tryMount sys p.fsType (devName p.name) point
      let p := { p with
        mountPoint := point
        fsType
        isMount := decide (ret = 0) }
      some (if ret ≠ 0 then (p, -1) else measure sys p)
    else
      match findEntry sys p.name with
      | none => some (measure sys { p with isMount := true })
      | some e => some (measure sys { p with
        isMount := true
        mountPoint := e.dir.chars
        fsType := if e.type.chars = bytes "ext3" then 0xEF53 else 0x5346544e })

section Text

variable {table : List Entry} {tag : Bytes} {e : Entry}

lemma zero_notMem_mangle {s : Bytes} (h : (0 : UInt8) ∉ s) : (0 : UInt8) ∉ mangle s := by
  have hoctal : ∀ c ∈ octal, (0 : UInt8) ∉ mangleChar c := by decide +kernel
  intro hmem
  obtain ⟨c, hc, hzero⟩ := List.mem_flatMap.mp hmem
  by_cases hin : c ∈ octal
  · exact hoctal c hin hzero
  · rw [mangleChar, if_neg hin, List.mem_singleton] at hzero
    exact h (hzero ▸ hc)

lemma mangle_plain {s : Bytes} (h : ∀ c ∈ s, c ∉ octal) : mangle s = s := by
  induction s with
  | nil => rfl
  | cons c s ih =>
    have hrest := ih (fun c' hc' => h c' (List.mem_cons_of_mem c hc'))
    rw [mangle] at hrest ⊢
    rw [List.flatMap_cons, hrest, mangleChar, if_neg (h c List.mem_cons_self), List.singleton_append]

lemma zero_notMem_text (table : List Entry) : (0 : UInt8) ∉ text table := by
  intro h
  obtain ⟨cell, hcell, hzero⟩ := List.mem_flatMap.mp h
  obtain ⟨e, -, hcell⟩ := List.mem_flatMap.mp hcell
  have hfield (f : Field) {c : UInt8} (hc : c ≠ 0) : (0 : UInt8) ∉ mangle f.chars ++ [c] := by
    rw [List.mem_append, List.mem_singleton]
    rintro (hmem | rfl)
    · exact zero_notMem_mangle f.noNul hmem
    · exact hc rfl
  simp only [Entry.cells, List.mem_cons, List.not_mem_nil, or_false] at hcell
  rcases hcell with rfl | rfl | rfl | rfl | rfl | rfl
  · exact hfield e.fsname (c := 32) (by decide) hzero
  · exact hfield e.dir (c := 32) (by decide) hzero
  · exact hfield e.type (c := 32) (by decide) hzero
  · exact hfield e.opts (c := 32) (by decide) hzero
  · exact absurd hzero (by decide)
  · exact absurd hzero (by decide)

lemma readBuf_text (h : (text table).length < 4096) : readBuf 4096 (text table) = some (text table) := by
  rw [readBuf, if_pos (.inl h), List.take_of_length_le h.le, Option.some.injEq, List.takeWhile_eq_self_iff]
  intro c hc
  refine decide_eq_true ?_
  rintro rfl
  exact zero_notMem_text table hc

lemma strstr_iff {s : Bytes} : strstr s tag = true ↔ tag <:+: s := by
  rw [strstr, ← not_iff_not, Bool.not_eq_true, Option.isSome_eq_false_iff, Option.isNone_iff_eq_none,
    Bytes.find_eq_none]

theorem strstr_text (hne : tag ≠ []) (htag : (32 : UInt8) ∉ tag ∧ (10 : UInt8) ∉ tag) :
    strstr (text table) tag = true ↔ ∃ e ∈ table, ∃ w ∈ e.words, tag <:+: w := by
  have hseps : ∀ cell ∈ table.flatMap Entry.cells, cell.2 ∉ tag := by
    intro cell hcell
    obtain ⟨e, -, hcell⟩ := List.mem_flatMap.mp hcell
    have hsep : cell.2 = 32 ∨ cell.2 = 10 := by
      simp only [Entry.cells, List.mem_cons, List.not_mem_nil, or_false] at hcell
      rcases hcell with rfl | rfl | rfl | rfl | rfl | rfl
      · exact .inl rfl
      · exact .inl rfl
      · exact .inl rfl
      · exact .inl rfl
      · exact .inl rfl
      · exact .inr rfl
    rcases hsep with hspace | hline
    · exact hspace ▸ htag.1
    · exact hline ▸ htag.2
  rw [strstr_iff, text, Bytes.infix_flatMap hne hseps]
  constructor
  · rintro ⟨w, hw, hin⟩
    obtain ⟨cell, hcell, rfl⟩ := List.mem_map.mp hw
    obtain ⟨e, he, hcell⟩ := List.mem_flatMap.mp hcell
    exact ⟨e, he, cell.1, List.mem_map_of_mem hcell, hin⟩
  · rintro ⟨e, he, w, hw, hin⟩
    obtain ⟨cell, hcell, rfl⟩ := List.mem_map.mp hw
    exact ⟨cell.1, List.mem_map_of_mem (List.mem_flatMap.mpr ⟨e, he, hcell⟩), hin⟩

lemma fsname_mem_words (e : Entry) : mangle e.fsname.chars ∈ e.words := List.mem_cons_self

lemma dir_mem_words (e : Entry) : mangle e.dir.chars ∈ e.words := List.mem_cons_of_mem _ List.mem_cons_self

lemma devName_plain (name : Name) : ∀ c ∈ devName name, c ≠ 0 ∧ c ∉ octal := by
  have hdev : ∀ c ∈ bytes "/dev/", c ≠ 0 ∧ c ∉ octal := by decide +kernel
  intro c hc
  rcases List.mem_append.mp hc with hc | hc
  · exact hdev c hc
  · exact name.plain c hc

lemma mountDir_plain {i : ℕ} (hi : i ∈ List.range' 1 16) : ∀ c ∈ mountDir i, c ≠ 0 ∧ c ∉ octal := by
  have h : ∀ i ∈ List.range' 1 16, ∀ c ∈ mountDir i, c ≠ 0 ∧ c ∉ octal := by decide +kernel
  exact h i hi

lemma blank_notMem (h : ∀ c ∈ tag, c ≠ 0 ∧ c ∉ octal) : (32 : UInt8) ∉ tag ∧ (10 : UInt8) ∉ tag :=
  ⟨fun hmem => (h _ hmem).2 (by decide), fun hmem => (h _ hmem).2 (by decide)⟩

end Text

section Decisions

variable {sys : System} {table : List Entry} {name : Name} {p : Partition}

def IsDevice (name : Name) (e : Entry) : Prop := e.fsname.chars = devName name

instance (name : Name) (e : Entry) : Decidable (IsDevice name e) := inferInstanceAs (Decidable (_ = _))

/-- The answers are about the entry of the device, and about the directories of the entries. -/
structure DecidesMounts (sys : System) (table : List Entry) (name : Name) : Prop where
  check : checkMountStatus sys name = some 1 ↔ ∃ e ∈ table, IsDevice name e
  dir : ∀ p : Partition, p.name = name → p.isFormate = true → p.isMount = false →
    checkMountStatus sys name = some 1 →
    ∃ e ∈ table, IsDevice name e ∧ (mountPartition sys p).map (·.1.mountPoint) = some e.dir.chars
  free : ∃ point, getFreeMountPoint sys = some point ∧ ∀ e ∈ table, e.dir.chars ≠ point

/-- No other text of the table contains what is searched for, as far as that matters. -/
structure Unambiguous (sys : System) (table : List Entry) (name : Name) : Prop where
  device : (∃ e ∈ table, IsDevice name e) ∨ ∀ e ∈ table, ∀ w ∈ e.words, ¬ devName name <:+: w
  first : (∃ e ∈ table, IsDevice name e) → ∀ e ∈ (getmntent table).find? (fun e => strstr e.fsname.chars name.chars),
    ∃ e' ∈ table, IsDevice name e' ∧ e'.dir = e.dir
  point : (∃ i ∈ List.range' 1 16, sys.accessible (mountDir i) = true
      ∧ ∀ e ∈ table, ∀ w ∈ e.words, ¬ mountDir i <:+: w)
    ∨ ∀ e ∈ table, e.dir.chars ≠ bytes "/mnt/usb1"

lemma checkMountStatus_iff (hmounts : sys.mounts = some table) (h : (text table).length < 4096) :
    checkMountStatus sys name = some 1 ↔ ∃ e ∈ table, ∃ w ∈ e.words, devName name <:+: w := by
  rw [← strstr_text (by rw [devName]; exact List.cons_ne_nil _ _) (blank_notMem (devName_plain name)),
    checkMountStatus, hmounts]
  dsimp only
  rw [readBuf_text h, Option.map_some, Option.some.injEq]
  split_ifs with hstr
  · exact iff_of_true rfl hstr
  · exact iff_of_false (by decide) hstr

lemma devName_within {e : Entry} (h : IsDevice name e) : ∃ w ∈ e.words, devName name <:+: w := by
  refine ⟨_, fsname_mem_words e, ?_⟩
  rw [h, mangle_plain (fun c hc => (devName_plain name c hc).2)]

lemma check_iff (hmounts : sys.mounts = some table) (h : (text table).length < 4096) :
    (checkMountStatus sys name = some 1 ↔ ∃ e ∈ table, IsDevice name e)
      ↔ (∃ e ∈ table, IsDevice name e) ∨ ∀ e ∈ table, ∀ w ∈ e.words, ¬ devName name <:+: w := by
  rw [checkMountStatus_iff hmounts h]
  constructor
  · intro hiff
    by_cases hdevice : ∃ e ∈ table, IsDevice name e
    · exact .inl hdevice
    · exact .inr (fun e he w hw hin => hdevice (hiff.mp ⟨e, he, w, hw, hin⟩))
  · rintro (⟨e, he, hdevice⟩ | hnone)
    · exact iff_of_true ⟨e, he, devName_within hdevice⟩ ⟨e, he, hdevice⟩
    · refine iff_of_false (fun ⟨e, he, w, hw, hin⟩ => hnone e he w hw hin) ?_
      rintro ⟨e, he, hdevice⟩
      obtain ⟨w, hw, hin⟩ := devName_within hdevice
      exact hnone e he w hw hin

lemma measure_mountPoint (p : Partition) : (measure sys p).1.mountPoint = p.mountPoint := by
  rw [measure]
  cases sys.statfs p.mountPoint <;> rfl

lemma mountPartition_mounted {e : Entry} (hformate : p.isFormate = true) (hmount : p.isMount = false)
    (hcheck : checkMountStatus sys p.name = some 1) (he : findEntry sys p.name = some e) :
    (mountPartition sys p).map (·.1.mountPoint) = some e.dir.chars := by
  rw [mountPartition, hformate, hmount, hcheck, he]
  exact congrArg some (measure_mountPoint _)

lemma findEntry_isSome (hmounts : sys.mounts = some table) (h : ∃ e ∈ table, IsDevice name e) :
    (findEntry sys name).isSome = true := by
  obtain ⟨e, he, hdevice⟩ := h
  rw [findEntry, hmounts, Option.getD_some, List.find?_isSome]
  refine ⟨e, List.mem_filter.mpr ⟨he, ?_⟩, ?_⟩
  · rw [hdevice]
    rfl
  · rw [hdevice, strstr_iff]
    exact (List.suffix_append _ _).isInfix

lemma dir_iff (hmounts : sys.mounts = some table) (h : ∃ e ∈ table, IsDevice name e)
    (hcheck : checkMountStatus sys name = some 1) :
    (∀ p : Partition, p.name = name → p.isFormate = true → p.isMount = false →
      ∃ e ∈ table, IsDevice name e ∧ (mountPartition sys p).map (·.1.mountPoint) = some e.dir.chars)
      ↔ ∀ e ∈ findEntry sys name, ∃ e' ∈ table, IsDevice name e' ∧ e'.dir = e.dir := by
  constructor
  · intro hdir e he
    let p : Partition := ⟨name, true, false, [], 0, 0, 0⟩
    obtain ⟨e', he', hdevice, hpoint⟩ := hdir p rfl rfl rfl
    rw [mountPartition_mounted (p := p) rfl rfl hcheck he, Option.some.injEq] at hpoint
    refine ⟨e', he', hdevice, ?_⟩
    cases hfield : e'.dir
    cases hfield' : e.dir
    rw [hfield, hfield'] at hpoint
    cases hpoint
    rfl
  · rintro hfirst p rfl hformate hmount
    obtain ⟨e, he⟩ := Option.isSome_iff_exists.mp (findEntry_isSome hmounts h)
    obtain ⟨e', he', hdevice, hdir⟩ := hfirst e he
    exact ⟨e', he', hdevice, by rw [mountPartition_mounted hformate hmount hcheck he, hdir]⟩

lemma mountDir_within {i : ℕ} (hi : i ∈ List.range' 1 16) :
    strstr (text table) (mountDir i) = true ↔ ∃ e ∈ table, ∃ w ∈ e.words, mountDir i <:+: w :=
  strstr_text (List.cons_ne_nil _ _) (blank_notMem (mountDir_plain hi))

theorem free_iff (hmounts : sys.mounts = some table) (h : (text table).length < 4096) :
    (∃ point, getFreeMountPoint sys = some point ∧ ∀ e ∈ table, e.dir.chars ≠ point)
      ↔ (∃ i ∈ List.range' 1 16, sys.accessible (mountDir i) = true
          ∧ ∀ e ∈ table, ∀ w ∈ e.words, ¬ mountDir i <:+: w)
        ∨ ∀ e ∈ table, e.dir.chars ≠ bytes "/mnt/usb1" := by
  rw [getFreeMountPoint, hmounts]
  dsimp only
  rw [readBuf_text h]
  simp only [Option.map_some, Option.some.injEq, exists_eq_left']
  cases hfind : (List.range' 1 16).find? fun i =>
      !strstr (text table) (mountDir i) && sys.accessible (mountDir i) with
  | some i =>
    have hi := List.mem_of_find?_eq_some hfind
    have hfound := List.find?_some hfind
    rw [Bool.and_eq_true, Bool.not_eq_true'] at hfound
    have hnone : ∀ e ∈ table, ∀ w ∈ e.words, ¬ mountDir i <:+: w := by
      intro e he w hw hin
      exact absurd ((mountDir_within hi).mpr ⟨e, he, w, hw, hin⟩) (Bool.eq_false_iff.mp hfound.1)
    refine iff_of_true (fun e he hdir => ?_) (.inl ⟨i, hi, hfound.2, hnone⟩)
    refine hnone e he _ (dir_mem_words e) ?_
    rw [hdir, mangle_plain (fun c hc => (mountDir_plain hi c hc).2)]
  | none =>
    rw [or_iff_right]
    rintro ⟨i, hi, haccess, hnone⟩
    refine absurd (List.find?_eq_none.mp hfind i hi) (not_not.mpr ?_)
    rw [Bool.and_eq_true, Bool.not_eq_true', Bool.eq_false_iff, Ne, mountDir_within hi]
    exact ⟨fun ⟨e, he, w, hw, hin⟩ => hnone e he w hw hin, haccess⟩

theorem decidesMounts_iff (hmounts : sys.mounts = some table) (h : (text table).length < 4096) :
    DecidesMounts sys table name ↔ Unambiguous sys table name := by
  have hfindEntry : findEntry sys name = (getmntent table).find? fun e => strstr e.fsname.chars name.chars := by
    rw [findEntry, hmounts, Option.getD_some]
  constructor
  · rintro ⟨hcheck, hdir, hfree⟩
    refine ⟨(check_iff hmounts h).mp hcheck, fun hdevice => ?_, (free_iff hmounts h).mp hfree⟩
    have hone := hcheck.mpr hdevice
    rw [← hfindEntry]
    exact (dir_iff hmounts hdevice hone).mp (fun p hp hformate hmount => hdir p hp hformate hmount hone)
  · rintro ⟨hdevice, hfirst, hpoint⟩
    have hcheck := (check_iff hmounts h).mpr hdevice
    refine ⟨hcheck, fun p hp hformate hmount hone => ?_, (free_iff hmounts h).mpr hpoint⟩
    have hexists := hcheck.mp hone
    exact (dir_iff hmounts hexists hone).mpr (hfindEntry ▸ hfirst hexists) p hp hformate hmount

def tenth : List Entry :=
  [⟨⟨bytes "/dev/sda10", by decide, by decide⟩, ⟨bytes "/mnt/usb1", by decide, by decide⟩,
    ⟨bytes "vfat", by decide, by decide⟩, ⟨bytes "rw", by decide, by decide⟩⟩]

def tenthMounted : System := ⟨some tenth, none, fun _ => true, fun _ _ _ => 0, fun _ => none⟩

def sda1 : Name := ⟨bytes "sda1", by decide +kernel⟩

theorem decidesMounts_iff_sda1 : (text tenth).length < 4096
    ∧ (DecidesMounts tenthMounted tenth sda1 ↔ Unambiguous tenthMounted tenth sda1) :=
  ⟨by decide, decidesMounts_iff rfl (by decide)⟩

-- The first partition is taken for mounted, at the directory of the tenth one.
theorem sda1_taken_for_sda10 : ¬ DecidesMounts tenthMounted tenth sda1
    ∧ checkMountStatus tenthMounted sda1 = some 1
    ∧ (mountPartition tenthMounted ⟨sda1, true, false, [], 0, 0, 0⟩).map (·.1.mountPoint)
      = some (bytes "/mnt/usb1") := by
  have hcheck : checkMountStatus tenthMounted sda1 = some 1 := by decide +kernel
  refine ⟨fun h => ?_, hcheck, by decide +kernel⟩
  exact absurd (h.check.mp hcheck) (by decide +kernel)

end Decisions

end SimpleCode.Sys.MountTable
