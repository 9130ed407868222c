import SimpleCode.LogC.LogC

set_option autoImplicit false

namespace SimpleCode.LogC

open Foundations CString

structure Registration where
  name : CString
  version : CString
  logType : ℤ

def register (modules : ModuleList) (r : Registration) : ModuleList :=
  (registerModule modules r.name r.version r.logType).2

def registered (rs : List Registration) : ModuleList := rs.foldl register []

def Registration.info (r : Registration) : ModuleInfo :=
  ⟨r.name.strncpy 12, r.version.strncpy 8, r.logType⟩

lemma foldl_register (modules : ModuleList) (rs : List Registration) :
    rs.foldl register modules = modules ++ (rs.take (moduleListSize - modules.length)).map
      Registration.info := by
  induction rs generalizing modules with
  | nil => simp
  | cons r rs ih =>
    rw [List.foldl_cons, ih]
    by_cases hfull : moduleListSize ≤ modules.length
    · have hzero : moduleListSize - modules.length = 0 := by omega
      rw [register, registerModule, if_pos hfull, hzero]
      rfl
    · obtain ⟨k, hk⟩ : ∃ k, moduleListSize - modules.length = k + 1 :=
        ⟨moduleListSize - modules.length - 1, by omega⟩
      have hnext : moduleListSize - (modules ++ [r.info]).length = k := by
        rw [List.length_append, List.length_singleton]
        omega
      have hreg : register modules r = modules ++ [r.info] := by
        rw [register, registerModule, if_neg hfull]
        rfl
      rw [hreg, hnext, hk, List.take_succ_cons, List.map_cons, List.append_assoc,
        List.singleton_append]

lemma entry_registered {rs : List Registration} {k : ℕ} (hk : k < rs.length)
    (hsize : k < moduleListSize) : entry (registered rs) k = rs[k].info := by
  have htake : k < (rs.take moduleListSize).length := by
    rw [List.length_take]
    omega
  rw [registered, foldl_register, entry, List.nil_append, List.length_nil, Nat.sub_zero]
  simp [hk, hsize]

def dateText (dt : DateTime) : Bytes :=
  bytes "[" ++ monthStr.getD dt.month [] ++ bytes "-" ++ printPadded 2 dt.day ++ bytes "-" ++
    printPadded 4 dt.year.toNat ++ bytes ", " ++ weekStr.getD dt.dayOfWeek [] ++ bytes "]"

def clockText (dt : DateTime) : Bytes :=
  bytes "[" ++ printPadded 2 dt.hour ++ bytes ":" ++ printPadded 2 dt.minute ++ bytes ":" ++
    printPadded 2 dt.second ++ bytes "." ++ printPadded 3 (dt.uSecond / 1000) ++ bytes "] "

def timeText (dt : DateTime) : Bytes := dateText dt ++ clockText dt

lemma length_printInt {n w : ℕ} (hw : 0 < w) (h : n < 10 ^ w) : (printInt n).length ≤ w := by
  have hprint : printInt n = (Nat.toDigits 10 n).map fun c => UInt8.ofNat c.toNat := by
    change (toString (n : ℤ)).toList.map _ = _
    rw [show toString (n : ℤ) = n.repr from rfl, Nat.toList_repr]
  rw [hprint, List.length_map]
  exact (Nat.length_toDigits_le_iff (by decide) hw).mpr h

lemma length_printPadded {n w : ℕ} (hw : 0 < w) (h : n < 10 ^ w) :
    (printPadded w n).length = w := by
  have hle := length_printInt hw h
  rw [printPadded, List.length_append, List.length_replicate]
  omega

lemma length_printPadded_le {n w k : ℕ} (hw : 0 < w) (hwk : w ≤ k) (h : n < 10 ^ k) :
    (printPadded w n).length ≤ k := by
  have hle := length_printInt (hw.trans_le hwk) h
  rw [printPadded, List.length_append, List.length_replicate]
  omega

lemma length_month : ∀ month : Fin 13, (monthStr.getD month []).length ≤ 8 := by
  decide

lemma length_week : ∀ day : Fin 7, (weekStr.getD day []).length ≤ 5 := by
  decide

lemma length_marks : (bytes "[").length = 1 ∧ (bytes "]").length = 1 ∧ (bytes "] ").length = 2 ∧
    (bytes "-").length = 1 ∧ (bytes ", ").length = 2 ∧ (bytes ":").length = 1 ∧
    (bytes ".").length = 1 := by
  decide

lemma length_timeText (dt : DateTime) : (timeText dt).length ≤ 42 := by
  obtain ⟨hopen, hclose, hend, hdash, hcomma, hcolon, hdot⟩ := length_marks
  have hmonth := length_month dt.month
  have hweek := length_week dt.dayOfWeek
  have hday := length_printPadded (w := 2) (by decide) (show (dt.day : ℕ) < 10 ^ 2 by omega)
  have hyear := length_printPadded_le (w := 4) (k := 5) (by decide) (by decide)
    (show dt.year.toNat < 10 ^ 5 from dt.year.toNat_lt.trans (by decide))
  have hhour := length_printPadded (w := 2) (by decide) (show (dt.hour : ℕ) < 10 ^ 2 by omega)
  have hminute := length_printPadded (w := 2) (by decide) (show (dt.minute : ℕ) < 10 ^ 2 by omega)
  have hsecond := length_printPadded (w := 2) (by decide) (show (dt.second : ℕ) < 10 ^ 2 by omega)
  have hmsec := length_printPadded (w := 3) (by decide)
    (show (dt.uSecond : ℕ) / 1000 < 10 ^ 3 by omega)
  simp only [timeText, dateText, clockText, List.length_append, hday, hhour, hminute, hsecond, hmsec,
    hopen, hclose, hend, hdash, hcomma, hcolon, hdot]
  omega

lemma getCurrentTime_eq (dt : DateTime) : getCurrentTime dt outputFlagDateTime = .ok (timeText dt) := by
  have hlen := length_timeText dt
  rw [timeText, List.length_append] at hlen
  have hall : getCurrentTime dt outputFlagDateTime = sprintfAll 48 [] [dateText dt, clockText dt] := rfl
  rw [hall, sprintfAll_ok]
  · simp [timeText]
  · simp
    omega

def machineText (machine : Machine) : Bytes :=
  match machine.mac, machine.ip with
  | some _, some ip => bytes "[" ++ machine.hostName.chars ++ (bytes "[" ++ inetNtoa ip ++ bytes "] ")
  | _, _ => []

/-- The host name is only asked for when both addresses are known. -/
def HostNameFits (machine : Machine) : Prop :=
  machine.mac.isSome → machine.ip.isSome → machine.hostName.length < 32

lemma length_inetNtoa (ip : UInt8 × UInt8 × UInt8 × UInt8) : (inetNtoa ip).length ≤ 15 := by
  obtain ⟨-, -, -, -, -, -, hdot⟩ := length_marks
  have hbyte (b : UInt8) : (printInt b.toNat).length ≤ 3 :=
    length_printInt (by decide) (b.toNat_lt.trans (by decide))
  have h0 := hbyte ip.1
  have h1 := hbyte ip.2.1
  have h2 := hbyte ip.2.2.1
  have h3 := hbyte ip.2.2.2
  simp only [inetNtoa, List.length_append, hdot]
  omega

lemma getMachineInfo_ok {machine : Machine} (h : HostNameFits machine) :
    getMachineInfo machine outputFlagMachineInfo = .ok (machineText machine) := by
  obtain ⟨mac, ip, hostName⟩ := machine
  unfold getMachineInfo machineText
  cases mac with
  | none => rfl
  | some mac =>
    cases ip with
    | none => rfl
    | some ip =>
      obtain ⟨hopen, hclose, hend, -⟩ := length_marks
      have hhost : hostName.length < 32 := h rfl rfl
      have hip := length_inetNtoa ip
      have hread : read (hostName.strncpy 32) = .ok hostName.chars := by
        rw [read_strncpy, if_pos hhost]
      have hhostText : sprintf 64 [] 0 (bytes "[" ++ hostName.chars ++ bytes "]") =
          .ok (bytes "[" ++ hostName.chars ++ bytes "]") := by
        rw [sprintf_start, if_pos]
        simp only [List.length_append, hopen, hclose]
        unfold CString.length at hhost
        omega
      have hmark : (bytes "[" ++ hostName.chars ++ bytes "]").length - 1 =
          (bytes "[" ++ hostName.chars).length := by
        rw [List.length_append, hclose, Nat.add_sub_cancel]
      have hipText : sprintf 64 (bytes "[" ++ hostName.chars ++ bytes "]")
          ((bytes "[" ++ hostName.chars ++ bytes "]").length - 1)
          (bytes "[" ++ inetNtoa ip ++ bytes "] ") =
            .ok (bytes "[" ++ hostName.chars ++ (bytes "[" ++ inetNtoa ip ++ bytes "] ")) := by
        rw [hmark, sprintf, if_pos, List.take_left]
        simp only [List.length_append, hopen, hend]
        unfold CString.length at hhost
        omega
      change (read (hostName.strncpy 32) >>= fun name =>
        sprintf 64 [] 0 (bytes "[" ++ name ++ bytes "]") >>= fun buf =>
          sprintf 64 buf (buf.length - 1) (bytes "[" ++ inetNtoa ip ++ bytes "] ") >>= fun buf =>
            pure buf) = _
      rw [hread, ok_bind, hhostText, ok_bind, hipText]
      rfl

lemma getMachineInfo_fault {machine : Machine} (h : ¬ HostNameFits machine) :
    getMachineInfo machine outputFlagMachineInfo = .error .unterminated := by
  obtain ⟨mac, ip, hostName⟩ := machine
  simp only [HostNameFits, Classical.not_imp, not_lt] at h
  obtain ⟨hmac, hip, hhost⟩ := h
  obtain ⟨mac, rfl⟩ := Option.isSome_iff_exists.mp hmac
  obtain ⟨ip, rfl⟩ := Option.isSome_iff_exists.mp hip
  have hread : read (hostName.strncpy 32) = .error .unterminated := by
    rw [read_strncpy, if_neg (not_lt.mpr hhost)]
  unfold getMachineInfo
  change (read (hostName.strncpy 32) >>= fun name => _) = _
  rw [hread]
  rfl

def versionTexts (v : Version) (version : Bytes) : List Bytes :=
  [bytes "[", printInt v.printed.major, bytes "." ++ printInt v.printed.minor,
    bytes "." ++ printInt v.printed.buildVersion, bytes ":" ++ version, bytes "]"]

def versionText (v : Version) (version : Bytes) : Bytes := (versionTexts v version).flatten

def Version.width (v : Version) : ℕ :=
  (printInt v.printed.major).length + (printInt v.printed.minor).length +
    (printInt v.printed.buildVersion).length

lemma length_versionText (v : Version) (version : Bytes) :
    (versionText v version).length = v.width + version.length + 5 := by
  obtain ⟨hopen, hclose, -, -, -, hcolon, hdot⟩ := length_marks
  simp only [versionText, versionTexts, List.flatten_cons, List.flatten_nil, List.length_append,
    List.length_nil, hopen, hclose, hcolon, hdot, Version.width]
  omega

lemma head_name (r : Registration) : r.info.name.head? = some 0 ↔ r.name.chars = [] := by
  rw [Registration.info, strncpy]
  cases hname : r.name.chars with
  | nil => simp [CString.length, hname]
  | cons c cs =>
    have hc : c ≠ 0 := fun h => r.name.noNul (by simp [hname, h])
    simp [hc]

def moduleText (name : Bytes) : Bytes :=
  if name = [] then bytes "[" ++ bytes "0000000" ++ bytes "] " else bytes "[" ++ name ++ bytes "] "

section Entry

variable {modules : ModuleList} {k : ℕ} {r : Registration} (he : entry modules k = r.info)

include he

lemma getVersion_eq (v : Version) : getVersion modules v k outputFlagVersion =
    (sprintfAll 16 [] ((versionTexts v []).take 4) >>= fun buf =>
      read (r.version.strncpy 8) >>= fun version => sprintf 12 [] 0 version >>= fun tmp =>
        sprintfAll 16 buf [bytes ":" ++ tmp, bytes "]"]) := by
  unfold getVersion
  rw [he, if_neg (by decide)]
  simp only [show outputFlagVersion.testBit 0 = true from rfl,
    show outputFlagVersion.testBit 1 = true from rfl,
    show outputFlagVersion.testBit 2 = true from rfl,
    show outputFlagVersion.testBit 3 = true from rfl, if_true, versionTexts, List.take_succ_cons,
    List.take_zero, sprintfAll, List.foldlM_cons, List.foldlM_nil, bind_assoc, bind_pure]
  rfl

lemma getVersion_ok {v : Version} (hversion : r.version.length < 8)
    (hwidth : v.width + r.version.length ≤ 10) :
    getVersion modules v k outputFlagVersion = .ok (versionText v r.version.chars) := by
  have hread : read (r.version.strncpy 8) = .ok r.version.chars := by
    rw [read_strncpy, if_pos hversion]
  have htmp : sprintf 12 [] 0 r.version.chars = .ok r.version.chars := by
    rw [sprintf_start, if_pos]
    exact hversion.trans (by decide)
  have hlen := length_versionText v r.version.chars
  have hall : sprintfAll 16 [] (versionTexts v r.version.chars) =
      .ok (versionText v r.version.chars) := by
    rw [sprintfAll_ok]
    · rfl
    · change 0 + (versionText v r.version.chars).length < 16
      rw [hlen]
      unfold CString.length at hwidth
      omega
  rw [getVersion_eq he, ← hall, hread]
  simp only [ok_bind, htmp, versionTexts, List.take_succ_cons, List.take_zero, sprintfAll,
    List.foldlM_cons, List.foldlM_nil, bind_assoc, bind_pure]

lemma getVersion_fault {v : Version}
    (h : ¬ (r.version.length < 8 ∧ v.width + r.version.length ≤ 10)) :
    ∃ e, getVersion modules v k outputFlagVersion = .error e := by
  rw [getVersion_eq he]
  by_cases hversion : r.version.length < 8
  · have hread : read (r.version.strncpy 8) = .ok r.version.chars := by
      rw [read_strncpy, if_pos hversion]
    have htmp : sprintf 12 [] 0 r.version.chars = .ok r.version.chars := by
      rw [sprintf_start, if_pos]
      exact hversion.trans (by decide)
    have hall : sprintfAll 16 [] (versionTexts v r.version.chars) = .error .overflow := by
      apply sprintfAll_overflow (List.cons_ne_nil _ _)
      change 16 ≤ 0 + (versionText v r.version.chars).length
      rw [length_versionText]
      unfold CString.length at h hversion
      omega
    refine ⟨.overflow, ?_⟩
    rw [← hall, hread]
    simp only [ok_bind, htmp, versionTexts, List.take_succ_cons, List.take_zero, sprintfAll,
      List.foldlM_cons, List.foldlM_nil, bind_assoc, bind_pure]
  · have hread : read (r.version.strncpy 8) = .error .unterminated := by
      rw [read_strncpy, if_neg hversion]
    rw [hread]
    cases sprintfAll 16 [] ((versionTexts v []).take 4) with
    | error e => exact ⟨e, rfl⟩
    | ok buf => exact ⟨.unterminated, rfl⟩

lemma getCurrentModuleName_ok (hk : k < moduleListSize) (hname : r.name.length < 12) :
    getCurrentModuleName modules k outputFlagModuleName = .ok (moduleText r.name.chars) := by
  obtain ⟨hopen, -, hend, -⟩ := length_marks
  have hread : read (r.name.strncpy 12) = .ok r.name.chars := by
    rw [read_strncpy, if_pos hname]
  rw [getCurrentModuleName, if_neg (by decide), if_neg (not_le.mpr hk), he, moduleText]
  by_cases hempty : r.name.chars = []
  · rw [if_pos hempty, if_neg (not_not.mpr ((head_name r).mpr hempty))]
    rfl
  · rw [if_neg hempty, if_pos (mt (head_name r).mp hempty)]
    change (read (r.name.strncpy 12) >>= fun name =>
      sprintf 16 [] 0 (bytes "[" ++ name ++ bytes "] ")) = _
    rw [hread, ok_bind, sprintf_start, if_pos]
    simp only [List.length_append, hopen, hend]
    unfold CString.length at hname
    omega

lemma getCurrentModuleName_fault (hk : k < moduleListSize) (hname : ¬ r.name.length < 12) :
    getCurrentModuleName modules k outputFlagModuleName = .error .unterminated := by
  have hread : read (r.name.strncpy 12) = .error .unterminated := by
    rw [read_strncpy, if_neg hname]
  have hempty : r.name.chars ≠ [] := by
    intro h
    apply hname
    rw [CString.length, h]
    decide
  rw [getCurrentModuleName, if_neg (by decide), if_neg (not_le.mpr hk), he,
    if_pos (mt (head_name r).mp hempty)]
  change (read (r.name.strncpy 12) >>= fun name => _) = _
  rw [hread]
  rfl

end Entry

lemma length_errCode (logType : ℤ) (level : LogLevel) : (printInt (errCode logType level)).length ≤ 3 := by
  rw [errCode]
  split_ifs with h
  · obtain rfl | rfl | rfl | rfl | rfl := h <;> cases level <;> decide
  · decide

def errorText (r : Registration) (level : LogLevel) : Bytes :=
  if r.name.chars = [] then []
  else bytes "<<" ++ printInt (errCode r.logType level) ++ bytes ">> "

lemma getErrorCode_eq {modules : ModuleList} {k : ℕ} {r : Registration}
    (he : entry modules k = r.info) (hk : k < moduleListSize) (level : LogLevel) :
    getErrorCode modules k level = .ok (errorText r level) := by
  have hhead : (entry modules k).name.head? = some 0 ↔ r.name.chars = [] := by
    rw [he]
    exact head_name r
  have hcode := length_errCode r.logType level
  rw [getErrorCode, errorText]
  simp only [hhead, not_le.mpr hk, false_or]
  split_ifs
  · rfl
  · rw [he, sprintf_start, if_pos]
    · rfl
    · simp only [Registration.info, List.length_append, show (bytes "<<").length = 2 from rfl,
        show (bytes ">> ").length = 3 from rfl]
      omega

def placeText (call : LogCall) : Bytes :=
  bytes "[" ++ afterSlash call.file.chars ++ bytes ":" ++ printInt call.line ++ bytes "][" ++
    call.function.chars ++ bytes ":" ++ textLogLevel call.level ++ bytes "] "

def lineTexts (r : Registration) (v : Version) (machine : Machine) (dt : DateTime) (call : LogCall) :
    List Bytes :=
  [timeText dt, machineText machine, versionText v r.version.chars, moduleText r.name.chars,
    errorText r call.level, placeText call, bytes ": " ++ call.message.chars.take 511]

/-- Name, version, host name and version numbers are short enough for their arrays, and the whole
line is short enough for `str[1024]`. -/
structure Fits (r : Registration) (v : Version) (machine : Machine) (dt : DateTime)
    (call : LogCall) : Prop where
  name : r.name.length < 12
  version : r.version.length < 8
  hostName : HostNameFits machine
  numbers : v.width + r.version.length ≤ 10
  line : (lineTexts r v machine dt call).flatten.length < 1024

section Line

variable {rs : List Registration} {call : LogCall} (hk : call.module < rs.length)
  (hsize : call.module < moduleListSize) {v : Version} {machine : Machine} {dt : DateTime}

include hk hsize

lemma logVerboseCStyle_ok (h : Fits rs[call.module] v machine dt call) :
    logVerboseCStyle (registered rs) v machine dt call =
      .ok (logLineSanitize (lineTexts rs[call.module] v machine dt call).flatten) := by
  have he := entry_registered hk hsize
  have hall : sprintfAll 1024 [] (lineTexts rs[call.module] v machine dt call) =
      .ok (lineTexts rs[call.module] v machine dt call).flatten := by
    rw [sprintfAll_ok (by simpa using h.line)]
    rfl
  unfold logVerboseCStyle
  simp only [getCurrentTime_eq, getMachineInfo_ok h.hostName,
    getVersion_ok he h.version h.numbers, getCurrentModuleName_ok he hsize h.name,
    getErrorCode_eq he hsize, ok_bind]
  rw [← ok_bind (lineTexts rs[call.module] v machine dt call).flatten
    fun str => Except.ok (logLineSanitize str), ← hall]
  simp only [lineTexts, sprintfAll, List.foldlM_cons, List.foldlM_nil, bind_assoc, pure_bind]
  rfl

theorem logVerboseCStyle_iff : (∃ str, logVerboseCStyle (registered rs) v machine dt call = .ok str) ↔
    Fits rs[call.module] v machine dt call := by
  have he := entry_registered hk hsize
  constructor
  · rintro ⟨str, h⟩
    unfold logVerboseCStyle at h
    rw [getCurrentTime_eq, ok_bind] at h
    have hhost : HostNameFits machine := by
      by_contra hno
      rw [getMachineInfo_fault hno] at h
      cases h
    rw [getMachineInfo_ok hhost, ok_bind] at h
    have hversion : rs[call.module].version.length < 8 ∧
        v.width + rs[call.module].version.length ≤ 10 := by
      by_contra hno
      obtain ⟨e, hfault⟩ := getVersion_fault he hno
      rw [hfault] at h
      cases h
    rw [getVersion_ok he hversion.1 hversion.2, ok_bind] at h
    have hname : rs[call.module].name.length < 12 := by
      by_contra hno
      rw [getCurrentModuleName_fault he hsize hno] at h
      cases h
    rw [getCurrentModuleName_ok he hsize hname, ok_bind, getErrorCode_eq he hsize, ok_bind] at h
    refine ⟨hname, hversion.1, hhost, hversion.2, ?_⟩
    by_contra hno
    have hall : sprintfAll 1024 [] (lineTexts rs[call.module] v machine dt call) =
        .error .overflow := by
      apply sprintfAll_overflow (List.cons_ne_nil _ _)
      rw [List.length_nil, Nat.zero_add]
      exact not_lt.mp hno
    have hline : (sprintfAll 1024 [] (lineTexts rs[call.module] v machine dt call) >>= fun str =>
        pure (logLineSanitize str)) = .ok str := by
      rw [← h]
      simp only [lineTexts, sprintfAll, List.foldlM_cons, List.foldlM_nil, bind_assoc, pure_bind]
      rfl
    rw [hall] at hline
    cases hline
  · intro h
    exact ⟨_, logVerboseCStyle_ok hk hsize h⟩

end Line

def vod : Registration := ⟨⟨bytes "vod", by decide⟩, ⟨bytes "1.0", by decide⟩, 8⟩

def box : Machine := ⟨some [0, 17, 34, 51, 68, 85], some (192, 168, 1, 20), ⟨bytes "stb", by decide⟩⟩

def noon : DateTime := ⟨2015, 8, 3, 12, 12, 0, 0, 0⟩

def startCall : LogCall where
  file := ⟨bytes "src/vod.c", by decide⟩
  line := 42
  function := ⟨bytes "start", by decide⟩
  module := 0
  level := .info
  message := ⟨bytes "ready", by decide⟩

theorem logVerboseCStyle_vod :
    ∃ str, logVerboseCStyle (registered [vod]) ⟨1, 2, 30⟩ box noon startCall = .ok str := by
  have hk : startCall.module < [vod].length := by decide
  have hfits : Fits vod ⟨1, 2, 30⟩ box noon startCall :=
    ⟨by decide, by decide, fun _ _ => by decide, by decide +kernel, by decide +kernel⟩
  exact (logVerboseCStyle_iff hk (by decide)).mpr hfits

/-- A module name of twelve characters leaves no place for its terminator. -/
theorem logVerboseCStyle_longName :
    ¬ ∀ (rs : List Registration) (v : Version) (machine : Machine) (dt : DateTime) (call : LogCall),
      call.module < rs.length → call.module < moduleListSize →
      call.level ≠ .assert → call.level ≠ .undefined →
      call.file.length < 200 → call.function.length < 200 →
      ∃ str, logVerboseCStyle (registered rs) v machine dt call = .ok str := by
  intro h
  obtain ⟨str, hstr⟩ := h [{ vod with name := ⟨bytes "videoOnDemand", by decide⟩ }] ⟨1, 2, 30⟩ box
    noon startCall (by decide) (by decide) (by decide) (by decide) (by decide) (by decide)
  have hfault : logVerboseCStyle
      (registered [{ vod with name := ⟨bytes "videoOnDemand", by decide⟩ }]) ⟨1, 2, 30⟩ box noon
      startCall = .error .unterminated := by
    decide +kernel
  rw [hfault] at hstr
  cases hstr

end SimpleCode.LogC
