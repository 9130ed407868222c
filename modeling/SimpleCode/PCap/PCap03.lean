import SimpleCode.Foundations.Buffer
import SimpleCode.Foundations.CString
import SimpleCode.Foundations.Computation
import SimpleCode.Foundations.IdenticalRuns
import SimpleCode.Foundations.Runs

set_option autoImplicit false

/-! The monitor counts how often the same frame is captured in a row, for each protocol on its own, and
writes a record when another frame follows. -/

namespace SimpleCode.PCap.PCap03

open Foundations IdenticalRuns

inductive Fault
  | overflow
  | unset
  | outsideBuffer
deriving DecidableEq, Repr

inductive Kind
  | arp
  | tcp
  | udp
  | icmp
  | igmp
deriving DecidableEq, Repr

def packetSize : ℕ := 4096

def lowCounter : ℕ := 10

structure Counting where
  counter : ℕ
  bufone : ℕ → UInt8

structure Monitor where
  counting : Kind → Counting

structure Record where
  title : Bytes
  times : ℕ
  packet : ℕ → UInt8
  flagsmes : Option Bytes

def Record.line (record : Record) : Bytes :=
  record.title ++ CString.printInt record.times ++ bytes " times continuous\n"

def int (x : ℕ) : Except Fault ℕ := if x < 2 ^ 31 then .ok x else .error .overflow

def thFlags (packet : ℕ → UInt8) : UInt8 := packet (14 + (packet 14).toNat % 16 * 4 + 13)

-- The last of the flags that are set; without any the pointer is not set.
def flagsmes (flags : UInt8) : Option Bytes :=
  if flags &&& 0x04 ≠ 0 then some (bytes "RST")
  else if flags &&& 0x02 ≠ 0 then some (bytes "SYN")
  else if flags &&& 0x01 ≠ 0 then some (bytes "FIN")
  else if flags &&& 0x20 ≠ 0 then some (bytes "URG")
  else if flags &&& 0x10 ≠ 0 then some (bytes "ACK")
  else if flags &&& 0x08 ≠ 0 then some (bytes "PUSH")
  else none

def writearpbuf (packet : ℕ → UInt8) (counter : ℕ) : Except Fault Record :=
  .ok ⟨bytes "This arp packet catch ", counter, packet, none⟩

-- One more than it is given.
def writeipbuf (title : Bytes) (packet : ℕ → UInt8) (counter : ℕ) : Except Fault Record := do
  let times ← int (counter + 1)
  .ok ⟨title, times, packet, none⟩

def writetcpbuf (packet : ℕ → UInt8) (counter : ℕ) : Except Fault Record := do
  let times ← int (counter + 1)
  match flagsmes (thFlags packet) with
  | none => .error .unset
  | some flags => .ok ⟨bytes "This tcp packet catch ", times, packet, some flags⟩

def writeudpbuf := writeipbuf (bytes "This udp packet catch ")

def writeicmpbuf := writeipbuf (bytes "This icmp packet catch ")

def writeigmpbuf := writeipbuf (bytes "This packet catch ")

def writebuf (kind : Kind) (packet : ℕ → UInt8) (counter : ℕ) : Except Fault Record :=
  match kind with
  | .arp => do
    let times ← int (counter + 1)
    writearpbuf packet times
  | .tcp => writetcpbuf packet counter
  | .udp => writeudpbuf packet counter
  | .icmp => writeicmpbuf packet counter
  | .igmp => writeigmpbuf packet counter

-- One of TCP has a text for its flags.
def Printable (kind : Kind) (packet : ℕ → UInt8) : Prop :=
  kind = .tcp → (flagsmes (thFlags packet)).isSome = true

instance (kind : Kind) (packet : ℕ → UInt8) : Decidable (Printable kind packet) :=
  inferInstanceAs (Decidable (_ → _))

-- The counters of TCP, ICMP and IGMP start again with every other frame.
def startsAgain : Kind → Bool
  | .arp | .udp => false
  | .tcp | .icmp | .igmp => true

def Repeats (s : Counting) (frame : Bytes) : Prop := Buffer.contents s.bufone frame.length = frame

instance (s : Counting) (frame : Bytes) : Decidable (Repeats s frame) := inferInstanceAs (Decidable (_ = _))

def count (kind : Kind) (s : Counting) (frame : Bytes) : Except Fault (Counting × Option Record) := do
  if Repeats s frame then
    let counter ← int (s.counter + 1)
    .ok ({ s with counter }, none)
  else if lowCounter < s.counter then
    let record ← writebuf kind s.bufone s.counter
    .ok (⟨0, Buffer.put s.bufone 0 frame⟩, some record)
  else
    let counter := if startsAgain kind then 0 else s.counter
    .ok (⟨counter, Buffer.put s.bufone 0 frame⟩, none)

section Frames

def byte (frame : Bytes) (i : ℕ) : UInt8 := frame.getD i 0

def addr (frame : Bytes) (i n : ℕ) : Bytes := (List.range n).map fun j => byte frame (i + j)

def ethprotol (frame : Bytes) : ℕ := (byte frame 12).toNat * 256 + (byte frame 13).toNat

def protol (frame : Bytes) : UInt8 := byte frame 23

def ihl (frame : Bytes) : ℕ := (byte frame 14).toNat % 16 * 4

-- The texts of two addresses are equal when the addresses are.
def SameAddress (frame : Bytes) : Prop := addr frame 28 4 = addr frame 38 4

def ZeroTarget (frame : Bytes) : Prop := addr frame 32 6 = List.replicate 6 0

def ZeroGroup (frame : Bytes) : Prop := addr frame (14 + ihl frame + 4) 4 = List.replicate 4 0

instance (frame : Bytes) : Decidable (SameAddress frame) := inferInstanceAs (Decidable (_ = _))

instance (frame : Bytes) : Decidable (ZeroTarget frame) := inferInstanceAs (Decidable (_ = _))

instance (frame : Bytes) : Decidable (ZeroGroup frame) := inferInstanceAs (Decidable (_ = _))

end Frames

def ipKind (protol : UInt8) : Option Kind :=
  if protol = 6 then some .tcp
  else if protol = 1 then some .icmp
  else if protol = 17 then some .udp
  else if protol = 2 then some .igmp
  else none

def countIn (kind : Kind) (m : Monitor) (frame : Bytes) : Except Fault (Monitor × Option Record) := do
  let (s, record) ← count kind (m.counting kind) frame
  .ok (⟨Function.update m.counting kind s⟩, record)

-- The display of the packets changes nothing of this.
def capture (m : Monitor) (frame : Bytes) : Except Fault (Monitor × Option Record) := do
  if packetSize ≤ frame.length then .error .outsideBuffer
  else
    let bufRecv := Buffer.put (fun _ => 0) 0 frame
    if ethprotol frame = 0x0806 then
      if SameAddress frame ∧ ¬ ZeroTarget frame then
        let record ← writearpbuf bufRecv 1
        .ok (m, some record)
      else countIn .arp m frame
    else if ethprotol frame = 0x0800 then
      match ipKind (protol frame) with
      | none => .ok (m, none)
      | some kind =>
        if kind = .igmp ∧ ZeroGroup frame then
          let record ← writeigmpbuf bufRecv 1
          .ok (m, some record)
        else countIn kind m frame
    else .ok (m, none)

-- The kind that counts the frame. An ARP frame from an address to itself is counted when it is for no
-- hardware address.
def counts (frame : Bytes) : Option Kind :=
  if ethprotol frame = 0x0806 then if SameAddress frame ∧ ¬ ZeroTarget frame then none else some .arp
  else if ethprotol frame = 0x0800 then
    (ipKind (protol frame)).filter fun kind => ¬ (kind = .igmp ∧ ZeroGroup frame)
  else none

def kindOf (frame : Bytes) : Option Kind :=
  if ethprotol frame = 0x0806 ∧ SameAddress frame then none else counts frame

structure Session where
  monitor : Monitor
  log : List (Bytes × Option Record)

def initial : Session := ⟨⟨fun _ => ⟨0, fun _ => 0⟩⟩, []⟩

def step (t : Session) (frame : Bytes) : Option Session :=
  match capture t.monitor frame with
  | .ok (monitor, record) => some ⟨monitor, t.log ++ [(frame, record)]⟩
  | .error _ => none

namespace Session

def captured (t : Session) (kind : Kind) : List Bytes :=
  (t.log.map Prod.fst).filter fun frame => kindOf frame = some kind

def written (kind : Kind) (entry : Bytes × Option Record) : Option ℕ :=
  if counts entry.1 = some kind then entry.2.map Record.times else none

def reported (t : Session) (kind : Kind) : List ℕ := t.log.filterMap (written kind)

/-- The records of a kind are about the runs that are over and long, each of them once and in order. -/
def Reports (t : Session) : Prop := ∀ kind,
  t.reported kind = ((finished (t.captured kind)).map List.length).filter fun n => lowCounter + 1 < n

def EndsRun (t : Session) (kind : Kind) (frame : Bytes) : Prop :=
  kindOf frame = some kind ∧ Ends (t.captured kind) frame

instance (t : Session) (kind : Kind) (frame : Bytes) : Decidable (t.EndsRun kind frame) :=
  inferInstanceAs (Decidable (_ ∧ _))

def runLength (t : Session) (kind : Kind) : ℕ := (current (t.captured kind)).length

/-- A frame that is taken for a repeat ends no long run. Another one finds few repeats in the counter, or the
repeats of the run that it ends and no others, and a packet that can be printed. -/
def CountsRun (t : Session) (frame : Bytes) : Prop := ∀ kind ∈ counts frame,
  if Repeats (t.monitor.counting kind) frame then (t.monitor.counting kind).counter + 1 < 2 ^ 31
    ∧ (t.EndsRun kind frame → t.runLength kind ≤ lowCounter + 1)
  else (t.monitor.counting kind).counter ≤ lowCounter ∧ (t.EndsRun kind frame → t.runLength kind ≤ lowCounter + 1)
    ∨ t.EndsRun kind frame ∧ t.runLength kind = (t.monitor.counting kind).counter + 1 ∧ t.runLength kind < 2 ^ 31
      ∧ Printable kind (t.monitor.counting kind).bufone

instance (t : Session) (frame : Bytes) : Decidable (t.CountsRun frame) :=
  inferInstanceAs (Decidable (∀ kind ∈ counts frame, _))

end Session

section Steps

variable {m : Monitor} {t t' : Session} {kind : Kind} {frame : Bytes} {record : Option Record} {s : Counting}

lemma counts_of_kindOf (h : kindOf frame = some kind) : counts frame = some kind := by
  rw [kindOf] at h
  split_ifs at h
  exact h

lemma capture_of_counts (hlen : frame.length < packetSize) (h : counts frame = some kind) :
    capture m frame = countIn kind m frame := by
  rw [counts] at h
  rw [capture, if_neg hlen.not_ge]
  dsimp only
  by_cases harp : ethprotol frame = 0x0806
  · rw [if_pos harp] at h ⊢
    split_ifs at h with hsame
    cases h
    rw [if_neg hsame]
  · rw [if_neg harp] at h ⊢
    split_ifs at h with hip
    obtain ⟨hkind, hcounted⟩ := Option.filter_eq_some_iff.mp h
    rw [if_pos hip, hkind]
    exact if_neg (of_decide_eq_true hcounted)

lemma capture_of_counts_none (hlen : frame.length < packetSize) (h : counts frame = none) :
    ∃ record, capture m frame = .ok (m, record) := by
  rw [counts] at h
  rw [capture, if_neg hlen.not_ge]
  dsimp only
  by_cases harp : ethprotol frame = 0x0806
  · rw [if_pos harp] at h ⊢
    split_ifs at h with hsame
    rw [if_pos hsame]
    exact ⟨_, rfl⟩
  · rw [if_neg harp] at h ⊢
    by_cases hip : ethprotol frame = 0x0800
    · rw [if_pos hip] at h ⊢
      cases hkind : ipKind (protol frame) with
      | none => exact ⟨_, rfl⟩
      | some kind =>
        rw [hkind, Option.filter_some] at h
        dsimp only
        split_ifs with hgroup
        · exact ⟨_, rfl⟩
        · rw [if_pos (decide_eq_true hgroup)] at h
          cases h
    · rw [if_neg hip]
      exact ⟨_, rfl⟩

lemma writebuf_printed {packet : ℕ → UInt8} {counter : ℕ} (hint : counter + 1 < 2 ^ 31)
    (hprint : Printable kind packet) :
    ∃ record, writebuf kind packet counter = .ok record ∧ record.times = counter + 1 := by
  have hok : int (counter + 1) = .ok (counter + 1) := if_pos hint
  cases kind with
  | arp => exact ⟨_, by rw [writebuf, hok]; rfl, rfl⟩
  | tcp =>
    obtain ⟨flags, hflags⟩ := Option.isSome_iff_exists.mp (hprint rfl)
    refine ⟨⟨bytes "This tcp packet catch ", counter + 1, packet, some flags⟩, ?_, rfl⟩
    rw [writebuf, writetcpbuf, hok, ok_bind, hflags]
  | udp => exact ⟨_, by rw [writebuf, writeudpbuf, writeipbuf, hok, ok_bind], rfl⟩
  | icmp => exact ⟨_, by rw [writebuf, writeicmpbuf, writeipbuf, hok, ok_bind], rfl⟩
  | igmp => exact ⟨_, by rw [writebuf, writeigmpbuf, writeipbuf, hok, ok_bind], rfl⟩

lemma writebuf_ok {packet : ℕ → UInt8} {counter : ℕ} {record : Record}
    (h : writebuf kind packet counter = .ok record) : counter + 1 < 2 ^ 31 ∧ Printable kind packet := by
  have hint {x : ℕ} {f : ℕ → Except Fault Record} (h : (int x >>= f) = .ok record) : x < 2 ^ 31 := by
    by_contra hge
    rw [int, if_neg hge] at h
    cases h
  have hother (hne : kind ≠ .tcp) : Printable kind packet := fun h => absurd h hne
  cases kind with
  | arp => exact ⟨hint h, hother (by decide)⟩
  | tcp =>
    refine ⟨hint h, fun _ => ?_⟩
    obtain ⟨times, -, h⟩ := bind_eq_ok.mp h
    cases hflags : flagsmes (thFlags packet) with
    | none =>
      rw [hflags] at h
      cases h
    | some flags => rfl
  | udp => exact ⟨hint h, hother (by decide)⟩
  | icmp => exact ⟨hint h, hother (by decide)⟩
  | igmp => exact ⟨hint h, hother (by decide)⟩

lemma count_repeats (h : Repeats s frame) : count kind s frame
    = if s.counter + 1 < 2 ^ 31 then .ok ({ s with counter := s.counter + 1 }, none) else .error .overflow := by
  rw [count, if_pos h, int]
  split_ifs <;> rfl

lemma count_long (h : ¬ Repeats s frame) (hlow : lowCounter < s.counter) {s' : Counting} :
    count kind s frame = .ok (s', record) ↔ s' = ⟨0, Buffer.put s.bufone 0 frame⟩
      ∧ ∃ written, writebuf kind s.bufone s.counter = .ok written ∧ record = some written := by
  rw [count, if_neg h, if_pos hlow, bind_eq_ok]
  simp only [Except.ok.injEq, Prod.mk.injEq]
  constructor
  · rintro ⟨written, hwrite, rfl, rfl⟩
    exact ⟨rfl, written, hwrite, rfl⟩
  · rintro ⟨rfl, written, hwrite, rfl⟩
    exact ⟨written, hwrite, rfl, rfl⟩

lemma count_short (kind : Kind) (h : ¬ Repeats s frame) (hlow : s.counter ≤ lowCounter) :
    ∃ s', count kind s frame = .ok (s', none) := by
  rw [count, if_neg h, if_neg hlow.not_gt]
  exact ⟨_, rfl⟩

def due (ends : Prop) [Decidable ends] (n : ℕ) : Option ℕ := if ends ∧ lowCounter + 1 < n then some n else none

lemma due_eq_none {ends : Prop} [Decidable ends] {n : ℕ} : due ends n = none ↔ (ends → n ≤ lowCounter + 1) := by
  rw [due]
  split_ifs with h
  · exact iff_of_false nofun (fun himp => absurd (himp h.1) (not_le.mpr h.2))
  · exact iff_of_true rfl (fun hends => not_lt.mp (fun hlt => h ⟨hends, hlt⟩))

lemma due_eq_some {ends : Prop} [Decidable ends] {n times : ℕ} (h : lowCounter + 1 < times) :
    due ends n = some times ↔ ends ∧ n = times := by
  rw [due]
  split_ifs with hdue
  · rw [Option.some.injEq]
    exact (and_iff_right hdue.1).symm
  · refine iff_of_false nofun ?_
    rintro ⟨hends, rfl⟩
    exact hdue ⟨hends, h⟩

theorem count_iff (kind : Kind) (ends : Prop) [Decidable ends] (n : ℕ) :
    (∃ s' record, count kind s frame = .ok (s', record) ∧ record.map Record.times = due ends n)
      ↔ if Repeats s frame then s.counter + 1 < 2 ^ 31 ∧ (ends → n ≤ lowCounter + 1)
        else s.counter ≤ lowCounter ∧ (ends → n ≤ lowCounter + 1)
          ∨ ends ∧ n = s.counter + 1 ∧ n < 2 ^ 31 ∧ Printable kind s.bufone := by
  by_cases hrepeats : Repeats s frame
  · rw [if_pos hrepeats, count_repeats hrepeats, ← due_eq_none]
    split_ifs with hint
    · rw [and_iff_right hint]
      refine ⟨fun ⟨s', record, hok, htimes⟩ => ?_, fun hdue => ⟨_, _, rfl, hdue.symm⟩⟩
      cases hok
      exact htimes.symm
    · exact iff_of_false (fun ⟨_, _, hok, _⟩ => nomatch hok) (fun h => hint h.1)
  rw [if_neg hrepeats]
  by_cases hlow : lowCounter < s.counter
  · have htimes : lowCounter + 1 < s.counter + 1 := Nat.succ_lt_succ hlow
    simp only [count_long hrepeats hlow]
    constructor
    · rintro ⟨s', record, ⟨rfl, written, hwrite, rfl⟩, hdue⟩
      obtain ⟨hint, hprint⟩ := writebuf_ok hwrite
      obtain ⟨record, hrecord, hnumber⟩ := writebuf_printed hint hprint
      cases hwrite.symm.trans hrecord
      rw [Option.map_some, hnumber] at hdue
      obtain ⟨hends, rfl⟩ := (due_eq_some htimes).mp hdue.symm
      exact .inr ⟨hends, rfl, hint, hprint⟩
    · rintro (⟨hle, -⟩ | ⟨hends, rfl, hint, hprint⟩)
      · exact absurd hlow hle.not_gt
      · obtain ⟨record, hrecord, hnumber⟩ := writebuf_printed hint hprint
        refine ⟨_, _, ⟨rfl, record, hrecord, rfl⟩, ?_⟩
        rw [Option.map_some, hnumber]
        exact ((due_eq_some htimes).mpr ⟨hends, rfl⟩).symm
  · have hle : s.counter ≤ lowCounter := not_lt.mp hlow
    obtain ⟨s', hs'⟩ := count_short kind hrepeats hle
    rw [hs']
    constructor
    · rintro ⟨s'', record, hok, hdue⟩
      cases hok
      exact .inl ⟨hle, due_eq_none.mp hdue.symm⟩
    · rintro (⟨-, hends⟩ | ⟨-, rfl, -⟩)
      · exact ⟨_, _, rfl, (due_eq_none.mpr hends).symm⟩
      · exact ⟨_, _, rfl, (due_eq_none.mpr (fun _ => Nat.succ_le_succ hle)).symm⟩

end Steps

section Sessions

variable {t t' : Session} {kind : Kind} {frame : Bytes} {frames : List Bytes} {record : Option Record} {m : Monitor}

def Session.append (t : Session) (m : Monitor) (frame : Bytes) (record : Option Record) : Session :=
  ⟨m, t.log ++ [(frame, record)]⟩

lemma step_eq_some : step t frame = some t'
    ↔ ∃ m record, capture t.monitor frame = .ok (m, record) ∧ t' = t.append m frame record := by
  rw [step]
  rcases capture t.monitor frame with e | ⟨m, record⟩
  · exact iff_of_false nofun (fun ⟨_, _, h, _⟩ => nomatch h)
  · refine ⟨fun h => ⟨m, record, rfl, (Option.some.inj h).symm⟩, ?_⟩
    rintro ⟨m', record', h, rfl⟩
    cases h
    rfl

lemma captured_append (h : kindOf frame = some kind) :
    (t.append m frame record).captured kind = t.captured kind ++ [frame] := by
  rw [Session.captured, Session.append, List.map_append, List.filter_append, List.map_singleton,
    List.filter_singleton, decide_eq_true h]
  rfl

lemma captured_append_other (h : kindOf frame ≠ some kind) :
    (t.append m frame record).captured kind = t.captured kind := by
  rw [Session.captured, Session.append, List.map_append, List.filter_append, List.map_singleton,
    List.filter_singleton, decide_eq_false h]
  exact List.append_nil _

lemma reported_append : (t.append m frame record).reported kind
    = t.reported kind ++ (Session.written kind (frame, record)).toList := by
  rw [Session.reported, Session.append, List.filterMap_append, ← Session.reported]
  cases h : Session.written kind (frame, record) with
  | none => rw [List.filterMap_cons_none h, List.filterMap_nil, Option.toList_none]
  | some n => rw [List.filterMap_cons_some h, List.filterMap_nil, Option.toList_some]

lemma due_append : ((finished ((t.append m frame record).captured kind)).map List.length).filter (lowCounter + 1 < ·)
    = ((finished (t.captured kind)).map List.length).filter (lowCounter + 1 < ·)
      ++ (due (t.EndsRun kind frame) (t.runLength kind)).toList := by
  by_cases hends : t.EndsRun kind frame
  · rw [captured_append hends.1, finished_append, if_pos hends.2, List.map_append, List.filter_append,
      List.map_singleton, List.filter_singleton]
    congr 1
    change cond (decide (lowCounter + 1 < t.runLength kind)) [t.runLength kind] [] = _
    rw [due]
    by_cases hlong : lowCounter + 1 < t.runLength kind
    · rw [if_pos ⟨hends, hlong⟩, decide_eq_true hlong]
      rfl
    · rw [if_neg (fun h => hlong h.2), decide_eq_false hlong]
      rfl
  · rw [due, if_neg (fun h => hends h.1), Option.toList_none, List.append_nil]
    by_cases hkind : kindOf frame = some kind
    · rw [captured_append hkind, finished_append, if_neg (fun h => hends ⟨hkind, h⟩)]
    · rw [captured_append_other hkind]

lemma reports_append (h : t.Reports) : (t.append m frame record).Reports
    ↔ ∀ kind, Session.written kind (frame, record) = due (t.EndsRun kind frame) (t.runLength kind) := by
  refine forall_congr' fun kind => ?_
  rw [reported_append, due_append, h kind, List.append_right_inj]
  cases Session.written kind (frame, record) <;> cases due (t.EndsRun kind frame) (t.runLength kind) <;> simp

lemma written_other (h : counts frame ≠ some kind) : Session.written kind (frame, record) = none := if_neg h

lemma due_other (h : counts frame ≠ some kind) (n : ℕ) : due (t.EndsRun kind frame) n = none :=
  due_eq_none.mpr (fun hends => absurd (counts_of_kindOf hends.1) h)

theorem step_iff (hlen : frame.length < packetSize) (h : t.Reports) :
    (∃ t', step t frame = some t' ∧ t'.Reports) ↔ t.CountsRun frame := by
  cases hcounts : counts frame with
  | none =>
    obtain ⟨record, hcapture⟩ := capture_of_counts_none (m := t.monitor) hlen hcounts
    have hreports : (t.append t.monitor frame record).Reports := by
      refine (reports_append h).mpr fun kind => ?_
      have hother : counts frame ≠ some kind := hcounts ▸ nofun
      rw [written_other hother, due_other hother]
    refine iff_of_true ⟨_, step_eq_some.mpr ⟨_, _, hcapture, rfl⟩, hreports⟩ ?_
    intro kind hkind
    rw [hcounts] at hkind
    cases hkind
  | some kind =>
    have hreports (m : Monitor) (record : Option Record) : (t.append m frame record).Reports
        ↔ record.map Record.times = due (t.EndsRun kind frame) (t.runLength kind) := by
      rw [reports_append h]
      refine ⟨fun hall => (if_pos hcounts).symm.trans (hall kind), fun hone kind' => ?_⟩
      by_cases hkind : kind' = kind
      · rw [hkind, ← hone]
        exact if_pos hcounts
      · have hother : counts frame ≠ some kind' := fun hk => hkind (Option.some.inj (hk.symm.trans hcounts))
        rw [written_other hother, due_other hother]
    have hcondition : t.CountsRun frame ↔ _ := (forall_congr' fun kind' => by
      rw [hcounts, Option.mem_some_iff]).trans forall_eq'
    rw [hcondition, ← count_iff kind]
    constructor
    · rintro ⟨t', hstep, ht'⟩
      obtain ⟨m, record, hcapture, rfl⟩ := step_eq_some.mp hstep
      rw [capture_of_counts hlen hcounts, countIn] at hcapture
      obtain ⟨⟨s', record'⟩, hcount, hok⟩ := bind_eq_ok.mp hcapture
      cases hok
      exact ⟨s', record, hcount, (hreports _ _).mp ht'⟩
    · rintro ⟨s', record, hcount, hrecord⟩
      refine ⟨t.append ⟨Function.update t.monitor.counting kind s'⟩ frame record,
        step_eq_some.mpr ⟨_, record, ?_, rfl⟩, (hreports _ _).mpr hrecord⟩
      rw [capture_of_counts hlen hcounts, countIn, hcount, ok_bind]

lemma initial_reports : initial.Reports := fun _ => rfl

lemma run_log (h : run step t frames = some t') : t'.log.map Prod.fst = t.log.map Prod.fst ++ frames := by
  induction frames generalizing t with
  | nil => rw [← Option.some.inj h, List.append_nil]
  | cons frame frames ih =>
    obtain ⟨u, hstep, hrun⟩ := run_cons.mp h
    obtain ⟨m, record, -, rfl⟩ := step_eq_some.mp hstep
    rw [ih hrun, Session.append, List.map_append, List.append_assoc]
    rfl

theorem reports_iff (hframes : ∀ frame ∈ frames, frame.length < packetSize) :
    (∀ pre, pre <+: frames → ∃ t, run step initial pre = some t ∧ t.Reports)
      ↔ MeetsAlong step Session.CountsRun initial frames := by
  refine reaches_iff (I := Session.Reports) (R := fun _ frame => frame.length < packetSize) (fun _ h => h)
    (fun t frame h hlen hC => (step_iff hlen h).mpr hC) ?_ initial_reports
    (meetsAlong_of_forall (fun frame hframe _ => hframes frame hframe) initial)
  intro t frame t' h hlen hnot hstep hreports
  exact hnot ((step_iff hlen h).mp ⟨t', hstep, hreports⟩)

def udpFrame (c : UInt8) : Bytes := c :: List.replicate 11 0 ++ [8, 0] ++ List.replicate 9 0 ++ [17]

def tcpFrame (c : UInt8) : Bytes :=
  c :: List.replicate 11 0 ++ [8, 0, 0x45] ++ List.replicate 8 0 ++ [6] ++ List.replicate 23 0 ++ [0x18]

def tcpRun : List Bytes := (List.replicate 12 [tcpFrame 1, udpFrame 1]).flatten ++ [tcpFrame 2]

theorem reports_iff_tcp : (∀ pre, pre <+: tcpRun → ∃ t, run step initial pre = some t ∧ t.Reports)
    ∧ (run step initial tcpRun).map (fun t => t.reported .tcp) = some [12] :=
  ⟨(reports_iff (by decide +kernel)).mpr (by decide +kernel), by decide +kernel⟩

def udpPairs : List Bytes := [1, 2, 3, 4, 5, 6, 7, 8, 9, 10, 11].flatMap (fun c => [udpFrame c, udpFrame c]) ++ [udpFrame 12]

-- The repeats of all the pairs are in the record.
theorem udp_pairs_reported : ¬ (∀ pre, pre <+: udpPairs → ∃ t, run step initial pre = some t ∧ t.Reports)
    ∧ (run step initial udpPairs).map (fun t => t.reported .udp) = some [12] := by
  have hreported : (run step initial udpPairs).map (fun t => t.reported .udp) = some [12] := by decide +kernel
  refine ⟨fun h => ?_, hreported⟩
  obtain ⟨t, ht, hreports⟩ := h udpPairs (List.prefix_refl udpPairs)
  have hlog : t.log.map Prod.fst = udpPairs := run_log ht
  have hdue := hreports .udp
  rw [Session.captured, hlog] at hdue
  rw [ht, Option.map_some, hdue] at hreported
  exact absurd hreported (by decide +kernel)

end Sessions

end SimpleCode.PCap.PCap03
