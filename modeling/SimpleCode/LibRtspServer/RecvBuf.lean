import SimpleCode.Foundations.Runs
import SimpleCode.LibRtspServer.RequestParsing

set_option autoImplicit false

/-! The receive buffer of an RTSP session, and the request parser as it reads it. What stands at a place
of the buffer is the text up to the next 0, and whether there is a 0 before the buffer ends; nothing is
read behind a 0. -/

namespace SimpleCode.LibRtspServer

open Foundations Scan
open LibRtsp hiding Fault

section Receiving

def recvBufSz : ℕ := 100 * 1024

def mallocz (sz : ℕ) : Bytes := List.replicate sz 0

-- A `$` was received the last time, and the packet is received behind it.
def recvOffset (buf : Bytes) : ℕ := if buf.head? = some 36 then 1 else 0

def recv (buf chunk : Bytes) : Bytes :=
  buf.take (recvOffset buf) ++ chunk ++ buf.drop (recvOffset buf + chunk.length)

-- What a receive leaves in the buffer, and whether the request in it is handled then. There is no next
-- state if the connection is closed, and if the bytes would not fit, which `recv` sees to.
def filterDataFromRtspSd (buf chunk : Bytes) : Option (Bytes × Bool) :=
  if chunk = [] ∨ recvBufSz < recvOffset buf + chunk.length then none
  else
    let next := recv buf chunk
    if chunk.length = recvBufSz - recvOffset buf then some (next, false)
    else if next.head? = some 36 ∧ chunk.length = 1 then some (next, false)
    else if next.head? = some 36 then some (0 :: next.tail, false)
    else some (next, true)

def receive (buf chunk : Bytes) : Option Bytes := (filterDataFromRtspSd buf chunk).map Prod.fst

end Receiving

namespace RecvBuf

-- What is read where a text ends: a 0, or a byte behind the buffer.
def atEnd {α : Type} (ended : Bool) (a : α) : Except LibRtsp.Fault α := if ended then .ok a else .error .overread

def peek (ended : Bool) : Bytes → Except LibRtsp.Fault UInt8
  | [] => atEnd ended 0
  | c :: _ => .ok c

def hasPrefix (ended : Bool) : Bytes → Bytes → Except LibRtsp.Fault Bool
  | [], _ => .ok true
  | _ :: _, [] => atEnd ended false
  | t :: tag, c :: str => if c = t then hasPrefix ended tag str else .ok false

def firstMethod (ended : Bool) (str : Bytes) : List Method → Except LibRtsp.Fault (Option Method)
  | [] => .ok none
  | m :: ms => do
    if ← hasPrefix ended m.token str then .ok (some m) else firstMethod ended str ms

def getRtspMethod (ended : Bool) (str : Bytes) : Except LibRtsp.Fault (Option Method) :=
  firstMethod ended str Method.all

def getNextWord (ended : Bool) : Bytes → Except LibRtsp.Fault (Option Bytes)
  | [] => atEnd ended none
  | c :: str =>
    if c = 32 then do
      if (← peek ended str) ≠ 32 then .ok (some str) else getNextWord ended str
    else if c = 13 ∨ c = 10 then .ok none
    else getNextWord ended str

def wordOf (ended : Bool) : Bytes → Except LibRtsp.Fault Bytes
  | [] => atEnd ended []
  | c :: word =>
    if c = 32 ∨ c = 13 ∨ c = 10 then .ok []
    else do
      let cs ← wordOf ended word
      .ok (c :: cs)

def getNextLine (ended : Bool) : Bytes → Except LibRtsp.Fault (Option Bytes)
  | [] => atEnd ended none
  | c :: str => do
    if ← hasPrefix ended [13, 10, 13, 10] (c :: str) then .ok none
    else if ← hasPrefix ended [13, 13] (c :: str) then .ok none
    else if ← hasPrefix ended [10, 10] (c :: str) then .ok none
    else if ← hasPrefix ended crlf (c :: str) then .ok (some (str.drop 1))
    else if c = 13 ∨ c = 10 then .ok (some str)
    else getNextLine ended str

def strpbrk (ended : Bool) (set : Bytes) : Bytes → Except LibRtsp.Fault (Option Bytes)
  | [] => atEnd ended none
  | c :: str => if c ∈ set then .ok (some (c :: str)) else strpbrk ended set str

def skipSemicolons (ended : Bool) : Bytes → Except LibRtsp.Fault Bytes
  | [] => atEnd ended []
  | c :: ptr => if c = 59 then skipSemicolons ended ptr else .ok (c :: ptr)

def nextField (ended : Bool) (ptr : Bytes) : Except LibRtsp.Fault (Option Bytes) := do
  match ← strpbrk ended [59, 13, 10] ptr with
  | none => .error .nullPointer
  | some ptr =>
    let ptr ← skipSemicolons ended ptr
    .ok (if ptr = [] ∨ ptr.head? = some 13 ∨ ptr.head? = some 10 then none else some ptr)

section Lengths

variable {ended : Bool} {str ptr rest : Bytes}

lemma of_atEnd {α : Type} {a b : α} (h : atEnd ended a = .ok b) : a = b := by
  cases ended with
  | true => exact Except.ok.inj h
  | false => cases h

lemma of_strpbrk {set : Bytes} {r : Option Bytes} (h : strpbrk ended set ptr = .ok r) :
    LibRtsp.strpbrk set ptr = r := by
  induction ptr with
  | nil => exact of_atEnd h
  | cons c ptr ih =>
    rw [strpbrk] at h
    rw [LibRtsp.strpbrk]
    split_ifs at h ⊢
    · exact Except.ok.inj h
    · exact ih h

lemma of_skipSemicolons (h : skipSemicolons ended ptr = .ok rest) : (ptr.dropWhile fun c => c = 59) = rest := by
  induction ptr with
  | nil => exact of_atEnd h
  | cons c ptr ih =>
    rw [skipSemicolons] at h
    rw [List.dropWhile_cons]
    by_cases hc : c = 59
    · rw [if_pos hc] at h
      rw [if_pos (decide_eq_true hc)]
      exact ih h
    · rw [if_neg hc] at h
      rw [if_neg (by simpa using hc)]
      exact Except.ok.inj h

lemma of_nextField {r : Option Bytes} (h : nextField ended ptr = .ok r) : LibRtsp.nextField ptr = some r := by
  obtain ⟨found, hfound, h⟩ := bind_eq_ok.mp h
  rw [LibRtsp.nextField, of_strpbrk hfound]
  cases found with
  | none => cases h
  | some found =>
    obtain ⟨rest, hrest, h⟩ := bind_eq_ok.mp h
    rw [← Except.ok.inj h, ← of_skipSemicolons hrest]
    rfl

lemma of_hasPrefix {tag : Bytes} {b : Bool} (h : hasPrefix ended tag str = .ok b) :
    LibRtsp.hasPrefix tag str = b := by
  induction tag generalizing str with
  | nil => exact Except.ok.inj h
  | cons t tag ih =>
    cases str with
    | nil => exact of_atEnd h
    | cons c str =>
      rw [hasPrefix] at h
      rw [LibRtsp.hasPrefix, List.isPrefixOf]
      split_ifs at h with hc
      · rw [hc, beq_self_eq_true, Bool.true_and]
        exact ih h
      · rw [beq_eq_false_iff_ne.mpr (Ne.symm hc), Bool.false_and]
        exact Except.ok.inj h

lemma of_getNextLine {r : Option Bytes} (h : getNextLine ended str = .ok r) : LibRtsp.getNextLine str = r := by
  rw [LibRtsp.getNextLine]
  induction str with
  | nil => exact of_atEnd h
  | cons c str ih =>
    rw [lineEnd]
    obtain ⟨blank, hblank, h⟩ := bind_eq_ok.mp h
    by_cases hb : blank = true
    · rw [if_pos hb] at h
      rw [if_pos (.inl ((of_hasPrefix hblank).trans hb))]
      exact Except.ok.inj h
    rw [if_neg hb] at h
    obtain ⟨crcr, hcrcr, h⟩ := bind_eq_ok.mp h
    by_cases hcr : crcr = true
    · rw [if_pos hcr] at h
      rw [if_pos (.inr (.inl ((of_hasPrefix hcrcr).trans hcr)))]
      exact Except.ok.inj h
    rw [if_neg hcr] at h
    obtain ⟨lflf, hlflf, h⟩ := bind_eq_ok.mp h
    by_cases hlf : lflf = true
    · rw [if_pos hlf] at h
      rw [if_pos (.inr (.inr ((of_hasPrefix hlflf).trans hlf)))]
      exact Except.ok.inj h
    rw [if_neg hlf] at h
    obtain ⟨both, hboth, h⟩ := bind_eq_ok.mp h
    rw [of_hasPrefix hblank, of_hasPrefix hcrcr, of_hasPrefix hlflf, of_hasPrefix hboth,
      if_neg (not_or.mpr ⟨hb, not_or.mpr ⟨hcr, hlf⟩⟩)]
    split_ifs at h ⊢
    · exact Except.ok.inj h
    · exact Except.ok.inj h
    · exact ih h

lemma shorter_nextField {r : Option Bytes} (h : nextField ended ptr = .ok r) :
    ∀ next ∈ r, next.length < ptr.length := by
  intro next hnext
  cases hnext
  exact length_nextField (of_nextField h)

lemma shorter_getNextLine {r : Option Bytes} (h : getNextLine ended str = .ok r) :
    ∀ next ∈ r, next.length < str.length := by
  intro next hnext
  cases hnext
  exact length_getNextLine (of_getNextLine h)

end Lengths

section Parsing

variable (ended : Bool) (env : ParseEnv)

-- The field at `ptr`, and whether it could be parsed. `sscanf` looks for the end of the string.
def transportField (h : Handling) (ptr : Bytes) : Except LibRtsp.Fault (Handling × Bool) := do
  if ← hasPrefix ended (bytes "RTP/AVP/TCP") ptr then .ok ({ h with intlvdMode := true }, true)
  else if ← hasPrefix ended (bytes "RTP/AVP/UDP") ptr then .ok ({ h with intlvdMode := false }, true)
  else if ← hasPrefix ended (bytes "RTP/AVP") ptr then .ok ({ h with intlvdMode := false }, true)
  else if ← hasPrefix ended (bytes "unicast") ptr then .ok (h, true)
  else if ← hasPrefix ended (bytes "mode") ptr then .ok (h, true)
  else if ← hasPrefix ended (bytes "client_port") ptr then atEnd ended (h.clientPort ptr)
  else if ← hasPrefix ended (bytes "interleaved") ptr then atEnd ended (h.interleaved ptr)
  else .ok (h, true)

def transportFields (h : Handling) (ptr : Bytes) : Except LibRtsp.Fault (Handling × Bool) :=
  if ptr = [] then atEnd ended (h, true)
  else do
    let r ← transportField ended h ptr
    if r.2 then
      match _h : nextField ended ptr with
      | .error f => .error f
      | .ok none => .ok r
      | .ok (some next) => transportFields r.1 next
    else .ok r
termination_by ptr.length
decreasing_by exact shorter_nextField ‹_› _ rfl

def parseHdrTransport (h : Handling) (line : Bytes) : Except LibRtsp.Fault (Handling × Bool) := do
  if ← hasPrefix ended (bytes "Transport: ") line then
    transportFields ended h (line.drop (bytes "Transport: ").length)
  else .ok (h, false)

def transportHdr (h : Handling) (line : Bytes) : Except LibRtsp.Fault (Handling × Bool) := do
  let (h, parsed) ← parseHdrTransport ended h line
  .ok (if parsed then (h, true) else (h.status .internalServerError, false))

def reqHdr (h : Handling) (line : Bytes) : Except LibRtsp.Fault (Handling × Bool) := do
  if ← hasPrefix ended (bytes "CSeq") line then atEnd ended (h.cseqHdr line)
  else if ← hasPrefix ended (bytes "Session") line then atEnd ended (h.sessionHdr env line)
  else if ← hasPrefix ended (bytes "User-Agent") line then .ok (h, true)
  else if ← hasPrefix ended (bytes "Transport") line then transportHdr ended h line
  else .ok (h, true)

def reqHdrs (h : Handling) (found : Bool) (line : Bytes) : Except LibRtsp.Fault (Handling × Bool) := do
  let r ← reqHdr ended env h line
  let found := found || Handling.cseqFound line
  if r.2 then
    match _h : getNextLine ended line with
    | .error f => .error f
    | .ok none => .ok (r.1, found)
    | .ok (some next) => reqHdrs r.1 found next
  else .ok (r.1, found)
termination_by line.length
decreasing_by exact shorter_getNextLine ‹_› _ rfl

def parseReqHdrs (h : Handling) (line : Bytes) : Except LibRtsp.Fault Handling := do
  let (h, found) ← reqHdrs ended env h false line
  .ok (if found then h else h.status .internalServerError)

def parseReqLine (h : Handling) (line : Bytes) : Except LibRtsp.Fault Handling := do
  let method ← getRtspMethod ended line
  let h := { h with req.method := method }
  if method = none then .ok (h.status .notImplemented)
  else match ← getNextWord ended line with
    | none => .ok { h with state := .failed }
    | some ptr =>
      let word ← wordOf ended ptr
      match strndup env.dupUri word with
      | none => .error .nullPointer
      | some uri =>
        let h := Handling.parseRtspUri env { h with req.uri := some uri } uri
        match ← getNextWord ended ptr with
        | none => .ok { h with state := .failed }
        | some ptr =>
          let word ← wordOf ended ptr
          match strndup env.dupReqVer word with
          | none => .error .nullPointer
          | some ver => .ok (Handling.checkVersion { h with req.ver := some ver } ver)

def parseText (h : Handling) (text : Bytes) : Except LibRtsp.Fault Handling :=
  if h.state ≠ .ready then .ok h
  else do
    let h ← parseReqLine ended env { h with
      resp.ver := strndup env.dupVer rtspVersion
      resp.server := strndup env.dupServer (bytes "Zmodo-RTSP-Server")
      resp.cseq := h.req.cseq
      resp.sessId := h.req.sessId } text
    match ← getNextLine ended text with
    | none => .ok h.parsed
    | some line =>
      let h ← parseReqHdrs ended env h line
      .ok h.parsed

end Parsing

def textOf (buf : Bytes) : Bytes := buf.takeWhile fun c => c ≠ 0

def parseRtspReq (env : ParseEnv) (h : Handling) (recvBuf : Bytes) : Except LibRtsp.Fault Handling :=
  parseText (decide (0 ∈ recvBuf)) env h (textOf recvBuf)

section Inside

def Stays (ended : Bool) (str : Bytes) : Prop := ended = true ∨ ¬ isLine str

variable {ended : Bool} {str ptr : Bytes}

lemma stays_cons {c : UInt8} (hc : c ≠ 13 ∧ c ≠ 10) : Stays ended (c :: str) ↔ Stays ended str := by
  have hline : isLine (c :: str) ↔ isLine str := by
    rw [isLine, isLine, List.forall_mem_cons]
    exact and_iff_right hc
  rw [Stays, Stays, hline]

lemma not_stays_nil : ¬ Stays false [] := fun h => h.elim nofun fun h => h fun _ hc => nomatch hc

lemma atEnd_eq {α : Type} (h : Stays ended []) (a : α) : atEnd ended a = .ok a := by
  cases ended with
  | true => rfl
  | false => exact absurd h not_stays_nil

lemma hasPrefix_of_not_cut {tag : Bytes} (h : ended = true ∨ (str <+: tag → tag <+: str)) :
    hasPrefix ended tag str = .ok (LibRtsp.hasPrefix tag str) := by
  induction tag generalizing str with
  | nil => rfl
  | cons t tag ih =>
    cases str with
    | nil =>
      obtain rfl := h.resolve_right fun hcut => nomatch List.prefix_nil.mp (hcut List.nil_prefix)
      rfl
    | cons c str =>
      rw [hasPrefix, LibRtsp.hasPrefix, List.isPrefixOf]
      split_ifs with hc
      · subst hc
        rw [ih (h.imp_right fun hcut hp => ?_), beq_self_eq_true, Bool.true_and]
        · rfl
        · exact (List.cons_prefix_cons.mp (hcut (List.cons_prefix_cons.mpr ⟨rfl, hp⟩))).2
      · rw [beq_eq_false_iff_ne.mpr (Ne.symm hc), Bool.false_and]

lemma hasPrefix_eq {tag : Bytes} (htag : isLine tag) (h : Stays ended str) :
    hasPrefix ended tag str = .ok (LibRtsp.hasPrefix tag str) :=
  hasPrefix_of_not_cut (h.imp_right fun hline hp => absurd (fun c hc => htag c (hp.mem hc)) hline)

lemma isLine_token (m : Method) : isLine m.token := by
  cases m <;> decide +kernel

lemma firstMethod_eq (h : Stays ended str) (ms : List Method) :
    firstMethod ended str ms = .ok (ms.find? fun m => LibRtsp.hasPrefix m.token str) := by
  induction ms with
  | nil => rfl
  | cons m ms ih =>
    rw [firstMethod, hasPrefix_eq (isLine_token m) h, ok_bind, List.find?_cons]
    cases LibRtsp.hasPrefix m.token str
    · exact ih
    · rfl

lemma getRtspMethod_eq (h : Stays ended str) :
    getRtspMethod ended str = .ok (LibRtspServer.getRtspMethod str) := firstMethod_eq h Method.all

lemma peek_eq (h : Stays ended str) : peek ended str = .ok (str.head?.getD 0) := by
  cases str with
  | nil => exact atEnd_eq h 0
  | cons c str => rfl

lemma getNextWord_eq (h : Stays ended str) :
    getNextWord ended str = .ok (LibRtspServer.getNextWord str)
      ∧ ∀ ptr ∈ LibRtspServer.getNextWord str, Stays ended ptr := by
  induction str with
  | nil => exact ⟨atEnd_eq h none, nofun⟩
  | cons c str ih =>
    rw [getNextWord, LibRtspServer.getNextWord]
    by_cases hc : c = 32
    · have hrest := (stays_cons (by rw [hc]; decide)).mp h
      obtain ⟨hnext, hptr⟩ := ih hrest
      rw [if_pos hc, peek_eq hrest, ok_bind, hnext]
      by_cases hd : str.head? = some 32
      · rw [hd, Option.getD_some, if_neg (not_not_intro rfl), if_neg fun h => h.2 rfl,
          if_neg (by rw [hc]; decide)]
        exact ⟨rfl, hptr⟩
      · have hne : str.head?.getD 0 ≠ 32 := by
          cases str with
          | nil => decide
          | cons d str => exact fun heq => hd (congrArg some heq)
        rw [if_pos hne, if_pos ⟨hc, hd⟩]
        refine ⟨rfl, fun ptr hmem => ?_⟩
        cases hmem
        exact hrest
    · rw [if_neg hc, if_neg fun h : c = 32 ∧ _ => hc h.1]
      split_ifs with hline
      · exact ⟨rfl, nofun⟩
      · exact ih ((stays_cons (not_or.mp hline)).mp h)

lemma wordOf_eq (h : Stays ended str) : wordOf ended str = .ok (LibRtspServer.wordOf str) := by
  induction str with
  | nil => exact atEnd_eq h []
  | cons c word ih =>
    rw [wordOf, LibRtspServer.wordOf, List.takeWhile_cons]
    by_cases hc : c = 32 ∨ c = 13 ∨ c = 10
    · rw [if_pos hc, if_neg (by simp only [decide_eq_true_eq]; tauto)]
    · rw [if_neg hc, if_pos (by simp only [decide_eq_true_eq]; tauto)]
      rw [ih ((stays_cons (not_or.mp (not_or.mp hc).2)).mp h)]
      rfl

lemma strpbrk_eq (h : Stays ended ptr) :
    strpbrk ended [59, 13, 10] ptr = .ok (LibRtsp.strpbrk [59, 13, 10] ptr)
      ∧ ∀ next ∈ LibRtsp.strpbrk [59, 13, 10] ptr, Stays ended next := by
  induction ptr with
  | nil => exact ⟨atEnd_eq h none, nofun⟩
  | cons c ptr ih =>
    rw [strpbrk, LibRtsp.strpbrk]
    split_ifs with hc
    · refine ⟨rfl, fun next hmem => ?_⟩
      cases hmem
      exact h
    · simp only [List.mem_cons, List.not_mem_nil, or_false, not_or] at hc
      exact ih ((stays_cons hc.2).mp h)

lemma skipSemicolons_eq (h : Stays ended ptr) :
    skipSemicolons ended ptr = .ok (ptr.dropWhile fun c => c = 59)
      ∧ Stays ended (ptr.dropWhile fun c => c = 59) := by
  induction ptr with
  | nil => exact ⟨atEnd_eq h [], h⟩
  | cons c ptr ih =>
    rw [skipSemicolons]
    split_ifs with hc
    · rw [List.dropWhile_cons_of_pos (by simpa using hc)]
      exact ih ((stays_cons (by rw [hc]; decide)).mp h)
    · rw [List.dropWhile_cons_of_neg (by simpa using hc)]
      exact ⟨rfl, h⟩

lemma nextField_eq (h : Stays ended ptr) :
    (nextField ended ptr = match LibRtsp.nextField ptr with
      | none => .error .nullPointer
      | some next => .ok next)
      ∧ ∀ next, LibRtsp.nextField ptr = some (some next) → Stays ended next := by
  obtain ⟨hfound, hnext⟩ := strpbrk_eq h
  rw [nextField, LibRtsp.nextField, hfound, ok_bind]
  cases hptr : LibRtsp.strpbrk [59, 13, 10] ptr with
  | none => exact ⟨rfl, by rintro _ ⟨⟩⟩
  | some next =>
    obtain ⟨hskip, hstays⟩ := skipSemicolons_eq (hnext next hptr)
    dsimp only [Option.map_some]
    rw [hskip, ok_bind]
    refine ⟨rfl, fun next' hnext' => ?_⟩
    split at hnext'
    · cases hnext'
    · cases hnext'
      exact hstays

end Inside

section LineEnds

def Ends (str : Bytes) : Prop :=
  (str.dropWhile fun c => c ≠ 13 ∧ c ≠ 10) ∉ ([[], [13], [10], [13, 10], [13, 10, 13]] : List Bytes)

instance (str : Bytes) : Decidable (Ends str) := inferInstanceAs (Decidable (_ ∉ _))

lemma stays_of_ends {str : Bytes} (h : Ends str) : ¬ isLine str := by
  intro hline
  refine h ?_
  rw [List.dropWhile_eq_nil_iff.mpr fun c hc => decide_eq_true (hline c hc)]
  exact List.mem_cons_self

lemma ends_cons {c : UInt8} (hc : c ≠ 13 ∧ c ≠ 10) (str : Bytes) : Ends (c :: str) ↔ Ends str := by
  have hdrop : (c :: str).dropWhile (fun c => decide (c ≠ 13 ∧ c ≠ 10))
      = str.dropWhile fun c => decide (c ≠ 13 ∧ c ≠ 10) := List.dropWhile_cons_of_pos (decide_eq_true hc)
  rw [Ends, hdrop]
  rfl

lemma getNextLine_cr (str : Bytes) : getNextLine false (13 :: str) =
    if Ends (13 :: str) then .ok (LibRtsp.getNextLine (13 :: str)) else .error .overread := by
  have hne {c d : UInt8} (h : ¬ c = d) : ¬ d = c := fun heq => h heq.symm
  rcases str with _ | ⟨d, str⟩
  · rfl
  by_cases hd : d = 10
  · subst hd
    rcases str with _ | ⟨e, str⟩
    · rfl
    by_cases he : e = 13
    · subst he
      rcases str with _ | ⟨f, str⟩
      · rfl
      by_cases hf : f = 10
      · subst hf
        simp [getNextLine, LibRtsp.getNextLine, lineEnd, Ends, hasPrefix, LibRtsp.hasPrefix, ok_bind]
      · simp [getNextLine, LibRtsp.getNextLine, lineEnd, Ends, hasPrefix, LibRtsp.hasPrefix, crlf, ok_bind, hf, hne hf]
    · simp [getNextLine, LibRtsp.getNextLine, lineEnd, Ends, hasPrefix, LibRtsp.hasPrefix, crlf, ok_bind, he, hne he]
  · by_cases hd' : d = 13
    · subst hd'
      simp [getNextLine, LibRtsp.getNextLine, lineEnd, Ends, hasPrefix, LibRtsp.hasPrefix, ok_bind]
    · simp [getNextLine, LibRtsp.getNextLine, lineEnd, Ends, hasPrefix, LibRtsp.hasPrefix, crlf, ok_bind, hd, hd',
        hne hd, hne hd']

lemma getNextLine_lf (str : Bytes) : getNextLine false (10 :: str) =
    if Ends (10 :: str) then .ok (LibRtsp.getNextLine (10 :: str)) else .error .overread := by
  rcases str with _ | ⟨d, str⟩
  · rfl
  by_cases hd : d = 10
  · subst hd
    simp [getNextLine, LibRtsp.getNextLine, lineEnd, Ends, hasPrefix, LibRtsp.hasPrefix, ok_bind]
  · have hne : ¬ (10 : UInt8) = d := fun heq => hd heq.symm
    simp [getNextLine, LibRtsp.getNextLine, lineEnd, Ends, hasPrefix, LibRtsp.hasPrefix, crlf, ok_bind, hd, hne]

lemma getNextLine_cons (ended : Bool) {c : UInt8} (hc : c ≠ 13 ∧ c ≠ 10) (str : Bytes) :
    getNextLine ended (c :: str) = getNextLine ended str
      ∧ LibRtsp.getNextLine (c :: str) = LibRtsp.getNextLine str := by
  constructor
  · simp [getNextLine, hasPrefix, crlf, ok_bind, hc.1, hc.2]
  · exact congrArg (Option.map Prod.snd) (@lineEnd_append [c] (by simpa [isLine] using hc) str)

lemma getNextLine_eq (str : Bytes) : getNextLine false str =
    if Ends str then .ok (LibRtsp.getNextLine str) else .error .overread := by
  induction str with
  | nil => rfl
  | cons c str ih =>
    by_cases hcr : c = 13
    · exact hcr ▸ getNextLine_cr str
    by_cases hlf : c = 10
    · exact hlf ▸ getNextLine_lf str
    obtain ⟨hnext, htext⟩ := getNextLine_cons false ⟨hcr, hlf⟩ str
    simp only [hnext, htext, ih, ends_cons ⟨hcr, hlf⟩]

lemma getNextLine_true (str : Bytes) : getNextLine true str = .ok (LibRtsp.getNextLine str) := by
  have hprefix (tag str : Bytes) := @hasPrefix_of_not_cut true str tag (.inl rfl)
  induction str with
  | nil => rfl
  | cons c str ih =>
    rw [LibRtsp.getNextLine] at ih ⊢
    simp only [getNextLine, lineEnd, hprefix, ok_bind]
    split_ifs <;> first | rfl | exact ih | tauto

end LineEnds

end RecvBuf

end SimpleCode.LibRtspServer
