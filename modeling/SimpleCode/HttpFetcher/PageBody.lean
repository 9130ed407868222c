import SimpleCode.HttpFetcher.HttpFetcher

set_option autoImplicit false

/-! HTTP Fetcher: the body of a response, read into a buffer that grows by one read after the other.
Every allocation but one of a negative size succeeds, and what it adds to a block is arbitrary. -/

namespace SimpleCode.HttpFetcher

open Foundations Foundations.Bytes

-- what `select` and `read` answer in one round; no byte is read at the end of the stream
inductive Reading
  | timedOut
  | selectFailed
  | readFailed
  | read (chunk : Bytes)
deriving DecidableEq

inductive PageFault
  | outsideHeaderText
  | outsidePageBuf
  | overflow
deriving DecidableEq

structure Page where
  pageBuf : ℕ → UInt8
  size : ℕ
  bytesRead : ℕ

inductive PageOutcome
  | contentLengthUnreadable
  | noMemory
  | timedOut
  | selectFailed
  | readFailed
  | reading (page : Page)
  | fetched (page : Page)

def defaultPageBufSize : ℤ := 1024 * 200

-- the contents of the memory that an allocation of a size adds
abbrev Fresh := ℕ → ℕ → UInt8

def int (x : ℕ) : Except PageFault ℕ := if x < 2 ^ 31 then .ok x else .error .overflow

def realloc (fresh : Fresh) (size : ℕ) (page : Page) : Page :=
  { page with
    pageBuf := fun i => if i < min page.size size then page.pageBuf i else fresh size i
    size := size }

def trimPage (fresh : Fresh) (page : Page) : Except PageFault Page := do
  let page := realloc fresh (← int (page.bytesRead + 1)) page
  if page.bytesRead < page.size then
    .ok { page with pageBuf := Function.update page.pageBuf page.bytesRead 0 }
  else .error .outsidePageBuf

-- `read(sock, pageBuf + bytesRead, contentLength)` may fill all the room that it is given
def readChunk (fresh : Fresh) (contentLength : ℕ) (chunk : Bytes) (page : Page) :
    Except PageFault Page := do
  if page.size < page.bytesRead + contentLength then .error .outsidePageBuf
  else
    let page := { page with
      pageBuf := Buffer.put page.pageBuf page.bytesRead chunk
      bytesRead := ← int (page.bytesRead + chunk.length) }
    if 0 < chunk.length then .ok (realloc fresh (← int (page.bytesRead + contentLength)) page)
    else .ok page

def readPage (fresh : Fresh) (contentLength : ℕ) : List Reading → Page → Except PageFault PageOutcome
  | [], page => .ok (.reading page)
  | .timedOut :: _, _ => .ok .timedOut
  | .selectFailed :: _, _ => .ok .selectFailed
  | .readFailed :: _, page => do
    let _ ← readChunk fresh contentLength [] page
    .ok .readFailed
  | .read chunk :: readings, page => do
    let page ← readChunk fresh contentLength chunk page
    if 0 < chunk.length then readPage fresh contentLength readings page
    else .ok (.fetched (← trimPage fresh page))

-- `none` where no number follows, -1 where there is no such line; the number is looked for behind
-- the blank after the colon
def contentLengthOf (headerText : Bytes) : Except PageFault (Option ℤ) :=
  match (find (bytes "Content-Length:") headerText).or (find (bytes "Content-length:") headerText) with
  | none => .ok (some (-1))
  | some charIndex =>
    if charIndex + 16 ≤ headerText.length then .ok (sscanfInt (headerText.drop (charIndex + 16)))
    else .error .outsideHeaderText

def pageLength (contentLength : ℤ) : ℤ :=
  if contentLength = -1 then defaultPageBufSize else contentLength

def fetchPage (fresh : Fresh) (headerText : Bytes) (readings : List Reading) :
    Except PageFault PageOutcome := do
  match ← contentLengthOf headerText with
  | none => .ok .contentLengthUnreadable
  | some contentLength =>
    let contentLength := pageLength contentLength
    if contentLength < 0 then .ok .noMemory
    else
      let size := contentLength.toNat
      readPage fresh size readings ⟨fresh size, size, 0⟩

section Body

variable {fresh : Fresh} {L : ℕ} {chunk data headerText : Bytes} {page : Page} {readings : List Reading}

def bodyBytes : List Reading → Bytes
  | .read chunk :: readings => if 0 < chunk.length then chunk ++ bodyBytes readings else []
  | _ => []

def Closes : List Reading → Prop
  | .read chunk :: readings => 0 < chunk.length → Closes readings
  | _ => False

structure Holds (L : ℕ) (data : Bytes) (page : Page) : Prop where
  bytesRead : page.bytesRead = data.length
  contents : Buffer.contents page.pageBuf data.length = data
  size : page.size = data.length + L

lemma contents_realloc {n size : ℕ} (hold : n ≤ page.size) (hnew : n ≤ size) :
    Buffer.contents (realloc fresh size page).pageBuf n = Buffer.contents page.pageBuf n :=
  Buffer.contents_congr fun _ hi => if_pos (hi.trans_le (le_min hold hnew))

lemma readChunk_holds (fresh : Fresh) (chunk : Bytes) (h : Holds L data page) (hchunk : chunk.length ≤ L)
    (hint : data.length + chunk.length + L < 2 ^ 31) :
    ∃ next, readChunk fresh L chunk page = .ok next ∧ Holds L (data ++ chunk) next := by
  have hput := Buffer.contents_put page.pageBuf data.length chunk
  rw [h.contents] at hput
  have hroom : ¬ page.size < page.bytesRead + L := by
    rw [h.size, h.bytesRead]
    exact lt_irrefl _
  rw [readChunk, if_neg hroom, h.bytesRead, int, if_pos (by omega), ok_bind]
  by_cases hpos : 0 < chunk.length
  · rw [if_pos hpos]
    simp only
    rw [int, if_pos hint, ok_bind]
    refine ⟨_, rfl, (List.length_append).symm, ?_, by rw [List.length_append]; rfl⟩
    rw [List.length_append, contents_realloc (by simp only [h.size]; omega) (by omega)]
    exact hput
  · obtain rfl : chunk = [] := List.eq_nil_of_length_eq_zero (by omega)
    rw [if_neg hpos]
    refine ⟨_, rfl, (List.length_append).symm, ?_, ?_⟩
    · rw [List.length_append]
      exact hput
    · rw [List.append_nil]
      exact h.size

lemma trimPage_holds (fresh : Fresh) (h : Holds L data page) (hint : data.length + 1 < 2 ^ 31) :
    ∃ final, trimPage fresh page = .ok final ∧ final.bytesRead = data.length
      ∧ final.size = data.length + 1 ∧ Buffer.contents final.pageBuf data.length = data
      ∧ final.pageBuf data.length = 0 := by
  rw [trimPage, h.bytesRead, int, if_pos hint, ok_bind]
  simp only [realloc, h.bytesRead]
  rw [if_pos (Nat.lt_succ_self _)]
  refine ⟨_, rfl, rfl, rfl, ?_, by simp only [Function.update_self]⟩
  have htrimmed : Buffer.contents (realloc fresh (data.length + 1) page).pageBuf data.length
      = Buffer.contents page.pageBuf data.length :=
    contents_realloc (by rw [h.size]; omega) (Nat.le_succ _)
  rw [h.contents] at htrimmed
  refine (Buffer.contents_congr fun i hi => ?_).trans htrimmed
  simp only [Function.update_of_ne hi.ne, realloc]

structure Fetched (data : Bytes) (page : Page) : Prop where
  bytesRead : page.bytesRead = data.length
  contents : Buffer.contents page.pageBuf data.length = data
  terminated : page.pageBuf data.length = 0
  size : data.length < page.size

theorem readPage_holds (fresh : Fresh) (h : Holds L data page)
    (hcontract : ∀ chunk, .read chunk ∈ readings → chunk.length ≤ L)
    (hint : data.length + (bodyBytes readings).length + max L 1 < 2 ^ 31) :
    ∃ outcome, readPage fresh L readings page = .ok outcome
      ∧ (Closes readings → ∃ final, outcome = .fetched final)
      ∧ ∀ final, outcome = .fetched final → Fetched (data ++ bodyBytes readings) final := by
  induction readings generalizing data page with
  | nil => exact ⟨_, rfl, nofun, nofun⟩
  | cons reading readings ih =>
    cases reading with
    | timedOut => exact ⟨_, rfl, nofun, nofun⟩
    | selectFailed => exact ⟨_, rfl, nofun, nofun⟩
    | readFailed =>
      obtain ⟨next, hnext, -⟩ := readChunk_holds fresh [] h (Nat.zero_le L) (by
        simp only [List.length_nil]
        omega)
      rw [readPage, hnext]
      exact ⟨_, rfl, nofun, nofun⟩
    | read chunk =>
      have hchunk := hcontract chunk List.mem_cons_self
      by_cases hpos : 0 < chunk.length
      · rw [bodyBytes, if_pos hpos, List.length_append] at hint
        obtain ⟨next, hnext, hholds⟩ := readChunk_holds fresh chunk h hchunk (by omega)
        obtain ⟨outcome, houtcome, hcloses, hfetched⟩ := ih hholds
          (fun chunk hin => hcontract chunk (List.mem_cons_of_mem _ hin))
          (by rw [List.length_append]; omega)
        rw [readPage, hnext, ok_bind, if_pos hpos, bodyBytes, if_pos hpos, ← List.append_assoc]
        exact ⟨outcome, houtcome, fun h => hcloses (h hpos), hfetched⟩
      · obtain rfl : chunk = [] := List.eq_nil_of_length_eq_zero (by omega)
        obtain ⟨next, hnext, hholds⟩ := readChunk_holds fresh [] h hchunk (by
          simp only [List.length_nil]
          omega)
        rw [List.append_nil] at hholds
        obtain ⟨final, hfinal, hread, hsize, hcontents, hend⟩ := trimPage_holds fresh hholds
          (by omega)
        rw [readPage, hnext, ok_bind, if_neg hpos, hfinal, ok_bind, bodyBytes, if_neg hpos,
          List.append_nil]
        refine ⟨_, rfl, fun _ => ⟨final, rfl⟩, fun page hpage => ?_⟩
        cases hpage
        exact ⟨hread, hcontents, hend, by omega⟩

lemma bodyBytes_of_empty (hempty : ∀ chunk, .read chunk ∈ readings → chunk = []) :
    bodyBytes readings = [] := by
  cases readings with
  | nil => rfl
  | cons reading readings =>
    cases reading with
    | read chunk =>
      obtain rfl := hempty chunk List.mem_cons_self
      rfl
    | _ => rfl

theorem fetchPage_whole {contentLength : ℤ} (htext : contentLengthOf headerText = .ok (some contentLength))
    (hlength : contentLength = -1 ∨ 0 ≤ contentLength)
    (hcontract : ∀ chunk, .read chunk ∈ readings → (chunk.length : ℤ) ≤ pageLength contentLength)
    (htotal : (bodyBytes readings).length + pageLength contentLength < 2 ^ 31) :
    ∃ outcome, fetchPage fresh headerText readings = .ok outcome
      ∧ (Closes readings → ∃ page, outcome = .fetched page)
      ∧ ∀ page, outcome = .fetched page → Fetched (bodyBytes readings) page := by
  have hpos : 0 ≤ pageLength contentLength := by
    rw [pageLength]
    split
    · decide
    · omega
  obtain ⟨L, hL⟩ := Int.eq_ofNat_of_zero_le hpos
  rw [hL] at hcontract htotal
  have hbody : L = 0 → (bodyBytes readings).length = 0 := fun hzero => by
    rw [bodyBytes_of_empty fun chunk hin => List.eq_nil_of_length_eq_zero
      (by have := hcontract chunk hin; omega)]
    rfl
  have hstart : Holds L [] ⟨fresh L, L, 0⟩ := ⟨rfl, rfl, (Nat.zero_add L).symm⟩
  obtain ⟨outcome, houtcome, hcloses, hfetched⟩ := readPage_holds fresh hstart
    (fun chunk hin => by exact_mod_cast hcontract chunk hin) (by simp only [List.length_nil]; omega)
  refine ⟨outcome, ?_, hcloses, hfetched⟩
  rw [fetchPage, htext, ok_bind]
  simp only [hL, if_neg (Int.natCast_nonneg L).not_gt, Int.toNat_natCast]
  exact houtcome

theorem fetchPage_whole_short : ∃ outcome, fetchPage (fun _ _ => 170) (bytes "HTTP/1.0 200 OK\r\nContent-Length: 4")
      [.read [1, 2, 3], .read [4, 5, 6, 7], .read []] = .ok outcome
    ∧ (Closes [.read [1, 2, 3], .read [4, 5, 6, 7], .read []] → ∃ page, outcome = .fetched page)
    ∧ ∀ page, outcome = .fetched page →
      Fetched (bodyBytes [.read [1, 2, 3], .read [4, 5, 6, 7], .read []]) page :=
  @fetchPage_whole _ _ _ 4 (by decide +kernel) (by decide) (by simp [pageLength]) (by decide)

end Body

end SimpleCode.HttpFetcher
