import SimpleCode.Foundations.Buffer

set_option autoImplicit false

namespace SimpleCode.HttpFetcher

open Foundations Foundations.Bytes

def headerBufSize : ℕ := 1024

inductive Answer
  | byte (b : UInt8)
  | closed
  | failed
deriving DecidableEq

abbrev Socket := ℕ → Answer

inductive Fault
  | outsideHeaderBuf
  | outsideHeaderText
deriving DecidableEq

structure Header where
  headerBuf : ℕ → UInt8
  headerPtr : ℤ
  bytesRead : ℕ
  newlines : ℕ

def store (headerBuf : ℕ → UInt8) (ptr : ℤ) (c : UInt8) : Except Fault (ℕ → UInt8) :=
  if 0 ≤ ptr ∧ ptr < headerBufSize then .ok (Function.update headerBuf ptr.toNat c)
  else .error .outsideHeaderBuf

-- `read(sock, headerPtr, 1)`; at the end of the stream `*headerPtr` stays what it was
def read (answer : Answer) (h : Header) : Except Fault (ℕ → UInt8) :=
  match answer with
  | .byte b => store h.headerBuf h.headerPtr b
  | _ => .ok h.headerBuf

-- one round of the loop, where `none` stands for -1
def readByte (answer : Answer) (h : Header) : Except Fault (Option Header) :=
  if answer = .failed then .ok none
  else do
    let headerBuf ← read answer h
    let c := headerBuf h.headerPtr.toNat
    let newlines := if c = 13 then h.newlines else if c = 10 then h.newlines + 1 else 0
    return some ⟨headerBuf, h.headerPtr + 1, h.bytesRead + 1, newlines⟩

def readLoop (socket : Socket) : ℕ → Header → Except Fault (Option Header)
  | 0, h => .ok (some h)
  | left + 1, h =>
    if h.newlines = 2 then .ok (some h)
    else do
      match ← readByte (socket h.bytesRead) h with
      | none => return none
      | some h => readLoop socket left h

def httpReadHeader (socket : Socket) (headerBuf : ℕ → UInt8) :
    Except Fault (Option (ℕ × (ℕ → UInt8))) := do
  match ← readLoop socket headerBufSize ⟨headerBuf, 0, 0, 0⟩ with
  | none => return none
  | some h =>
    let headerBuf ← store h.headerBuf (h.headerPtr - 3) 0
    return some (h.bytesRead, headerBuf)

def headerText (headerBuf : ℕ → UInt8) : Bytes :=
  (Buffer.contents headerBuf headerBufSize).takeWhile (· ≠ 0)

-- `while (*charIndex != ' ') charIndex++;` from a place in the text
def skipToBlank : Bytes → Except Fault Bytes
  | [] => .error .outsideHeaderText
  | c :: text => if c = 32 then .ok (c :: text) else skipToBlank text

def isSpace (c : UInt8) : Bool := c = 32 ∨ (9 ≤ c ∧ c ≤ 13)

def isDigit (c : UInt8) : Bool := 48 ≤ c ∧ c ≤ 57

def sscanfInt (text : Bytes) : Option ℤ :=
  let text := text.dropWhile isSpace
  let digits (s : Bytes) : Option ℤ :=
    match s.takeWhile isDigit with
    | [] => none
    | ds => some (ds.foldl (fun n d => 10 * n + (d.toNat - 48)) 0)
  match text with
  | 45 :: text => (digits text).map (- ·)
  | 43 :: text => digits text
  | text => digits text

inductive FetchStatus
  | headerError
  | returnCodeMissing
  | returnCodeUnreadable
  | status (code : ℤ)
deriving DecidableEq

def fetchStatus (socket : Socket) (headerBuf : ℕ → UInt8) : Except Fault FetchStatus := do
  match ← httpReadHeader socket headerBuf with
  | none => return .headerError
  | some (_, headerBuf) =>
    match find (bytes "HTTP/") (headerText headerBuf) with
    | none => return .returnCodeMissing
    | some charIndex =>
      let text ← skipToBlank ((headerText headerBuf).drop charIndex)
      match sscanfInt (text.drop 1) with
      | none => return .returnCodeUnreadable
      | some i => return .status i

end SimpleCode.HttpFetcher
