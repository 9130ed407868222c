import SimpleCode.Foundations.MergePasses

set_option autoImplicit false

/-! The general sort package. A queue is the list of its items from `first` on, so that `last` is the
last of them; `queue pair side` is queue `2 * pair + side`, and likewise for the files. Allocation
and the file operations succeed. -/

namespace SimpleCode.Algorithm.ZSort

open Foundations Foundations.Comp

variable {α : Type}

structure Item (α : Type) where
  item : α
  endOfBlock : Bool

structure MemoryStruct (α : Type) where
  first : List (Item α)
  count : ℕ

inductive Mark (α : Type)
  | item (item : α)
  | endOfBlock

structure FileStruct (α : Type) where
  behind : List (Mark α)
  ahead : List (Mark α)
  count : ℕ
  item : Option α
  endOfBlock : Bool

structure Zsort (α : Type) where
  retrieving : Bool
  filesUsed : Bool
  memory : ℕ
  queue : Bool → Bool → MemoryStruct α
  empty : ℕ
  destinationFile : Bool
  retrievalQueueOrFile : Bool
  file : Bool → Bool → FileStruct α

-- What ends a sort: `ZSORTABORT`, a null pointer, a file read behind what was written to it, or a
-- submission while the items are retrieved.
inductive Stop
  | abort
  | nullPointer
  | endOfFile
  | staleLast

def zcompAbort : ℤ := -0x80000000

def zcompDupP : ℤ := -0x7fffffff

def zcompDupQ : ℤ := -0x7ffffffe

def zsortOpen (memory : ℕ) : Zsort α where
  retrieving := false
  filesUsed := false
  memory := if memory < 4 then 4 else memory
  queue := fun _ _ => ⟨[], 0⟩
  empty := 0
  destinationFile := false
  retrievalQueueOrFile := false
  file := fun _ _ => ⟨[], [], 0, none, false⟩

section Queues

structure QueueMerge (α : Type) where
  source : Bool → MemoryStruct α
  endOfBlock : Bool → Bool
  destination : MemoryStruct α
  empty : ℕ

def QueueMerge.more (s : QueueMerge α) : Bool := !s.endOfBlock false || !s.endOfBlock true

-- Whichever item is discarded, `next` is behind the head of the second queue.
def QueueMerge.discard (s : QueueMerge α) (next : List (Item α)) (discard : Bool) : QueueMerge α :=
  match (s.source discard).first with
  | [] => s
  | q :: _ =>
    { s with
      source := Function.update s.source discard ⟨next, (s.source discard).count - 1⟩
      endOfBlock :=
        if q.endOfBlock then Function.update s.endOfBlock discard true else s.endOfBlock
      empty := s.empty + 1 }

def QueueMerge.choose (compare : α → α → ℤ) (s : QueueMerge α) :
    Except Stop (QueueMerge α × Bool) :=
  if s.endOfBlock false then .ok (s, true)
  else if s.endOfBlock true then .ok (s, false)
  else
    match (s.source false).first, (s.source true).first with
    | p :: _, q :: next =>
      let n := compare p.item q.item
      if n = zcompAbort then .error .abort
      else if n = zcompDupP ∨ n = zcompDupQ then
        let move := decide (n ≠ zcompDupP)
        .ok (s.discard next (!move), move)
      else .ok (s, decide (¬ n < 0))
    | _, _ => .error .nullPointer

def QueueMerge.moveItem (s : QueueMerge α) (move : Bool) : Except Stop (QueueMerge α) :=
  match (s.source move).first with
  | [] => .error .nullPointer
  | q :: next =>
    .ok { s with
      source := Function.update s.source move ⟨next, (s.source move).count - 1⟩
      endOfBlock := if q.endOfBlock then Function.update s.endOfBlock move true else s.endOfBlock
      destination := ⟨s.destination.first ++ [⟨q.item, false⟩], s.destination.count + 1⟩ }

def QueueMerge.step (compare : α → α → ℤ) (s : QueueMerge α) : Except Stop (QueueMerge α) := do
  let (s, move) ← s.choose compare
  s.moveItem move

def closeBlock : List (Item α) → List (Item α)
  | [] => []
  | [q] => [{ q with endOfBlock := true }]
  | q :: q' :: next => q :: closeBlock (q' :: next)

structure QueuePass (α : Type) where
  source : Bool → MemoryStruct α
  output : Bool → MemoryStruct α
  destination : Bool
  empty : ℕ

def QueuePass.more (s : QueuePass α) : Bool :=
  !((s.source false).count == 0 && (s.source true).count == 0)

def QueuePass.mergeBlocks (compare : α → α → ℤ) (s : QueuePass α) : Comp Stop (QueuePass α) := do
  let m ← loop QueueMerge.more (fun m => ofExcept (m.step compare))
    ⟨s.source, fun side => (s.source side).count == 0, s.output s.destination, s.empty⟩
  pure ⟨m.source, Function.update s.output s.destination
    { m.destination with first := closeBlock m.destination.first }, !s.destination, m.empty⟩

structure Queues (α : Type) where
  queue : Bool → Bool → MemoryStruct α
  empty : ℕ
  source : Bool

def Queues.pass (compare : α → α → ℤ) (s : Queues α) : Comp Stop (Queues α) := do
  let p ← loop QueuePass.more (QueuePass.mergeBlocks compare)
    ⟨s.queue s.source, fun _ => ⟨[], 0⟩, false, s.empty⟩
  pure ⟨Function.update (Function.update s.queue s.source p.source) (!s.source) p.output, p.empty,
    !s.source⟩

def sortQueues (compare : α → α → ℤ) (h : Zsort α) : Comp Stop (Zsort α × Bool) := do
  let s ← loop (fun s : Queues α => (s.queue s.source true).count != 0) (Queues.pass compare)
    ⟨h.queue, h.empty, false⟩
  pure ({ h with queue := s.queue, empty := s.empty }, s.source)

end Queues

section Files

def FileStruct.rewind (f : FileStruct α) : FileStruct α :=
  { f with behind := [], ahead := f.behind ++ f.ahead }

def FileStruct.openFile (f : FileStruct α) : FileStruct α := { f.rewind with count := 0 }

def FileStruct.write (f : FileStruct α) (mark : Mark α) : FileStruct α :=
  { f with behind := f.behind ++ [mark], ahead := [] }

def FileStruct.readItem (f : FileStruct α) : Except Stop (FileStruct α) :=
  match f.ahead with
  | [] => .error .endOfFile
  | .item item :: ahead =>
    .ok { f with
      behind := f.behind ++ [.item item]
      ahead := ahead
      endOfBlock := false
      item := some item }
  | .endOfBlock :: ahead =>
    .ok { f with
      behind := f.behind ++ [.endOfBlock]
      ahead := ahead
      endOfBlock := true }

def Zsort.writeBlock (h : Zsort α) (n : Bool) : Zsort α :=
  let items := (h.queue n false).first
  let f := h.file false h.destinationFile
  let f := items.foldl (fun f q => f.write (.item q.item)) f
  let f := { f with count := f.count + 1 }.write .endOfBlock
  { h with
    queue := Function.update h.queue n (Function.update (h.queue n) false ⟨[], 0⟩)
    empty := h.empty + items.length
    file := Function.update h.file false (Function.update (h.file false) h.destinationFile f) }

def chooseFile (compare : α → α → ℤ) (source : Bool → FileStruct α) :
    Except Stop ((Bool → FileStruct α) × Bool) :=
  if (source false).endOfBlock then .ok (source, true)
  else if (source true).endOfBlock then .ok (source, false)
  else
    match (source false).item, (source true).item with
    | some p, some q =>
      let n := compare p q
      if n = zcompAbort then .error .abort
      else if n = zcompDupP ∨ n = zcompDupQ then do
        let move := decide (n ≠ zcompDupP)
        let f ← (source !move).readItem
        .ok (Function.update source (!move) f, move)
      else .ok (source, decide (¬ n < 0))
    | _, _ => .error .nullPointer

def takeItem (compare : α → α → ℤ) (source : Bool → FileStruct α) :
    Except Stop ((Bool → FileStruct α) × α) := do
  let (source, move) ← chooseFile compare source
  match (source move).item with
  | none => .error .nullPointer
  | some item =>
    let f ← (source move).readItem
    .ok (Function.update source move f, item)

structure FileMerge (α : Type) where
  source : Bool → FileStruct α
  destination : FileStruct α

def FileMerge.more (s : FileMerge α) : Bool :=
  !(s.source false).endOfBlock || !(s.source true).endOfBlock

def FileMerge.step (compare : α → α → ℤ) (s : FileMerge α) : Except Stop (FileMerge α) := do
  let (source, item) ← takeItem compare s.source
  .ok ⟨source, s.destination.write (.item item)⟩

structure FilePass (α : Type) where
  source : Bool → FileStruct α
  output : Bool → FileStruct α
  destination : Bool

def decrement (count : ℕ) : ℕ := if count = 0 then 2 ^ 64 - 1 else count - 1

def FilePass.more (s : FilePass α) : Bool := decide (0 < (s.source false).count)

def FilePass.mergeBlocks (compare : α → α → ℤ) (s : FilePass α) : Comp Stop (FilePass α) := do
  let f0 ← ofExcept (s.source false).readItem
  let f1 ← ofExcept (if 0 < (s.source true).count then (s.source true).readItem
    else .ok { s.source true with endOfBlock := true })
  let m ← loop FileMerge.more (fun m => ofExcept (m.step compare))
    ⟨fun side => if side then f1 else f0, s.output s.destination⟩
  let f := { m.destination with count := m.destination.count + 1 }.write .endOfBlock
  pure ⟨fun side => { m.source side with count := decrement (m.source side).count },
    Function.update s.output s.destination f, !s.destination⟩

structure Files (α : Type) where
  file : Bool → Bool → FileStruct α
  source : Bool

def Files.pass (compare : α → α → ℤ) (s : Files α) : Comp Stop (Files α) := do
  let p ← loop FilePass.more (FilePass.mergeBlocks compare)
    ⟨s.file s.source, fun side => { s.file (!s.source) side with count := 0 }, false⟩
  let file := Function.update (Function.update s.file s.source p.source) (!s.source) p.output
  pure ⟨fun pair side => (file pair side).rewind, !s.source⟩

def mergeFiles (compare : α → α → ℤ) (file : Bool → Bool → FileStruct α) : Comp Stop (Files α) :=
  loop (fun s : Files α => decide (1 < (s.file s.source false).count)) (Files.pass compare)
    ⟨file, false⟩

end Files

def Zsort.openFiles (h : Zsort α) : Zsort α :=
  { h with
    file := Function.update h.file false fun side => (h.file false side).openFile
    filesUsed := true
    destinationFile := false }

def Zsort.putItem (h : Zsort α) (p : α) : Zsort α :=
  let z := decide (¬ (h.queue false false).count ≤ (h.queue false true).count)
  let shorter := h.queue false z
  { h with
    queue := Function.update h.queue false
      (Function.update (h.queue false) z ⟨⟨p, true⟩ :: shorter.first, shorter.count + 1⟩)
    empty := h.empty - 1 }

-- To give up a retrieval the code links the empty list behind the `last` of each queue, which nothing
-- has set for a single item or the buffer of a file; such a submission is not followed any further.
def zsortSubmit (compare : α → α → ℤ) (h : Zsort α) (p : α) : Comp Stop (Zsort α) := do
  if h.retrieving then ofExcept (.error .staleLast)
  else if h.memory ≤ (h.queue false false).count + (h.queue false true).count then do
    let h := if h.filesUsed then h else h.openFiles
    let (h, n) ← sortQueues compare h
    let h := h.writeBlock n
    pure ({ h with destinationFile := !h.destinationFile }.putItem p)
  else pure (h.putItem p)

-- What `ZsortRetrieve` does first once the items have all been submitted. Four items of the empty
-- list become the buffers of the files.
def startRetrieval (compare : α → α → ℤ) (h : Zsort α) : Comp Stop (Zsort α) := do
  let (h, n) ← sortQueues compare h
  if h.filesUsed then
    let h := h.writeBlock n
    if h.empty < 4 then ofExcept (.error .nullPointer)
    else
      let s ← mergeFiles compare fun pair side =>
        if pair then (h.file pair side).openFile else (h.file pair side).rewind
      let f0 ← ofExcept (s.file s.source false).readItem
      let f1 ← ofExcept (s.file s.source true).readItem
      pure { h with
        empty := h.empty - 4
        file := Function.update s.file s.source fun side => if side then f1 else f0
        retrievalQueueOrFile := s.source
        retrieving := true }
  else pure { h with retrievalQueueOrFile := n, retrieving := true }

-- `none` is `ZSORTEND`.
def retrieveItem (compare : α → α → ℤ) (h : Zsort α) : Except Stop (Zsort α × Option α) :=
  let source := h.retrievalQueueOrFile
  if h.filesUsed then
    if (h.file source false).endOfBlock && (h.file source true).endOfBlock then .ok (h, none)
    else do
      let (f, item) ← takeItem compare (h.file source)
      .ok ({ h with file := Function.update h.file source f }, some item)
  else
    let z := h.queue source false
    match z.first with
    | [] => .ok (h, none)
    | q :: next =>
      .ok ({ h with
        queue := Function.update h.queue source
          (Function.update (h.queue source) false { z with first := next })
        empty := h.empty + 1 }, some q.item)

def zsortRetrieve (compare : α → α → ℤ) (h : Zsort α) : Comp Stop (Zsort α × Option α) := do
  let h ← if h.retrieving then pure h else startRetrieval compare h
  ofExcept (retrieveItem compare h)

def retrieveItems (compare : α → α → ℤ) : ℕ → Zsort α → Comp Stop (List (Option α))
  | 0, _ => pure []
  | n + 1, h => do
    let (h, item) ← zsortRetrieve compare h
    let items ← retrieveItems compare n h
    pure (item :: items)

def sortRecords (compare : α → α → ℤ) (memory : ℕ) (records : List α) (n : ℕ) :
    Comp Stop (List (Option α)) := do
  let h ← records.foldlM (zsortSubmit compare) (zsortOpen memory)
  retrieveItems compare n h

end SimpleCode.Algorithm.ZSort
