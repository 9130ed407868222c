import SimpleCode.Foundations.Buckets
import SimpleCode.Foundations.LinkedList
import SimpleCode.Foundations.Runs

set_option autoImplicit false

/-! The hash table of items that are only known by a match and a code. Blocks are numbered through
the large blocks that they are cut from, and none is used twice. -/

namespace SimpleCode.Algorithm

open Foundations

-- `insert_point`, `insert_item` and `insert_queue`, which have no values before the first search.
structure InsertPoint (ι : Type) where
  point : Option ℕ
  item : ι
  queue : ℕ

structure Htab (ι : Type) where
  next : ℕ → Option ℕ
  item : ℕ → ι
  queue : ℕ → Option ℕ
  blocks : ℕ
  cursor : Option (InsertPoint ι)

inductive HtabCall (ι : Type)
  | first (item : ι)
  | next
  | insert
  | remove

namespace Htab

variable {ι : Type}

-- The items of the blocks that are not in use are what is in their memory.
def new (memory : ℕ → ι) : Htab ι := ⟨fun _ => none, memory, fun _ => none, 0, none⟩

section

variable (pmatch : ι → ι → Bool) (pcode : ι → ℕ)

-- The walk of `first`; `none` when it has not ended after as many blocks as there are.
def search (h : Htab ι) (item : ι) : ℕ → Option ℕ → Option (Option ℕ)
  | _, none => some none
  | 0, some _ => none
  | fuel + 1, some b =>
    if pmatch item (h.item b) then some (some b) else h.search item fuel (h.next b)

def first (h : Htab ι) (item : ι) : Option (Htab ι × Option ι) := do
  let point ← h.search pmatch item h.blocks (h.queue (pcode item))
  pure ({ h with cursor := some ⟨point, item, pcode item⟩ }, point.map h.item)

def nextItem (h : Htab ι) : Option (Htab ι × Option ι) := do
  let cur ← h.cursor
  match cur.point.bind h.next with
  | none => pure (h, none)
  | some b =>
    if pmatch cur.item (h.item b) then
      pure ({ h with cursor := some { cur with point := some b } }, some (h.item b))
    else pure (h, none)

def insert (h : Htab ι) : Option (Htab ι) := do
  let cur ← h.cursor
  match cur.point with
  | none =>
    pure { h with
      next := Function.update h.next h.blocks (h.queue cur.queue)
      item := Function.update h.item h.blocks cur.item
      queue := Function.update h.queue cur.queue (some h.blocks)
      blocks := h.blocks + 1 }
  | some b =>
    pure { h with
      next := Function.update (Function.update h.next h.blocks (h.next b)) b (some h.blocks)
      item := Function.update h.item h.blocks cur.item
      blocks := h.blocks + 1 }

def front (h : Htab ι) : Option (ℕ × ℕ) :=
  (List.range 256).findSome? fun i => (h.queue i).map fun b => (i, b)

def remove (h : Htab ι) : Htab ι × Option ι :=
  match h.front with
  | none => (h, none)
  | some (i, b) => ({ h with queue := Function.update h.queue i (h.next b) }, some (h.item b))

def call (h : Htab ι) : HtabCall ι → Option (Htab ι × Option ι)
  | .first item => h.first pmatch pcode item
  | .next => h.nextItem pmatch
  | .insert => do pure (← h.insert, none)
  | .remove => some h.remove

def answers (h : Htab ι) : List (HtabCall ι) → Option (List (Option ι))
  | [] => some []
  | c :: cs => do
    let (h', answer) ← h.call pmatch pcode c
    let rest ← h'.answers cs
    pure (answer :: rest)

end

end Htab

structure HtabSession (ι : Type) where
  table : Htab ι
  searched : Option ι
  inserted : List ι
  returned : List ι

namespace HtabSession

variable {ι : Type} (pmatch : ι → ι → Bool) (pcode : ι → ℕ)

def new (memory : ℕ → ι) : HtabSession ι := ⟨.new memory, none, [], []⟩

def step (s : HtabSession ι) (c : HtabCall ι) : Option (HtabSession ι) :=
  match s.table.call pmatch pcode c with
  | none => none
  | some (table, answer) =>
    match c with
    | .first item => some ⟨table, some item, s.inserted, s.returned⟩
    | .next => some { s with table := table }
    | .insert => some { s with table := table, inserted := s.inserted ++ s.searched.toList }
    | .remove => some { s with table := table, returned := s.returned ++ answer.toList }

-- From here a search lists the items that match, and a walk with `remove` returns all items.
structure Complete (s : HtabSession ι) : Prop where
  lists : ∀ x, ∃ found : List ι, s.table.answers pmatch pcode
      (.first x :: List.replicate found.length .next) = some (found.map some ++ [none])
    ∧ (s.returned.filter (pmatch x) ++ found).Perm (s.inserted.filter (pmatch x))
  drains : ∃ rest : List ι, s.table.answers pmatch pcode (List.replicate (rest.length + 1) .remove)
      = some (rest.map some ++ [none])
    ∧ (s.returned ++ rest).Perm s.inserted

-- A search has been made before a call that goes on from it, and the block at which it inserts is
-- still in its queue.
def Usable (s : HtabSession ι) : HtabCall ι → Prop
  | .next => s.table.cursor ≠ none
  | .insert => ∃ cur, s.table.cursor = some cur ∧ ∀ b, cur.point = some b →
    b ∈ follow s.table.next s.table.blocks (s.table.queue cur.queue)
  | _ => True

end HtabSession

-- What the documentation asks of the functions of the user.
structure Documented {ι : Type} (pmatch : ι → ι → Bool) (pcode : ι → ℕ) : Prop where
  equivalence : Equivalence fun x y => pmatch x y = true
  same_code : ∀ x y, pmatch x y → pcode x = pcode y
  code_lt : ∀ x, pcode x < 256

end SimpleCode.Algorithm
