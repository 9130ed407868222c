import Mathlib.Data.List.FinRange
import Mathlib.Logic.Function.Basic

set_option autoImplicit false

/-! The table of call traces of `SystemInstrument`, with the two functions that the hooks at the
entry and the exit of every function call under a lock. A doubly linked list is the list of its
nodes from `head` to `tail`. -/

namespace SimpleCode.Debug

def maxTraceThreads : ℕ := 128

structure DebugNode where
  func : ℕ
  callSite : ℕ
deriving DecidableEq, Repr

structure NodeHead where
  tid : ℕ
  list : List DebugNode
deriving DecidableEq, Repr

abbrev Nodes := Fin maxTraceThreads → NodeHead

inductive Report
  | silent
  | noSuchThread
  | stackIsDestroyed
deriving DecidableEq, Repr

def addIndex (nodes : Nodes) (threadid : ℕ) :
    List (Fin maxTraceThreads) → Option (Fin maxTraceThreads) → Option (Fin maxTraceThreads)
  | [], index => index
  | i :: is, index =>
    let index := if (nodes i).tid = 0 ∧ index = none then some i else index
    if (nodes i).tid = threadid then some i else addIndex nodes threadid is index

def addNode (nodes : Nodes) (threadid func callSite : ℕ) : Nodes :=
  match addIndex nodes threadid (List.finRange maxTraceThreads) none with
  | none => nodes
  | some index =>
    Function.update nodes index ⟨threadid, (nodes index).list ++ [⟨func, callSite⟩]⟩

-- `callSite` and the function that is left are not looked at: the source compares the newest
-- node with itself.
def delNode (nodes : Nodes) (threadid _func _callSite : ℕ) : Nodes × Report :=
  match (List.finRange maxTraceThreads).find? fun i => (nodes i).tid = threadid with
  | none => (nodes, .noSuchThread)
  | some i =>
    match (nodes i).list.getLast? with
    | none => (nodes, .stackIsDestroyed)
    | some tail =>
      let node := tail
      if node.func ≠ tail.func then (nodes, .stackIsDestroyed)
      else
        let rest := (nodes i).list.dropLast
        (Function.update nodes i (if rest = [] then ⟨0, []⟩ else ⟨(nodes i).tid, rest⟩), .silent)

def initialNodes : Nodes := fun _ => ⟨0, []⟩

end SimpleCode.Debug
