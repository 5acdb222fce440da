import KlangFront.Diagnostic.Basic

/-!
# Batches of diagnostics

A batch gathers the diagnostics of one pass in the order in which they were
reported. A caller that stops at the first problem asks for `firstFatal?`; one
that shows every problem reads `reported`.
-/

namespace KlangFront

structure Batch where
  reported : Array Diagnostic
  deriving DecidableEq

namespace Batch

def empty : Batch := ⟨#[]⟩

def report (batch : Batch) (diagnostic : Diagnostic) : Batch := ⟨batch.reported.push diagnostic⟩

def toList (batch : Batch) : List Diagnostic := batch.reported.toList

def size (batch : Batch) : Nat := batch.reported.size

def isEmpty (batch : Batch) : Bool := batch.reported.isEmpty

def hasFatal (batch : Batch) : Bool := batch.toList.any Diagnostic.isFatal

def fatalCount (batch : Batch) : Nat := batch.toList.countP Diagnostic.isFatal

def warningCount (batch : Batch) : Nat := batch.toList.countP (·.severity = .warning)

def firstFatal? (batch : Batch) : Option Diagnostic := batch.toList.find? Diagnostic.isFatal

@[simp] theorem toList_empty : empty.toList = [] := rfl

@[simp] theorem toList_report (batch : Batch) (diagnostic : Diagnostic) :
    (batch.report diagnostic).toList = batch.toList ++ [diagnostic] := by
  simp [report, toList]

@[simp] theorem length_toList (batch : Batch) : batch.toList.length = batch.size :=
  Array.length_toList

end Batch

end KlangFront
