import OntologyGuard.Diagnostic

namespace OntologyGuard

structure Report where
  subjects : Nat := 0
  diagnostics : List Diagnostic := []
  deriving DecidableEq, Inhabited

namespace Report

def conforms (r : Report) : Bool := r.diagnostics.isEmpty

def count (r : Report) (kind : Diagnostic.Kind) : Nat := r.diagnostics.countP (·.kind = kind)

def counts (r : Report) : List (Diagnostic.Kind × Nat) :=
  (Diagnostic.Kind.all.map fun kind ↦ (kind, r.count kind)).filter fun entry ↦ entry.2 ≠ 0

def hasAny (r : Report) (kinds : List Diagnostic.Kind) : Bool :=
  r.diagnostics.any fun d ↦ kinds.contains d.kind

def summary (r : Report) : String :=
  r.subjects.repr ++ " subjects, " ++
    if r.conforms then "no problems found"
    else ", ".intercalate (r.counts.map fun entry ↦ entry.2.repr ++ " " ++ entry.1.label)

def text (r : Report) (context : Context) : String :=
  String.join ((r.diagnostics.map (·.format context) ++ [r.summary]).map (· ++ "\n"))

end Report

end OntologyGuard
