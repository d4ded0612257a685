import SqlWorkflow.Link.Fault
import SqlWorkflow.Script

/-!
# Rendered values

Rendering a piece of SQL also finds references, meets faults and makes requests
to the script runtime. All these are noted beside the rendered value, in the
order in which they come up.
-/

namespace SqlWorkflow.Link

/-- A place that refers to a target, with what it says about the dependent
assertions. -/
structure Site where
  target : Target
  includeDependentAssertions : Option Bool
  deriving DecidableEq

structure Notes where
  sites : List Site
  faults : List Fault
  requests : List Script.Request
  deriving DecidableEq

namespace Notes

def empty : Notes := ⟨[], [], []⟩

/-- What came up first, then what came up later. -/
def append (first second : Notes) : Notes :=
  ⟨first.sites ++ second.sites, first.faults ++ second.faults,
    first.requests ++ second.requests⟩

instance : Append Notes := ⟨append⟩

@[simp] theorem sites_append (a b : Notes) :
    (a ++ b).sites = a.sites ++ b.sites := rfl

@[simp] theorem faults_append (a b : Notes) :
    (a ++ b).faults = a.faults ++ b.faults := rfl

@[simp] theorem requests_append (a b : Notes) :
    (a ++ b).requests = a.requests ++ b.requests := rfl

@[simp] theorem empty_append (a : Notes) : empty ++ a = a := rfl

@[simp] theorem append_empty (a : Notes) : a ++ empty = a := by
  show append a empty = a
  simp [append, empty]

theorem append_assoc (a b c : Notes) : a ++ b ++ c = a ++ (b ++ c) := by
  show append (append a b) c = append a (append b c)
  simp [append]

end Notes

/-- A value with what came up while it was rendered. -/
structure Rendered (α : Type) where
  value : α
  notes : Notes

namespace Rendered

variable {α β : Type}

def plain (value : α) : Rendered α := ⟨value, .empty⟩

/-- A value that stands in for one that could not be rendered. -/
def faulty (value : α) (fault : Fault) : Rendered α :=
  ⟨value, ⟨[], [fault], []⟩⟩

def map (f : α → β) (r : Rendered α) : Rendered β := ⟨f r.value, r.notes⟩

/-- Renders one thing, then another that depends on it. -/
def andThen (r : Rendered α) (f : α → Rendered β) : Rendered β :=
  ⟨(f r.value).value, r.notes ++ (f r.value).notes⟩

/-- Renders the members of a list, in order. -/
def forEach (f : α → Rendered β) : List α → Rendered (List β)
  | [] => plain []
  | a :: as => (f a).andThen fun b => (forEach f as).map (b :: ·)

end Rendered

end SqlWorkflow.Link
