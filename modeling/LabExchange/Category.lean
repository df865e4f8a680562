import LabExchange.Json.Record

/-!
# Categories

The seven kinds of data that an entry can hold. The set is closed, and its order is the order in
which everything is listed. A collection with one item for every category is a `PerCategory`.
-/
namespace LabExchange

inductive Category where
  | matrices
  | arrays
  | scalars
  | functions
  | complex
  | datasets
  | vectors
  deriving DecidableEq, Repr

namespace Category

/-- Every category, in order. -/
def all : List Category := [matrices, arrays, scalars, functions, complex, datasets, vectors]

theorem mem_all (c : Category) : c ∈ all := by cases c <;> decide

/-- The name by which the tabs refer to the category. -/
def name : Category → String
  | matrices => "matrices"
  | arrays => "arrays"
  | scalars => "scalars"
  | functions => "functions"
  | complex => "complex"
  | datasets => "datasets"
  | vectors => "vectors"

/-- The noun for one piece of data of the category. -/
def singular : Category → String
  | matrices => "matrix"
  | arrays => "array"
  | scalars => "scalar"
  | functions => "function"
  | complex => "complex number"
  | datasets => "dataset"
  | vectors => "vector"

/-- The place of the category in the order. -/
def index (c : Category) : Nat := all.idxOf c

/-- The category of a name. -/
def ofName? (name : String) : Option Category := all.find? (·.name == name)

@[simp] theorem ofName?_name (c : Category) : ofName? c.name = some c := by cases c <;> rfl

theorem name_of_ofName? {text : String} {c : Category} (h : ofName? text = some c) :
    c.name = text := by
  simpa using List.find?_some h

def toJson (c : Category) : Json := .string c.name

def ofTree? {δ : Type} (t : Tree δ) : Option Category := t.name?.bind ofName?

end Category

/-- One item for every category. -/
structure PerCategory (α : Type) where
  matrices : α
  arrays : α
  scalars : α
  functions : α
  complex : α
  datasets : α
  vectors : α
  deriving DecidableEq, Repr

namespace PerCategory

variable {α β : Type}

def ofFn (f : Category → α) : PerCategory α :=
  ⟨f .matrices, f .arrays, f .scalars, f .functions, f .complex, f .datasets, f .vectors⟩

def get (p : PerCategory α) : Category → α
  | .matrices => p.matrices
  | .arrays => p.arrays
  | .scalars => p.scalars
  | .functions => p.functions
  | .complex => p.complex
  | .datasets => p.datasets
  | .vectors => p.vectors

/-- Replaces the item of one category. -/
def set (p : PerCategory α) (c : Category) (a : α) : PerCategory α :=
  match c with
  | .matrices => { p with matrices := a }
  | .arrays => { p with arrays := a }
  | .scalars => { p with scalars := a }
  | .functions => { p with functions := a }
  | .complex => { p with complex := a }
  | .datasets => { p with datasets := a }
  | .vectors => { p with vectors := a }

/-- The items in the order of their categories. -/
def toList (p : PerCategory α) : List α := Category.all.map p.get

@[simp] theorem get_ofFn (f : Category → α) (c : Category) : (ofFn f).get c = f c := by
  cases c <;> rfl

@[simp] theorem get_set (p : PerCategory α) (c d : Category) (a : α) :
    (p.set c a).get d = if d = c then a else p.get d := by cases c <;> cases d <;> rfl

theorem ext_get {p q : PerCategory α} (h : ∀ c, p.get c = q.get c) : p = q := by
  have h₁ := h .matrices; have h₂ := h .arrays; have h₃ := h .scalars
  have h₄ := h .functions; have h₅ := h .complex; have h₆ := h .datasets
  have h₇ := h .vectors
  cases p; cases q
  simp_all [get]

end PerCategory
end LabExchange
