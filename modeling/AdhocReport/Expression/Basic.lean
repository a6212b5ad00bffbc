import AdhocReport.Collection.Sorting
set_option autoImplicit false

/-!
# Expressions: the tree

A derived field computes a value from fields of the selected models.  This module holds the tree of
such an expression, the fields it mentions in reading order, and the references that follow from
them: the models, and for each model its fields.
-/

namespace AdhocReport

/-- A field of a model. -/
structure FieldRef where
  model : String
  field : String
  deriving DecidableEq, Repr, Inhabited

/-- A literal value. -/
inductive Literal where
  | int (n : Int)
  | float (x : Float)
  | text (s : String)
  | truth (b : Bool)
  deriving DecidableEq, Inhabited

/-- A binary operator. -/
inductive Operator where
  | add
  | sub
  | mul
  | div
  deriving DecidableEq, Repr

/-- A unary sign. -/
inductive Sign where
  | plus
  | minus
  deriving DecidableEq, Repr

/-- The functions an expression may call. -/
inductive Function where
  | abs
  | ceil
  | coalesce
  | floor
  | greatest
  | least
  | round
  deriving DecidableEq, Repr

/-- The written operator. -/
def Operator.symbol : Operator → String
  | .add => "+"
  | .sub => "-"
  | .mul => "*"
  | .div => "/"

/-- The operator written by a symbol. -/
def Operator.ofSymbol? : String → Option Operator
  | "+" => some .add
  | "-" => some .sub
  | "*" => some .mul
  | "/" => some .div
  | _ => none

theorem Operator.ofSymbol?_eq_some_iff {s : String} {op : Operator} :
    Operator.ofSymbol? s = some op ↔ op.symbol = s := by
  constructor
  · intro h
    unfold Operator.ofSymbol? at h
    split at h <;> cases h <;> rfl
  · rintro rfl
    cases op <;> rfl

/-- The written sign. -/
def Sign.symbol : Sign → String
  | .plus => "+"
  | .minus => "-"

/-- The sign written by a symbol. -/
def Sign.ofSymbol? : String → Option Sign
  | "+" => some .plus
  | "-" => some .minus
  | _ => none

theorem Sign.ofSymbol?_eq_some_iff {s : String} {sign : Sign} :
    Sign.ofSymbol? s = some sign ↔ sign.symbol = s := by
  constructor
  · intro h
    unfold Sign.ofSymbol? at h
    split at h <;> cases h <;> rfl
  · rintro rfl
    cases sign <;> rfl

/-- The name a function is called by. -/
def Function.name : Function → String
  | .abs => "abs"
  | .ceil => "ceil"
  | .coalesce => "coalesce"
  | .floor => "floor"
  | .greatest => "greatest"
  | .least => "least"
  | .round => "round"

/-- The function with a lower-case name. -/
def Function.ofName? : String → Option Function
  | "abs" => some .abs
  | "ceil" => some .ceil
  | "coalesce" => some .coalesce
  | "floor" => some .floor
  | "greatest" => some .greatest
  | "least" => some .least
  | "round" => some .round
  | _ => none

theorem Function.ofName?_eq_some_iff {s : String} {f : Function} :
    Function.ofName? s = some f ↔ f.name = s := by
  constructor
  · intro h
    unfold Function.ofName? at h
    split at h <;> cases h <;> rfl
  · rintro rfl
    cases f <;> rfl

/-- The tree of an expression. -/
inductive Expr where
  | column (ref : FieldRef)
  | literal (value : Literal)
  | binary (op : Operator) (left right : Expr)
  | unary (sign : Sign) (operand : Expr)
  | call (function : Function) (args : List Expr)
  deriving Inhabited

namespace Expr

mutual

/-- The columns of a tree from left to right, with repeats. -/
def columns : Expr → List FieldRef
  | .column ref => [ref]
  | .literal _ => []
  | .binary _ left right => columns left ++ columns right
  | .unary _ operand => columns operand
  | .call _ args => columnsOfArgs args
termination_by structural e => e

/-- The columns of an argument list from left to right. -/
def columnsOfArgs : List Expr → List FieldRef
  | [] => []
  | e :: rest => columns e ++ columnsOfArgs rest
termination_by structural args => args

end

/-- The models whose fields a tree mentions, in code point order. -/
def models (e : Expr) : List String := Collection.sortedSet (e.columns.map (·.model))

/-- For each mentioned model, in code point order, its mentioned fields in code point order. -/
def fieldsByModel (e : Expr) : List (String × List String) :=
  e.models.map fun m =>
    (m, Collection.sortedSet ((e.columns.filter fun c => c.model == m).map (·.field)))

theorem mem_models {e : Expr} {m : String} : m ∈ e.models ↔ ∃ ref ∈ e.columns, ref.model = m := by
  rw [models, Collection.mem_sortedSet, List.mem_map]

theorem map_fst_fieldsByModel (e : Expr) : e.fieldsByModel.map Prod.fst = e.models := by
  simp [fieldsByModel, Function.comp_def]

/-- The fields beside a model are those of its fields that the tree mentions. -/
theorem mem_of_fieldsByModel {e : Expr} {p : String × List String} (h : p ∈ e.fieldsByModel) {field : String} :
    field ∈ p.2 ↔ ⟨p.1, field⟩ ∈ e.columns := by
  obtain ⟨m, -, rfl⟩ := List.mem_map.mp h
  rw [Collection.mem_sortedSet, List.mem_map]
  constructor
  · rintro ⟨⟨model, _⟩, href, rfl⟩
    obtain ⟨hmem, hmodel⟩ := List.mem_filter.mp href
    obtain rfl : model = m := by simpa using hmodel
    exact hmem
  · intro hmem
    exact ⟨⟨m, field⟩, List.mem_filter.mpr ⟨hmem, by simp⟩, rfl⟩

end Expr

end AdhocReport
